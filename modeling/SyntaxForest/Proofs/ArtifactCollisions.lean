import Mathlib.Data.List.Induction
import SyntaxForest.Proofs.Batches
import SyntaxForest.Proofs.DirectoryWalks

/-! Sources that share an artifact.  The name of an artifact is the stem of its source,
whatever directory the source stands in and however its extension is written.  So the
artifacts of a batch are distinct exactly when the stems of the sources that were drawn
are; of the sources with one stem, it is the last whose rendering stays. -/

namespace SyntaxForest.Batch

open Artifact (ofPath Account)
open FileStore (WrittenAt)

variable {setting : Artifact.Setting} {store : FileStore} {source : Path} {paths : List Path}

/-! ## The sources that were drawn -/

/-- The sources of a batch that were drawn, in order. -/
def drawn (setting : Artifact.Setting) : FileStore → List Path → List Path
  | _, [] => []
  | store, source :: rest =>
    match (ofPath setting store source).result with
    | .ok _ => source :: drawn setting (ofPath setting store source).store rest
    | .error _ => drawn setting (ofPath setting store source).store rest

section drawn

variable {rest : List Path}

theorem drawn_cons_of_ok {artifact : Path}
    (h : (ofPath setting store source).result = .ok artifact) :
    drawn setting store (source :: rest) =
      source :: drawn setting (ofPath setting store source).store rest := by
  rw [drawn, h]

theorem drawn_cons_of_error {failure : Failure}
    (h : (ofPath setting store source).result = .error failure) :
    drawn setting store (source :: rest) =
      drawn setting (ofPath setting store source).store rest := by
  rw [drawn, h]

end drawn

theorem drawn_subset (setting : Artifact.Setting) (store : FileStore) (paths : List Path) :
    drawn setting store paths ⊆ paths := by
  induction paths generalizing store with
  | nil => exact List.Subset.refl _
  | cons source rest ih =>
    cases hresult : (ofPath setting store source).result with
    | ok artifact =>
      rw [drawn_cons_of_ok hresult]
      exact List.cons_subset_cons source (ih _)
    | error failure =>
      rw [drawn_cons_of_error hresult]
      exact List.subset_cons_of_subset source (ih _)

/-- A batch reports the artifacts of the sources that were drawn. -/
theorem generated_ofPaths (setting : Artifact.Setting) (store : FileStore) (paths : List Path) :
    (ofPaths setting store paths).generated =
      (drawn setting store paths).map setting.options.artifact := by
  induction paths generalizing store with
  | nil => rfl
  | cons source rest ih =>
    rw [ofPaths_cons, ih]
    cases hresult : (ofPath setting store source).result with
    | ok artifact =>
      have hartifact := Artifact.artifact_of_ofPath hresult
      rw [drawn_cons_of_ok hresult, List.map_cons, ← hartifact, generated?,
        Artifact.Outcome.account, hresult]
      rfl
    | error failure =>
      rw [drawn_cons_of_error hresult, generated?, Artifact.Outcome.account, hresult]
      rfl

theorem generated_nodup_iff (setting : Artifact.Setting) (store : FileStore)
    (paths : List Path) :
    (ofPaths setting store paths).generated.Nodup ↔
      ((drawn setting store paths).map Path.artifactStem).Nodup := by
  rw [generated_ofPaths, List.nodup_iff_pairwise_ne, List.nodup_iff_pairwise_ne, List.pairwise_map,
    List.pairwise_map]
  refine List.Pairwise.iff fun source other => ?_
  exact not_congr setting.options.artifact_eq_iff

/-! ## What the artifacts hold in the end -/

/-- A batch of texts writes the artifacts of the sources that were drawn at most. -/
theorem writtenAt_drawn (h : setting.options.WritesText) (hlinks : store.NoLinks)
    (paths : List Path) :
    WrittenAt
      (fun location => ∃ source ∈ drawn setting store paths,
        store.locate .create (setting.options.artifact source) = .ok location)
      store (ofPaths setting store paths).store := by
  induction paths generalizing store with
  | nil => exact .refl _ store
  | cons source rest ih =>
    rw [store_ofPaths_cons]
    rcases Artifact.ofPath_cases h store source with
      ⟨failure, hresult, hstore⟩ | ⟨_, _, -, -, hresult, hwrite⟩
    · rw [drawn_cons_of_error hresult, hstore]
      exact ih hlinks
    · have hstep := FileStore.writtenAt_of_write hwrite
      rw [drawn_cons_of_ok hresult]
      refine (hstep.mono ?_).trans ((ih (hstep.noLinks hlinks)).mono ?_)
      · intro location hlocate
        exact ⟨source, List.mem_cons_self, hlocate⟩
      · rintro location ⟨other, hother, hlocate⟩
        exact ⟨other, List.mem_cons_of_mem source hother,
          (hstep.locate_eq_ok_iff hlinks).mp hlocate⟩

/-- In the end, the artifact of a source holds the rendering of that source. -/
def HoldsRendering (setting : Artifact.Setting) (store : FileStore) (paths : List Path)
    (source : Path) : Prop :=
  ∃ content text, store.read source = .ok content ∧
    Artifact.rendering setting content = .ok text ∧
    (ofPaths setting store paths).store.content? (setting.options.artifact source) =
      some text.toUTF8

/-- Of the sources that were drawn with one stem, the rendering of the last stays. -/
theorem holdsRendering_of_last (h : setting.options.WritesText) (hlinks : store.NoLinks)
    (hsingle : store.SingleNames)
    (hsources : ∀ source ∈ paths, source.hasExtension sourceExtensions = true)
    {before after : List Path}
    (hdrawn : drawn setting store paths = before ++ source :: after)
    (hlast : ∀ other ∈ after, other.artifactStem ≠ source.artifactStem) :
    HoldsRendering setting store paths source := by
  rw [HoldsRendering]
  induction paths generalizing store before with
  | nil => cases before <;> cases hdrawn
  | cons first rest ih =>
    have hrest : ∀ source ∈ rest, source.hasExtension sourceExtensions = true :=
      fun other hother => hsources other (List.mem_cons_of_mem first hother)
    rw [store_ofPaths_cons]
    rcases Artifact.ofPath_cases h store first with
      ⟨failure, hresult, hstore⟩ | ⟨content, text, hread, hrendering, hresult, hwrite⟩
    · rw [drawn_cons_of_error hresult, hstore] at hdrawn
      rw [hstore]
      exact ih hlinks hsingle hrest hdrawn
    · have hstep := FileStore.writtenAt_of_write hwrite
      have hlinks' := hstep.noLinks hlinks
      have hsingle' := hstep.singleNames hsingle
      rw [drawn_cons_of_ok hresult] at hdrawn
      cases before with
      | nil =>
        -- the source itself was drawn: nothing drawn after it has its artifact
        obtain ⟨rfl, hafter⟩ := List.cons.inj hdrawn
        refine ⟨content, text, hread, hrendering, ?_⟩
        refine ((writtenAt_drawn h hlinks' rest).content?_eq_some_iff hlinks' hsingle' ?_).mpr
          (FileStore.content?_of_write hlinks hwrite)
        rintro location hlocate ⟨other, hother, hlocate'⟩
        exact hlast other (hafter ▸ hother)
          (setting.options.artifactStem_eq_of_locate hlinks' hlocate' hlocate)
      | cons other before =>
        -- another was drawn: its artifact is not called as the source is
        obtain ⟨-, hdrawn⟩ := List.cons.inj hdrawn
        obtain ⟨content, text, hread, hrendering, hheld⟩ := ih hlinks' hsingle' hrest hdrawn
        refine ⟨content, text, ?_, hrendering, hheld⟩
        have hmem : source ∈ rest := drawn_subset setting _ rest (by rw [hdrawn]; simp)
        refine (hstep.read_eq_ok_iff hlinks hsingle fun location hlocate hlocate' => ?_).mp hread
        exact setting.options.locate_artifact_ne_of_hasExtension hlinks (hrest source hmem)
          hlocate hlocate'

theorem holdsRendering_of_nodup (h : setting.options.WritesText) (hlinks : store.NoLinks)
    (hsingle : store.SingleNames)
    (hsources : ∀ source ∈ paths, source.hasExtension sourceExtensions = true)
    (hstems : ((drawn setting store paths).map Path.artifactStem).Nodup)
    (hsource : source ∈ drawn setting store paths) : HoldsRendering setting store paths source := by
  obtain ⟨before, after, hdrawn⟩ := List.append_of_mem hsource
  refine holdsRendering_of_last h hlinks hsingle hsources hdrawn fun other hother heq => ?_
  rw [hdrawn, List.map_append, List.map_cons] at hstems
  have hcons := (List.nodup_append.mp hstems).2.1
  exact (List.nodup_cons.mp hcons).1 (heq ▸ List.mem_map_of_mem hother)

theorem store_ofPaths_append (before after : List Path) :
    (ofPaths setting store (before ++ after)).store =
      (ofPaths setting (ofPaths setting store before).store after).store := by
  rw [ofPaths, List.foldl_append, foldl_step]
  rfl

/-- Whatever the format, an artifact stays as it was made when no later source has the
stem of its own. -/
theorem read_artifact_of_unshared
    (h : setting.options.WritesText ∨ setting.program.WritesOutputOnly) (hlinks : store.NoLinks)
    (hsingle : store.SingleNames) {before after : List Path}
    (hpaths : paths = before ++ source :: after)
    (hlast : ∀ other ∈ after, other.artifactStem ≠ source.artifactStem) {content : ByteArray} :
    (ofPaths setting store paths).store.read (setting.options.artifact source) = .ok content ↔
      (ofPaths setting store (before ++ [source])).store.read (setting.options.artifact source) =
        .ok content := by
  have hmade := writtenAt_ofPaths h hlinks (before ++ [source])
  have hlinks' := hmade.noLinks hlinks
  rw [hpaths, List.append_cons, store_ofPaths_append]
  refine (writtenAt_ofPaths h hlinks' after).read_eq_ok_iff hlinks' (hmade.singleNames hsingle) ?_
  rintro location hlocate ⟨other, hother, hlocate'⟩
  exact hlast other hother (setting.options.artifactStem_eq_of_locate hlinks' hlocate' hlocate)

/-! ## Sources that were found in a directory -/

theorem hasExtension_of_mem_walk {walker : Discovery.Walker} {directory : Path}
    {extensions : List String} (h : Discovery.walk walker store directory extensions = .ok paths) :
    ∀ source ∈ paths, source.hasExtension extensions = true := by
  obtain ⟨met, -, rfl⟩ := Discovery.walk_eq_ok_iff.mp h
  intro source hsource
  rcases Discovery.of_mem_foldl_take (List.mem_mergeSort.mp hsource) with hnone | htaken
  · cases hnone
  · exact htaken.2

/-- **Artifacts are told apart by stems alone.**  Of the sources found in a directory,
whatever is drawn in whatever format, the artifacts that are reported are distinct
exactly when no two of the sources drawn have one stem.  Where no file has two names, each
artifact then holds the rendering of its own source in the end; otherwise the last source
with a stem is the one whose rendering is found.  Images stay as they were made when no
later source has the same stem. -/
theorem artifacts_distinct_iff (setting : Artifact.Setting) {walker : Discovery.Walker}
    {directory : Path}
    (hwalk : Discovery.walk walker store directory sourceExtensions = .ok paths) :
    let batch := ofPaths setting store paths
    let sources := drawn setting store paths
    batch.generated = sources.map setting.options.artifact ∧
    (batch.generated.Nodup ↔ (sources.map Path.artifactStem).Nodup) ∧
    (store.NoLinks → store.SingleNames → setting.options.WritesText →
      (batch.generated.Nodup → ∀ source ∈ sources, HoldsRendering setting store paths source) ∧
      ∀ before source after, sources = before ++ source :: after →
        (∀ other ∈ after, other.artifactStem ≠ source.artifactStem) →
          HoldsRendering setting store paths source) ∧
    (store.NoLinks → store.SingleNames → setting.program.WritesOutputOnly →
      ∀ before source after, paths = before ++ source :: after →
        (∀ other ∈ after, other.artifactStem ≠ source.artifactStem) → ∀ content,
          batch.store.read (setting.options.artifact source) = .ok content ↔
            (ofPaths setting store (before ++ [source])).store.read
              (setting.options.artifact source) = .ok content) := by
  have hsources := hasExtension_of_mem_walk hwalk
  refine ⟨generated_ofPaths setting store paths, generated_nodup_iff setting store paths, ?_, ?_⟩
  · intro hlinks hsingle htext
    refine ⟨fun hnodup source hsource => ?_, fun before source after hdrawn hlast => ?_⟩
    · exact holdsRendering_of_nodup htext hlinks hsingle hsources
        ((generated_nodup_iff setting store paths).mp hnodup) hsource
    · exact holdsRendering_of_last htext hlinks hsingle hsources hdrawn hlast
  · intro hlinks hsingle hprogram before source after hpaths hlast content
    exact read_artifact_of_unshared (.inr hprogram) hlinks hsingle hpaths hlast

/-- A class and an empty source in two directories, and a directory for artifacts. -/
def classAndEmpty (first second : String) : FileStore where
  entries :=
    [(["a"], .directory true), (["a", first], .file 0), (["b"], .directory true),
     (["b", second], .file 1), (["out"], .directory true)]
  files := [(0, { content := "class A \x7b int x; \x7d".toUTF8 }), (1, {})]

theorem artifacts_distinct_iff_classAndEmpty :
    Discovery.walk Discovery.inStoreOrder (classAndEmpty "X.java" "Y.JAVA") ⟨"."⟩ sourceExtensions =
        .ok [⟨"./a/X.java"⟩, ⟨"./b/Y.JAVA"⟩] ∧
      (ofPaths (graphsInto "out") (classAndEmpty "X.java" "Y.JAVA")
        [⟨"./a/X.java"⟩, ⟨"./b/Y.JAVA"⟩]).generated.Nodup ∧
      HoldsRendering (graphsInto "out") (classAndEmpty "X.java" "Y.JAVA")
        [⟨"./a/X.java"⟩, ⟨"./b/Y.JAVA"⟩] ⟨"./a/X.java"⟩ := by
  have hwalk : Discovery.walk Discovery.inStoreOrder (classAndEmpty "X.java" "Y.JAVA") ⟨"."⟩
      sourceExtensions = .ok [⟨"./a/X.java"⟩, ⟨"./b/Y.JAVA"⟩] :=
    Discovery.walk_of_taken _ (by decide +kernel) (.refl _) (by decide)
  have hdrawn : drawn (graphsInto "out") (classAndEmpty "X.java" "Y.JAVA")
      [⟨"./a/X.java"⟩, ⟨"./b/Y.JAVA"⟩] = [⟨"./a/X.java"⟩, ⟨"./b/Y.JAVA"⟩] := by
    decide +kernel
  have hlinks : (classAndEmpty "X.java" "Y.JAVA").NoLinks :=
    FileStore.noLinks_of_entries (by decide)
  have hsingle : (classAndEmpty "X.java" "Y.JAVA").SingleNames :=
    FileStore.singleNames_of_entries (by decide)
  obtain ⟨-, hnodup, htexts, -⟩ := artifacts_distinct_iff (graphsInto "out") hwalk
  have hdistinct := hnodup.mpr (by rw [hdrawn]; decide)
  refine ⟨hwalk, hdistinct, (htexts hlinks hsingle (.inr rfl)).1 hdistinct _ ?_⟩
  rw [hdrawn]
  exact List.mem_cons_self

/-- Sources of one name in two directories are told to have one artifact, and the first
of them is not what it holds. -/
theorem artifacts_not_distinct :
    Discovery.walk Discovery.inStoreOrder (classAndEmpty "X.java" "X.java") ⟨"."⟩ sourceExtensions =
        .ok [⟨"./a/X.java"⟩, ⟨"./b/X.java"⟩] ∧
      (ofPaths (graphsInto "out") (classAndEmpty "X.java" "X.java")
        [⟨"./a/X.java"⟩, ⟨"./b/X.java"⟩]).generated = [⟨"out/X.dot"⟩, ⟨"out/X.dot"⟩] ∧
      ¬ HoldsRendering (graphsInto "out") (classAndEmpty "X.java" "X.java")
        [⟨"./a/X.java"⟩, ⟨"./b/X.java"⟩] ⟨"./a/X.java"⟩ := by
  refine ⟨Discovery.walk_of_taken _ (by decide +kernel) (.refl _) (by decide),
    by decide +kernel, ?_⟩
  rintro ⟨content, text, hread, hrendering, hheld⟩
  have hcontent : (classAndEmpty "X.java" "X.java").read ⟨"./a/X.java"⟩ =
      .ok "class A \x7b int x; \x7d".toUTF8 := by
    decide +kernel
  rw [hcontent] at hread
  obtain rfl := Except.ok.inj hread
  have hother : (ofPaths (graphsInto "out") (classAndEmpty "X.java" "X.java")
      [⟨"./a/X.java"⟩, ⟨"./b/X.java"⟩]).store.content?
        ((graphsInto "out").options.artifact ⟨"./a/X.java"⟩) ≠
      (Artifact.rendering (graphsInto "out") "class A \x7b int x; \x7d".toUTF8).toOption.map
        String.toUTF8 := by
    decide +kernel
  rw [hheld, hrendering] at hother
  exact hother rfl

end SyntaxForest.Batch
