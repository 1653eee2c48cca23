import Mathlib.Data.List.Sort
import SyntaxForest.CommandLine.Options
import SyntaxForest.Proofs.StoreTrees

/-! Walks through directories.  Whoever walks, and in whatever order the entries of a
directory are met, the same files are found in the same order: those with the extension
that is looked for, strictly in the order of their paths.  A file that a walk keeps is
one that may also be given by its path. -/

namespace SyntaxForest

namespace Discovery

variable {extensions : List String} {found : List Path} {met : List Encounter}

/-! ## What is taken up of what is met -/

/-- An encounter that is taken up is a file with one of the extensions, under a path
that is new. -/
theorem take_cases (extensions : List String) (found : List Path) (encounter : Encounter) :
    take extensions found encounter = found ∧
        ((∃ id, encounter.2 = .file id) → encounter.1.hasExtension extensions = true →
          ∃ path ∈ found, path.components = encounter.1.components) ∨
      take extensions found encounter = found ++ [encounter.1] ∧
        (∃ id, encounter.2 = .file id) ∧ encounter.1.hasExtension extensions = true ∧
        ∀ path ∈ found, path.components ≠ encounter.1.components := by
  obtain ⟨path, entry⟩ := encounter
  cases entry with
  | file id =>
    rw [take]
    by_cases hextension : path.hasExtension extensions = true
    · by_cases hany : (found.any fun other => other.components = path.components) = true
      · refine .inl ⟨?_, fun _ _ => ?_⟩
        · simp [hany]
        · simpa using hany
      · refine .inr ⟨?_, ⟨id, rfl⟩, hextension, ?_⟩
        · simp [hany, hextension]
        · simpa using hany
    · refine .inl ⟨?_, fun _ hextension' => absurd hextension' hextension⟩
      simp [hextension]
  | directory isWritable => exact .inl ⟨rfl, fun ⟨_, hfile⟩ => by cases hfile⟩
  | link target => exact .inl ⟨rfl, fun ⟨_, hfile⟩ => by cases hfile⟩

theorem pairwise_foldl_take (met : List Encounter)
    (h : found.Pairwise fun a b => a.components ≠ b.components) :
    (met.foldl (take extensions) found).Pairwise fun a b => a.components ≠ b.components := by
  induction met generalizing found with
  | nil => exact h
  | cons encounter met ih =>
    rw [List.foldl_cons]
    apply ih
    rcases take_cases extensions found encounter with ⟨hsame, -⟩ | ⟨hmore, -, -, hnew⟩
    · rw [hsame]
      exact h
    · rw [hmore, List.pairwise_append]
      refine ⟨h, List.pairwise_singleton _ _, ?_⟩
      intro path hpath other hother
      rw [List.mem_singleton.mp hother]
      exact hnew path hpath

/-- Only files with one of the extensions are taken up. -/
theorem of_mem_foldl_take {path : Path} (h : path ∈ met.foldl (take extensions) found) :
    path ∈ found ∨
      (∃ id, (path, .file id) ∈ met) ∧ path.hasExtension extensions = true := by
  induction met generalizing found with
  | nil => exact .inl h
  | cons encounter met ih =>
    rw [List.foldl_cons] at h
    rcases ih h with hfound | ⟨⟨id, hmem⟩, hextension⟩
    · rcases take_cases extensions found encounter with ⟨hsame, -⟩ | ⟨hmore, hfile, hextension, -⟩
      · rw [hsame] at hfound
        exact .inl hfound
      · rw [hmore, List.mem_append, List.mem_singleton] at hfound
        rcases hfound with hold | rfl
        · exact .inl hold
        · obtain ⟨id, hid⟩ := hfile
          exact .inr ⟨⟨id, List.mem_cons.mpr (.inl (Prod.ext rfl hid.symm))⟩, hextension⟩
    · exact .inr ⟨⟨id, List.mem_cons_of_mem _ hmem⟩, hextension⟩

theorem mem_foldl_take_of_mem {path : Path} (h : path ∈ found) :
    path ∈ met.foldl (take extensions) found := by
  induction met generalizing found with
  | nil => exact h
  | cons encounter met ih =>
    rw [List.foldl_cons]
    apply ih
    rcases take_cases extensions found encounter with ⟨hsame, -⟩ | ⟨hmore, -⟩
    · rw [hsame]
      exact h
    · rw [hmore]
      exact List.mem_append_left _ h

/-- A file with one of the extensions is taken up, if need be under another spelling of
its path. -/
theorem exists_mem_foldl_take {path : Path} {id : Nat}
    (h : (path, .file id) ∈ met) (hextension : path.hasExtension extensions = true)
    (found : List Path) :
    ∃ other ∈ met.foldl (take extensions) found, other.components = path.components := by
  induction met generalizing found with
  | nil => cases h
  | cons encounter met ih =>
    rw [List.foldl_cons]
    rcases List.mem_cons.mp h with rfl | hlater
    · rcases take_cases extensions found (path, .file id) with ⟨hsame, hold⟩ | ⟨hmore, -⟩
      · obtain ⟨other, hother, hcomponents⟩ := hold ⟨id, rfl⟩ hextension
        refine ⟨other, mem_foldl_take_of_mem ?_, hcomponents⟩
        rw [hsame]
        exact hother
      · refine ⟨path, mem_foldl_take_of_mem ?_, rfl⟩
        rw [hmore]
        exact List.mem_concat_self
    · exact ih hlater _

/-- **What is selected is strictly sorted**, whatever was met and how often. -/
theorem select_pairwise (extensions : List String) (met : List Encounter) :
    (select extensions met).Pairwise Path.Before := by
  have hsorted : (select extensions met).Pairwise fun a b => a.le b = true := by
    rw [select]
    apply List.pairwise_mergeSort
    · intro a b c hab hbc
      exact Path.le_trans hab hbc
    · exact Path.le_total
  have hdistinct : (select extensions met).Pairwise fun a b => a.components ≠ b.components := by
    rw [select]
    apply List.Pairwise.perm (pairwise_foldl_take met .nil) (List.mergeSort_perm _ _).symm
    intro a b hne
    exact hne.symm
  refine (hsorted.and hdistinct).imp ?_
  rintro a b ⟨hle, hne⟩
  exact Path.before_of_le hle hne

/-- What is selected where no two paths that were met are two spellings of one. -/
theorem mem_select_iff
    (h : ∀ a ∈ met, ∀ b ∈ met, a.1.components = b.1.components → a.1 = b.1) {path : Path} :
    path ∈ select extensions met ↔
      (∃ id, (path, .file id) ∈ met) ∧ path.hasExtension extensions = true := by
  rw [select, List.mem_mergeSort]
  constructor
  · intro hmem
    rcases of_mem_foldl_take hmem with hnone | htaken
    · cases hnone
    · exact htaken
  · rintro ⟨⟨id, hmem⟩, hextension⟩
    obtain ⟨other, hother, hcomponents⟩ := exists_mem_foldl_take hmem hextension []
    rcases of_mem_foldl_take hother with hnone | ⟨⟨id', hmem'⟩, -⟩
    · cases hnone
    · obtain rfl : other = path := h _ hmem' _ hmem hcomponents
      exact hother

theorem walk_eq_ok_iff {walker : Walker} {store : FileStore} {directory : Path} :
    walk walker store directory extensions = .ok found ↔
      ∃ met, walker store directory = .ok met ∧ found = select extensions met := by
  rw [walk]
  cases walker store directory with
  | error failed => simp
  | ok met => simp [eq_comm]

/-- A walk ends with what was taken up, in order. -/
theorem walk_of_taken {walker : Walker} {store : FileStore} {directory : Path}
    (taken : List Path)
    (h : (walker store directory).map (List.foldl (take extensions) []) = .ok taken)
    (hperm : taken.Perm found) (hsorted : found.Pairwise Path.Before) :
    walk walker store directory extensions = .ok found := by
  cases hmet : walker store directory with
  | error failed =>
    rw [hmet] at h
    cases h
  | ok met =>
    rw [hmet] at h
    refine walk_eq_ok_iff.mpr ⟨met, hmet, ?_⟩
    apply List.Perm.eq_of_pairwise' hsorted (select_pairwise extensions met)
    rw [select, Except.ok.inj h]
    exact hperm.symm.trans (List.mergeSort_perm _ _).symm

/-! ## What is met in a tree -/

section encounters

variable {store : FileStore} {directory : Path} {location : Location}

theorem mem_inside_iff (h : store.IsTree) {path : Path} {entry : FileStore.Entry} :
    (path, entry) ∈ inside store directory location ↔
      ∃ names, names ≠ [] ∧ store.get? (location ++ names) = some entry ∧
        path = below directory names := by
  rw [inside, List.mem_filterMap]
  constructor
  · rintro ⟨⟨other, stored⟩, hmem, hsome⟩
    split at hsome
    · rename_i hbelow
      rw [Bool.and_eq_true, List.isPrefixOf_iff_prefix, decide_eq_true_iff] at hbelow
      obtain ⟨⟨names, rfl⟩, hlength⟩ := hbelow
      obtain ⟨hpath, rfl⟩ := Prod.mk.inj (Option.some.inj hsome)
      have hne : names ≠ [] := by
        rintro rfl
        simp at hlength
      refine ⟨names, hne, ?_, ?_⟩
      · exact (h.get?_eq_some_iff (List.append_ne_nil_of_right_ne_nil _ hne)).mpr hmem
      · rw [← hpath, List.drop_left]
    · cases hsome
  · rintro ⟨names, hne, hget, rfl⟩
    have hmem := (h.get?_eq_some_iff (List.append_ne_nil_of_right_ne_nil _ hne)).mp hget
    refine ⟨(location ++ names, entry), hmem, ?_⟩
    rw [if_pos, List.drop_left]
    rw [Bool.and_eq_true, List.isPrefixOf_iff_prefix, decide_eq_true_iff]
    refine ⟨List.prefix_append _ _, ?_⟩
    rw [List.length_append]
    have hpositive := List.length_pos_iff.mpr hne
    omega

/-- What is met is what stands at the location and below it. -/
theorem mem_encounters_iff (h : store.IsTree) {path : Path} {entry : FileStore.Entry} :
    (path, entry) ∈ encounters store directory location ↔
      ∃ names, store.get? (location ++ names) = some entry ∧ path = below directory names := by
  have hown : (path, entry) ∈ ((store.get? location).map (directory, ·)).toList ↔
      store.get? location = some entry ∧ path = directory := by
    rw [Option.mem_toList, Option.map_eq_some_iff]
    constructor
    · rintro ⟨stored, hget, hsame⟩
      obtain ⟨rfl, rfl⟩ := Prod.mk.inj hsame
      exact ⟨hget, rfl⟩
    · rintro ⟨hget, rfl⟩
      exact ⟨entry, hget, rfl⟩
  rw [encounters, List.mem_append, hown, mem_inside_iff h]
  constructor
  · rintro (⟨hget, rfl⟩ | ⟨names, -, hget, rfl⟩)
    · exact ⟨[], by rw [List.append_nil, hget], rfl⟩
    · exact ⟨names, hget, rfl⟩
  · rintro ⟨names, hget, rfl⟩
    by_cases hnil : names = []
    · subst hnil
      rw [List.append_nil] at hget
      exact .inl ⟨hget, rfl⟩
    · exact .inr ⟨names, hnil, hget, rfl⟩

/-- In a tree no two paths that are met are two spellings of one. -/
theorem eq_of_components_eq (h : store.IsTree) :
    ∀ a ∈ encounters store directory location, ∀ b ∈ encounters store directory location,
      a.1.components = b.1.components → a.1 = b.1 := by
  intro a ha b hb heq
  obtain ⟨names, hget, hpath⟩ := (mem_encounters_iff h).mp ha
  obtain ⟨names', hget', hpath'⟩ := (mem_encounters_iff h).mp hb
  rw [hpath, hpath'] at heq ⊢
  have hnames : names = names' :=
    below_injective (fun _ hname => h.isName_of_get? hget (List.mem_append_right _ hname))
      (fun _ hname => h.isName_of_get? hget' (List.mem_append_right _ hname)) heq
  rw [hnames]

end encounters

end Discovery

/-! ## Names of sources -/

/-- A name with a stem, a point and the letters `java`, each in either case. -/
def IsSourceName (name : String) : Prop :=
  ∃ stem extension, name = stem ++ "." ++ extension ∧ stem ≠ "" ∧
    extension.toList.map Char.toLower = ['j', 'a', 'v', 'a']

theorem Path.hasExtension_sourceExtensions_iff {path : Path} :
    path.hasExtension sourceExtensions = true ↔
      ∃ extension, path.extension? = some extension ∧
        extension.toList.map Char.toLower = ['j', 'a', 'v', 'a'] := by
  rw [hasExtension]
  cases path.extension? with
  | none => simp
  | some extension => simp [sourceExtensions, sameIgnoringCase, eq_comm]

/-- A name of a source is one that ends with the extension of sources. -/
theorem isSourceName_iff {name : String} (h : Path.IsName name) :
    IsSourceName name ↔ (Path.mk name).hasExtension sourceExtensions = true := by
  rw [Path.hasExtension_sourceExtensions_iff, Path.extension?, Path.fileName?_mk h,
    Option.bind_some]
  constructor
  · rintro ⟨stem, extension, rfl, hstem, hletters⟩
    have hpoint : '.' ∉ extension.toList := by
      intro hmem
      have hlower := List.mem_map_of_mem (f := Char.toLower) hmem
      rw [hletters] at hlower
      exact absurd hlower (by decide)
    exact ⟨extension, by rw [Path.cutName_append hstem hpoint], hletters⟩
  · rintro ⟨extension, hcut, hletters⟩
    rcases Path.cutName_cases name with hwhole | ⟨stem, other, hparts, hname, hstem⟩
    · rw [hwhole] at hcut
      cases hcut
    · rw [hparts] at hcut
      obtain rfl := Option.some.inj hcut
      exact ⟨stem, other, hname, hstem, hletters⟩

theorem Path.sameIgnoringCase_comm (a b : String) :
    sameIgnoringCase a b = sameIgnoringCase b a :=
  decide_eq_decide.mpr eq_comm

namespace Options

theorem checkInput_file_eq_ok_iff {store : FileStore} {path : Path} :
    checkInput store (.file path) = .ok () ↔
      store.isFile path = true ∧ isJavaFile path = true := by
  rw [checkInput]
  cases store.isFile path with
  | false => simp
  | true => cases isJavaFile path <;> simp

/-- **The tests of extensions agree**: a file that a walk keeps is one that may be given,
and that has an extension of sources. -/
theorem keeps_iff_accepts {store : FileStore} {path : Path} (h : store.isFile path = true) :
    path.hasExtension sourceExtensions = true ↔
      checkInput store (.file path) = .ok () ∧
        ∃ extension, path.extension? = some extension ∧ isSourceExtension extension = true := by
  rw [checkInput_file_eq_ok_iff, and_iff_right h, Path.hasExtension, isJavaFile]
  cases path.extension? with
  | none => simp
  | some extension =>
    have hone (wanted : String → Bool) : sourceExtensions.any wanted = wanted "java" :=
      Bool.or_false _
    simp only [isSourceExtension, hone, Option.some.injEq, exists_eq_left',
      Path.sameIgnoringCase_comm extension "java", and_self]

end Options

/-! ## Walks -/

namespace Discovery

variable {store : FileStore} {directory : Path} {location : Location}

/-- The walker meets a directory and everything below it, each entry once, in whatever
order. -/
def Yields (walker : Walker) (store : FileStore) (directory : Path) (location : Location) : Prop :=
  ∃ met, walker store directory = .ok met ∧ met.Perm (encounters store directory location)

/-- What is selected in a tree: the files that are called as sources are. -/
theorem mem_select_encounters_iff (h : store.IsTree) (hdirectory : store.HasDirectory location)
    {path : Path} {met : List Encounter}
    (hmet : met.Perm (encounters store directory location)) :
    path ∈ select sourceExtensions met ↔
      ∃ names name id, store.get? (location ++ (names ++ [name])) = some (.file id) ∧
        path = below directory (names ++ [name]) ∧ IsSourceName name := by
  have hdistinct : ∀ a ∈ met, ∀ b ∈ met, a.1.components = b.1.components → a.1 = b.1 :=
    fun a ha b hb => eq_of_components_eq h a (hmet.mem_iff.mp ha) b (hmet.mem_iff.mp hb)
  have hkeeps {names : List String} {name : String} {entry : FileStore.Entry}
      (hget : store.get? (location ++ (names ++ [name])) = some entry) :
      (below directory (names ++ [name])).hasExtension sourceExtensions = true ↔
        IsSourceName name := by
    have hname : Path.IsName name := h.isName_of_get? hget (by simp)
    rw [Path.hasExtension_of_fileName? (fileName?_below hname directory names),
      isSourceName_iff hname]
  rw [mem_select_iff hdistinct]
  constructor
  · rintro ⟨⟨id, hmem⟩, hextension⟩
    obtain ⟨names, hget, rfl⟩ := (mem_encounters_iff h).mp (hmet.mem_iff.mp hmem)
    -- the walk's own entry is a directory, so what is selected stands below it
    have hne : names ≠ [] := by
      rintro rfl
      obtain ⟨isWritable, hown⟩ := hdirectory
      rw [List.append_nil, hown] at hget
      cases hget
    obtain ⟨early, last, hnames⟩ := (List.eq_nil_or_concat names).resolve_left hne
    rw [List.concat_eq_append] at hnames
    rw [hnames] at hget hextension
    exact ⟨early, last, id, hget, by rw [hnames], (hkeeps hget).mp hextension⟩
  · rintro ⟨names, name, id, hget, rfl, hname⟩
    refine ⟨⟨id, hmet.mem_iff.mpr ?_⟩, (hkeeps hget).mpr hname⟩
    exact (mem_encounters_iff h).mpr ⟨_, hget, rfl⟩

/-- A walk in the order of the store meets everything, unless a directory cannot be
entered. -/
theorem yields_inStoreOrder {isWritable : Bool}
    (hfind : store.find directory = .ok (location, .directory isWritable))
    (hname : directory.components ≠ [.name "-"])
    (henters : ∀ encounter ∈ encounters store directory location, isBarred encounter = false) :
    Yields inStoreOrder store directory location := by
  have hnone : (encounters store directory location).find? isBarred = none := by
    rw [List.find?_eq_none]
    intro encounter hencounter
    rw [henters encounter hencounter]
    exact Bool.false_ne_true
  refine ⟨encounters store directory location, ?_, .refl _⟩
  rw [inStoreOrder, if_neg hname, hfind]
  dsimp only
  rw [hnone]

/-- **A walk finds the sources of a tree, in one order.**  Whoever walks a directory of a
tree and meets each entry once, in whatever order, finds the same list; the walk in the
order of the store is one such.  The list holds exactly the files at any depth that are
called as sources are, each once, and strictly in the order of paths.  And a path that
leads to a file is kept by the walk exactly when it may be given as input and has an
extension of sources; the files that were found are among these, but for those whose
path is too long to be followed. -/
theorem walk_is_canonical (h : store.IsTree) {isWritable : Bool}
    (hfind : store.find directory = .ok (location, .directory isWritable)) :
    ∃ found : List Path,
      (∀ walker, Yields walker store directory location →
        walk walker store directory sourceExtensions = .ok found) ∧
      (directory.components ≠ [.name "-"] →
        (∀ encounter ∈ encounters store directory location, isBarred encounter = false) →
          walk inStoreOrder store directory sourceExtensions = .ok found) ∧
      (∀ path, path ∈ found ↔
        ∃ names name id, store.get? (location ++ (names ++ [name])) = some (.file id) ∧
          path = below directory (names ++ [name]) ∧ IsSourceName name) ∧
      found.Nodup ∧ found.Pairwise Path.Before ∧
      (∀ path, store.isFile path = true →
        (path.hasExtension sourceExtensions = true ↔
          Options.checkInput store (.file path) = .ok () ∧
            ∃ extension, path.extension? = some extension ∧
              isSourceExtension extension = true)) ∧
      (∀ names id, store.get? (location ++ names) = some (.file id) →
        (below directory names).text.utf8ByteSize ≤ FileStore.pathLimit →
          store.isFile (below directory names) = true) := by
  have hdirectory : store.HasDirectory location :=
    ⟨isWritable, (FileStore.find_eq_ok_iff.mp hfind).2⟩
  have hsame {met : List Encounter} (hmet : met.Perm (encounters store directory location)) :
      select sourceExtensions met =
        select sourceExtensions (encounters store directory location) := by
    apply List.Pairwise.eq_of_mem_iff (select_pairwise _ _) (select_pairwise _ _)
    intro path
    rw [mem_select_encounters_iff h hdirectory hmet,
      mem_select_encounters_iff h hdirectory (.refl _)]
  have hany : ∀ walker, Yields walker store directory location →
      walk walker store directory sourceExtensions =
        .ok (select sourceExtensions (encounters store directory location)) := by
    rintro walker ⟨met, hwalker, hmet⟩
    exact walk_eq_ok_iff.mpr ⟨met, hwalker, (hsame hmet).symm⟩
  have hsorted := select_pairwise sourceExtensions (encounters store directory location)
  refine ⟨_, hany, ?_, ?_, ?_, hsorted, ?_, ?_⟩
  · intro hname henters
    exact hany inStoreOrder (yields_inStoreOrder hfind hname henters)
  · intro path
    exact mem_select_encounters_iff h hdirectory (.refl _)
  · exact hsorted.nodup
  · intro path hpath
    exact Options.keeps_iff_accepts hpath
  · intro names id hget hsize
    rw [FileStore.isFile, h.find_below hfind hget hsize]

/-- A folder with sources under hidden, upper case and nested names, and with others
that are called alike and are none. -/
def mixedFolder : FileStore where
  entries :=
    [(["a.java"], .file 0), (["a"], .directory true), (["a", "b.java"], .file 1),
     ([".java"], .file 2), ([".h"], .directory true), ([".h", "C.JaVa"], .file 3),
     (["d.java"], .directory true), (["e.java."], .file 4), (["f.java"], .link ⟨"a.java"⟩)]

theorem walk_is_canonical_mixedFolder :
    mixedFolder.IsTree ∧ mixedFolder.find ⟨"."⟩ = .ok ([], .directory true) ∧
      walk inStoreOrder mixedFolder ⟨"."⟩ sourceExtensions =
        .ok [⟨"./.h/C.JaVa"⟩, ⟨"./a/b.java"⟩, ⟨"./a.java"⟩] ∧
      (∀ walker, Yields walker mixedFolder ⟨"."⟩ [] →
        walk walker mixedFolder ⟨"."⟩ sourceExtensions =
          .ok [⟨"./.h/C.JaVa"⟩, ⟨"./a/b.java"⟩, ⟨"./a.java"⟩]) ∧
      Options.checkInput mixedFolder (.file ⟨"./a/b.java"⟩) = .ok () := by
  have htree : mixedFolder.IsTree := by decide +kernel
  have hfind : mixedFolder.find ⟨"."⟩ = .ok ([], .directory true) := by decide +kernel
  have hwalk : walk inStoreOrder mixedFolder ⟨"."⟩ sourceExtensions =
      .ok [⟨"./.h/C.JaVa"⟩, ⟨"./a/b.java"⟩, ⟨"./a.java"⟩] :=
    walk_of_taken [⟨"./a.java"⟩, ⟨"./a/b.java"⟩, ⟨"./.h/C.JaVa"⟩] (by decide +kernel) (by decide)
      (by decide)
  obtain ⟨found, hany, hown, -, -, -, hkeeps, hfiles⟩ := walk_is_canonical htree hfind
  have hfound := hown (by decide) (by decide +kernel)
  rw [hwalk] at hfound
  obtain rfl := Except.ok.inj hfound
  have hfile : mixedFolder.isFile ⟨"./a/b.java"⟩ = true :=
    hfiles ["a", "b.java"] 1 (by decide +kernel) (by decide +kernel)
  exact ⟨htree, hfind, hwalk, hany, ((hkeeps _ hfile).mp (by decide)).1⟩

end Discovery

end SyntaxForest
