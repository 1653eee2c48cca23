import Mathlib.Data.List.DropRight
import SyntaxForest.Discovery
import SyntaxForest.Proofs.PathOrder

/-! Parents of paths, and where artifacts go.  The parent of a path is the path without
its last component, however the path is written, and only the empty path and the root
have none.  So an artifact stands in the directory that it was given, under the name of
its source with another extension; when nothing is said it stands beside its source. -/

namespace SyntaxForest

namespace Path

/-! ## Paths made of pieces -/

theorem piecesOf_intercalate {pieces : List (List Char)} (hne : pieces ≠ [])
    (h : ∀ piece ∈ pieces, '/' ∉ piece) : piecesOf (['/'].intercalate pieces) = pieces := by
  induction pieces with
  | nil => exact absurd rfl hne
  | cons first rest ih =>
    have hfirst : piecesOf first = [first] := piecesOf_of_notMem (h first List.mem_cons_self)
    cases rest with
    | nil => rw [List.intercalate_singleton, hfirst]
    | cons second rest =>
      have hrest := ih (List.cons_ne_nil second rest) fun piece hpiece =>
        h piece (List.mem_cons_of_mem first hpiece)
      rw [List.intercalate_cons_cons, List.append_assoc, List.singleton_append,
        piecesOf_append_slash, hfirst, hrest, List.singleton_append]

/-- Pieces without slashes, written with slashes between, are the pieces of the result. -/
theorem pieces_intercalate {pieces : List String} (hne : pieces ≠ [])
    (h : ∀ piece ∈ pieces, '/' ∉ piece.toList) :
    (Path.mk ("/".intercalate pieces)).pieces = pieces := by
  have hchars : ∀ chars ∈ pieces.map String.toList, '/' ∉ chars := by
    intro chars hmem
    obtain ⟨piece, hpiece, rfl⟩ := List.mem_map.mp hmem
    exact h piece hpiece
  have hslash : "/".toList = ['/'] := rfl
  rw [Path.pieces, String.toList_intercalate, hslash,
    piecesOf_intercalate (mt List.map_eq_nil_iff.mp hne) hchars, List.map_map]
  simp

/-- Pieces that can follow the start of a path: no slash is in them, and the first one
is not taken for a start itself. -/
structure CanFollow (start : Start) (pieces : List String) : Prop where
  slash_notMem : ∀ piece ∈ pieces, '/' ∉ piece.toList
  head_ne : start = .anywhere → ∀ piece ∈ pieces.head?, piece ≠ "" ∧ piece ≠ "."

theorem CanFollow.mono {start : Start} {front pieces : List String}
    (h : CanFollow start pieces) (hfront : front <+: pieces) : CanFollow start front where
  slash_notMem piece hpiece := h.slash_notMem piece (hfront.subset hpiece)
  head_ne hstart piece hpiece := by
    obtain ⟨back, rfl⟩ := hfront
    refine h.head_ne hstart piece ?_
    rw [List.head?_append, Option.mem_def, Option.mem_def.mp hpiece, Option.some_or]

theorem canFollow_parts (path : Path) : CanFollow path.parts.1 path.parts.2 where
  slash_notMem piece hpiece := by
    obtain ⟨start, hpieces⟩ := exists_pieces_eq_parts path
    have hmem : piece ∈ path.pieces := by
      rw [hpieces]
      exact List.mem_append_right start hpiece
    exact slash_notMem_of_mem_pieces hmem
  head_ne := by
    rw [parts]
    split
    · split <;> simp
    · simp
    · rename_i hempty hpoint
      intro _ piece hpiece
      obtain ⟨rest, hpieces⟩ := List.head?_eq_some_iff.mp hpiece
      refine ⟨?_, ?_⟩
      · rintro rfl
        exact hempty rest hpieces
      · rintro rfl
        exact hpoint rest hpieces

/-- A start and pieces that can follow it are read back from the path made of them. -/
theorem components_ofParts {start : Start} {pieces : List String} (h : CanFollow start pieces) :
    (ofParts start pieces).components = start.components ++ stepsOf pieces := by
  have hwritten (first : String) (hslash : '/' ∉ first.toList) :
      (Path.mk ("/".intercalate (first :: pieces))).pieces = first :: pieces :=
    pieces_intercalate (List.cons_ne_nil first pieces) (List.forall_mem_cons.mpr
      ⟨hslash, h.slash_notMem⟩)
  cases start with
  | root =>
    cases pieces with
    | nil => rfl
    | cons first rest =>
      have htext : "/" ++ "/".intercalate (first :: rest) =
          "/".intercalate ("" :: first :: rest) := by
        rw [← String.toList_inj]
        simp [String.toList_intercalate]
      rw [ofParts, htext, components_of_pieces (hwritten "" (by decide)), if_pos rfl,
        if_neg (List.cons_ne_nil first rest)]
      rfl
  | here =>
    rw [ofParts, components_of_pieces (hwritten "." (by decide)), if_neg (by decide), if_pos rfl]
    rfl
  | anywhere =>
    cases pieces with
    | nil => rfl
    | cons first rest =>
      obtain ⟨hempty, hpoint⟩ := h.head_ne rfl first rfl
      rw [ofParts, components_of_pieces (pieces_intercalate (List.cons_ne_nil first rest)
        h.slash_notMem), if_neg hempty, if_neg hpoint]
      rfl

theorem components_eq (path : Path) :
    path.components = path.parts.1.components ++ stepsOf path.parts.2 :=
  rfl

/-! ## Parents -/

theorem trimPieces_eq_rdropWhile (pieces : List String) :
    trimPieces pieces = pieces.rdropWhile fun piece => !isStep piece :=
  rfl

theorem trimPieces_isPrefix (pieces : List String) : trimPieces pieces <+: pieces :=
  List.rdropWhile_prefix _ _

/-- Pieces that are no steps leave no component, so trimming them changes none. -/
theorem stepsOf_trimPieces (pieces : List String) :
    stepsOf (trimPieces pieces) = stepsOf pieces := by
  induction pieces using List.reverseRecOn with
  | nil => rfl
  | append_singleton pieces last ih =>
    rw [trimPieces_eq_rdropWhile, List.rdropWhile_concat]
    split
    · rename_i hlast
      have hnone : stepsOf [last] = [] := by
        rw [stepsOf, List.filter_cons_of_neg (by simpa using hlast)]
        rfl
      rw [stepsOf_append, hnone, List.append_nil]
      exact ih
    · rfl

theorem Component.ofPiece_ne_root (piece : String) : ofPiece piece ≠ .root := by
  rw [ofPiece]
  split <;> simp

theorem stepsOf_of_isStep {piece : String} (h : isStep piece = true) :
    stepsOf [piece] = [.ofPiece piece] := by
  rw [stepsOf, List.filter_cons_of_pos h]
  rfl

/-- What is left of pieces ends with one that counts. -/
theorem exists_trimPieces_concat {pieces : List String} (h : trimPieces pieces ≠ []) :
    ∃ front last, trimPieces pieces = front ++ [last] ∧ isStep last = true := by
  refine ⟨_, _, (List.dropLast_concat_getLast h).symm, ?_⟩
  have hlast := List.rdropWhile_last_not (fun piece => !isStep piece) pieces h
  rwa [Bool.not_eq_true', Bool.not_eq_false] at hlast

/-- The parent of a path, by the steps left when the last one is dropped. -/
theorem parent?_eq (path : Path) :
    path.parent? =
      if trimPieces path.parts.2 = [] then (if path.parts.1 = .here then some ⟨""⟩ else none)
      else some (ofParts path.parts.1 (trimPieces (trimPieces path.parts.2).dropLast)) := by
  rcases hparts : path.parts with ⟨start, pieces⟩
  rw [parent?, hparts]
  cases htrim : trimPieces pieces with
  | nil => simp [htrim]
  | cons first rest => simp [htrim]

/-- The parent of a path is the path without its last component. -/
theorem components_of_parent? {path above : Path} (h : path.parent? = some above) :
    above.components = path.components.dropLast := by
  rw [components_eq path, ← stepsOf_trimPieces]
  rw [parent?_eq] at h
  split at h
  · rename_i htrim
    split at h
    · rename_i hhere
      obtain rfl := Option.some.inj h
      rw [htrim, hhere]
      rfl
    · contradiction
  · rename_i htrim
    obtain ⟨front, last, hsplit, hlast⟩ := exists_trimPieces_concat htrim
    obtain rfl := Option.some.inj h
    -- what is left stands at the start of the pieces, so it is not misread
    have hfollow : CanFollow path.parts.1 (trimPieces front) := by
      have hfront : front <+: trimPieces path.parts.2 := by
        rw [hsplit]
        exact List.prefix_append front [last]
      exact path.canFollow_parts.mono
        ((trimPieces_isPrefix front).trans (hfront.trans (trimPieces_isPrefix path.parts.2)))
    rw [hsplit, List.dropLast_concat, components_ofParts hfollow, stepsOf_trimPieces,
      stepsOf_append, stepsOf_of_isStep hlast, ← List.append_assoc, List.dropLast_concat]

/-- Only the empty path and the root have no parent. -/
theorem parent?_eq_none_iff {path : Path} :
    path.parent? = none ↔ path.components = [] ∨ path.components = [.root] := by
  rw [parent?_eq, components_eq, ← stepsOf_trimPieces]
  by_cases htrim : trimPieces path.parts.2 = []
  · rw [if_pos htrim, htrim]
    cases path.parts.1 <;> decide
  · obtain ⟨front, last, hsplit, hlast⟩ := exists_trimPieces_concat htrim
    rw [if_neg htrim, hsplit, stepsOf_append, stepsOf_of_isStep hlast, ← List.append_assoc]
    refine iff_of_false (Option.some_ne_none _) ?_
    rintro (hnil | hroot)
    · exact List.concat_ne_nil _ _ hnil
    · have hlast := congrArg List.getLast? hroot
      rw [List.getLast?_concat, List.getLast?_singleton] at hlast
      exact Component.ofPiece_ne_root last (Option.some.inj hlast)

/-- A path ends in a name exactly when its last component is that name. -/
theorem fileName?_eq_some_iff {path : Path} {name : String} :
    path.fileName? = some name ↔ ∃ front, path.components = front ++ [.name name] := by
  rw [fileName?, ← List.getLast?_eq_some_iff]
  split
  · rename_i text hlast
    rw [hlast, Option.some_inj, Option.some_inj, Component.name.injEq]
  · rename_i hlast
    exact iff_of_false (Option.some_ne_none name).symm (hlast name)

/-- A path with a file name is its parent and the name. -/
theorem exists_parent?_of_fileName? {path : Path} {name : String}
    (h : path.fileName? = some name) :
    ∃ above, path.parent? = some above ∧ path.components = above.components ++ [.name name] := by
  obtain ⟨front, hfront⟩ := fileName?_eq_some_iff.mp h
  cases hparent : path.parent? with
  | none =>
    rcases parent?_eq_none_iff.mp hparent with hnil | hroot
    · simp [hfront] at hnil
    · simp [hfront, List.append_eq_singleton_iff] at hroot
  | some above =>
    refine ⟨above, rfl, ?_⟩
    rw [components_of_parent? hparent, hfront, List.dropLast_concat]

theorem exists_pieces (path : Path) : ∃ first rest, path.pieces = first :: rest := by
  obtain ⟨first, rest, hpieces⟩ := exists_piecesOf path.text.toList
  exact ⟨_, _, by rw [pieces, hpieces, List.map_cons]⟩

theorem components_eq_nil_iff {path : Path} : path.components = [] ↔ path.text = "" := by
  constructor
  · intro h
    obtain ⟨first, rest, hpieces⟩ := exists_pieces path
    rw [components_of_pieces hpieces] at h
    by_cases hempty : first = ""
    · by_cases hrest : rest = []
      · exact text_eq_empty_of_pieces (by rw [hpieces, hempty, hrest])
      · rw [if_pos hempty, if_neg hrest] at h
        contradiction
    · by_cases hpoint : first = "."
      · rw [if_neg hempty, if_pos hpoint] at h
        contradiction
      · have hstep : isStep first = true := by simp [isStep, hempty, hpoint]
        rw [if_neg hempty, if_neg hpoint, ← List.singleton_append, stepsOf_append,
          stepsOf_of_isStep hstep] at h
        contradiction
  · intro h
    rw [show path = ⟨""⟩ from congrArg Path.mk h]
    rfl

end Path

/-! ## Artifacts -/

/-- Beside a file means in its parent, and `.` stands for the empty one. -/
theorem Input.components_outputDirectory {source above : Path} (h : source.parent? = some above) :
    (Input.file source).outputDirectory.components =
      if above.components = [] then [.here] else above.components := by
  rw [Input.outputDirectory, h]
  dsimp only
  by_cases htext : above.text = ""
  · rw [if_pos htext, if_pos (Path.components_eq_nil_iff.mpr htext)]
    rfl
  · rw [if_neg htext, if_neg (mt Path.components_eq_nil_iff.mp htext)]

namespace Path

/-- **An artifact stands in the directory that it was given**, under the stem of its
source and the extension that it was given.  In the directory that is taken when nothing
is said, it stands beside its source. -/
theorem artifact_stands_in_directory (source directory : Path) (extension : String)
    (hextension : extension ≠ "") (hslash : '/' ∉ extension.toList)
    (hpoint : '.' ∉ extension.toList) :
    (artifact directory source.artifactStem extension).stem? = some source.artifactStem ∧
    (artifact directory source.artifactStem extension).extension? = some extension ∧
    ∃ parent, (artifact directory source.artifactStem extension).parent? = some parent ∧
      parent.components = directory.components ∧
      ∀ name, source.fileName? = some name → directory = (Input.file source).outputDirectory →
        ∃ above, source.parent? = some above ∧
          source.components = above.components ++ [.name name] ∧
          parent.components = if above.components = [] then [.here] else above.components := by
  obtain ⟨hstem, hslash'⟩ := source.artifactStem_spec
  have hcut := cutName_append hstem hpoint
  have hcomponents : (artifact directory source.artifactStem extension).components =
      directory.components ++ [.name (source.artifactStem ++ "." ++ extension)] :=
    components_join (isName_append hstem hslash' hextension hslash) directory
  have hfile := fileName?_eq_some_iff.mpr ⟨_, hcomponents⟩
  obtain ⟨parent, hparent, hsplit⟩ := exists_parent?_of_fileName? hfile
  have heq : parent.components = directory.components :=
    List.append_cancel_right (hsplit.symm.trans hcomponents)
  refine ⟨?_, ?_, parent, hparent, heq, ?_⟩
  · rw [stem?, hfile, Option.map_some, hcut]
  · rw [extension?, hfile, Option.bind_some, hcut]
  · rintro name hsource rfl
    obtain ⟨above, habove, hbeside⟩ := exists_parent?_of_fileName? hsource
    exact ⟨above, habove, hbeside, heq.trans (Input.components_outputDirectory habove)⟩

/-- A source whose name begins with a point and has more of them, in a directory that is
written in a roundabout way. -/
theorem artifact_stands_in_directory_hidden :
    (artifact ⟨"./a/..//b"⟩ ".x.tar" "png").text = "./a/..//b/.x.tar.png" ∧
    (artifact ⟨"./a/..//b"⟩ ".x.tar" "png").stem? = some ".x.tar" ∧
    (artifact ⟨"./a/..//b"⟩ ".x.tar" "png").extension? = some "png" ∧
    ∃ parent, (artifact ⟨"./a/..//b"⟩ ".x.tar" "png").parent? = some parent ∧
      parent.components = [.here, .name "a", .up, .name "b"] ∧
      ∃ above, (Path.mk "./a/..//b/./.x.tar.java/").parent? = some above ∧
        parent.components = above.components := by
  have hstem : (Path.mk "./a/..//b/./.x.tar.java/").artifactStem = ".x.tar" := by decide
  have hall := artifact_stands_in_directory ⟨"./a/..//b/./.x.tar.java/"⟩ ⟨"./a/..//b"⟩ "png"
    (by decide) (by decide) (by decide)
  rw [hstem] at hall
  obtain ⟨hsame, hextension, parent, hparent, heq, hbeside⟩ := hall
  obtain ⟨above, habove, -, hwhere⟩ := hbeside ".x.tar.java" (by decide) (by decide)
  have hcomponents : parent.components = [.here, .name "a", .up, .name "b"] := by
    rw [heq]
    decide
  refine ⟨by decide, hsame, hextension, parent, hparent, hcomponents, above, habove, ?_⟩
  split at hwhere
  · rw [hcomponents] at hwhere
    contradiction
  · exact hwhere

end Path

end SyntaxForest
