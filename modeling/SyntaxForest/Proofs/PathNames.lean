import SyntaxForest.Path

/-! Names at the end of paths.  A path is its pieces between slashes, and its file
name is the last piece that counts; a name that is joined to a directory becomes the
last piece.  The stem and the extension of a name put together are the name again, so
an artifact has the extension that it was given, and no other. -/

namespace SyntaxForest.Path

/-! ## Pieces -/

theorem exists_piecesOf (chars : List Char) : ∃ piece pieces, piecesOf chars = piece :: pieces := by
  cases chars with
  | nil => exact ⟨[], [], rfl⟩
  | cons c rest =>
    rw [piecesOf]
    split
    · split
      · exact ⟨_, _, rfl⟩
      · exact ⟨_, _, rfl⟩
    · exact ⟨_, _, rfl⟩

theorem piecesOf_cons {rest piece : List Char} {pieces : List (List Char)}
    (h : piecesOf rest = piece :: pieces) (c : Char) :
    piecesOf (c :: rest) =
      if c = '/' then [] :: piece :: pieces else (c :: piece) :: pieces := by
  rw [piecesOf, h]

/-- A slash parts the pieces before it from those after it. -/
theorem piecesOf_append_slash (chars rest : List Char) :
    piecesOf (chars ++ '/' :: rest) = piecesOf chars ++ piecesOf rest := by
  induction chars with
  | nil =>
    obtain ⟨piece, pieces, hrest⟩ := exists_piecesOf rest
    rw [List.nil_append, piecesOf_cons hrest, if_pos rfl, ← hrest]
    rfl
  | cons c chars ih =>
    obtain ⟨piece, pieces, hchars⟩ := exists_piecesOf chars
    rw [hchars, List.cons_append] at ih
    rw [List.cons_append, piecesOf_cons ih, piecesOf_cons hchars]
    split <;> rfl

theorem piecesOf_of_notMem {chars : List Char} (h : '/' ∉ chars) : piecesOf chars = [chars] := by
  induction chars with
  | nil => rfl
  | cons c chars ih =>
    rw [List.mem_cons, not_or] at h
    rw [piecesOf_cons (ih h.2), if_neg (Ne.symm h.1)]

theorem slash_notMem_of_mem_piecesOf {chars piece : List Char} (h : piece ∈ piecesOf chars) :
    '/' ∉ piece := by
  induction chars generalizing piece with
  | nil => simp_all [piecesOf]
  | cons c chars ih =>
    obtain ⟨first, pieces, hchars⟩ := exists_piecesOf chars
    rw [hchars] at ih
    rw [piecesOf_cons hchars] at h
    split at h
    · rcases List.mem_cons.mp h with rfl | h
      · exact List.not_mem_nil
      · exact ih h
    · rename_i hc
      rcases List.mem_cons.mp h with rfl | h
      · rw [List.mem_cons, not_or]
        exact ⟨Ne.symm hc, ih List.mem_cons_self⟩
      · exact ih (List.mem_cons_of_mem first h)

theorem slash_notMem_of_mem_pieces {path : Path} {piece : String} (h : piece ∈ path.pieces) :
    '/' ∉ piece.toList := by
  obtain ⟨chars, hchars, rfl⟩ := List.mem_map.mp h
  rw [String.toList_ofList]
  exact slash_notMem_of_mem_piecesOf hchars

/-- The start of a path takes up its first piece or nothing. -/
theorem exists_pieces_eq_parts (path : Path) : ∃ start, path.pieces = start ++ path.parts.2 := by
  rw [parts]
  split
  · split
    · rename_i rest hpieces hrest
      exact ⟨[""], by rw [hpieces, hrest]; rfl⟩
    · rename_i rest hpieces hrest
      exact ⟨[""], hpieces⟩
  · rename_i rest hpieces
    exact ⟨["."], hpieces⟩
  · exact ⟨[], rfl⟩

/-! ## Names -/

/-- What a file in a directory can be called. -/
structure IsName (name : String) : Prop where
  isStep : isStep name = true
  ne_up : name ≠ ".."
  slash_notMem : '/' ∉ name.toList

instance decidableIsName (name : String) : Decidable (IsName name) :=
  decidable_of_iff (Path.isStep name = true ∧ name ≠ ".." ∧ '/' ∉ name.toList)
    ⟨fun ⟨hstep, hup, hslash⟩ => ⟨hstep, hup, hslash⟩,
      fun h => ⟨h.isStep, h.ne_up, h.slash_notMem⟩⟩

/-- The name at the end of a path is its last step, unless that leads up. -/
theorem fileName?_eq (path : Path) :
    path.fileName? = (path.parts.2.filter isStep).getLast?.bind fun piece =>
      if piece = ".." then none else some piece := by
  rw [fileName?, components, List.getLast?_append, List.getLast?_map]
  cases (path.parts.2.filter isStep).getLast? with
  | none => cases path.parts.1 <;> rfl
  | some piece =>
    rw [Option.map_some, Option.some_or, Option.bind_some, Component.ofPiece]
    by_cases hup : piece = ".."
    · rw [if_pos hup, if_pos hup]
    · rw [if_neg hup, if_neg hup]

/-- The file name is the last piece that counts. -/
theorem pieces_of_fileName? {path : Path} {name : String} (h : path.fileName? = some name) :
    IsName name ∧ ∃ above after, path.pieces = above ++ name :: after ∧
      ∀ piece ∈ after, isStep piece = false := by
  rw [fileName?_eq, Option.bind_eq_some_iff] at h
  obtain ⟨piece, hlast, hpiece⟩ := h
  split at hpiece
  · contradiction
  rename_i hup
  obtain rfl := Option.some.inj hpiece
  rw [List.getLast?_filter, List.find?_eq_some_iff_append] at hlast
  obtain ⟨hstep, after, above, hparts, hafter⟩ := hlast
  obtain ⟨start, hpieces⟩ := exists_pieces_eq_parts path
  rw [List.reverse_eq_iff, List.reverse_append, List.reverse_cons, List.append_assoc,
    List.singleton_append] at hparts
  rw [hparts, ← List.append_assoc] at hpieces
  have hmem : piece ∈ path.pieces := by rw [hpieces]; simp
  refine ⟨⟨hstep, hup, slash_notMem_of_mem_pieces hmem⟩, _, after.reverse, hpieces, ?_⟩
  intro other hother
  exact (Bool.not_eq_true' _).mp (hafter other (List.mem_reverse.mp hother))

theorem fileName?_mk {name : String} (h : IsName name) : (Path.mk name).fileName? = some name := by
  have hpieces : (Path.mk name).pieces = [name] := by
    rw [pieces, piecesOf_of_notMem h.slash_notMem, List.map_singleton, String.ofList_toList]
  have hparts : (Path.mk name).parts = (.anywhere, [name]) := by
    rw [parts, hpieces]
    split
    · rename_i hname
      cases hname
      exact absurd h.isStep (by decide)
    · rename_i hname
      cases hname
      exact absurd h.isStep (by decide)
    · rfl
  rw [fileName?_eq, hparts, List.filter_cons_of_pos h.isStep, List.filter_nil]
  exact if_neg h.ne_up

/-! ## Stems and extensions -/

/-- The text of a stem with an extension, from its end. -/
theorem reverse_toList_append (stem extension : String) :
    (stem ++ "." ++ extension).toList.reverse =
      extension.toList.reverse ++ '.' :: stem.toList.reverse := by
  simp

/-- A name has no extension, or is a stem that is not empty, a point and an extension. -/
theorem cutName_cases (name : String) :
    cutName name = (name, none) ∨ ∃ stem extension, cutName name = (stem, some extension) ∧
      name = stem ++ "." ++ extension ∧ stem ≠ "" := by
  rw [cutName]
  split
  · rename_i c before hdrop
    refine .inr ⟨_, _, rfl, ?_, ?_⟩
    · rw [← String.toList_inj, ← List.reverse_inj, reverse_toList_append, String.toList_ofList,
        String.toList_ofList, List.reverse_reverse, List.reverse_reverse, ← hdrop,
        List.takeWhile_append_dropWhile]
    · simp
  · exact .inl rfl

/-- The extension of a name starts after its last point. -/
theorem cutName_append {stem extension : String} (hstem : stem ≠ "")
    (hextension : '.' ∉ extension.toList) :
    cutName (stem ++ "." ++ extension) = (stem, some extension) := by
  have hpass : ∀ c ∈ extension.toList.reverse, decide (c ≠ '.') = true := by
    intro c hc
    rw [decide_eq_true_iff]
    rintro rfl
    exact hextension (List.mem_reverse.mp hc)
  obtain ⟨c, before, hbefore⟩ : ∃ c before, stem.toList.reverse = c :: before := by
    cases hreverse : stem.toList.reverse with
    | nil => exact absurd (String.toList_eq_nil_iff.mp (List.reverse_eq_nil_iff.mp hreverse)) hstem
    | cons c before => exact ⟨c, before, rfl⟩
  rw [cutName, reverse_toList_append, List.takeWhile_append_of_pos hpass,
    List.dropWhile_append_of_pos hpass, hbefore]
  have htake : List.takeWhile (fun c => decide (c ≠ '.')) ('.' :: c :: before) = [] := rfl
  have hdrop : List.dropWhile (fun c => decide (c ≠ '.')) ('.' :: c :: before) =
    '.' :: c :: before := rfl
  rw [htake, hdrop, List.append_nil, List.reverse_reverse, String.ofList_toList]
  show (String.ofList (c :: before).reverse, some extension) = (stem, some extension)
  rw [← hbefore, List.reverse_reverse, String.ofList_toList]

/-- A path is known by its file name when it comes to extensions. -/
theorem hasExtension_of_fileName? {path : Path} {name : String}
    (h : path.fileName? = some name) (extensions : List String) :
    path.hasExtension extensions = (Path.mk name).hasExtension extensions := by
  rw [hasExtension, hasExtension, extension?, extension?, h,
    fileName?_mk (pieces_of_fileName? h).1]

theorem exists_fileName?_of_hasExtension {path : Path} {extensions : List String}
    (h : path.hasExtension extensions = true) : ∃ name, path.fileName? = some name := by
  cases hname : path.fileName? with
  | none => simp [hasExtension, extension?, hname] at h
  | some name => exact ⟨name, rfl⟩

/-- What an artifact is called is not empty, and stays within its directory. -/
theorem artifactStem_spec (path : Path) :
    path.artifactStem ≠ "" ∧ '/' ∉ path.artifactStem.toList := by
  rw [artifactStem, stem?]
  cases hname : path.fileName? with
  | none => exact ⟨by decide, by decide⟩
  | some name =>
    have hplain := (pieces_of_fileName? hname).1
    rw [Option.map_some, Option.getD_some]
    rcases cutName_cases name with hcut | ⟨stem, extension, hcut, hjoined, hstem⟩
    · rw [hcut]
      refine ⟨?_, hplain.slash_notMem⟩
      rintro rfl
      exact absurd hplain.isStep (by decide)
    · rw [hcut]
      refine ⟨hstem, fun hslash => hplain.slash_notMem ?_⟩
      rw [hjoined, String.toList_append, String.toList_append]
      exact List.mem_append_left _ (List.mem_append_left _ hslash)

/-- A stem with an extension is a name. -/
theorem isName_append {stem extension : String} (hstem : stem ≠ "")
    (hslash : '/' ∉ stem.toList) (hextension : extension ≠ "")
    (hslash' : '/' ∉ extension.toList) : IsName (stem ++ "." ++ extension) := by
  have hlength : 3 ≤ (stem ++ "." ++ extension).toList.length := by
    have hone := List.length_pos_iff.mpr (mt String.toList_eq_nil_iff.mp hstem)
    have htwo := List.length_pos_iff.mpr (mt String.toList_eq_nil_iff.mp hextension)
    rw [String.toList_append, String.toList_append, List.length_append, List.length_append]
    have hpoint : ".".toList.length = 1 := rfl
    omega
  have hne : ∀ short : String, short.toList.length < 3 → stem ++ "." ++ extension ≠ short := by
    rintro _ hshort rfl
    omega
  refine ⟨?_, hne ".." (by decide), ?_⟩
  · rw [isStep, Bool.and_eq_true, decide_eq_true_iff, decide_eq_true_iff]
    exact ⟨hne "" (by decide), hne "." (by decide)⟩
  · rw [String.toList_append, String.toList_append, List.mem_append, List.mem_append]
    rintro ((hmem | hmem) | hmem)
    · exact hslash hmem
    · exact absurd hmem (by decide)
    · exact hslash' hmem

/-! ## Joined paths -/

theorem not_isAbsolute_of_isName {name : String} (h : IsName name) :
    (Path.mk name).isAbsolute = false := by
  rw [isAbsolute, decide_eq_false_iff_not]
  intro hhead
  exact h.slash_notMem (List.mem_of_mem_head? hhead)

/-- A joined path is its two texts, with a slash between unless there is one. -/
theorem text_join {name : String} (h : IsName name) (directory : Path) :
    (directory.join name).text =
      if directory.text = "" ∨ directory.text.toList.getLast? = some '/' then
        directory.text ++ name
      else directory.text ++ "/" ++ name := by
  rw [join, if_neg (by rw [not_isAbsolute_of_isName h]; decide)]
  split <;> rfl

/-- A name that is joined to a directory becomes the last piece; before it stand the
pieces of the directory, but for an empty one at the end. -/
theorem pieces_join {name : String} (h : IsName name) (directory : Path) :
    ∃ above, (directory.join name).pieces = above ++ [name] ∧
      (directory.pieces = above ∨ directory.pieces = above ++ [""]) := by
  have hname : piecesOf name.toList = [name.toList] := piecesOf_of_notMem h.slash_notMem
  rw [pieces, text_join h]
  split
  · rename_i hcase
    rcases hcase with hempty | hslash
    · refine ⟨[], ?_, .inr ?_⟩
      · rw [hempty, String.empty_append, hname, List.map_singleton, String.ofList_toList]
        rfl
      · rw [pieces, hempty]
        rfl
    · obtain ⟨chars, hchars⟩ := List.getLast?_eq_some_iff.mp hslash
      refine ⟨(piecesOf chars).map String.ofList, ?_, .inr ?_⟩
      · rw [String.toList_append, hchars, List.append_assoc, List.singleton_append,
          piecesOf_append_slash, hname, List.map_append, List.map_singleton, String.ofList_toList]
      · rw [pieces, hchars, piecesOf_append_slash, List.map_append]
        rfl
  · refine ⟨directory.pieces, ?_, .inl rfl⟩
    have hslash : "/".toList = ['/'] := rfl
    rw [String.toList_append, String.toList_append, List.append_assoc, hslash,
      List.singleton_append, piecesOf_append_slash, hname, List.map_append, List.map_singleton,
      String.ofList_toList]
    rfl

theorem isAbsolute_join {name : String} (h : IsName name) (directory : Path) :
    (directory.join name).isAbsolute = directory.isAbsolute := by
  rw [isAbsolute, isAbsolute, text_join h]
  by_cases hempty : directory.text = ""
  · rw [if_pos (.inl hempty), hempty, String.empty_append]
    exact not_isAbsolute_of_isName h
  · obtain ⟨c, rest, hchars⟩ := List.exists_cons_of_ne_nil (mt String.toList_eq_nil_iff.mp hempty)
    split
    · rw [String.toList_append, hchars]
      rfl
    · rw [String.toList_append, String.toList_append, hchars]
      rfl

end SyntaxForest.Path
