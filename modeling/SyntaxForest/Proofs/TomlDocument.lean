import SyntaxForest.Proofs.NameMap
import SyntaxForest.Proofs.TomlStrings
import SyntaxForest.Toml.Document

/-! Documents of sections read back.  Each line of such a document is read as what
it was written for, so the whole is read as a run over its lines, and a run over
the lines of sections with names and keys of their own builds their tables. -/

namespace SyntaxForest.Toml

open NameMap (lookup_eq_none_of_notMem)

/-! ## Numbers -/

theorem digitOf?_of_isDigit {c : Char} (h : c.isDigit) :
    digitOf? 10 c = some (c.toNat - '0'.toNat) := by
  have hbounds : '0' ≤ c ∧ c ≤ '9' := by
    simpa [Char.isDigit, Char.le_def] using h
  have hlt : c.toNat - 48 < 10 := by
    have : c.toNat ≤ 57 := hbounds.2
    omega
  simp [digitOf?, digitValue?, hbounds, hlt]

theorem isDigit_toDigits {n : Nat} : ∀ c ∈ Nat.toDigits 10 n, c.isDigit := by
  intro c hc
  exact Nat.isDigit_of_mem_toDigits (by decide) (Nat.le_refl 10) hc

/-- The digits of a line are read to its end. -/
theorem moreDigits?_append_line {digits : List Char} (h : ∀ c ∈ digits, c.isDigit)
    (more : List Char) :
    moreDigits? 10 (digits ++ '\n' :: more) =
      some (digits.map fun c => c.toNat - '0'.toNat, '\n' :: more) := by
  induction digits with
  | nil => rfl
  | cons c digits ih =>
    have hc := h c List.mem_cons_self
    have ih := ih fun d hd => h d (List.mem_cons_of_mem c hd)
    rw [List.cons_append, moreDigits?.eq_3, digitOf?_of_isDigit hc, ih]
    · rfl
    · rintro d rest rfl
      exact absurd hc (by decide)

/-- The decimal digits of a number stand for that number. -/
theorem ofDigits_map_toDigits (n : Nat) :
    ofDigits 10 ((Nat.toDigits 10 n).map fun c => c.toNat - '0'.toNat) = n := by
  rw [ofDigits, List.foldl_map]
  conv => rhs; rw [← @Nat.ofDigitChars_ten_toDigits n, Nat.ofDigitChars_eq_foldl]
  simp only [Nat.mul_comm]

/-- The digits of a number begin with a zero only when it is zero. -/
theorem toDigits_cases (n : Nat) :
    n = 0 ∨ ∃ first rest, Nat.toDigits 10 n = first :: rest ∧ first ≠ '0' := by
  induction n using Nat.strongRecOn with
  | _ n ih =>
    by_cases hone : n < 10
    · have hall : ∀ n < 10, n = 0 ∨ Nat.digitChar n ≠ '0' := by decide
      refine (hall n hone).imp id fun hne => ⟨_, [], Nat.toDigits_of_lt_base hone, hne⟩
    · obtain hzero | ⟨first, rest, hrest, hfirst⟩ := ih (n / 10) (by omega)
      · omega
      · refine .inr ⟨first, rest ++ [Nat.digitChar (n % 10)], ?_, hfirst⟩
        rw [Nat.toDigits_of_base_le (by decide) (Nat.le_of_not_lt hone), hrest]
        rfl

/-- The whole part of a written number is read back; it has no leading zero. -/
theorem wholeDigits?_toDigits (n : Nat) (more : List Char) :
    ∃ digits, wholeDigits? (Nat.toDigits 10 n ++ '\n' :: more) = some (digits, '\n' :: more) ∧
      ofDigits 10 digits = n := by
  obtain rfl | ⟨first, rest, htext, hfirst⟩ := toDigits_cases n
  · exact ⟨[0], rfl, rfl⟩
  refine ⟨_, ?_, ofDigits_map_toDigits n⟩
  have hdigits := @isDigit_toDigits n
  rw [htext] at hdigits ⊢
  rw [List.cons_append, wholeDigits?.eq_2 _ (by simp [hfirst]), digits?,
    digitOf?_of_isDigit (hdigits first List.mem_cons_self),
    moreDigits?_append_line fun c hc => hdigits c (List.mem_cons_of_mem first hc)]
  rfl

theorem exists_toDigits (n : Nat) :
    ∃ first rest, Nat.toDigits 10 n = first :: rest ∧ first.isDigit := by
  obtain ⟨first, rest, htext⟩ := List.exists_cons_of_ne_nil (@Nat.toDigits_ne_nil n 10)
  exact ⟨first, rest, htext, isDigit_toDigits first (htext ▸ List.mem_cons_self)⟩

theorem cons_ne_of_isDigit {c d : Char} (hc : c.isDigit) (hd : d.isDigit = false)
    (rest more : List Char) : c :: rest ≠ d :: more := by
  intro h
  obtain rfl := (List.cons.inj h).1
  simp [hc] at hd

theorem sign_of_isDigit {c : Char} (h : c.isDigit) (rest : List Char) :
    sign (c :: rest) = (none, c :: rest) := by
  rw [sign.eq_3] <;> exact fun _ => cons_ne_of_isDigit h (by decide) _ _

theorem integer?_natCast {n : Nat} (h : (n : Int) < Int.pow 2 63) :
    integer? n = some (.integer n) := by
  have hpow : 0 ≤ Int.pow 2 63 := by decide
  have hlow : -Int.pow 2 63 ≤ n := by omega
  rw [integer?, if_pos ⟨hlow, h⟩]

/-- A number within range is read back as an integer: no point, exponent or base follows it. -/
theorem unsigned?_toDigits {n : Nat} (h : (n : Int) < Int.pow 2 63) (more : List Char) :
    unsigned? false (Nat.toDigits 10 n ++ '\n' :: more) = some (.integer n, '\n' :: more) := by
  obtain ⟨digits, hread, hdigits⟩ := wholeDigits?_toDigits n more
  obtain ⟨first, rest, htext, hfirst⟩ := exists_toDigits n
  rw [unsigned?.eq_3, hread]
  · rw [Option.bind_eq_bind, Option.bind_some]
    dsimp only
    split
    case h_1 heq => simp at heq
    case h_2 heq =>
      obtain ⟨rfl, -⟩ := List.cons.inj heq
      rw [if_neg (by decide), if_neg (by decide), hdigits, integer?_natCast h]
      rfl
    case h_3 heq => simp at heq
  · exact htext ▸ fun _ => cons_ne_of_isDigit hfirst (by decide) _ _
  · exact htext ▸ fun _ => cons_ne_of_isDigit hfirst (by decide) _ _

/-- A number within range, at the end of its line, is read back. -/
theorem read?_toDigits {n : Nat} (h : (n : Int) < Int.pow 2 63) (more : List Char) :
    Number.read? (Nat.toDigits 10 n ++ '\n' :: more) = some (.integer n, '\n' :: more) := by
  obtain rfl | ⟨first, rest, htext, hzero⟩ := toDigits_cases n
  · rfl
  have hfirst := isDigit_toDigits first (htext ▸ List.mem_cons_self)
  have hread := unsigned?_toDigits h more
  rw [htext, List.cons_append] at hread ⊢
  rw [Number.read?.eq_4, sign_of_isDigit hfirst]
  · exact hread
  all_goals
    rintro _ heq
    exact absurd (List.cons.inj heq).1 hzero

/-! A line of digits is no date and no time of day: those have marks behind their
first digits. -/

/-- Reading some digits of a line of digits leaves a line of digits. -/
theorem fixedDigits?_append_line {count n : Nat} {digits more rest : List Char}
    (hdigits : ∀ c ∈ digits, c.isDigit)
    (h : fixedDigits? count (digits ++ '\n' :: more) = some (n, rest)) :
    ∃ left, (∀ c ∈ left, c.isDigit) ∧ rest = left ++ '\n' :: more := by
  induction count generalizing digits n with
  | zero =>
    obtain ⟨-, rfl⟩ : 0 = n ∧ digits ++ '\n' :: more = rest := by simpa [fixedDigits?] using h
    exact ⟨digits, hdigits, rfl⟩
  | succ count ih =>
    obtain _ | ⟨c, digits⟩ := digits
    · simp [fixedDigits?] at h
    · rw [List.cons_append, fixedDigits?, if_pos (hdigits c List.mem_cons_self),
        Option.map_eq_some_iff] at h
      obtain ⟨⟨m, _⟩, hread, heq⟩ := h
      obtain ⟨-, rfl⟩ := Prod.mk.inj heq
      exact ih (fun d hd => hdigits d (List.mem_cons_of_mem c hd)) hread

/-- A line of digits goes on with no separator. -/
theorem expect?_append_line {c : Char} {digits : List Char} (hdigits : ∀ d ∈ digits, d.isDigit)
    (hdigit : c.isDigit = false) (hbreak : c ≠ '\n') (more : List Char) :
    expect? c (digits ++ '\n' :: more) = none := by
  obtain _ | ⟨d, digits⟩ := digits
  · exact if_neg hbreak
  · have hd := hdigits d List.mem_cons_self
    refine if_neg ?_
    rintro rfl
    simp [hd] at hdigit

/-- A line of digits is no date or time: every one of them has a separator after its first
field. -/
theorem dateTime_read?_line {digits : List Char} (h : ∀ c ∈ digits, c.isDigit)
    (more : List Char) : DateTime.read? (digits ++ '\n' :: more) = none := by
  have hdate : Date.read? (digits ++ '\n' :: more) = none := by
    rw [Date.read?]
    cases hread : fixedDigits? 4 (digits ++ '\n' :: more) with
    | none => rfl
    | some read =>
      obtain ⟨left, hleft, hrest⟩ := fixedDigits?_append_line h hread
      simp [hrest, expect?_append_line hleft]
  have htime : Time.read? (digits ++ '\n' :: more) = none := by
    rw [Time.read?]
    cases hread : boundedPair? 0 23 (digits ++ '\n' :: more) with
    | none => rfl
    | some read =>
      have hread := (Option.filter_eq_some_iff.mp hread).1
      obtain ⟨left, hleft, hrest⟩ := fixedDigits?_append_line h hread
      simp [hrest, expect?_append_line hleft]
  rw [DateTime.read?, hdate, htime]
  rfl

/-! ## Plain values -/

/-- A written text opens with a quote of one kind or the other. -/
theorem exists_write_ofValue (text : List Char) :
    ∃ rest, (Form.ofValue text).write text = '"' :: rest ∨
      (Form.ofValue text).write text = '\'' :: rest := by
  cases Form.ofValue text with
  | basic => exact ⟨_, .inl rfl⟩
  | literal => exact ⟨_, .inr rfl⟩
  | block => exact ⟨_, .inl rfl⟩
  | literalBlock => exact ⟨_, .inr rfl⟩

/-- A scalar at the end of its line is read back. -/
theorem scalar?_write {scalar : Scalar} (h : scalar.Fits) (more : List Char) :
    scalar? (scalar.write ++ '\n' :: more) = some (scalar.toValue, '\n' :: more) := by
  cases scalar with
  | string content =>
    have hread := @string?_ofValue content.toList ('\n' :: more) (by simp) (by simp)
    rw [Scalar.write, Scalar.toValue]
    obtain ⟨rest, hrest | hrest⟩ := exists_write_ofValue content.toList
    · rw [hrest, List.cons_append] at hread ⊢
      rw [scalar?, hread, String.ofList_toList]
      rfl
    · rw [hrest, List.cons_append] at hread ⊢
      rw [scalar?, hread, String.ofList_toList]
      rfl
  | number value =>
    obtain ⟨first, rest, htext, hfirst⟩ := exists_toDigits value
    rw [Scalar.write, Scalar.toValue, scalar?.eq_5, dateTime_read?_line isDigit_toDigits,
      read?_toDigits h]
    · rfl
    all_goals exact htext ▸ fun _ => cons_ne_of_isDigit hfirst (by decide) _ _
  | flag value => cases value <;> rfl

/-- A plain value begins with no blank and opens no array and no table. -/
theorem exists_scalar_write (scalar : Scalar) :
    ∃ first rest, scalar.write = first :: rest ∧ first ∉ [' ', '\t', '[', '\x7b'] := by
  cases scalar with
  | string content =>
    obtain ⟨rest, hrest | hrest⟩ := exists_write_ofValue content.toList
    · exact ⟨'"', rest, hrest, by decide⟩
    · exact ⟨'\'', rest, hrest, by decide⟩
  | number value =>
    obtain ⟨first, rest, htext, hfirst⟩ := exists_toDigits value
    refine ⟨first, rest, htext, fun hmem => ?_⟩
    simp only [List.mem_cons, List.not_mem_nil, or_false] at hmem
    rcases hmem with rfl | rfl | rfl | rfl <;> exact absurd hfirst (by decide)
  | flag value =>
    cases value with
    | false => exact ⟨'f', _, rfl, by decide⟩
    | true => exact ⟨'t', _, rfl, by decide⟩

theorem skipSpace_scalar_write (scalar : Scalar) (more : List Char) :
    skipSpace (' ' :: (scalar.write ++ more)) = scalar.write ++ more := by
  obtain ⟨first, rest, htext, hfirst⟩ := exists_scalar_write scalar
  have hspace : isSpace first = false := by
    simp_all [isSpace]
  have hblank : isSpace ' ' = true := by decide
  simp [htext, skipSpace, hspace, hblank]

/-- A scalar at the end of its line is read back where a value of any kind is expected. -/
theorem value?_write {scalar : Scalar} (h : scalar.Fits) (depth : Nat) (more : List Char) :
    value? (depth + 1) (scalar.write ++ '\n' :: more) = some (scalar.toValue, '\n' :: more) := by
  obtain ⟨first, rest, htext, hfirst⟩ := exists_scalar_write scalar
  rw [value?.eq_6, scalar?_write h]
  · rintro _ heq
    simp_all
  · rintro _ heq
    simp_all

/-! ## Lines -/

/-- The key of a written assignment is read back, and its value is what follows. -/
theorem assignment?_keyText (key : String) (scalar : Scalar) (more : List Char) :
    assignment? (keyText key ++ ' ' :: '=' :: ' ' :: (scalar.write ++ more)) =
      some (([], key), scalar.write ++ more) := by
  have hspace (rest : List Char) : skipSpace (' ' :: '=' :: rest) = '=' :: rest := rfl
  rw [assignment?, key?_keyText key (by decide) (by simp [hspace]), hspace]
  exact congrArg (fun rest => some (([], key), rest)) (skipSpace_scalar_write scalar more)

/-- The name in a written header is read back. -/
theorem headerKey?_keyText (name : String) (more : List Char) :
    headerKey? (keyText name ++ ']' :: more) = some (([], name), ']' :: more) := by
  have hspace : skipSpace (']' :: more) = ']' :: more := rfl
  rw [headerKey?, key?_keyText name (by decide) (by simp [hspace]), hspace]
  rfl

/-- Whether a text is read as what a line says, up to the end of the line. -/
def IsLine (text : List Char) (line : Line) : Prop :=
  ∀ more, statement? (skipSpace (text ++ '\n' :: more)) = some (line, '\n' :: more)

theorem isLine_blank : IsLine [] .blank := fun _ => rfl

/-- A section's header is one line of a document. -/
theorem isLine_header (name : String) :
    IsLine ('[' :: keyText name ++ [']']) (.header [] name) := by
  intro more
  obtain ⟨first, rest, htext, hfirst⟩ := exists_keyText name
  have hkey := headerKey?_keyText name ('\n' :: more)
  have hsplit : '[' :: keyText name ++ [']'] ++ '\n' :: more =
      '[' :: (keyText name ++ ']' :: '\n' :: more) := by
    simp
  have hspace (rest : List Char) : skipSpace ('[' :: rest) = '[' :: rest := rfl
  rw [hsplit, hspace, statement?.eq_6, hkey]
  · rfl
  · rintro _ heq
    simp_all

/-- An assignment of a scalar that fits is one line of a document. -/
theorem isLine_assignment (key : String) {scalar : Scalar} (h : scalar.Fits) :
    IsLine (keyText key ++ [' ', '=', ' '] ++ scalar.write)
      (.assignment [] key scalar.toValue) := by
  intro more
  obtain ⟨first, rest, htext, hfirst⟩ := exists_keyText key
  have hassign := assignment?_keyText key scalar ('\n' :: more)
  have hsplit : keyText key ++ [' ', '=', ' '] ++ scalar.write ++ '\n' :: more =
      keyText key ++ ' ' :: '=' :: ' ' :: (scalar.write ++ '\n' :: more) := by
    simp
  rw [hsplit, skipSpace_keyText, statement?.eq_7, hassign]
  · exact congrArg (Option.bind · _) (value?_write h 78 more)
  all_goals
    intros
    simp_all

/-- A line of a document, as it is written, with what it says. -/
abbrev WrittenLine := List Char × Line

/-- Reading a document goes line by line: a line changes the progress made, and the rest
follows. -/
theorem lines?_step {text : List Char} {line : Line} (h : IsLine text line) (fuel : Nat)
    (progress : Progress) (more : List Char) :
    lines? (fuel + 1) progress (text ++ '\n' :: more) =
      (progress.after? line).bind fun progress =>
        if more.isEmpty then some progress else lines? fuel progress more := by
  have hend : lineEnd? ('\n' :: more) = some more := rfl
  rw [lines?, h more]
  simp [hend]

/-- A document is read line by line. -/
theorem lines?_flatMap {lines : List WrittenLine} (hne : lines ≠ [])
    (hlines : ∀ line ∈ lines, IsLine line.1 line.2) {fuel : Nat} (hfuel : lines.length ≤ fuel)
    (progress : Progress) :
    lines? fuel progress (lines.flatMap fun line => line.1 ++ ['\n']) =
      (lines.map Prod.snd).foldlM Progress.after? progress := by
  induction lines generalizing fuel progress with
  | nil => contradiction
  | cons line lines ih =>
    obtain _ | fuel := fuel
    · simp at hfuel
    have hlines := List.forall_mem_cons.mp hlines
    rw [List.flatMap_cons, List.append_assoc, List.singleton_append, lines?_step hlines.1]
    rw [List.map_cons, List.foldlM_cons]
    congr 1
    funext progress
    obtain _ | ⟨next, lines⟩ := lines
    · rfl
    · rw [← ih (by simp) hlines.2 (Nat.le_of_succ_le_succ hfuel)]
      simp

theorem length_le_length_flatMap_lines (lines : List WrittenLine) :
    lines.length ≤ (lines.flatMap fun line => line.1 ++ ['\n']).length := by
  induction lines with
  | nil => simp
  | cons line lines ih =>
    simp only [List.flatMap_cons, List.length_cons, List.length_append]
    omega

/-! ## Sections -/

/-- The lines of a section. -/
def Section.lines (given : Section) : List WrittenLine :=
  ('[' :: keyText given.name ++ [']'], .header [] given.name) ::
    given.entries.map fun entry =>
      (keyText entry.1 ++ [' ', '=', ' '] ++ entry.2.write,
        .assignment [] entry.1 entry.2.toValue)

/-- The lines of a document, with a blank one between sections. -/
def documentLines (sections : List Section) : List WrittenLine :=
  [([], Line.blank)].intercalate (sections.map Section.lines)

theorem Section.write_eq (given : Section) :
    given.write = given.lines.flatMap fun line => line.1 ++ ['\n'] := by
  have hentry (entry : String × Scalar) : entryLine entry =
      keyText entry.1 ++ ' ' :: '=' :: ' ' :: (entry.2.write ++ ['\n']) := by
    simp [entryLine]
  simp [Section.write, Section.lines, List.flatMap_map, funext hentry]

/-- The text of sections is the text of their lines. -/
theorem toList_sectionsText (sections : List Section) :
    (sectionsText sections).toList =
      (documentLines sections).flatMap fun line => line.1 ++ ['\n'] := by
  rw [sectionsText, documentLines, String.toList_ofList]
  induction sections with
  | nil => rfl
  | cons given sections ih =>
    obtain _ | ⟨next, sections⟩ := sections
    · simp [Section.write_eq]
    · simp only [List.map_cons, List.intercalate_cons_cons, List.flatMap_append] at ih ⊢
      rw [ih, Section.write_eq]
      rfl

/-- Names in increasing order are all different. -/
theorem nodup_of_increasing {names : List String} (h : names.Pairwise (· < ·)) : names.Nodup := by
  refine h.imp ?_
  rintro a _ hlt rfl
  exact String.lt_irrefl a hlt

/-- Every line of readable sections is read as what it was written for. -/
theorem isLine_of_mem_documentLines {sections : List Section}
    (h : ∀ given ∈ sections, given.Readable) {line : WrittenLine}
    (hline : line ∈ documentLines sections) : IsLine line.1 line.2 := by
  induction sections with
  | nil => simp [documentLines] at hline
  | cons given sections ih =>
    have hgiven := List.forall_mem_cons.mp h
    have hfirst (hmem : line ∈ given.lines) : IsLine line.1 line.2 := by
      obtain rfl | hmem := List.mem_cons.mp hmem
      · exact isLine_header given.name
      · obtain ⟨entry, hentry, rfl⟩ := List.mem_map.mp hmem
        exact isLine_assignment entry.1 (hgiven.1.fits entry hentry)
    obtain _ | ⟨next, sections⟩ := sections
    · simp only [documentLines, List.map_cons, List.map_nil, List.intercalate_singleton] at hline
      exact hfirst hline
    · simp only [documentLines, List.map_cons, List.intercalate_cons_cons, List.mem_append,
        List.mem_singleton] at hline
      obtain (hmem | rfl) | hmem := hline
      · exact hfirst hmem
      · exact isLine_blank
      · exact ih hgiven.2 hmem

theorem exists_documentLines {sections : List Section} (h : sections ≠ []) :
    ∃ header name lines, documentLines sections = ('[' :: header, .header [] name) :: lines := by
  obtain ⟨given, others, rfl⟩ := List.exists_cons_of_ne_nil h
  cases others with
  | nil => exact ⟨_, _, _, rfl⟩
  | cons => exact ⟨_, _, _, rfl⟩

/-- Blank lines do nothing, so a document is read section by section. -/
theorem foldlM_documentLines (sections : List Section) (progress : Progress) :
    ((documentLines sections).map Prod.snd).foldlM Progress.after? progress =
      sections.foldlM (fun progress given =>
        (given.lines.map Prod.snd).foldlM Progress.after? progress) progress := by
  induction sections generalizing progress with
  | nil => rfl
  | cons given sections ih =>
    obtain _ | ⟨next, sections⟩ := sections
    · simp [documentLines]
    · simp only [documentLines, List.map_cons, List.intercalate_cons_cons, List.map_append,
        List.foldlM_append] at ih ⊢
      rw [List.foldlM_cons]
      simp [← ih, Progress.after?]

/-! ## Tables -/

theorem replace_concat {entries : Entries} {key : String} (h : key ∉ entries.map Prod.fst)
    (old new : Entry) :
    Entries.replace (entries ++ [(key, old)]) key new = entries ++ [(key, new)] := by
  have hsame :
      entries.map (fun other => if other.1 = key then (key, new) else other) = entries := by
    conv => rhs; rw [← List.map_id entries]
    refine List.map_congr_left fun other hother => if_neg ?_
    rintro rfl
    exact h (List.mem_map_of_mem hother)
  simp [Entries.replace, hsame]

/-- A header opens a table that assignments go to. -/
theorem after?_header {root : Entries} {name : String} (h : name ∉ root.map Prod.fst)
    (current : List String) :
    Progress.after? ⟨root, current⟩ (.header [] name) =
      some ⟨root ++ [(name, .table .header [])], [name]⟩ := by
  simp [Progress.after?, Entries.openTable, Entries.update, lookup_eq_none_of_notMem h]

/-- An assignment adds to the table that was opened last. -/
theorem after?_assignment {root inner : Entries} {name key : String}
    (hname : name ∉ root.map Prod.fst) (hkey : key ∉ inner.map Prod.fst) (value : Value) :
    Progress.after? ⟨root ++ [(name, .table .header inner)], [name]⟩ (.assignment [] key value) =
      some ⟨root ++ [(name, .table .header (inner ++ [(key, .value value)]))], [name]⟩ := by
  have hlookup : (root ++ [(name, Entry.table .header inner)]).lookup name =
      some (.table .header inner) := by
    simp [List.lookup_append, lookup_eq_none_of_notMem hname]
  simp [Progress.after?, Entries.update, hlookup, Entries.assign, Entries.addNew,
    lookup_eq_none_of_notMem hkey, replace_concat hname]

/-- The assignments of a section fill its table. -/
theorem foldlM_assignments {root : Entries} {name : String} (hname : name ∉ root.map Prod.fst)
    (entries : List (String × Scalar)) (inner : Entries)
    (hkeys : (inner.map Prod.fst ++ entries.map Prod.fst).Nodup) :
    (entries.map fun entry => Line.assignment [] entry.1 entry.2.toValue).foldlM Progress.after?
        ⟨root ++ [(name, .table .header inner)], [name]⟩ =
      some ⟨root ++ [(name, .table .header
        (inner ++ entries.map fun entry => (entry.1, .value entry.2.toValue)))], [name]⟩ := by
  induction entries generalizing inner with
  | nil => simp
  | cons entry entries ih =>
    have hkey : entry.1 ∉ inner.map Prod.fst := by
      intro hmem
      exact (List.nodup_append.mp hkeys).2.2 _ hmem _ (by simp) rfl
    rw [List.map_cons, List.foldlM_cons, after?_assignment hname hkey]
    have hrun := ih (inner ++ [(entry.1, .value entry.2.toValue)]) (by simpa using hkeys)
    rw [List.append_assoc inner] at hrun
    exact hrun

/-- The table of a section, as it stands while a document is read. -/
def Section.entry (given : Section) : String × Entry :=
  (given.name, .table .header (given.entries.map fun entry => (entry.1, .value entry.2.toValue)))

/-- The lines of one section add exactly that section to a document that does not name it yet. -/
theorem foldlM_section {given : Section} (hkeys : (given.entries.map Prod.fst).Nodup)
    {root : Entries} (hname : given.name ∉ root.map Prod.fst) (current : List String) :
    (given.lines.map Prod.snd).foldlM Progress.after? ⟨root, current⟩ =
      some ⟨root ++ [given.entry], [given.name]⟩ := by
  have hlines : given.lines.map Prod.snd = .header [] given.name ::
      given.entries.map fun entry => Line.assignment [] entry.1 entry.2.toValue := by
    simp [Section.lines]
  rw [hlines, List.foldlM_cons, after?_header hname]
  simpa [Section.entry] using foldlM_assignments hname given.entries [] (by simpa using hkeys)

/-- Sections with names of their own are read one after the other. -/
theorem foldlM_sections {sections : List Section}
    (hkeys : ∀ given ∈ sections, (given.entries.map Prod.fst).Nodup) (root : Entries)
    (hnames : (root.map Prod.fst ++ sections.map Section.name).Nodup) (current : List String) :
    ∃ current', sections.foldlM (fun progress given =>
        (given.lines.map Prod.snd).foldlM Progress.after? progress) ⟨root, current⟩ =
      some ⟨root ++ sections.map Section.entry, current'⟩ := by
  induction sections generalizing root current with
  | nil => exact ⟨current, by simp⟩
  | cons given sections ih =>
    have hkeys := List.forall_mem_cons.mp hkeys
    have hname : given.name ∉ root.map Prod.fst := by
      intro hmem
      exact (List.nodup_append.mp hnames).2.2 _ hmem _ (by simp) rfl
    obtain ⟨current', hrun⟩ := ih hkeys.2 (root ++ [given.entry])
      (by simpa [Section.entry] using hnames) [given.name]
    refine ⟨current', ?_⟩
    rw [List.foldlM_cons, foldlM_section hkeys.1 hname]
    simpa using hrun

/-! ## Documents -/

theorem toValues_entries (entries : List (String × Scalar)) :
    Entries.toValues (entries.map fun entry => (entry.1, .value entry.2.toValue)) =
      entries.map fun entry => (entry.1, entry.2.toValue) := by
  induction entries with
  | nil => rfl
  | cons entry entries ih => simp [Entries.toValues, Entry.toValue, ih]

/-- The entries that sections leave in a document stand for their values. -/
theorem toValues_sections (sections : List Section) :
    Entries.toValues (sections.map Section.entry) = sections.map Section.toValue := by
  induction sections with
  | nil => rfl
  | cons given sections ih =>
    simp [Entries.toValues, Section.entry, Section.toValue, Entry.toValue, toValues_entries] at ih ⊢
    exact ih

theorem settle?_scalar (scalar : Scalar) : scalar.toValue.settle? = some scalar.toValue := by
  cases scalar <;> rfl

theorem settleEntries?_scalars (entries : List (String × Scalar)) :
    Value.settleEntries? (entries.map fun entry => (entry.1, entry.2.toValue)) =
      some (entries.map fun entry => (entry.1, entry.2.toValue)) := by
  induction entries with
  | nil => rfl
  | cons entry entries ih => simp [Value.settleEntries?, settle?_scalar, ih]

theorem Section.Readable.settle? {given : Section} (h : given.Readable) :
    given.toValue.2.settle? = some given.toValue.2 := by
  rw [Section.toValue]
  cases hentries : given.entries with
  | nil => rfl
  | cons entry entries =>
    have hfirst : entry.1 ≠ dateTimeKey := h.plain entry (by simp [hentries])
    simp [Value.settle?, hfirst, settle?_scalar, settleEntries?_scalars]

/-- Readable sections are settled as they are: no entry of them poses as a date. -/
theorem settleEntries?_sections {sections : List Section}
    (h : ∀ given ∈ sections, given.Readable) :
    Value.settleEntries? (sections.map Section.toValue) = some (sections.map Section.toValue) := by
  induction sections with
  | nil => rfl
  | cons given sections ih =>
    have h := List.forall_mem_cons.mp h
    have hsplit : given.toValue = (given.name, given.toValue.2) := rfl
    rw [List.map_cons, hsplit, Value.settleEntries?, h.1.settle?, ih h.2]
    rfl

/-- A document of sections is read as their tables. -/
theorem read?_sectionsText {sections : List Section}
    (hnames : (sections.map Section.name).Pairwise (· < ·))
    (h : ∀ given ∈ sections, given.Readable) :
    read? (sectionsText sections) = some (sections.map Section.toValue) := by
  by_cases hempty : sections = []
  · subst hempty
    rfl
  obtain ⟨header, name, lines, hlines⟩ := exists_documentLines hempty
  have hkeys : ∀ given ∈ sections, (given.entries.map Prod.fst).Nodup :=
    fun given hgiven => nodup_of_increasing (h given hgiven).increasing
  obtain ⟨current, hrun⟩ := foldlM_sections hkeys []
    (by simpa using nodup_of_increasing hnames) []
  have hmark : dropMark (sectionsText sections).toList = (sectionsText sections).toList := by
    rw [toList_sectionsText, hlines]
    rfl
  have hne : documentLines sections ≠ [] := by simp [hlines]
  rw [read?, hmark, toList_sectionsText,
    lines?_flatMap hne fun line => isLine_of_mem_documentLines h, foldlM_documentLines, hrun]
  · have hsettle := settleEntries?_sections h
    rw [← toValues_sections] at hsettle ⊢
    exact hsettle
  · exact Nat.le_succ_of_le (length_le_length_flatMap_lines _)

/-! ## Formats -/

/-- Readable sections are written by the plain format, and their text reads back as their
values. -/
theorem plainFormat_faithful : plainFormat.Faithful where
  writes _ _ := ⟨_, rfl⟩
  reads_back hnames h := by
    rintro _ ⟨⟩
    simp only [plainFormat, read?_sectionsText hnames h]

end SyntaxForest.Toml
