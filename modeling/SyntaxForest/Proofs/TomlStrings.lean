import Mathlib.Data.Option.Basic
import SyntaxForest.Toml.Writer

/-! Strings and keys of TOML documents read back.  A string that is written in any
of its forms is read as itself, whatever line follows it, and so is a key.  The
lemmas give the rest of the document a name, since where a string ends shows only
in what follows: behind the closing quotes of a block up to two more belong to it. -/

namespace SyntaxForest.Toml

/-! ## Escapes -/

/-- The four hexadecimal digits written for a control character name that character. -/
theorem hexChar?_of_isControl {c : Char} (h : isControl c) :
    hexChar? ['0', '0', hexDigit (c.toNat / 16), hexDigit (c.toNat % 16)] = some c := by
  have hall : ∀ n < 128, isControl (Char.ofNat n) →
      hexChar? ['0', '0', hexDigit (n / 16), hexDigit (n % 16)] = some (Char.ofNat n) := by
    decide
  have hlt : c.toNat < 128 := by
    simp only [isControl, Bool.or_eq_true, Bool.and_eq_true, decide_eq_true_eq] at h
    omega
  simpa using hall c.toNat hlt (by simpa using h)

/-- A character that needs no escape for being a control one is plain or a line break. -/
theorem isPlain_or_of_isControl {c : Char} (h : isControl c = false) :
    isPlain c ∨ c = '\n' := by
  simp only [isControl, Bool.or_eq_false_iff, Bool.and_eq_false_iff, decide_eq_false_iff_not,
    Decidable.not_not] at h
  simp only [isPlain, Bool.or_eq_true, Bool.and_eq_true, decide_eq_true_eq]
  obtain ⟨(hlow | htab) | hbreak, hdelete⟩ := h
  · exact .inl (.inr ⟨Nat.le_of_not_lt hlow, hdelete⟩)
  · exact .inl (.inl htab)
  · exact .inr hbreak

/-- What stands for a character in double quotes: an escape that reads as the
character and is no escaped line break, or the character itself. -/
theorem escaped_cases (c : Char) :
    (∃ mark, escaped c = '\\' :: mark ∧
      ∀ rest, unescape? (mark ++ rest) = some (c, rest) ∧ escapedBreak? (mark ++ rest) = none) ∨
    (escaped c = [c] ∧ isPlain c ∧ c ≠ '"' ∧ c ≠ '\\' ∧ c ≠ '\n') := by
  fun_cases escaped c
  case case8 hcontrol =>
    refine .inl ⟨_, rfl, fun rest => ⟨?_, rfl⟩⟩
    simp [unescape?, hexChar?_of_isControl hcontrol]
  case case9 htab hbreak _ _ hquote hslash hcontrol =>
    have hplain := isPlain_or_of_isControl (Bool.eq_false_iff.mpr hcontrol)
    exact .inr ⟨rfl, hplain.resolve_right hbreak, hquote, hslash, hbreak⟩
  all_goals
    subst c
    exact .inl ⟨_, rfl, fun rest => ⟨rfl, rfl⟩⟩

theorem length_pos_escaped (c : Char) : 0 < (escaped c).length := by
  obtain ⟨mark, hmark, -⟩ | ⟨hself, -⟩ := escaped_cases c
  · simp [hmark]
  · simp [hself]

/-- Escaping never shortens a text, so the text's own length is fuel enough to read it back. -/
theorem length_le_length_flatMap_escaped (text : List Char) :
    text.length ≤ (text.flatMap escaped).length := by
  induction text with
  | nil => simp
  | cons c text ih =>
    have := length_pos_escaped c
    simp only [List.flatMap_cons, List.length_cons, List.length_append]
    omega

/-! ## Strings on one line -/

theorem guard_bind {α : Type} {p : Prop} [Decidable p] (h : p) (f : Unit → Option α) :
    (guard p >>= f) = f () := by
  rw [(Option.guard_eq_some' ()).mpr h]
  rfl

/-- One step of a one-line string: a plain character stands for itself. -/
theorem basicBody?_cons_of_isPlain {c : Char} (hplain : isPlain c) (hquote : c ≠ '"')
    (hslash : c ≠ '\\') (fuel : Nat) (rest : List Char) :
    basicBody? (fuel + 1) (c :: rest) =
      (basicBody? fuel rest).map fun (body, rest) => (c :: body, rest) := by
  rw [basicBody?.eq_5 _ _ _ (by simpa using hquote) (by simpa using hslash)]
  rw [guard_bind hplain]
  cases basicBody? fuel rest <;> rfl

/-- The body of a one-line string reads an escaped text back up to the closing quote. -/
theorem basicBody?_flatMap_escaped {fuel : Nat} {text : List Char} (h : text.length < fuel)
    (more : List Char) :
    basicBody? fuel (text.flatMap escaped ++ '"' :: more) = some (text, more) := by
  induction text generalizing fuel with
  | nil =>
    obtain _ | fuel := fuel
    · simp at h
    · rfl
  | cons c text ih =>
    obtain _ | fuel := fuel
    · simp at h
    have ih := ih (Nat.lt_of_succ_lt_succ h)
    rw [List.flatMap_cons, List.append_assoc]
    obtain ⟨mark, hmark, hread⟩ | ⟨hself, hplain, hquote, hslash, -⟩ := escaped_cases c
    · rw [hmark, List.cons_append, basicBody?, (hread _).1]
      simp [ih]
    · rw [hself, List.cons_append, List.nil_append,
        basicBody?_cons_of_isPlain hplain hquote hslash, ih]
      rfl

/-- A text between double quotes, escaped, is read back whatever follows it. -/
theorem lineString?_basic (text more : List Char) :
    lineString? (Form.basic.write text ++ more) = some (.ofList text, more) := by
  have hsplit : Form.basic.write text ++ more = '"' :: (text.flatMap escaped ++ '"' :: more) := by
    simp [Form.write]
  have hfuel : text.length < (text.flatMap escaped ++ '"' :: more).length + 1 := by
    have := length_le_length_flatMap_escaped text
    simp only [List.length_append]
    omega
  rw [hsplit, lineString?, basicBody?_flatMap_escaped hfuel]
  rfl

/-- A text between single quotes is read back when it has no character that would need an
escape. -/
theorem lineString?_literal {text : List Char} (h : ∀ c ∈ text, (isPlain c && c ≠ '\'') = true)
    (more : List Char) :
    lineString? (Form.literal.write text ++ more) = some (.ofList text, more) := by
  have hsplit : Form.literal.write text ++ more = '\'' :: (text ++ '\'' :: more) := by
    simp [Form.write]
  rw [hsplit, lineString?, literalBody?, List.dropWhile_append_of_pos h,
    List.takeWhile_append_of_pos h]
  simp

/-! ## Strings over several lines -/

theorem newline?_cons_eq_none {c : Char} (hbreak : c ≠ '\n') (hreturn : c ≠ '\r')
    (rest : List Char) : newline? (c :: rest) = none := by
  rw [newline?.eq_3] <;> simp [hbreak, hreturn]

theorem ne_return_of_isPlain {c : Char} (h : isPlain c) : c ≠ '\r' := by
  rintro rfl
  exact absurd h (by decide)

/-- The newline behind the opening quotes goes, and no other. -/
theorem dropBreak_opening {text rest : List Char} (h : '\n' ∉ text → newline? rest = none) :
    dropBreak (opening text ++ rest) = rest := by
  by_cases hbreak : '\n' ∈ text
  · simp [opening, hbreak, dropBreak, newline?]
  · simp [opening, hbreak, dropBreak, h hbreak]

/-- One step of a block: a character that is no escape and does not begin the closing quotes. -/
theorem blockBody?_cons {c : Char} {rest : List Char} (hplain : isPlain c ∨ c = '\n')
    (hslash : c ≠ '\\') (hquote : c = '"' → ¬ ['"', '"'] <+: rest) (fuel : Nat) :
    blockBody? (fuel + 1) (c :: rest) =
      (blockBody? fuel rest).map fun (body, rest) => (c :: body, rest) := by
  have hreturn : c ≠ '\r' := hplain.elim ne_return_of_isPlain (by rintro rfl; decide)
  rw [blockBody?.eq_8]
  · rw [guard_bind (by simpa using hplain)]
    cases blockBody? fuel rest <;> rfl
  · rintro more rfl rfl
    simp at hquote
  · rintro more rfl rfl
    simp at hquote
  · rintro more rfl rfl
    simp at hquote
  · exact hslash
  · exact fun _ h => absurd h hreturn

/-- One step of a block: an escape stands for its character. -/
theorem blockBody?_escape {c : Char} {mark rest : List Char}
    (hread : unescape? (mark ++ rest) = some (c, rest))
    (hbreak : escapedBreak? (mark ++ rest) = none) (fuel : Nat) :
    blockBody? (fuel + 1) ('\\' :: (mark ++ rest)) =
      (blockBody? fuel rest).map fun (body, rest) => (c :: body, rest) := by
  rw [blockBody?, hbreak]
  cases h : blockBody? fuel rest <;> simp [hread, h]

/-- Three quotes close a block when no fourth follows them. -/
theorem blockBody?_close {more : List Char} (h : more.head? ≠ some '"') (fuel : Nat) :
    blockBody? (fuel + 1) ('"' :: '"' :: '"' :: more) = some ([], more) := by
  rw [blockBody?.eq_5] <;> (rintro rest rfl; simp at h)

/-- A block goes on with a quote only where the text has one, and no two stand
before it. -/
theorem blockContent_cons {run : Nat} {c : Char} (h : c = '"' → run = 2) (text : List Char) :
    ∃ first rest, blockContent run (c :: text) = first :: rest ∧ first ≠ '"' := by
  by_cases hquote : c = '"'
  · exact ⟨'\\', _, by simp only [blockContent, hquote, h hquote]; rfl, by decide⟩
  · by_cases hbreak : c = '\n'
    · exact ⟨'\n', _, by simp only [blockContent, hbreak]; rfl, by decide⟩
    · rw [blockContent, if_neg hquote, if_neg hbreak]
      obtain ⟨mark, hmark, -⟩ | ⟨hself, -⟩ := escaped_cases c
      · exact ⟨'\\', _, by rw [hmark, List.cons_append], by decide⟩
      · exact ⟨c, _, by rw [hself, List.singleton_append], hquote⟩

/-- Two quotes more, behind one or two, are those at the end of the block. -/
theorem eq_nil_or_of_two_quotes {run : Nat} {text more : List Char} (hrun : run = 1 ∨ run = 2)
    (h : ['"', '"'] <+: blockContent run text ++ more) :
    text = [] ∨ run = 1 ∧ text = ['"'] := by
  obtain _ | ⟨c, text⟩ := text
  · exact .inl rfl
  by_cases hquote : c = '"' → run = 2
  · obtain ⟨first, rest, hrest, hfirst⟩ := blockContent_cons hquote text
    rw [hrest] at h
    simp [Ne.symm hfirst] at h
  · obtain ⟨rfl, htwo⟩ := Classical.not_imp.mp hquote
    obtain rfl := hrun.resolve_right htwo
    refine .inr ⟨rfl, ?_⟩
    obtain _ | ⟨d, text⟩ := text
    · rfl
    · have hnext : d = '"' → 2 = 2 := fun _ => rfl
      obtain ⟨first, rest, hrest, hfirst⟩ := blockContent_cons hnext text
      simp [blockContent.eq_2 1, hrest, Ne.symm hfirst] at h

/-- A quote that stands for itself, before the rest of a block.  Where two more
follow it, it is one of the quotes at the end that belong to the string. -/
theorem blockBody?_quote {run fuel : Nat} {text more : List Char} (hrun : run < 2)
    (hmore : more.head? ≠ some '"')
    (h : blockBody? fuel (blockContent (run + 1) text ++ '"' :: '"' :: '"' :: more) =
      some (text, more)) :
    blockBody? (fuel + 1) ('"' :: (blockContent (run + 1) text ++ '"' :: '"' :: '"' :: more)) =
      some ('"' :: text, more) := by
  by_cases hend : ['"', '"'] <+: blockContent (run + 1) text ++ '"' :: '"' :: '"' :: more
  · obtain rfl | ⟨hone, rfl⟩ := eq_nil_or_of_two_quotes (by omega) hend
    · rw [blockContent, List.nil_append, blockBody?.eq_4]
      rintro rest rfl
      simp at hmore
    · rw [hone]
      rfl
  · rw [blockBody?_cons (by decide) (by decide) fun _ => hend, h]
    rfl

/-- A character that is no quote, before the rest of a block. -/
theorem blockBody?_escaped {c : Char} (hquote : c ≠ '"') {fuel : Nat}
    {text rest more : List Char} (h : blockBody? fuel rest = some (text, more)) :
    blockBody? (fuel + 1) (escaped c ++ rest) = some (c :: text, more) := by
  obtain ⟨mark, hmark, hread⟩ | ⟨hself, hplain, -, hslash, -⟩ := escaped_cases c
  · rw [hmark, List.cons_append, blockBody?_escape (hread _).1 (hread _).2, h]
    rfl
  · rw [hself, List.singleton_append, blockBody?_cons (.inl hplain) hslash (absurd · hquote), h]
    rfl

/-- The content of a block is read as the text it was made of, whatever quotes stand
before it. -/
theorem blockBody?_blockContent {run fuel : Nat} {text more : List Char} (hrun : run ≤ 2)
    (hfuel : text.length < fuel) (hmore : more.head? ≠ some '"') :
    blockBody? fuel (blockContent run text ++ '"' :: '"' :: '"' :: more) = some (text, more) := by
  induction text generalizing run fuel with
  | nil =>
    obtain _ | fuel := fuel
    · simp at hfuel
    · exact blockBody?_close hmore fuel
  | cons c text ih =>
    obtain _ | fuel := fuel
    · simp at hfuel
    have ih {run : Nat} (hrun : run ≤ 2) := ih hrun (Nat.lt_of_succ_lt_succ hfuel)
    have hzero := ih (Nat.zero_le 2)
    rw [blockContent]
    split
    case isTrue hquote =>
      subst hquote
      split
      case isTrue =>
        change blockBody? (fuel + 1)
          ('\\' :: (['"'] ++ (blockContent 0 text ++ '"' :: '"' :: '"' :: more))) = _
        rw [blockBody?_escape rfl rfl, hzero]
        rfl
      case isFalse htwo =>
        have hroom : run < 2 := Nat.lt_of_le_of_ne hrun htwo
        exact blockBody?_quote hroom hmore (ih hroom)
    case isFalse hquote =>
      split
      case isTrue hbreak =>
        subst hbreak
        rw [List.cons_append, blockBody?_cons (.inr rfl) (by decide) (absurd · hquote), hzero]
        rfl
      case isFalse =>
        rw [List.append_assoc]
        exact blockBody?_escaped hquote hzero

theorem length_le_length_blockContent (run : Nat) (text : List Char) :
    text.length ≤ (blockContent run text).length := by
  fun_induction blockContent run text with
  | case1 => simp
  | case2 => grind
  | case3 => grind
  | case4 => grind
  | case5 run c text _ _ ih =>
    have := length_pos_escaped c
    simp only [List.length_cons, List.length_append]
    omega

/-- A block without newlines does not begin with a line break. -/
theorem newline?_blockContent {text : List Char} (h : '\n' ∉ text) (more : List Char) :
    newline? (blockContent 0 text ++ '"' :: more) = none := by
  obtain _ | ⟨c, text⟩ := text
  · rfl
  have hbreak : c ≠ '\n' := by grind
  by_cases hquote : c = '"'
  · subst hquote
    rfl
  · rw [blockContent, if_neg hquote, if_neg hbreak]
    obtain ⟨mark, hmark, -⟩ | ⟨hself, hplain, -⟩ := escaped_cases c
    · rw [hmark]
      rfl
    · rw [hself]
      exact newline?_cons_eq_none hbreak (ne_return_of_isPlain hplain) _

/-- A text written as a block of double quotes is read back. -/
theorem string?_block (text : List Char) {more : List Char} (h : more.head? ≠ some '"') :
    string? (Form.block.write text ++ more) = some (.ofList text, more) := by
  have hsplit : Form.block.write text ++ more = '"' :: '"' :: '"' ::
      (opening text ++ (blockContent 0 text ++ '"' :: '"' :: '"' :: more)) := by
    simp [Form.write]
  have hfuel : text.length <
      (opening text ++ (blockContent 0 text ++ '"' :: '"' :: '"' :: more)).length + 1 := by
    have := length_le_length_blockContent 0 text
    simp only [List.length_append]
    omega
  rw [hsplit, string?, dropBreak_opening fun hbreak => newline?_blockContent hbreak _,
    blockBody?_blockContent (Nat.zero_le _) hfuel h]
  rfl

/-! ## Strings over several lines, as they are -/

/-- One step of a literal block: a character that does not begin the closing quotes. -/
theorem literalBlockBody?_cons {c : Char} {rest : List Char} (hplain : isPlain c ∨ c = '\n')
    (hquote : c = '\'' → ¬ ['\'', '\''] <+: rest) :
    literalBlockBody? (c :: rest) =
      (literalBlockBody? rest).map fun (body, rest) => (c :: body, rest) := by
  have hreturn : c ≠ '\r' := hplain.elim ne_return_of_isPlain (by rintro rfl; decide)
  rw [literalBlockBody?.eq_6]
  · rw [guard_bind (by simpa using hplain)]
    cases literalBlockBody? rest <;> rfl
  · rintro more rfl rfl
    simp at hquote
  · rintro more rfl rfl
    simp at hquote
  · rintro more rfl rfl
    simp at hquote
  · exact fun _ h => absurd h hreturn

theorem hasTriple_of_cons {c d : Char} {text : List Char} (h : hasTriple c (d :: text) = false) :
    hasTriple c text = false := by
  obtain _ | ⟨e, _ | ⟨f, text⟩⟩ := text
  · rfl
  · rfl
  · simp_all [hasTriple]

/-- The body of a literal block is read back up to its closing quotes. -/
theorem literalBlockBody?_append {text more : List Char}
    (hplain : ∀ c ∈ text, isPlain c ∨ c = '\n') (htriple : hasTriple '\'' text = false)
    (hmore : more.head? ≠ some '\'') :
    literalBlockBody? (text ++ '\'' :: '\'' :: '\'' :: more) = some (text, more) := by
  induction text with
  | nil => rw [List.nil_append, literalBlockBody?.eq_4] <;> (rintro rest rfl; simp at hmore)
  | cons c text ih =>
    have ih := ih (fun d hd => hplain d (List.mem_cons_of_mem c hd)) (hasTriple_of_cons htriple)
    by_cases hend : c = '\'' ∧ ['\'', '\''] <+: text ++ '\'' :: '\'' :: '\'' :: more
    · obtain ⟨rfl, hend⟩ := hend
      match text with
      | [] =>
        rw [List.cons_append, List.nil_append, literalBlockBody?.eq_3]
        rintro rest rfl
        simp at hmore
      | [d] =>
        obtain rfl : '\'' = d := by simpa using hend
        rfl
      | d :: e :: text =>
        obtain ⟨rfl, rfl⟩ : '\'' = d ∧ '\'' = e := by simpa using hend
        simp [hasTriple] at htriple
    · rw [List.cons_append, literalBlockBody?_cons (hplain c List.mem_cons_self)
        fun hc hquotes => hend ⟨hc, hquotes⟩, ih]
      rfl

/-- A text written as a block of single quotes is read back when it holds no three in a row. -/
theorem string?_literalBlock {text more : List Char} (hplain : ∀ c ∈ text, isPlain c ∨ c = '\n')
    (htriple : hasTriple '\'' text = false) (hmore : more.head? ≠ some '\'') :
    string? (Form.literalBlock.write text ++ more) = some (.ofList text, more) := by
  have hsplit : Form.literalBlock.write text ++ more = '\'' :: '\'' :: '\'' ::
      (opening text ++ (text ++ '\'' :: '\'' :: '\'' :: more)) := by
    simp [Form.write]
  have hbreak (h : '\n' ∉ text) : newline? (text ++ '\'' :: '\'' :: '\'' :: more) = none := by
    obtain _ | ⟨c, text⟩ := text
    · rfl
    · have hc : c ≠ '\n' := by grind
      have hreturn := ne_return_of_isPlain ((hplain c List.mem_cons_self).resolve_right hc)
      exact newline?_cons_eq_none hc hreturn _
  rw [hsplit, string?, dropBreak_opening hbreak, literalBlockBody?_append hplain htriple hmore]
  rfl

/-! ## The form of a value -/

theorem isPlain_and_of_all {text : List Char}
    (h : text.all fun c => !isControl c && c ≠ '\n' && c ≠ '\'') :
    ∀ c ∈ text, (isPlain c && c ≠ '\'') = true := by
  intro c hc
  have hc := List.all_eq_true.mp h c hc
  simp only [Bool.and_eq_true, Bool.not_eq_true', decide_eq_true_eq] at hc
  simp [(isPlain_or_of_isControl hc.1.1).resolve_right hc.1.2, hc.2]

/-- A text that opens with no three quotes holds a one-line string. -/
theorem string?_eq_lineString? {text : List Char} (hdouble : ¬ ['"', '"', '"'] <+: text)
    (hsingle : ¬ ['\'', '\'', '\''] <+: text) : string? text = lineString? text := by
  rw [string?.eq_3]
  · rintro rest rfl
    simp at hdouble
  · rintro rest rfl
    simp at hsingle

/-- A value between double quotes is read back: not followed by a quote, it is no block. -/
theorem string?_basic (text : List Char) {more : List Char} (h : more.head? ≠ some '"') :
    string? (Form.basic.write text ++ more) = some (.ofList text, more) := by
  rw [string?_eq_lineString?, lineString?_basic]
  · obtain _ | ⟨c, text⟩ := text
    · obtain _ | ⟨d, more⟩ := more
      · simp [Form.write]
      · simpa [Form.write, eq_comm] using h
    · obtain ⟨mark, hmark, -⟩ | ⟨hself, -, hquote, -⟩ := escaped_cases c
      · simp [Form.write, hmark]
      · simp [Form.write, hself, Ne.symm hquote]
  · simp [Form.write]

/-- A value between single quotes is read back: not followed by a quote, it is no block. -/
theorem string?_literal {text more : List Char} (htext : ∀ c ∈ text, (isPlain c && c ≠ '\'') = true)
    (hmore : more.head? ≠ some '\'') :
    string? (Form.literal.write text ++ more) = some (.ofList text, more) := by
  rw [string?_eq_lineString?, lineString?_literal htext]
  · simp [Form.write]
  · obtain _ | ⟨c, text⟩ := text
    · obtain _ | ⟨d, more⟩ := more
      · simp [Form.write]
      · simpa [Form.write, eq_comm] using hmore
    · have hc : c ≠ '\'' := by simpa using (Bool.and_eq_true_iff.mp (htext c List.mem_cons_self)).2
      simp [Form.write, Ne.symm hc]

/-- A value is read as itself in the form that is chosen for it. -/
theorem string?_ofValue (text : List Char) {more : List Char} (hdouble : more.head? ≠ some '"')
    (hsingle : more.head? ≠ some '\'') :
    string? ((Form.ofValue text).write text ++ more) = some (.ofList text, more) := by
  fun_cases Form.ofValue text
  case case1 => exact string?_basic text hdouble
  case case2 h => exact string?_literal (isPlain_and_of_all h) hsingle
  case case3 => exact string?_block text hdouble
  case case4 h =>
    simp only [Bool.and_eq_true, List.all_eq_true, Bool.not_eq_true'] at h
    exact string?_literalBlock (fun c hc => isPlain_or_of_isControl (h.1 c hc)) h.2 hsingle
  case case5 => exact string?_block text hdouble
  case case6 => exact string?_basic text hdouble

/-! ## Keys -/

/-- A quoted key is read back in whichever of the two one-line forms it was written. -/
theorem lineString?_ofKey (text more : List Char) :
    lineString? ((Form.ofKey text).write text ++ more) = some (.ofList text, more) := by
  fun_cases Form.ofKey text
  case case1 => exact lineString?_basic text more
  case case2 h => exact lineString?_literal (isPlain_and_of_all h) more
  case case3 => exact lineString?_basic text more

/-- A key stands bare, as it is, or in quotes, in a form that reads as the key. -/
theorem keyText_cases (key : String) :
    (∃ first rest, keyText key = first :: rest ∧ key.toList = first :: rest ∧
      ∀ c ∈ first :: rest, isBareKeyChar c) ∨
    (∃ quote rest, keyText key = quote :: rest ∧ (quote = '"' ∨ quote = '\'') ∧
      ∀ more, lineString? (keyText key ++ more) = some (key, more)) := by
  fun_cases keyText key
  case case1 text hbare =>
    obtain ⟨first, rest, htext⟩ : ∃ first rest, text = first :: rest :=
      List.exists_cons_of_ne_nil (by simp_all)
    refine .inl ⟨first, rest, htext, htext, ?_⟩
    rw [← htext]
    exact List.all_eq_true.mp (Bool.and_eq_true_iff.mp hbare).2
  case case2 text _ =>
    have hread (more : List Char) :
        lineString? ((Form.ofKey text).write text ++ more) = some (key, more) := by
      rw [lineString?_ofKey, String.ofList_toList]
    revert hread
    fun_cases Form.ofKey text
    case case1 => exact fun hread => .inr ⟨'"', _, rfl, .inl rfl, hread⟩
    case case2 => exact fun hread => .inr ⟨'\'', _, rfl, .inr rfl, hread⟩
    case case3 => exact fun hread => .inr ⟨'"', _, rfl, .inl rfl, hread⟩

/-- A key, bare or quoted, is read back up to a character that no bare key may hold. -/
theorem keyPart?_keyText (key : String) {c : Char} (h : isBareKeyChar c = false)
    (more : List Char) : keyPart? (keyText key ++ c :: more) = some (key, c :: more) := by
  obtain ⟨first, rest, htext, hkey, hbare⟩ | ⟨quote, rest, htext, hquote, hread⟩ :=
    keyText_cases key
  · have hfirst := hbare first List.mem_cons_self
    have hname : String.ofList (first :: rest) = key := by rw [← hkey, String.ofList_toList]
    rw [htext, keyPart?.eq_3, List.takeWhile_append_of_pos hbare,
      List.dropWhile_append_of_pos hbare]
    · simp [h, hname]
    · rintro _ heq
      obtain rfl := (List.cons.inj heq).1
      exact absurd hfirst (by decide)
    · rintro _ heq
      obtain rfl := (List.cons.inj heq).1
      exact absurd hfirst (by decide)
  · rw [← hread (c :: more), htext]
    obtain rfl | rfl := hquote <;> rfl

/-- A key begins with no character that has a meaning of its own in front of it. -/
theorem exists_keyText (key : String) :
    ∃ first rest, keyText key = first :: rest ∧ first ∉ [' ', '\t', '#', '\n', '\r', '['] := by
  obtain ⟨first, rest, htext, -, hbare⟩ | ⟨quote, rest, htext, hquote, -⟩ := keyText_cases key
  · refine ⟨first, rest, htext, fun hmem => ?_⟩
    have hfirst := hbare first List.mem_cons_self
    simp only [List.mem_cons, List.not_mem_nil, or_false] at hmem
    rcases hmem with rfl | rfl | rfl | rfl | rfl | rfl <;> exact absurd hfirst (by decide)
  · refine ⟨quote, rest, htext, ?_⟩
    obtain rfl | rfl := hquote <;> decide

theorem skipSpace_keyText (key : String) (more : List Char) :
    skipSpace (keyText key ++ more) = keyText key ++ more := by
  obtain ⟨first, rest, htext, hfirst⟩ := exists_keyText key
  have hspace : isSpace first = false := by
    simp_all [isSpace]
  simp [htext, skipSpace, hspace]

/-- A written key is one part: it is read back as a path of itself when no point follows. -/
theorem key?_keyText (key : String) {c : Char} {more : List Char} (hbare : isBareKeyChar c = false)
    (hpoint : (skipSpace (c :: more)).head? ≠ some '.') :
    key? (keyText key ++ c :: more) = some ([key], skipSpace (c :: more)) := by
  change keyParts? (78 + 1) _ = _
  rw [keyParts?, skipSpace_keyText, keyPart?_keyText key hbare]
  simp only [Option.bind_eq_bind, Option.bind_some]
  split
  · simp_all
  · rfl

end SyntaxForest.Toml
