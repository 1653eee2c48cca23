import Mathlib.Data.Option.Basic
import SyntaxForest.Json

/-! A reader of JSON text, and what it makes of the text of a value: the value.  The
reader goes over the text twice.  A scanner makes tokens of the characters; it
skips blanks and undoes every escape that JSON has, surrogate pairs among them.  A
parser makes a value of the tokens and keeps the arrays and objects that are still
open on a stack.  Both go one step at a time and refuse what is no JSON; of JSON
they read the values that `Json` has, so neither `null` nor any number but the
natural ones. -/

namespace SyntaxForest.Json

/-! ## Tokens -/

inductive Token where
  | openArray
  | closeArray
  | openObject
  | closeObject
  | comma
  | colon
  | bool (value : Bool)
  | number (value : Nat)
  | string (value : String)
deriving DecidableEq, Repr

/-- What the scanner is in the middle of: between tokens; inside quotes, where after
the first half of a surrogate pair the second must follow; behind a backslash; before
a hexadecimal digit of a code unit, with so many more after it; behind a digit; or
inside a word, of which these letters are to come. -/
inductive Scan where
  | between
  | quoted (read : List Char) (half : Option Nat)
  | escaped (read : List Char) (half : Option Nat)
  | codeUnit (read : List Char) (half : Option Nat) (more unit : Nat)
  | number (value : Nat)
  | word (token : Token) (next : Char) (rest : List Char)
deriving DecidableEq, Repr

namespace Scan

/-- What a character does between tokens: the tokens it makes, and where it leads. -/
def start? (c : Char) : Option (List Token × Scan) :=
  match c with
  | ' ' | '\t' | '\n' | '\r' => some ([], .between)
  | '[' => some ([.openArray], .between)
  | ']' => some ([.closeArray], .between)
  | '\x7b' => some ([.openObject], .between)
  | '\x7d' => some ([.closeObject], .between)
  | ',' => some ([.comma], .between)
  | ':' => some ([.colon], .between)
  | '"' => some ([], .quoted [] none)
  | 't' => some ([], .word (.bool true) 'r' ['u', 'e'])
  | 'f' => some ([], .word (.bool false) 'a' ['l', 's', 'e'])
  | c => if c.isDigit then some ([], .number (c.toNat - '0'.toNat)) else none

/-- The character that an escape of two characters stands for. -/
def unescape? : Char → Option Char
  | '"' => some '"'
  | '\\' => some '\\'
  | '/' => some '/'
  | 'b' => some '\x08'
  | 'f' => some '\x0c'
  | 'n' => some '\n'
  | 'r' => some '\r'
  | 't' => some '\t'
  | _ => none

/-- The value of a hexadecimal digit. -/
def hexValue? (c : Char) : Option Nat :=
  if '0' ≤ c ∧ c ≤ '9' then some (c.toNat - '0'.toNat)
  else if 'a' ≤ c ∧ c ≤ 'f' then some (c.toNat - 'a'.toNat + 10)
  else if 'A' ≤ c ∧ c ≤ 'F' then some (c.toNat - 'A'.toNat + 10)
  else none

/-- Takes in a code unit: a character, or half of one. -/
def take? (read : List Char) (half : Option Nat) (unit : Nat) : Option Scan :=
  match half with
  | none =>
    if 0xd800 ≤ unit ∧ unit < 0xdc00 then some (.quoted read (some unit))
    else if 0xdc00 ≤ unit ∧ unit < 0xe000 then none
    else some (.quoted (read ++ [Char.ofNat unit]) none)
  | some first =>
    if 0xdc00 ≤ unit ∧ unit < 0xe000 then
      let code := 0x10000 + (first - 0xd800) * 0x400 + (unit - 0xdc00)
      some (.quoted (read ++ [Char.ofNat code]) none)
    else none

/-- What a character does: the tokens it ends, and where it leads. -/
def step? (scan : Scan) (c : Char) : Option (List Token × Scan) :=
  match scan with
  | .between => start? c
  | .quoted read none =>
    if c = '"' then some ([.string (String.ofList read)], .between)
    else if c = '\\' then some ([], .escaped read none)
    -- control characters must be escaped
    else if c.toNat < 0x20 then none
    else some ([], .quoted (read ++ [c]) none)
  | .quoted read (some half) => if c = '\\' then some ([], .escaped read (some half)) else none
  | .escaped read half =>
    if c = 'u' then some ([], .codeUnit read half 3 0)
    else if half.isSome then none
    else (unescape? c).map fun plain => ([], .quoted (read ++ [plain]) none)
  | .codeUnit read half more unit => do
    let digit ← hexValue? c
    match more with
    | 0 => (take? read half (16 * unit + digit)).map ([], ·)
    | more + 1 => some ([], .codeUnit read half more (16 * unit + digit))
  | .number value =>
    if c.isDigit then
      -- no digit follows a leading zero
      if value = 0 then none else some ([], .number (10 * value + (c.toNat - '0'.toNat)))
    else (start? c).map fun (tokens, next) => (.number value :: tokens, next)
  | .word token next rest =>
    if c ≠ next then none
    else
      match rest with
      | [] => some ([token], .between)
      | next :: rest => some ([], .word token next rest)

/-- What the end of the text does. -/
def finish? : Scan → Option (List Token)
  | .between => some []
  | .number value => some [.number value]
  | _ => none

end Scan

/-- The tokens of a text. -/
def scan : Scan → List Char → Option (List Token)
  | state, [] => state.finish?
  | state, c :: text => do
    let (made, next) ← state.step? c
    (made ++ ·) <$> scan next text

/-! ## Values -/

/-- An array or an object that is still open, with what stands before the value
that is being read. -/
inductive Frame where
  | items (before : List Json)
  | members (before : List (String × Json)) (key : String)

/-- What may come next, below the open arrays and objects.  In place of a first item
or key there may be the end, and after a value a comma or the end. -/
inductive Place where
  | value (frames : List Frame)
  | firstItem (frames : List Frame)
  | firstKey (frames : List Frame)
  | key (before : List (String × Json)) (frames : List Frame)
  | colon (before : List (String × Json)) (key : String) (frames : List Frame)
  | after (value : Json) (frames : List Frame)

namespace Place

/-- What a token does that must begin a value. -/
def begin? (frames : List Frame) : Token → Option Place
  | .openArray => some (.firstItem frames)
  | .openObject => some (.firstKey frames)
  | .bool b => some (.after (.bool b) frames)
  | .number n => some (.after (.number n) frames)
  | .string text => some (.after (.string text) frames)
  | _ => none

/-- What a token does. -/
def step? : Place → Token → Option Place
  | .value frames, token => begin? frames token
  | .firstItem frames, .closeArray => some (.after (.array []) frames)
  | .firstItem frames, token => begin? (.items [] :: frames) token
  | .firstKey frames, .closeObject => some (.after (.object []) frames)
  | .firstKey frames, .string name => some (.colon [] name frames)
  | .key before frames, .string name => some (.colon before name frames)
  | .colon before name frames, .colon => some (.value (.members before name :: frames))
  | .after last (.items before :: frames), .comma =>
    some (.value (.items (before ++ [last]) :: frames))
  | .after last (.items before :: frames), .closeArray =>
    some (.after (.array (before ++ [last])) frames)
  | .after last (.members before name :: frames), .comma =>
    some (.key (before ++ [(name, last)]) frames)
  | .after last (.members before name :: frames), .closeObject =>
    some (.after (.object (before ++ [(name, last)])) frames)
  | _, _ => none

/-- The value that has been read, once nothing is open. -/
def finish? : Place → Option Json
  | .after whole [] => some whole
  | _ => none

end Place

/-- Reads a JSON text. -/
def ofText? (text : String) : Option Json := do
  let tokens ← scan .between text.toList
  let place ← tokens.foldlM Place.step? (.value [])
  place.finish?

/-! ## The tokens of a value -/

mutual

/-- The tokens of a value. -/
def tokens : Json → List Token
  | .bool value => [.bool value]
  | .number value => [.number value]
  | .string value => [.string value]
  | .array [] => [.openArray, .closeArray]
  | .array (item :: items) => .openArray :: tokens item ++ itemsTokens items ++ [.closeArray]
  | .object [] => [.openObject, .closeObject]
  | .object (member :: members) =>
    .openObject :: memberTokens member ++ membersTokens members ++ [.closeObject]

/-- The tokens of a member. -/
def memberTokens : String × Json → List Token
  | (key, value) => .string key :: .colon :: tokens value

/-- The tokens of the items after the first. -/
def itemsTokens : List Json → List Token
  | [] => []
  | item :: items => .comma :: tokens item ++ itemsTokens items

/-- The tokens of the members after the first. -/
def membersTokens : List (String × Json) → List Token
  | [] => []
  | member :: members => .comma :: memberTokens member ++ membersTokens members

end

/-! ## Scanning -/

/-- No digit stands first, so a number that stands before has ended. -/
def EndsNumber (text : List Char) : Prop :=
  ∀ c ∈ text.head?, c.isDigit = false

theorem scan_cons {state next : Scan} {c : Char} {made : List Token} (text : List Char)
    (h : state.step? c = some (made, next)) :
    scan state (c :: text) = (made ++ ·) <$> scan next text := by
  rw [scan, h]
  rfl

theorem scan_silent {state next : Scan} {c : Char} (text : List Char)
    (h : state.step? c = some ([], next)) : scan state (c :: text) = scan next text := by
  rw [scan_cons text h]
  simp

theorem scan_newline (level : Nat) (text : List Char) :
    scan .between (newline level ++ text) = scan .between text := by
  have hspaces (n : Nat) :
      scan .between (List.replicate n ' ' ++ text) = scan .between text := by
    induction n with
    | zero => rfl
    | succ n ih =>
      rw [List.replicate_succ, List.cons_append, scan_silent _ rfl]
      exact ih
  rw [newline, List.cons_append, scan_silent _ rfl]
  exact hspaces _

theorem hexValue?_hexDigit {n : Nat} (h : n < 16) : Scan.hexValue? (hexDigit n) = some n := by
  revert n
  decide

theorem scan_codeUnit_succ {read text : List Char} {half : Option Nat} {more unit digit : Nat}
    {c : Char} (h : Scan.hexValue? c = some digit) :
    scan (.codeUnit read half (more + 1) unit) (c :: text) =
      scan (.codeUnit read half more (16 * unit + digit)) text := by
  refine scan_silent text ?_
  rw [Scan.step?, h]
  rfl

theorem scan_codeUnit_zero {read text : List Char} {half : Option Nat} {unit digit : Nat} {c : Char}
    {next : Scan} (h : Scan.hexValue? c = some digit)
    (hnext : Scan.take? read half (16 * unit + digit) = some next) :
    scan (.codeUnit read half 0 unit) (c :: text) = scan next text := by
  refine scan_silent text ?_
  rw [Scan.step?, h]
  exact congrArg (Option.map ([], ·)) hnext

/-- A control character is read from its number. -/
theorem scan_control {c : Char} (hcontrol : c.toNat < 0x20) (read text : List Char) :
    scan (.quoted read none)
        ('\\' :: 'u' :: '0' :: '0' :: hexDigit (c.toNat / 16) :: hexDigit (c.toNat % 16) :: text) =
      scan (.quoted (read ++ [c]) none) text := by
  have hunit : 16 * (16 * (16 * (16 * 0 + 0) + 0) + c.toNat / 16) + c.toNat % 16 = c.toNat := by
    omega
  -- so small a number is no half of a pair
  have htake : Scan.take? read none c.toNat = some (.quoted (read ++ [c]) none) := by
    rw [Scan.take?, if_neg (by omega), if_neg (by omega), Char.ofNat_toNat]
  rw [← hunit] at htake
  have hzero : Scan.hexValue? '0' = some 0 := by decide
  rw [scan_silent _ rfl, scan_silent _ rfl, scan_codeUnit_succ hzero, scan_codeUnit_succ hzero,
    scan_codeUnit_succ (hexValue?_hexDigit (by omega)),
    scan_codeUnit_zero (hexValue?_hexDigit (by omega)) htake]

/-- What stands for a character inside quotes is read as that character. -/
theorem scan_escapeChar (c : Char) (read text : List Char) :
    scan (.quoted read none) (escapeChar c ++ text) = scan (.quoted (read ++ [c]) none) text := by
  unfold escapeChar
  split
  -- the characters with a name of their own are left to the end
  case h_8 hquote hslash _ _ _ _ _ =>
    split
    case isTrue hcontrol => exact scan_control hcontrol read text
    case isFalse hplain =>
      refine scan_silent text ?_
      rw [Scan.step?, if_neg hquote, if_neg hslash, if_neg hplain]
  all_goals
    rw [List.cons_append, scan_silent _ rfl, List.cons_append, scan_silent _ rfl]
    rfl

/-- A quoted text is one token. -/
theorem scan_quoted (text : String) (rest : List Char) :
    scan .between (quoted text ++ rest) = (.string text :: ·) <$> scan .between rest := by
  have hinside (chars read : List Char) :
      scan (.quoted read none) (chars.flatMap escapeChar ++ '"' :: rest) =
        (.string (String.ofList (read ++ chars)) :: ·) <$> scan .between rest := by
    induction chars generalizing read with
    | nil => rw [List.flatMap_nil, List.nil_append, List.append_nil, scan_cons rest rfl]; rfl
    | cons c chars ih =>
      rw [List.flatMap_cons, List.append_assoc, scan_escapeChar, ih, List.append_assoc]
      rfl
  have hopen := hinside text.toList []
  rw [List.nil_append, String.ofList_toList] at hopen
  rw [quoted, List.cons_append, List.cons_append, List.append_assoc, scan_silent _ rfl]
  exact hopen

/-- A number ends where its digits do. -/
theorem scan_number {rest : List Char} (value : Nat) (h : EndsNumber rest) :
    scan (.number value) rest = (.number value :: ·) <$> scan .between rest := by
  cases rest with
  | nil => rfl
  | cons c rest =>
    have hc : ¬ c.isDigit = true := by simp [h c rfl]
    have hstep : Scan.step? (.number value) c =
        (Scan.start? c).map fun (tokens, next) => (.number value :: tokens, next) :=
      if_neg hc
    rw [scan, scan, hstep, Scan.step?]
    cases Scan.start? c <;> simp [Function.comp_def]

/-- The digits of a number are read one by one, the first of them never a zero that
others follow. -/
theorem scan_toDigits (n : Nat) (text : List Char) :
    scan .between (Nat.toDigits 10 n ++ text) = scan (.number n) text := by
  have hfirst : ∀ d < 10, Scan.start? d.digitChar = some ([], .number d) := by decide
  have hdigit : ∀ d < 10, d.digitChar.isDigit = true ∧ d.digitChar.toNat - '0'.toNat = d := by
    decide
  induction n using Nat.strongRecOn generalizing text with
  | ind n ih =>
    by_cases hone : n < 10
    · rw [Nat.toDigits_of_lt_base hone]
      exact scan_silent text (hfirst n hone)
    · -- all digits but the last make a number above zero
      obtain ⟨hlast, hvalue⟩ := hdigit (n % 10) (Nat.mod_lt n (by decide))
      rw [Nat.toDigits_of_base_le (by decide) (Nat.le_of_not_lt hone), List.append_assoc,
        ih (n / 10) (by omega)]
      refine scan_silent text ?_
      have hfront : n / 10 ≠ 0 := by omega
      rw [Scan.step?, if_pos hlast, if_neg hfront, hvalue, Nat.div_add_mod]

theorem endsNumber_cons {c : Char} (text : List Char) (h : c.isDigit = false) :
    EndsNumber (c :: text) := by
  intro d hd
  rw [← Option.some.inj hd]
  exact h

theorem endsNumber_newline (level : Nat) (text : List Char) : EndsNumber (newline level ++ text) :=
  endsNumber_cons _ (by decide)

theorem endsNumber_itemsChars (level : Nat) (items : List Json) {rest : List Char}
    (h : EndsNumber rest) : EndsNumber (itemsChars level items ++ rest) := by
  cases items with
  | nil => simpa [itemsChars] using h
  | cons item items =>
    rw [itemsChars]
    exact endsNumber_cons _ (by decide)

theorem endsNumber_membersChars (level : Nat) (members : List (String × Json)) {rest : List Char}
    (h : EndsNumber rest) : EndsNumber (membersChars level members ++ rest) := by
  cases members with
  | nil => simpa [membersChars] using h
  | cons member members =>
    rw [membersChars]
    exact endsNumber_cons _ (by decide)

mutual

/-- The text of a value scans to the tokens of the value. -/
theorem scan_chars (level : Nat) : ∀ (value : Json) {rest : List Char}, EndsNumber rest →
    scan .between (chars level value ++ rest) = (value.tokens ++ ·) <$> scan .between rest
  | .bool true, rest, _ => by
    rw [chars, tokens]
    change scan .between ('t' :: 'r' :: 'u' :: 'e' :: rest) = _
    rw [scan_silent _ rfl, scan_silent _ rfl, scan_silent _ rfl, scan_cons _ rfl]
  | .bool false, rest, _ => by
    rw [chars, tokens]
    change scan .between ('f' :: 'a' :: 'l' :: 's' :: 'e' :: rest) = _
    rw [scan_silent _ rfl, scan_silent _ rfl, scan_silent _ rfl, scan_silent _ rfl,
      scan_cons _ rfl]
  | .number n, rest, hrest => by
    rw [chars, tokens, scan_toDigits, scan_number n hrest]
    rfl
  | .string text, rest, _ => by
    rw [chars, tokens, scan_quoted]
    rfl
  | .array [], rest, _ => by
    rw [chars, tokens, List.cons_append, scan_cons _ rfl, List.cons_append, scan_cons _ rfl]
    simp [Function.comp_def]
  | .array (item :: items), rest, _ => by
    -- an item that is a number ends at a comma or at the line break
    have hend := endsNumber_newline level (']' :: rest)
    simp only [chars, tokens, List.append_assoc, List.cons_append, List.nil_append]
    rw [scan_cons _ rfl, scan_newline,
      scan_chars (level + 1) item (endsNumber_itemsChars (level + 1) items hend),
      scan_itemsChars (level + 1) items hend, scan_newline, scan_cons _ rfl]
    simp [Function.comp_def]
  | .object [], rest, _ => by
    rw [chars, tokens, List.cons_append, scan_cons _ rfl, List.cons_append, scan_cons _ rfl]
    simp [Function.comp_def]
  | .object (member :: members), rest, _ => by
    have hend := endsNumber_newline level ('\x7d' :: rest)
    simp only [chars, tokens, List.append_assoc, List.cons_append, List.nil_append]
    rw [scan_cons _ rfl, scan_newline,
      scan_memberChars (level + 1) member (endsNumber_membersChars (level + 1) members hend),
      scan_membersChars (level + 1) members hend, scan_newline, scan_cons _ rfl]
    simp [Function.comp_def]

theorem scan_memberChars (level : Nat) : ∀ (member : String × Json) {rest : List Char},
    EndsNumber rest →
    scan .between (memberChars level member ++ rest) =
      (memberTokens member ++ ·) <$> scan .between rest
  | (key, value), rest, hrest => by
    simp only [memberChars, memberTokens, List.append_assoc, List.cons_append, List.nil_append]
    rw [scan_quoted, scan_cons _ rfl, scan_silent _ rfl, scan_chars level value hrest]
    simp [Function.comp_def]

theorem scan_itemsChars (level : Nat) : ∀ (items : List Json) {rest : List Char},
    EndsNumber rest →
    scan .between (itemsChars level items ++ rest) = (itemsTokens items ++ ·) <$> scan .between rest
  | [], rest, _ => by
    rw [itemsChars, itemsTokens]
    simp
  | item :: items, rest, hrest => by
    simp only [itemsChars, itemsTokens, List.append_assoc, List.cons_append]
    rw [scan_cons _ rfl, scan_newline,
      scan_chars level item (endsNumber_itemsChars level items hrest),
      scan_itemsChars level items hrest]
    simp [Function.comp_def]

theorem scan_membersChars (level : Nat) : ∀ (members : List (String × Json)) {rest : List Char},
    EndsNumber rest →
    scan .between (membersChars level members ++ rest) =
      (membersTokens members ++ ·) <$> scan .between rest
  | [], rest, _ => by
    rw [membersChars, membersTokens]
    simp
  | member :: members, rest, hrest => by
    simp only [membersChars, membersTokens, List.append_assoc, List.cons_append]
    rw [scan_cons _ rfl, scan_newline,
      scan_memberChars level member (endsNumber_membersChars level members hrest),
      scan_membersChars level members hrest]
    simp [Function.comp_def]

end

/-! ## Parsing -/

/-- No value begins like the end of an array. -/
theorem tokens_eq_cons (value : Json) :
    ∃ first rest, value.tokens = first :: rest ∧ first ≠ .closeArray := by
  cases value with
  | bool b => exact ⟨_, _, rfl, by simp⟩
  | number n => exact ⟨_, _, rfl, by simp⟩
  | string text => exact ⟨_, _, rfl, by simp⟩
  | array items =>
    cases items with
    | nil => exact ⟨_, _, by rw [tokens], by simp⟩
    | cons item items => exact ⟨_, _, by rw [tokens]; rfl, by simp⟩
  | object members =>
    cases members with
    | nil => exact ⟨_, _, by rw [tokens], by simp⟩
    | cons member members => exact ⟨_, _, by rw [tokens]; rfl, by simp⟩

theorem foldlM_step {place next : Place} {token : Token} (tokens : List Token)
    (h : place.step? token = some next) :
    (token :: tokens).foldlM Place.step? place = tokens.foldlM Place.step? next := by
  rw [List.foldlM_cons, h]
  rfl

theorem foldlM_steps {place next : Place} {first : List Token} (second : List Token)
    (h : first.foldlM Place.step? place = some next) :
    (first ++ second).foldlM Place.step? place = second.foldlM Place.step? next := by
  rw [List.foldlM_append, h]
  rfl

/-- Behind the bracket, the first item is read as any other. -/
theorem foldlM_firstItem (value : Json) (frames : List Frame) :
    value.tokens.foldlM Place.step? (.firstItem frames) =
      value.tokens.foldlM Place.step? (.value (.items [] :: frames)) := by
  obtain ⟨first, rest, heq, hfirst⟩ := value.tokens_eq_cons
  have hstep : Place.step? (.firstItem frames) first =
      Place.step? (.value (.items [] :: frames)) first := by
    cases first with
    | closeArray => exact absurd rfl hfirst
    | _ => rfl
  rw [heq, List.foldlM_cons, List.foldlM_cons, hstep]

mutual

/-- The tokens of a value parse to the value, whatever is open around it. -/
theorem foldlM_tokens : ∀ (value : Json) (frames : List Frame),
    value.tokens.foldlM Place.step? (.value frames) = some (.after value frames)
  | .bool _, _ => rfl
  | .number _, _ => rfl
  | .string _, _ => rfl
  | .array [], _ => by
    rw [tokens]
    rfl
  | .array (item :: items), frames => by
    -- the bracket opens a frame, and the bracket at the end closes it
    have hfirst := foldlM_tokens item (.items [] :: frames)
    rw [← foldlM_firstItem] at hfirst
    rw [tokens, List.append_assoc, List.cons_append, foldlM_step _ rfl, foldlM_steps _ hfirst]
    exact foldlM_itemsTokens items [] item frames
  | .object [], _ => by
    rw [tokens]
    rfl
  | .object ((key, value) :: members), frames => by
    have hfirst := foldlM_tokens value (.members [] key :: frames)
    rw [tokens, memberTokens, List.append_assoc, List.cons_append, foldlM_step _ rfl,
      List.cons_append, foldlM_step _ rfl, List.cons_append, foldlM_step _ rfl,
      foldlM_steps _ hfirst]
    exact foldlM_membersTokens members [] key value frames

/-- Behind an item, the others and the bracket make up the array. -/
theorem foldlM_itemsTokens : ∀ (items before : List Json) (last : Json) (frames : List Frame),
    (itemsTokens items ++ [Token.closeArray]).foldlM Place.step?
        (.after last (.items before :: frames)) =
      some (.after (.array (before ++ last :: items)) frames)
  | [], _, _, _ => by
    rw [itemsTokens]
    rfl
  | item :: items, before, last, frames => by
    have hitem := foldlM_tokens item (.items (before ++ [last]) :: frames)
    have hrest := foldlM_itemsTokens items (before ++ [last]) item frames
    rw [itemsTokens, List.append_assoc, List.cons_append, foldlM_step _ rfl, foldlM_steps _ hitem,
      hrest, List.append_assoc]
    rfl

/-- Behind a member, the others and the brace make up the object. -/
theorem foldlM_membersTokens : ∀ (members before : List (String × Json)) (key : String)
    (last : Json) (frames : List Frame),
    (membersTokens members ++ [Token.closeObject]).foldlM Place.step?
        (.after last (.members before key :: frames)) =
      some (.after (.object (before ++ (key, last) :: members)) frames)
  | [], _, _, _, _ => by
    rw [membersTokens]
    rfl
  | (next, value) :: members, before, key, last, frames => by
    have hvalue := foldlM_tokens value (.members (before ++ [(key, last)]) next :: frames)
    have hrest := foldlM_membersTokens members (before ++ [(key, last)]) next value frames
    rw [membersTokens, memberTokens, List.append_assoc, List.cons_append, foldlM_step _ rfl,
      List.cons_append, foldlM_step _ rfl, List.cons_append, foldlM_step _ rfl,
      foldlM_steps _ hvalue, hrest, List.append_assoc]
    rfl

end

/-- **The text of a value reads back as the value.** -/
theorem ofText?_pretty (value : Json) : ofText? value.pretty = some value := by
  have hends : EndsNumber [] := by
    intro c hc
    simp at hc
  have hscan := scan_chars 0 value hends
  rw [List.append_nil] at hscan
  rw [ofText?, pretty, String.toList_ofList, hscan]
  have hparse := foldlM_tokens value []
  simp [scan, Scan.finish?, hparse, Place.finish?]

example : ofText? "[\"\\ud834\\udd1e\\/\", 10]" = some (.array [.string "𝄞/", .number 10]) := by rfl

example : ["[1,]", "[01]", "\x7b\"a\" 1\x7d", "\"\\udd1e\""].filterMap ofText? = [] := by rfl

/-! ## Parts of a value -/

def bool? : Json → Option Bool
  | .bool b => some b
  | _ => none

def number? : Json → Option Nat
  | .number n => some n
  | _ => none

def string? : Json → Option String
  | .string text => some text
  | _ => none

/-- The items of an array, each read in the same way. -/
def array? {α : Type} (item? : Json → Option α) : Json → Option (List α)
  | .array items => items.mapM item?
  | _ => none

/-- The value of a key, read in some way. -/
def member? {α : Type} (key : String) (value? : Json → Option α) : Json → Option α
  | .object members => (members.lookup key).bind value?
  | _ => none

/-- An array is read when its items are. -/
theorem array?_map {α β : Type} {item? : Json → Option β} {write : α → Json} (view : α → β)
    (h : ∀ a, item? (write a) = some (view a)) (items : List α) :
    array? item? (.array (items.map write)) = some (items.map view) := by
  rw [array?]
  induction items with
  | nil => rfl
  | cons a items ih => simp [h a, ih]

end SyntaxForest.Json
