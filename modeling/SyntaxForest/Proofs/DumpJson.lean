import SyntaxForest.Java.MethodDump
import SyntaxForest.Proofs.ForestJson
import SyntaxForest.Proofs.NameMap

/-! What the JSON text of a method dump tells: everything.  A reader finds every part of
the dump in it, the lists in their order, and sees whether a part was left out or is
empty.  So dumps with one text are one dump. -/

namespace SyntaxForest

namespace Json
variable {α : Type}

/-- The value of a key that may be left out, read in some way. -/
def optional? (key : String) (value? : Json → Option α) : Json → Option (Option α)
  | .object members =>
    match members.lookup key with
    | none => some none
    | some value => (value? value).map some
  | _ => none

theorem string?_string (text : String) : string? (.string text) = some text :=
  rfl

/-- A value that may be left out is read when the values are. -/
theorem optional?_object {value? : Json → Option α} {write : α → Json}
    (h : ∀ a, value? (write a) = some a) {key : String} {members : List (String × Json)}
    {value : Option α} (hkey : members.lookup key = value.map write) :
    optional? key value? (.object members) = some value := by
  rw [optional?, hkey]
  cases value with
  | none => rfl
  | some present =>
    rw [Option.map_some]
    dsimp only
    rw [h present, Option.map_some]

/-- A list is read back when its items are. -/
theorem array?_map_self {item? : Json → Option α} {write : α → Json}
    (h : ∀ a, item? (write a) = some a) (items : List α) :
    array? item? (.array (items.map write)) = some items := by
  rw [array?_map id h, List.map_id]

end Json

namespace Java.MethodDump

/-! ## Reading -/

def parameterOfJson? (value : Json) : Option (String × String) := do
  let name ← value.member? "name" Json.string?
  let type ← value.member? "type" Json.string?
  some (name, type)

def statementOfJson? (value : Json) : Option (Category × String) := do
  let category ← value.member? "type" fun name => name.string?.bind Category.ofName?
  let text ← value.member? "text" Json.string?
  some (category, text)

/-- The dump that a JSON value stands for, if it has the members of one. -/
def ofJson? (value : Json) : Option MethodDump := do
  let name ← value.member? "name" Json.string?
  let returnType ← value.optional? "returnType" Json.string?
  let isConstructor ← value.member? "constructor" Json.bool?
  let hasVarargs ← value.member? "varargs" Json.bool?
  let modifiers ← value.member? "modifiers" (Json.array? Json.string?)
  let parameters ← value.member? "parameters" (Json.array? parameterOfJson?)
  let statements ← value.optional? "statements" (Json.array? statementOfJson?)
  some { name, returnType, isConstructor, hasVarargs, modifiers, parameters, statements }

/-- Reads a dump. -/
def ofJsonText? (text : String) : Option MethodDump :=
  (Json.ofText? text).bind ofJson?

/-! ## Reading back what was written -/

/-- A member that may be left out is found exactly when it was given. -/
theorem lookup_optionalMember {α : Type} (key other : String) (value : Option α)
    (encode : α → Json) :
    (optionalMember key value encode).lookup other =
      if other = key then value.map encode else none := by
  cases value with
  | none =>
    rw [Option.map_none, ite_self]
    rfl
  | some present => exact NameMap.lookup_cons other (key, encode present) []

theorem parameterOfJson?_object (parameter : String × String) :
    parameterOfJson? (.object [("name", .string parameter.1), ("type", .string parameter.2)]) =
      some parameter := by
  simp [parameterOfJson?, Json.member?, List.lookup_cons, Json.string?_string]

theorem statementOfJson?_object (statement : Category × String) :
    statementOfJson?
      (.object [("type", .string statement.1.name), ("text", .string statement.2)]) =
      some statement := by
  simp [statementOfJson?, Json.member?, List.lookup_cons, Json.string?_string,
    Category.ofName?_name]

/-- The JSON of a dump stands for that dump. -/
theorem ofJson?_json (dump : MethodDump) : ofJson? dump.json = some dump := by
  have hreturn : dump.json.optional? "returnType" Json.string? = some dump.returnType := by
    apply Json.optional?_object Json.string?_string
    simp [List.lookup_append, List.lookup_cons, lookup_optionalMember]
  have hstatements : dump.json.optional? "statements" (Json.array? statementOfJson?) =
      some dump.statements := by
    apply Json.optional?_object (Json.array?_map_self statementOfJson?_object)
    simp [List.lookup_append, List.lookup_cons, lookup_optionalMember]
  have hmodifiers := Json.array?_map_self Json.string?_string dump.modifiers
  have hparameters := Json.array?_map_self parameterOfJson?_object dump.parameters
  rw [ofJson?, hreturn, hstatements]
  simp [json, Json.member?, List.lookup_append, List.lookup_cons, lookup_optionalMember,
    Json.string?_string, Json.bool?, hmodifiers, hparameters]

theorem ofJsonText?_json (dump : MethodDump) : ofJsonText? dump.json.pretty = some dump := by
  rw [ofJsonText?, Json.ofText?_pretty, Option.bind_some, ofJson?_json]

theorem json_pretty_injective {dump other : MethodDump}
    (h : dump.json.pretty = other.json.pretty) : dump = other := by
  have hread := dump.ofJsonText?_json
  rw [h, other.ofJsonText?_json] at hread
  exact (Option.some.inj hread).symm

/-- **A method dump can be read back from its JSON text**, whatever its texts hold: all of
its parts, in order.  So different dumps have different texts; a return type or a body
that is left out is told from an empty one. -/
theorem json_tells_dump (dump other : MethodDump) :
    ofJsonText? dump.json.pretty = some dump ∧
    (dump.json.pretty = other.json.pretty ↔ dump = other) ∧
    { dump with returnType := none }.json.pretty ≠
      { dump with returnType := some "" }.json.pretty ∧
    { dump with statements := none }.json.pretty ≠
      { dump with statements := some [] }.json.pretty := by
  refine ⟨dump.ofJsonText?_json, ⟨json_pretty_injective, fun h => h ▸ rfl⟩, ?_, ?_⟩
  · intro h
    have hreturn := congrArg MethodDump.returnType (json_pretty_injective h)
    exact (Option.some_ne_none "").symm hreturn
  · intro h
    have hstatements := congrArg MethodDump.statements (json_pretty_injective h)
    exact (Option.some_ne_none []).symm hstatements

-- The order of members and the blanks between them do not matter to the reader.
example :
    ofJsonText? ("\x7b\"varargs\":false, \"constructor\":true,\"parameters\":[]," ++
        "\"name\":\"\\u0041\", \"statements\":[],\"modifiers\":[]\x7d") =
      some ⟨"A", none, true, false, [], [], some []⟩ := by
  decide +kernel

end Java.MethodDump

end SyntaxForest
