import SyntaxForest.Java.Fields
import SyntaxForest.Json

/-! A flat account of the first method of a source: its signature and the
statements of its body, nothing deeper. -/

namespace SyntaxForest.Java

/-- A method with the names and types of its parameters, and with the categories and
texts of its statements, if it has a body. -/
structure MethodDump where
  name : String
  returnType : Option String
  isConstructor : Bool
  hasVarargs : Bool
  modifiers : List String
  parameters : List (String × String)
  statements : Option (List (Category × String))
deriving DecidableEq, Repr

/-- Whether a node declares a method or a constructor. -/
def ParseTree.isMethod (tree : ParseTree) : Bool :=
  tree.kind = "method_declaration" || tree.kind = "constructor_declaration"

/-- Takes the pending trees from the top until one of them is a method; the named
children of each other tree take its place. -/
def ParseTree.firstMethodFrom? (pending : List ParseTree) : Option ParseTree :=
  match pending with
  | [] => none
  | tree :: pending =>
    if tree.isMethod then some tree
    else ParseTree.firstMethodFrom? (tree.namedChildren ++ pending)
termination_by sizeOf pending
decreasing_by exact ParseTree.sizeOf_append_lt List.filter_sublist pending

/-- The first method of a tree in document order. -/
def ParseTree.firstMethod? (tree : ParseTree) : Option ParseTree :=
  ParseTree.firstMethodFrom? [tree]

namespace MethodDump

/-- The account of a method. -/
def ofMethod (source : Source) (method : ParseTree) : MethodDump where
  name := (source.fieldLine? method "name").getD ""
  returnType := source.fieldLine? method "type"
  isConstructor := method.kind = "constructor_declaration"
  hasVarargs :=
    (Source.parameterNodes method).getLast?.any fun last => last.kind = "spread_parameter"
  modifiers := source.keywordModifiers method
  parameters := (Source.parameterNodes method).map fun parameter =>
    ((source.parameterName? parameter).getD "", (source.parameterType? parameter).getD "")
  statements := (method.fieldChild? "body").map fun body =>
    body.parts.map fun statement =>
      (statement.category (some body.kind), source.lineOf statement)

/-- The account of the first method of a source. -/
def ofSource (source : Source) : Except Failure MethodDump :=
  match source.container.2.firstMethod? with
  | some method => .ok (ofMethod source method)
  | none =>
    .error ((Failure.parseFailed "no method declaration found").during "dump::first_method")

/-- A member that is left out when it has no value. -/
def optionalMember {α : Type} (key : String) (value : Option α) (encode : α → Json) :
    List (String × Json) :=
  (value.map fun present => (key, encode present)).toList

/-- The JSON value of an account. -/
def json (dump : MethodDump) : Json :=
  .object <|
    [("name", .string dump.name)] ++
    optionalMember "returnType" dump.returnType .string ++
    [("constructor", .bool dump.isConstructor), ("varargs", .bool dump.hasVarargs),
     ("modifiers", .array (dump.modifiers.map .string)),
     ("parameters", .array (dump.parameters.map fun parameter =>
       .object [("name", .string parameter.1), ("type", .string parameter.2)]))] ++
    optionalMember "statements" dump.statements fun statements =>
      .array (statements.map fun statement =>
        .object [("type", .string statement.1.name), ("text", .string statement.2)])

end MethodDump

end SyntaxForest.Java
