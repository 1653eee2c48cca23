/-! Labelled fields of a syntax node and the values they hold. -/

namespace SyntaxForest

/-- What a labelled field tells about a node.  The kind is that of a type declaration,
`Class` or `Interface`. -/
inductive Field where
  | name
  | kind
  | parameters
  | returnType
  | modifiers
  | type
  | expression
  | message
  | condition
  | updaters
  | label
  | isDefault
  | caseExpressions
  | declaredNames
deriving DecidableEq, Repr

namespace Field

/-- Every field, in order of declaration. -/
def all : List Field :=
  [.name, .kind, .parameters, .returnType, .modifiers, .type, .expression, .message, .condition,
   .updaters, .label, .isDefault, .caseExpressions, .declaredNames]

/-- The name of a field in an outline. -/
def title : Field → String
  | .name => "Name"
  | .kind => "Kind"
  | .parameters => "Parameters"
  | .returnType => "ReturnType"
  | .modifiers => "Modifiers"
  | .type => "Type"
  | .expression => "Expression"
  | .message => "Message"
  | .condition => "Condition"
  | .updaters => "Updaters"
  | .label => "Label"
  | .isDefault => "IsDefault"
  | .caseExpressions => "CaseExpressions"
  | .declaredNames => "DeclaredNames"

/-- The field of a title. -/
def ofTitle? (title : String) : Option Field :=
  all.find? fun field => field.title == title

end Field

/-- The value of a field. -/
inductive FieldValue where
  | text (content : String)
  | list (items : List String)
  | flag (value : Bool)
deriving DecidableEq, Repr

namespace FieldValue

/-- A flag as a word. -/
def flagText (value : Bool) : String :=
  if value then "true" else "false"

/-- The value as plain text, the items of a list with commas between them. -/
def shown : FieldValue → String
  | .text content => content
  | .list items => ", ".intercalate items
  | .flag value => flagText value

end FieldValue

end SyntaxForest
