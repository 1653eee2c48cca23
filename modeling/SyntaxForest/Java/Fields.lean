import SyntaxForest.Field
import SyntaxForest.Java.Category
import SyntaxForest.Java.Source
import SyntaxForest.Text.Blank

/-! The labelled fields of parse tree nodes.  Every text is collapsed. -/

namespace SyntaxForest.Java.Source
variable (source : Source)

/-- The text of a node on one line. -/
def lineOf (tree : ParseTree) : String :=
  String.ofList (Text.collapseChars (source.textOf tree))

/-- The text of the child in a field. -/
def fieldLine? (tree : ParseTree) (field : String) : Option String :=
  (tree.fieldChild? field).map source.lineOf

/-- The modifiers of a declaration, annotations among them. -/
def modifierNodes (tree : ParseTree) : List ParseTree :=
  match tree.namedChildren.find? fun child => child.kind = "modifiers" with
  | some modifiers => modifiers.children.filter fun child => !child.isComment
  | none => []

/-- The texts of the modifiers of a declaration. -/
def modifiers (tree : ParseTree) : List String :=
  (modifierNodes tree).map source.lineOf

/-- Whether a modifier is an annotation. -/
def isAnnotated (tree : ParseTree) : Bool :=
  "annotation".toList.isSuffixOf tree.kind.toList

/-- The texts of the modifiers that are words of the language. -/
def keywordModifiers (tree : ParseTree) : List String :=
  ((modifierNodes tree).filter fun modifier => !isAnnotated modifier).map source.lineOf

/-- The expression between the parentheses of a condition. -/
def conditionLine? (tree : ParseTree) : Option String :=
  let parentheses :=
    (tree.fieldChild? "condition").or
      (tree.parts.find? fun child => child.kind = "parenthesized_expression")
  parentheses.map fun outer => source.lineOf (outer.parts.headD outer)

/-- The parameters of a method, in order. -/
def parameterNodes (tree : ParseTree) : List ParseTree :=
  match tree.fieldChild? "parameters" with
  | some list =>
    list.parts.filter fun child =>
      child.kind = "formal_parameter" || child.kind = "spread_parameter"
  | none => []

/-- The type of a parameter. -/
def parameterType? (tree : ParseTree) : Option String :=
  match tree.kind with
  | "spread_parameter" =>
    (tree.parts.find? fun child =>
      !(child.kind = "modifiers" || child.kind = "variable_declarator")).map source.lineOf
  | "catch_formal_parameter" =>
    (tree.parts.find? fun child => child.kind = "catch_type").map source.lineOf
  | _ => source.fieldLine? tree "type"

/-- The name of a parameter. -/
def parameterName? (tree : ParseTree) : Option String :=
  match tree.kind with
  | "spread_parameter" =>
    (tree.parts.find? fun child => child.kind = "variable_declarator").bind fun declarator =>
      source.fieldLine? declarator "name"
  | _ => source.fieldLine? tree "name"

/-- The names that a declaration declares. -/
def declaredNames (tree : ParseTree) : List String :=
  if tree.kind = "resource" then (source.fieldLine? tree "name").toList
  else
    (tree.fieldChildren "declarator").filterMap fun declarator =>
      source.fieldLine? declarator "name"

/-- Whether the label of a switch begins with `default`. -/
def isDefaultLabel (tree : ParseTree) : Bool :=
  "default".toList.isPrefixOf (Text.trimStart (source.textOf tree))

/-- A field that holds a text, if there is one. -/
def textField (field : Field) (text : Option String) : List (Field × FieldValue) :=
  (text.map fun content => (field, FieldValue.text content)).toList

/-- The fields of a node of the given category. -/
def fields (category : Category) (tree : ParseTree) : List (Field × FieldValue) :=
  match category with
  | .typeDeclaration | .typeDeclarationStatement =>
    textField .name (source.fieldLine? tree "name") ++
      [(.kind, .text (if tree.kind = "interface_declaration" then "Interface" else "Class"))]
  | .enumDeclaration | .variableDeclarationFragment =>
    textField .name (source.fieldLine? tree "name")
  | .methodDeclaration =>
    textField .name (source.fieldLine? tree "name") ++
      [(.parameters, .list ((parameterNodes tree).map source.lineOf))] ++
      textField .returnType (source.fieldLine? tree "type") ++
      [(.modifiers, .list (source.modifiers tree))]
  | .singleVariableDeclaration =>
    [(.modifiers, .list (source.modifiers tree))] ++
      textField .name (source.parameterName? tree) ++
      textField .type (source.parameterType? tree)
  | .fieldDeclaration | .variableDeclarationStatement | .variableDeclarationExpression =>
    [(.modifiers, .list (source.modifiers tree))] ++
      textField .type (source.fieldLine? tree "type") ++
      [(.declaredNames, .list (source.declaredNames tree))]
  | .assertStatement =>
    textField .expression (tree.parts[0]?.map source.lineOf) ++
      textField .message (tree.parts[1]?.map source.lineOf)
  | .doStatement | .ifStatement | .switchStatement | .whileStatement =>
    textField .condition (source.conditionLine? tree)
  | .synchronizedStatement => textField .expression (source.conditionLine? tree)
  | .enhancedForStatement => textField .expression (source.fieldLine? tree "value")
  | .forStatement =>
    textField .condition (source.fieldLine? tree "condition") ++
      [(.updaters, .list ((tree.fieldChildren "update").map source.lineOf))]
  | .expressionStatement | .returnStatement | .throwStatement | .yieldStatement =>
    textField .expression (tree.parts.head?.map source.lineOf)
  | .labeledStatement =>
    textField .label ((tree.parts.find? fun child => child.kind = "identifier").map source.lineOf)
  | .switchCase =>
    [(.isDefault, .flag (source.isDefaultLabel tree)),
     (.caseExpressions, .list (tree.parts.map source.lineOf))]
  | _ => []

end SyntaxForest.Java.Source
