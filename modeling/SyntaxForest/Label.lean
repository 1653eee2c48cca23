import SyntaxForest.Tree

/-! Labels of drawn nodes.  A short label is the name of the category; a detailed
one goes on with a line for each field that the category shows. -/

namespace SyntaxForest.Label

/-- The fields that a detailed label shows, each under its title. -/
def lines : Category → List (String × Field)
  | .typeDeclaration => [("Name", .name), ("Kind", .kind)]
  | .methodDeclaration =>
    [("Name", .name), ("Parameters", .parameters), ("Return Type", .returnType)]
  | .singleVariableDeclaration => [("Modifier", .modifiers), ("Name", .name), ("Type", .type)]
  | .assertStatement => [("Expression", .expression), ("Message", .message)]
  | .doStatement | .ifStatement | .switchStatement | .whileStatement => [("Condition", .condition)]
  | .enhancedForStatement | .expressionStatement => [("Expression", .expression)]
  | .forStatement => [("Condition", .condition), ("Update", .updaters)]
  | .labeledStatement => [("Label", .label)]
  | .returnStatement => [("Returns", .expression)]
  | .switchCase => [("isDefaultCase", .isDefault), ("Condition", .caseExpressions)]
  | .synchronizedStatement => [("Lock", .expression)]
  | .throwStatement => [("Throws", .expression)]
  | .variableDeclarationStatement =>
    [("Modifier", .modifiers), ("Type", .type), ("Name", .declaredNames)]
  | _ => []

/-- A value on one line, every text of it collapsed. -/
def valueText : FieldValue → String
  | .text text => Text.collapse text
  | .list items => (FieldValue.list (items.map Text.collapse)).shown
  | .flag flag => FieldValue.flagText flag

/-- One line of a detailed label; an absent field has an empty value. -/
def line (node : Tree.Node) (title : String) (field : Field) : String :=
  title ++ ": " ++ ((node.field? field).map valueText).getD ""

/-- The detailed label of a node. -/
def detailed (node : Tree.Node) : String :=
  "\n".intercalate
    (node.category.name :: (lines node.category).map fun row => line node row.1 row.2)

/-- The label of a node. -/
def text (isDetailed : Bool) (node : Tree.Node) : String :=
  if isDetailed then detailed node else node.category.name

end SyntaxForest.Label
