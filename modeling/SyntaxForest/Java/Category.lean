import SyntaxForest.Category
import SyntaxForest.Java.ParseTree

/-! Categories of parse tree nodes.  Most kinds of node have one category; for
some it depends on the parent, on a field or on a token. -/

namespace SyntaxForest.Java.ParseTree

/-- The statements whose condition stands in parentheses of their own. -/
def conditionOwners : List String :=
  ["if_statement", "while_statement", "do_statement", "switch_expression",
   "synchronized_statement"]

/-- The parents under which a `switch` is a statement. -/
def statementContainers : List String :=
  ["program", "block", "constructor_body", "switch_block_statement_group", "labeled_statement",
   "if_statement", "while_statement", "do_statement", "for_statement", "enhanced_for_statement"]

/-- The kinds of type that can stand before `::`. -/
def typeKinds : List String :=
  ["type_identifier", "scoped_type_identifier", "generic_type", "array_type", "integral_type",
   "floating_point_type", "boolean_type"]

/-- The category of a kind, whatever stands around the node. -/
def kindCategory : String → Category
  | "program" => .compilationUnit
  | "enum_declaration" => .enumDeclaration
  | "method_declaration" | "constructor_declaration" => .methodDeclaration
  | "formal_parameter" | "spread_parameter" | "catch_formal_parameter" => .singleVariableDeclaration
  | "field_declaration" => .fieldDeclaration
  | "assert_statement" => .assertStatement
  | "block" | "constructor_body" => .block
  | "break_statement" => .breakStatement
  | "continue_statement" => .continueStatement
  | "do_statement" => .doStatement
  | "enhanced_for_statement" => .enhancedForStatement
  | "expression_statement" => .expressionStatement
  | "for_statement" => .forStatement
  | "if_statement" => .ifStatement
  | "labeled_statement" => .labeledStatement
  | "return_statement" => .returnStatement
  | "switch_label" => .switchCase
  | "synchronized_statement" => .synchronizedStatement
  | "throw_statement" => .throwStatement
  | "try_statement" | "try_with_resources_statement" => .tryStatement
  | "catch_clause" => .catchClause
  | "while_statement" => .whileStatement
  | "yield_statement" => .yieldStatement
  | "array_access" => .arrayAccess
  | "array_creation_expression" => .arrayCreation
  | "array_initializer" => .arrayInitializer
  | "assignment_expression" => .assignment
  | "class_literal" => .typeLiteral
  | "string_literal" | "text_block" => .stringLiteral
  | "unary_expression" => .prefixExpression
  | "decimal_integer_literal" | "hex_integer_literal" | "octal_integer_literal"
  | "binary_integer_literal" | "decimal_floating_point_literal"
  | "hex_floating_point_literal" => .numberLiteral
  | "null_literal" => .nullLiteral
  | "lambda_expression" => .lambdaExpression
  | "instanceof_expression" => .instanceofExpression
  | "binary_expression" => .infixExpression
  | "ternary_expression" => .conditionalExpression
  | "object_creation_expression" => .classInstanceCreation
  | "character_literal" => .characterLiteral
  | "cast_expression" => .castExpression
  | "true" | "false" => .booleanLiteral
  | _ => .other

/-- The category of a method reference: with `new` it creates, and otherwise what
stands before `::` decides. -/
def methodReferenceCategory (tree : ParseTree) : Category :=
  if tree.hasToken "new" then .creationReference
  else
    match tree.parts.head? with
    | some first =>
      if first.kind = "super" then .superMethodReference
      else if typeKinds.contains first.kind then .typeMethodReference
      else .expressionMethodReference
    | none => .expressionMethodReference

/-- The category of an update: `++i` begins with its operator, `i++` does not. -/
def updateCategory (tree : ParseTree) : Category :=
  match tree.children.head? with
  | some first =>
    if first.kind = "++" || first.kind = "--" then .prefixExpression else .postfixExpression
  | none => .postfixExpression

/-- Whether the child in a field is of a kind. -/
def fieldIs (tree : ParseTree) (field kind : String) : Bool :=
  (tree.fieldChild? field).any fun child => child.kind = kind

/-- The category of a node under a parent of the given kind. -/
def category (parent : Option String) (tree : ParseTree) : Category :=
  match tree.kind with
  | "class_declaration" | "interface_declaration" =>
    if parent = some "block" || parent = some "constructor_body" then .typeDeclarationStatement
    else .typeDeclaration
  | "class_body" =>
    if parent = some "object_creation_expression" then .anonymousClassDeclaration else .other
  | "variable_declarator" =>
    if parent = some "spread_parameter" then .other else .variableDeclarationFragment
  | "switch_expression" =>
    if parent.any statementContainers.contains then .switchStatement else .other
  | "local_variable_declaration" =>
    if parent = some "for_statement" then .variableDeclarationExpression
    else .variableDeclarationStatement
  | "resource" =>
    if (tree.fieldChild? "type").isSome then .variableDeclarationExpression else .other
  | "explicit_constructor_invocation" =>
    if tree.fieldIs "constructor" "super" then .superConstructorInvocation
    else .constructorInvocation
  | "method_reference" => tree.methodReferenceCategory
  | "this" =>
    if parent = some "explicit_constructor_invocation" then .other else .thisExpression
  | "method_invocation" =>
    if tree.fieldIs "object" "super" then .superMethodInvocation else .methodInvocation
  | "field_access" =>
    if tree.fieldIs "object" "super" then .superFieldAccess else .fieldAccess
  | "update_expression" => tree.updateCategory
  | "parenthesized_expression" =>
    if parent.any conditionOwners.contains then .other else .parenthesizedExpression
  | kind => kindCategory kind

end SyntaxForest.Java.ParseTree
