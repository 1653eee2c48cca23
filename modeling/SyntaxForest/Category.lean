import SyntaxForest.Shape

/-! Categories of syntax nodes.  A category is the closed tag under which the
settings speak of a node: declarations, statements and expressions of a Java
program, the unit around them, and `other` for all syntax without a name of its
own. -/

namespace SyntaxForest

/-- What a syntax node is.  A `compilationUnit` is the container of a whole file, and
`other` is syntax without a category of its own: identifiers, modifiers, argument
lists. -/
inductive Category where
  | compilationUnit
  -- Declarations
  | typeDeclaration
  | enumDeclaration
  | methodDeclaration
  | anonymousClassDeclaration
  | singleVariableDeclaration
  | fieldDeclaration
  | variableDeclarationFragment
  -- Statements
  | assertStatement
  | block
  | breakStatement
  | continueStatement
  | doStatement
  | enhancedForStatement
  | expressionStatement
  | forStatement
  | ifStatement
  | labeledStatement
  | returnStatement
  | switchStatement
  | switchCase
  | synchronizedStatement
  | throwStatement
  | tryStatement
  | catchClause
  | typeDeclarationStatement
  | variableDeclarationStatement
  | whileStatement
  | yieldStatement
  | constructorInvocation
  | superConstructorInvocation
  -- Expressions
  | arrayAccess
  | arrayCreation
  | arrayInitializer
  | assignment
  | variableDeclarationExpression
  | typeMethodReference
  | typeLiteral
  | thisExpression
  | superMethodInvocation
  | superMethodReference
  | superFieldAccess
  | stringLiteral
  | prefixExpression
  | postfixExpression
  | parenthesizedExpression
  | numberLiteral
  | nullLiteral
  | methodInvocation
  | lambdaExpression
  | instanceofExpression
  | infixExpression
  | fieldAccess
  | expressionMethodReference
  | creationReference
  | conditionalExpression
  | classInstanceCreation
  | characterLiteral
  | castExpression
  | booleanLiteral
  | other
deriving DecidableEq, Repr

namespace Category

/-- Every category, in order of declaration. -/
def all : List Category :=
  [.compilationUnit, .typeDeclaration, .enumDeclaration, .methodDeclaration,
   .anonymousClassDeclaration, .singleVariableDeclaration, .fieldDeclaration,
   .variableDeclarationFragment, .assertStatement, .block, .breakStatement, .continueStatement,
   .doStatement, .enhancedForStatement, .expressionStatement, .forStatement, .ifStatement,
   .labeledStatement, .returnStatement, .switchStatement, .switchCase, .synchronizedStatement,
   .throwStatement, .tryStatement, .catchClause, .typeDeclarationStatement,
   .variableDeclarationStatement, .whileStatement, .yieldStatement, .constructorInvocation,
   .superConstructorInvocation, .arrayAccess, .arrayCreation, .arrayInitializer, .assignment,
   .variableDeclarationExpression, .typeMethodReference, .typeLiteral, .thisExpression,
   .superMethodInvocation, .superMethodReference, .superFieldAccess, .stringLiteral,
   .prefixExpression, .postfixExpression, .parenthesizedExpression, .numberLiteral,
   .nullLiteral, .methodInvocation, .lambdaExpression, .instanceofExpression, .infixExpression,
   .fieldAccess, .expressionMethodReference, .creationReference, .conditionalExpression,
   .classInstanceCreation, .characterLiteral, .castExpression, .booleanLiteral, .other]

/-- The name under which the settings speak of a category. -/
def name : Category → String
  | .compilationUnit => "CompilationUnit"
  | .typeDeclaration => "TypeDeclaration"
  | .enumDeclaration => "EnumDeclaration"
  | .methodDeclaration => "MethodDeclaration"
  | .anonymousClassDeclaration => "AnonymousClassDeclaration"
  | .singleVariableDeclaration => "SingleVariableDeclaration"
  | .fieldDeclaration => "FieldDeclaration"
  | .variableDeclarationFragment => "VariableDeclarationFragment"
  | .assertStatement => "AssertStatement"
  | .block => "Block"
  | .breakStatement => "BreakStatement"
  | .continueStatement => "ContinueStatement"
  | .doStatement => "DoStatement"
  | .enhancedForStatement => "EnhancedForStatement"
  | .expressionStatement => "ExpressionStatement"
  | .forStatement => "ForStatement"
  | .ifStatement => "IfStatement"
  | .labeledStatement => "LabeledStatement"
  | .returnStatement => "ReturnStatement"
  | .switchStatement => "SwitchStatement"
  | .switchCase => "SwitchCase"
  | .synchronizedStatement => "SynchronizedStatement"
  | .throwStatement => "ThrowStatement"
  | .tryStatement => "TryStatement"
  | .catchClause => "CatchClause"
  | .typeDeclarationStatement => "TypeDeclarationStatement"
  | .variableDeclarationStatement => "VariableDeclarationStatement"
  | .whileStatement => "WhileStatement"
  | .yieldStatement => "YieldStatement"
  | .constructorInvocation => "ConstructorInvocation"
  | .superConstructorInvocation => "SuperConstructorInvocation"
  | .arrayAccess => "ArrayAccess"
  | .arrayCreation => "ArrayCreation"
  | .arrayInitializer => "ArrayInitializer"
  | .assignment => "Assignment"
  | .variableDeclarationExpression => "VariableDeclarationExpression"
  | .typeMethodReference => "TypeMethodReference"
  | .typeLiteral => "TypeLiteral"
  | .thisExpression => "ThisExpression"
  | .superMethodInvocation => "SuperMethodInvocation"
  | .superMethodReference => "SuperMethodReference"
  | .superFieldAccess => "SuperFieldAccess"
  | .stringLiteral => "StringLiteral"
  | .prefixExpression => "PrefixExpression"
  | .postfixExpression => "PostfixExpression"
  | .parenthesizedExpression => "ParenthesizedExpression"
  | .numberLiteral => "NumberLiteral"
  | .nullLiteral => "NullLiteral"
  | .methodInvocation => "MethodInvocation"
  | .lambdaExpression => "LambdaExpression"
  | .instanceofExpression => "InstanceofExpression"
  | .infixExpression => "InfixExpression"
  | .fieldAccess => "FieldAccess"
  | .expressionMethodReference => "ExpressionMethodReference"
  | .creationReference => "CreationReference"
  | .conditionalExpression => "ConditionalExpression"
  | .classInstanceCreation => "ClassInstanceCreation"
  | .characterLiteral => "CharacterLiteral"
  | .castExpression => "CastExpression"
  | .booleanLiteral => "BooleanLiteral"
  | .other => "Other"

theorem mem_all (category : Category) : category ∈ all := by
  cases category <;> decide

/-- The category of a name. -/
def ofName? (name : String) : Option Category :=
  all.find? fun category => category.name == name

/-- Whether the settings can turn a category on: all but the unit and `other`. -/
def isVisitable : Category → Bool
  | .compilationUnit | .other => false
  | _ => true

/-- The categories that the settings can turn on. -/
def visitable : List Category :=
  all.filter isVisitable

/-- The expressions: the categories that one setting leaves out together. -/
def expressions : List Category :=
  [.arrayAccess, .arrayCreation, .arrayInitializer, .assignment, .variableDeclarationExpression,
   .typeMethodReference, .typeLiteral, .thisExpression, .superMethodInvocation,
   .superMethodReference, .superFieldAccess, .stringLiteral, .prefixExpression,
   .postfixExpression, .parenthesizedExpression, .numberLiteral, .nullLiteral,
   .methodInvocation, .lambdaExpression, .instanceofExpression, .infixExpression, .fieldAccess,
   .expressionMethodReference, .creationReference, .conditionalExpression,
   .classInstanceCreation, .characterLiteral, .castExpression, .booleanLiteral]

@[inherit_doc expressions]
def isExpression (category : Category) : Bool :=
  expressions.contains category

/-- The shape and color written for a category into fresh settings. -/
def initialStyle : Category → Option (Shape × String)
  | .typeDeclaration => some (.box, "green")
  | .methodDeclaration => some (.box, "aqua")
  | .anonymousClassDeclaration => some (.house, "darkgoldenrod1")
  | .singleVariableDeclaration => some (.circle, "darkgreen")
  | .assertStatement => some (.star, "teal")
  | .block => some (.square, "coral")
  | .breakStatement => some (.trapezium, "orange")
  | .continueStatement => some (.invTriangle, "sienna")
  | .doStatement => some (.hexagon, "yellow")
  | .enhancedForStatement => some (.parallelogram, "red")
  | .expressionStatement => some (.triangle, "fuchsia")
  | .forStatement => some (.parallelogram, "red")
  | .ifStatement => some (.diamond, "purple")
  | .labeledStatement => some (.pentagon, "lightpink")
  | .returnStatement => some (.cds, "hotpink")
  | .switchStatement => some (.diamond, "purple")
  | .synchronizedStatement => some (.octagon, "palegreen")
  | .throwStatement => some (.invTrapezium, "tan")
  | .tryStatement => some (.invHouse, "honeydew4")
  | .catchClause => some (.septagon, "firebrick")
  | .typeDeclarationStatement => some (.doubleOctagon, "royalblue")
  | .variableDeclarationStatement => some (.component, "brown")
  | .whileStatement => some (.hexagon, "yellow")
  | .yieldStatement => some (.rArrow, "blue")
  | _ => none

end Category

end SyntaxForest
