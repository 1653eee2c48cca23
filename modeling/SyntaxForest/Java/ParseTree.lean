/-! Parse trees of Java texts, as a parser hands them over.  Every token is a
node; the nodes that the grammar names are told apart from the mere tokens, and a
child may fill a named field of its parent. -/

namespace SyntaxForest.Java

/-- What a parse tree node is, apart from its children: its name in the grammar, or
the token itself; whether the grammar names it; whether it holds text that the parser
had to skip, whether it was put in where the text lacks it, and whether it is or holds
a node of these; the field of the parent that it fills; and its range in the text, in
bytes and in rows counted from 0. -/
structure ParseTree.Head where
  kind : String
  isNamed : Bool
  isError : Bool
  isMissing : Bool
  hasError : Bool
  field : Option String
  startByte : Nat
  stopByte : Nat
  startRow : Nat
  stopRow : Nat
deriving DecidableEq, Repr

/-- A parse tree. -/
inductive ParseTree where
  | node (head : ParseTree.Head) (children : List ParseTree)
deriving Repr

namespace ParseTree

def head : ParseTree → Head
  | .node head _ => head

/-- All children, tokens included, in source order. -/
def children : ParseTree → List ParseTree
  | .node _ children => children

def kind (tree : ParseTree) : String :=
  tree.head.kind

def isNamed (tree : ParseTree) : Bool :=
  tree.head.isNamed

/-- Whether the node is a comment. -/
def isComment (tree : ParseTree) : Bool :=
  tree.kind = "line_comment" || tree.kind = "block_comment"

/-- The children that the grammar names, comments among them. -/
def namedChildren (tree : ParseTree) : List ParseTree :=
  tree.children.filter isNamed

/-- Whether the node is part of the program: named, and no comment. -/
def isPart (tree : ParseTree) : Bool :=
  tree.isNamed && !tree.isComment

/-- The children that are part of the program. -/
def parts (tree : ParseTree) : List ParseTree :=
  tree.children.filter isPart

/-- The children that fill a field. -/
def fieldChildren (tree : ParseTree) (field : String) : List ParseTree :=
  tree.children.filter fun child => child.head.field = some field

/-- The first child that fills a field. -/
def fieldChild? (tree : ParseTree) (field : String) : Option ParseTree :=
  tree.children.find? fun child => child.head.field = some field

/-- Whether a token is among the children. -/
def hasToken (tree : ParseTree) (token : String) : Bool :=
  tree.children.any fun child => !child.isNamed && child.kind = token

/-- Whether the text is wrong at the node: the parser had to skip it or to put the
node in. -/
def isFlawed (tree : ParseTree) : Bool :=
  tree.head.isError || tree.head.isMissing

/-- The children to be searched for errors: none below a node that is marked free of
them. -/
def suspects : ParseTree → List ParseTree
  | .node head children => if head.hasError then children else []

theorem suspects_sublist (tree : ParseTree) : tree.suspects.Sublist tree.children := by
  obtain ⟨head, children⟩ := tree
  rw [suspects]
  split
  · exact List.Sublist.refl _
  · exact List.nil_sublist _

theorem sizeOf_append_of_sublist {trees others : List ParseTree} (h : trees.Sublist others)
    (pending : List ParseTree) :
    sizeOf (trees ++ pending) + 1 ≤ sizeOf others + sizeOf pending := by
  induction h with
  | slnil => simp [Nat.add_comm]
  | cons tree _ ih =>
    simp only [List.cons.sizeOf_spec]
    omega
  | cons_cons tree _ ih =>
    simp only [List.cons_append, List.cons.sizeOf_spec]
    omega

/-- Some of the children of a tree in its place make a list of trees smaller. -/
theorem sizeOf_append_lt {tree : ParseTree} {trees : List ParseTree}
    (h : trees.Sublist tree.children) (pending : List ParseTree) :
    sizeOf (trees ++ pending) < sizeOf (tree :: pending) := by
  obtain ⟨head, children⟩ := tree
  have hle := sizeOf_append_of_sublist h pending
  simp only [List.cons.sizeOf_spec, node.sizeOf_spec, ParseTree.children] at hle ⊢
  omega

/-- Takes the pending trees from the top and counts their error and missing nodes on
from `count`; the suspects of each tree take its place. -/
def errorCountFrom (count : Nat) (pending : List ParseTree) : Nat :=
  match pending with
  | [] => count
  | tree :: pending => errorCountFrom (count + tree.isFlawed.toNat) (tree.suspects ++ pending)
termination_by sizeOf pending
decreasing_by exact sizeOf_append_lt tree.suspects_sublist pending

/-- The number of error and missing nodes. -/
def errorCount (tree : ParseTree) : Nat :=
  errorCountFrom 0 [tree]

end ParseTree

end SyntaxForest.Java
