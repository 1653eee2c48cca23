import SyntaxForest.Category
import SyntaxForest.NameMap

/-! Settings of a drawing, as a settings document holds them: one section for the
output as a whole, and one for each category that is spoken of. -/

namespace SyntaxForest

/-- The settings of the output as a whole: whether labels show fields, whether
expressions are drawn at all, whether nodes are filled with their color, the size of
the drawing in dots, and that of a node in inches. -/
structure OutputSettings where
  detailed : Bool := false
  includeExpressions : Bool := true
  fillNodes : Bool := true
  width : UInt32 := 224
  height : UInt32 := 224
  nodeWidth : UInt32 := 2
  nodeHeight : UInt32 := 2
deriving DecidableEq, Repr

/-- The settings of one category: whether its nodes are drawn, and their shape and
color. -/
structure CategorySettings where
  visit : Bool := false
  shape : Option String := none
  color : Option String := none
deriving DecidableEq, Repr

/-- The settings that a document holds.  Sections may name anything; only those
that name a category have an effect. -/
structure Settings where
  output : OutputSettings := {}
  categories : NameMap CategorySettings := .empty
deriving DecidableEq

/-- The settings written when there are none yet: no category is drawn, and the
usual ones have a shape and a color. -/
def Settings.initial : Settings where
  categories := NameMap.ofList <| Category.visitable.filterMap fun category =>
    category.initialStyle.map fun style =>
      (category.name, { shape := some style.1.name, color := some style.2 })

end SyntaxForest
