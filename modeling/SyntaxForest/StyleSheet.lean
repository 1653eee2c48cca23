import SyntaxForest.Settings

/-! Style sheets: settings in the form in which drawing reads them, with a style
for every category. -/

namespace SyntaxForest

/-- A width and a height. -/
structure Size where
  width : UInt32
  height : UInt32
deriving DecidableEq, Repr

/-- How the nodes of a category are drawn, and whether they are. -/
structure Style where
  visit : Bool := false
  shape : Shape := .box
  color : String := "white"
deriving DecidableEq, Repr

/-- The style that a section asks for. -/
def CategorySettings.style (given : CategorySettings) : Style where
  visit := given.visit
  shape := (given.shape.map Shape.ofSetting).getD .box
  color := given.color.getD "white"

/-- Everything that drawing reads from the settings. -/
structure StyleSheet where
  detailed : Bool
  includeExpressions : Bool
  fillNodes : Bool
  canvas : Size
  nodeSize : Size
  style : Category → Style

namespace StyleSheet

/-- The style sheet of settings.  A category without a section, or that the
settings cannot turn on, has the plain style. -/
def ofSettings (settings : Settings) : StyleSheet where
  detailed := settings.output.detailed
  includeExpressions := settings.output.includeExpressions
  fillNodes := settings.output.fillNodes
  canvas := ⟨settings.output.width, settings.output.height⟩
  nodeSize := ⟨settings.output.nodeWidth, settings.output.nodeHeight⟩
  style category :=
    if category.isVisitable then
      ((settings.categories.get? category.name).map CategorySettings.style).getD {}
    else {}

/-- The style sheet of the default settings. -/
def plain : StyleSheet :=
  ofSettings {}

/-- Turns on each of the listed categories. -/
def visiting (sheet : StyleSheet) (categories : List Category) : StyleSheet :=
  { sheet with
    style := fun category =>
      if category ∈ categories then { sheet.style category with visit := true }
      else sheet.style category }

/-- Gives a category a shape and a color. -/
def styling (sheet : StyleSheet) (category : Category) (shape : Shape) (color : String) :
    StyleSheet :=
  { sheet with
    style := fun each =>
      if each = category then { sheet.style category with shape, color } else sheet.style each }

/-- The categories whose style is not the plain one, with their styles. -/
def styled (sheet : StyleSheet) : List (Category × Style) :=
  Category.all.filterMap fun category =>
    if sheet.style category = {} then none else some (category, sheet.style category)

end StyleSheet

end SyntaxForest
