import SyntaxForest.Text.Blank

/-! Node shapes, under the names that DOT gives them. -/

namespace SyntaxForest

/-- The outline of a drawn node. -/
inductive Shape where
  | box
  | ellipse
  | oval
  | circle
  | point
  | egg
  | triangle
  | plainText
  | plain
  | diamond
  | trapezium
  | parallelogram
  | house
  | pentagon
  | hexagon
  | septagon
  | octagon
  | doubleCircle
  | doubleOctagon
  | tripleOctagon
  | invTriangle
  | invTrapezium
  | invHouse
  | mDiamond
  | mSquare
  | mCircle
  | rect
  | rectangle
  | square
  | star
  | noOutline
  | underline
  | cylinder
  | note
  | tab
  | folder
  | box3d
  | component
  | promoter
  | cds
  | terminator
  | utr
  | primerSite
  | restrictionSite
  | fivePOverhang
  | threePOverhang
  | nOverhang
  | assembly
  | signature
  | insulator
  | riboSite
  | rnaStab
  | proteaseSite
  | proteinStab
  | rPromoter
  | rArrow
  | lArrow
  | lPromoter
deriving DecidableEq, Repr

namespace Shape

/-- Every shape, in order of declaration. -/
def all : List Shape :=
  [.box, .ellipse, .oval, .circle, .point, .egg, .triangle, .plainText, .plain, .diamond,
   .trapezium, .parallelogram, .house, .pentagon, .hexagon, .septagon, .octagon, .doubleCircle,
   .doubleOctagon, .tripleOctagon, .invTriangle, .invTrapezium, .invHouse, .mDiamond, .mSquare,
   .mCircle, .rect, .rectangle, .square, .star, .noOutline, .underline, .cylinder, .note, .tab,
   .folder, .box3d, .component, .promoter, .cds, .terminator, .utr, .primerSite,
   .restrictionSite, .fivePOverhang, .threePOverhang, .nOverhang, .assembly, .signature,
   .insulator, .riboSite, .rnaStab, .proteaseSite, .proteinStab, .rPromoter, .rArrow, .lArrow,
   .lPromoter]

/-- The name of a shape in DOT. -/
def name : Shape → String
  | .box => "box"
  | .ellipse => "ellipse"
  | .oval => "oval"
  | .circle => "circle"
  | .point => "point"
  | .egg => "egg"
  | .triangle => "triangle"
  | .plainText => "plaintext"
  | .plain => "plain"
  | .diamond => "diamond"
  | .trapezium => "trapezium"
  | .parallelogram => "parallelogram"
  | .house => "house"
  | .pentagon => "pentagon"
  | .hexagon => "hexagon"
  | .septagon => "septagon"
  | .octagon => "octagon"
  | .doubleCircle => "doublecircle"
  | .doubleOctagon => "doubleoctagon"
  | .tripleOctagon => "tripleoctagon"
  | .invTriangle => "invtriangle"
  | .invTrapezium => "invtrapezium"
  | .invHouse => "invhouse"
  | .mDiamond => "Mdiamond"
  | .mSquare => "Msquare"
  | .mCircle => "Mcircle"
  | .rect => "rect"
  | .rectangle => "rectangle"
  | .square => "square"
  | .star => "star"
  | .noOutline => "none"
  | .underline => "underline"
  | .cylinder => "cylinder"
  | .note => "note"
  | .tab => "tab"
  | .folder => "folder"
  | .box3d => "box3d"
  | .component => "component"
  | .promoter => "promoter"
  | .cds => "cds"
  | .terminator => "terminator"
  | .utr => "utr"
  | .primerSite => "primersite"
  | .restrictionSite => "restrictionsite"
  | .fivePOverhang => "fivepoverhang"
  | .threePOverhang => "threepoverhang"
  | .nOverhang => "noverhang"
  | .assembly => "assembly"
  | .signature => "signature"
  | .insulator => "insulator"
  | .riboSite => "ribosite"
  | .rnaStab => "rnastab"
  | .proteaseSite => "proteasesite"
  | .proteinStab => "proteinstab"
  | .rPromoter => "rpromoter"
  | .rArrow => "rarrow"
  | .lArrow => "larrow"
  | .lPromoter => "lpromoter"

/-- The shape of a name, whatever the case of its ASCII letters. -/
def ofName? (name : String) : Option Shape :=
  all.find? fun shape => shape.name.toLower == name.toLower

/-- The shape that a setting asks for: blanks around the name do not count, and
an unknown name means `box`. -/
def ofSetting (text : String) : Shape :=
  (ofName? (Text.trim text)).getD .box

end Shape

end SyntaxForest
