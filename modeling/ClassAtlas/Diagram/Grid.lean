import ClassAtlas.Diagram.Basic

/-! Placing classifiers on rows. Boxes go from left to right in order; once the cursor has passed the
greatest row width, the next box starts a new row below the highest box of the row before. The rule
needs only addition and comparison, so it is stated for any sort of number. -/

namespace ClassAtlas.Grid

structure Options (α : Type) where
  originX : α
  originY : α
  horizontalGap : α
  verticalGap : α
  maxRowWidth : α
deriving Repr, DecidableEq

def Options.standard : Options Float := ⟨50.0, 50.0, 50.0, 50.0, 800.0⟩

/-- Where the next box goes, and the height of the row so far. -/
structure Cursor (α : Type) where
  x : α
  y : α
  rowHeight : α

variable {α : Type} [Add α] [LT α] [DecidableRel fun a b : α => a < b]

/-- Starts a new row if the cursor has passed the greatest row width. -/
def Cursor.wrap (options : Options α) (zero : α) (c : Cursor α) : Cursor α :=
  if options.maxRowWidth < c.x then
    ⟨options.originX, c.y + (c.rowHeight + options.verticalGap), zero⟩
  else c

/-- Moves past a box. -/
def Cursor.advance (options : Options α) (box : Box α) (c : Cursor α) : Cursor α :=
  { x := c.x + (box.width + options.horizontalGap)
    y := c.y
    rowHeight := if c.rowHeight < box.height then box.height else c.rowHeight }

/-- The boxes at their places, from a cursor on. -/
def placeFrom (options : Options α) (zero : α) : Cursor α → List (Box α) → List (Box α)
  | _, [] => []
  | c, box :: rest =>
    let here := c.wrap options zero
    { box with x := here.x, y := here.y } ::
      placeFrom options zero (here.advance options box) rest

def place (options : Options α) (zero : α) (boxes : List (Box α)) : List (Box α) :=
  placeFrom options zero ⟨options.originX, options.originY, zero⟩ boxes

/-- Puts boxes, in order, on the classifiers among some elements. -/
def setBoxes {τ : Type} : List (Box Float) → List (ElementOf τ) → List (ElementOf τ)
  | box :: boxes, .classifier c :: rest => .classifier { c with box := box } :: setBoxes boxes rest
  | boxes, .relationship r :: rest => .relationship r :: setBoxes boxes rest
  | [], rest => rest
  | _, [] => []

end ClassAtlas.Grid

namespace ClassAtlas

/-- Places every classifier of a diagram; nothing but places changes. -/
def DiagramOf.arrange {τ : Type} (d : DiagramOf τ) (options : Grid.Options Float) : DiagramOf τ :=
  { d with elements :=
      Grid.setBoxes (Grid.place options 0.0 (d.classifiers.map (·.box))) d.elements }

end ClassAtlas
