import ClassAtlas.Diagram.Grid
import ClassAtlas.Proofs.Bookkeeping
import Mathlib.Algebra.Order.Field.Rat
import Mathlib.Data.List.Forall2
import Mathlib.Tactic.Linarith

/-! # Boxes on the grid keep their distance

Placed boxes fall into rows. Within a row each box starts where the cursor stood after the one before,
and a row ends exactly where that cursor has passed the greatest row width; the next one stands below
its highest box. From this description alone it follows that no two boxes come nearer to each other
than the gaps, in one row or in different ones. Distances are stated for exact numbers, for which sums
are not rounded; that only places change holds of every sort of number. -/

namespace ClassAtlas.Grid

/-! ## Rows -/

/-- A box of the same size, wherever it stands. -/
def SameSize {α : Type} (a b : Box α) : Prop := b = { a with x := b.x, y := b.y }

/-- Where the cursor stands after a box. -/
def after (options : Options ℚ) (b : Box ℚ) : ℚ := b.x + b.width + options.horizontalGap

/-- Boxes that go on with a row: each one stands where the cursor does, and this has not passed the
greatest row width. -/
def GoesOn (options : Options ℚ) (y : ℚ) : ℚ → List (Box ℚ) → Prop
  | _, [] => True
  | x, b :: rest => b.x = x ∧ b.y = y ∧ x ≤ options.maxRowWidth ∧ GoesOn options y (after options b) rest

/-- A row: its first box stands at the origin, and the others go on from there. -/
def IsRow (options : Options ℚ) (y : ℚ) : List (Box ℚ) → Prop
  | [] => False
  | b :: rest => b.x = options.originX ∧ b.y = y ∧ GoesOn options y (after options b) rest

/-- Where the cursor stands after boxes. -/
def rowEnd (options : Options ℚ) : ℚ → List (Box ℚ) → ℚ
  | x, [] => x
  | _, b :: rest => rowEnd options (after options b) rest

/-- The height of the highest of some boxes, or a height that is given. -/
def highest (height : ℚ) (boxes : List (Box ℚ)) : ℚ := boxes.foldl (fun h b => max h b.height) height

/-- Rows that stand below each other. After each but the last the cursor has passed the greatest row
width. -/
def Stacked (options : Options ℚ) : ℚ → List (List (Box ℚ)) → Prop
  | _, [] => True
  | y, row :: rows => IsRow options y row ∧
      (rows ≠ [] → options.maxRowWidth < rowEnd options options.originX row) ∧
      Stacked options (y + highest 0 row + options.verticalGap) rows

/-- Where the first row stands: an origin behind the greatest row width makes a new row at once. -/
def top (options : Options ℚ) : ℚ :=
  if options.maxRowWidth < options.originX then options.originY + options.verticalGap
  else options.originY

/-- A box and a later one: beside each other in one row, or in rows below each other. -/
def Apart (options : Options ℚ) (a b : Box ℚ) : Prop :=
  (a.y = b.y ∧ a.x + a.width + options.horizontalGap ≤ b.x) ∨
    a.y + a.height + options.verticalGap ≤ b.y

/-- Boxes put on the grid. -/
structure Spaced (options : Options ℚ) (boxes placed : List (Box ℚ)) : Prop where
  sizes : List.Forall₂ SameSize boxes placed
  apart : placed.Pairwise (Apart options)
  starts : ∀ b ∈ placed, b.x = options.originX ∨ b.x ≤ options.maxRowWidth
  rows : ∃ rows, rows.flatten = placed ∧ Stacked options (top options) rows

/-- An element of which at most the place has changed. -/
def OnlyMoved {τ : Type} : ElementOf τ → ElementOf τ → Prop
  | .classifier c, .classifier c' => c' = { c with box := c'.box } ∧ SameSize c.box c'.box
  | .relationship r, .relationship r' => r' = r
  | _, _ => False

/-! ## Placing makes rows -/

section Placing

variable {options : Options ℚ} {x y : ℚ} {b : Box ℚ} {row boxes : List (Box ℚ)}
  {rows : List (List (Box ℚ))}

theorem highest_cons (height : ℚ) : highest height (b :: boxes) = highest (max height b.height) boxes :=
  rfl

/-- From a cursor on, boxes go on with its row, and then make rows below it. -/
theorem exists_rows (options : Options ℚ) (c : Cursor ℚ) (boxes : List (Box ℚ)) :
    ∃ row rows, placeFrom options 0 c boxes = row ++ rows.flatten ∧ GoesOn options c.y c.x row ∧
      (rows ≠ [] → options.maxRowWidth < rowEnd options c.x row) ∧
      Stacked options (c.y + highest c.rowHeight row + options.verticalGap) rows := by
  induction boxes generalizing c with
  | nil => exact ⟨[], [], rfl, trivial, fun h => absurd rfl h, trivial⟩
  | cons box boxes ih =>
    obtain ⟨row, rows, hplaced, hrow, hend, hrows⟩ := ih ((c.wrap options 0).advance options box)
    have hheight : ((c.wrap options 0).advance options box).rowHeight =
        max (c.wrap options 0).rowHeight box.height := (max_def_lt _ _).symm
    have hx : ((c.wrap options 0).advance options box).x =
        after options { box with x := (c.wrap options 0).x, y := (c.wrap options 0).y } :=
      (add_assoc _ _ _).symm
    have hy : ((c.wrap options 0).advance options box).y = (c.wrap options 0).y := rfl
    rw [hx, hy] at hrow
    rw [hx] at hend
    rw [hy, hheight] at hrows
    rw [placeFrom, hplaced]
    by_cases hpassed : options.maxRowWidth < c.x
    · have hwrap : c.wrap options 0 =
          ⟨options.originX, c.y + (c.rowHeight + options.verticalGap), 0⟩ := if_pos hpassed
      rw [hwrap] at hrow hend hrows ⊢
      refine ⟨[], ({ box with x := _, y := _ } :: row) :: rows, rfl, trivial, fun _ => hpassed, ?_⟩
      rw [add_assoc]
      exact ⟨⟨rfl, rfl, hrow⟩, hend, hrows⟩
    · have hwrap : c.wrap options 0 = c := if_neg hpassed
      rw [hwrap] at hrow hend hrows ⊢
      exact ⟨{ box with x := _, y := _ } :: row, rows, rfl, ⟨rfl, rfl, not_lt.mp hpassed, hrow⟩, hend, hrows⟩

/-- Placed boxes fall into rows. -/
theorem exists_stacked (options : Options ℚ) (boxes : List (Box ℚ)) :
    ∃ rows, rows.flatten = place options 0 boxes ∧ Stacked options (top options) rows := by
  obtain ⟨row, rows, hplaced, hrow, hend, hrows⟩ :=
    exists_rows options ⟨options.originX, options.originY, 0⟩ boxes
  rw [place, hplaced]
  by_cases hpassed : options.maxRowWidth < options.originX
  · rw [top, if_pos hpassed]
    cases row with
    | nil => exact ⟨rows, rfl, by simpa [highest] using hrows⟩
    | cons b rest => exact absurd hrow.2.2.1 (not_le.mpr hpassed)
  · rw [top, if_neg hpassed]
    cases row with
    | nil =>
      -- an empty row ends where it starts, so no row can follow
      by_cases hnone : rows = []
      · exact ⟨[], by simp [hnone], trivial⟩
      · exact absurd (hend hnone) hpassed
    | cons b rest =>
      obtain ⟨hx, hy, -, hrest⟩ := hrow
      exact ⟨(b :: rest) :: rows, rfl, ⟨hx, hy, hrest⟩, hend, hrows⟩

/-! ## Rows keep their boxes apart -/

theorem le_highest (height : ℚ) (boxes : List (Box ℚ)) :
    height ≤ highest height boxes ∧ ∀ b ∈ boxes, b.height ≤ highest height boxes := by
  induction boxes generalizing height with
  | nil => exact ⟨le_refl _, List.forall_mem_nil _⟩
  | cons b boxes ih =>
    obtain ⟨hheight, hboxes⟩ := ih (max height b.height)
    rw [highest_cons]
    exact ⟨(le_max_left _ _).trans hheight,
      List.forall_mem_cons.mpr ⟨(le_max_right _ _).trans hheight, hboxes⟩⟩

variable (hgap : 0 ≤ options.horizontalGap)

include hgap

/-- Boxes that go on with a row stand on its height, behind the cursor and apart. -/
theorem GoesOn.apart (h : GoesOn options y x row) (hwidth : ∀ b ∈ row, 0 ≤ b.width) :
    row.Pairwise (Apart options) ∧ ∀ b ∈ row, b.y = y ∧ x ≤ b.x := by
  induction row generalizing x with
  | nil => exact ⟨.nil, List.forall_mem_nil _⟩
  | cons b rest ih =>
    obtain ⟨rfl, rfl, -, hrest⟩ := h
    obtain ⟨hb, hwidth⟩ := List.forall_mem_cons.mp hwidth
    obtain ⟨hapart, hbehind⟩ := ih hrest hwidth
    have hafter : b.x ≤ after options b := by
      unfold after
      linarith
    refine ⟨.cons (fun other hother => ?_) hapart, List.forall_mem_cons.mpr ⟨⟨rfl, le_refl _⟩, ?_⟩⟩
    · exact .inl ⟨(hbehind other hother).1.symm, (hbehind other hother).2⟩
    · exact fun other hother => ⟨(hbehind other hother).1, hafter.trans (hbehind other hother).2⟩

theorem IsRow.apart (h : IsRow options y row) (hwidth : ∀ b ∈ row, 0 ≤ b.width) :
    row.Pairwise (Apart options) ∧ ∀ b ∈ row, b.y = y := by
  cases row with
  | nil => cases h
  | cons b rest =>
    obtain ⟨-, hy, hrest⟩ := h
    obtain ⟨-, hwidth⟩ := List.forall_mem_cons.mp hwidth
    obtain ⟨hapart, hbehind⟩ := hrest.apart hgap hwidth
    refine ⟨.cons (fun other hother => ?_) hapart, List.forall_mem_cons.mpr ⟨hy, ?_⟩⟩
    · exact .inl ⟨hy.trans (hbehind other hother).1.symm, (hbehind other hother).2⟩
    · exact fun other hother => (hbehind other hother).1

/-- The boxes of all rows are apart, and none stands above the first row. -/
theorem Stacked.apart (h : Stacked options y rows) (hvertical : 0 ≤ options.verticalGap)
    (hsizes : ∀ b ∈ rows.flatten, 0 ≤ b.width ∧ 0 ≤ b.height) :
    rows.flatten.Pairwise (Apart options) ∧ ∀ b ∈ rows.flatten, y ≤ b.y := by
  induction rows generalizing y with
  | nil => exact ⟨.nil, List.forall_mem_nil _⟩
  | cons row rows ih =>
    obtain ⟨hrow, -, hrows⟩ := h
    rw [List.flatten_cons] at hsizes ⊢
    obtain ⟨hsizes, hbelow⟩ := List.forall_mem_append.mp hsizes
    obtain ⟨hapart, hlevel⟩ := hrow.apart hgap fun b hb => (hsizes b hb).1
    obtain ⟨hothers, hunder⟩ := ih hrows hbelow
    obtain ⟨hpositive, hheight⟩ := le_highest 0 row
    refine ⟨List.pairwise_append.mpr ⟨hapart, hothers, fun a ha b hb => .inr ?_⟩,
      List.forall_mem_append.mpr ⟨fun b hb => (hlevel b hb).ge, fun b hb => ?_⟩⟩
    · have hunder := hunder b hb
      have hheight := hheight a ha
      rw [hlevel a ha]
      linarith
    · have hunder := hunder b hb
      linarith

omit hgap

theorem GoesOn.starts (h : GoesOn options y x row) : ∀ b ∈ row, b.x ≤ options.maxRowWidth := by
  induction row generalizing x with
  | nil => exact List.forall_mem_nil _
  | cons b rest ih =>
    obtain ⟨rfl, -, hx, hrest⟩ := h
    exact List.forall_mem_cons.mpr ⟨hx, ih hrest⟩

theorem Stacked.starts (h : Stacked options y rows) :
    ∀ b ∈ rows.flatten, b.x = options.originX ∨ b.x ≤ options.maxRowWidth := by
  induction rows generalizing y with
  | nil => exact List.forall_mem_nil _
  | cons row rows ih =>
    obtain ⟨hrow, -, hrows⟩ := h
    refine List.forall_mem_append.mpr ⟨?_, ih hrows⟩
    cases row with
    | nil => cases hrow
    | cons b rest =>
      obtain ⟨hx, -, hrest⟩ := hrow
      exact List.forall_mem_cons.mpr ⟨.inl hx, fun other hother => .inr (hrest.starts other hother)⟩

end Placing

/-! ## Only places change -/

section Moving

variable {α τ : Type} [Add α] [LT α] [DecidableRel fun a b : α => a < b]

theorem sameSize_placeFrom (options : Options α) (zero : α) (c : Cursor α) (boxes : List (Box α)) :
    List.Forall₂ SameSize boxes (placeFrom options zero c boxes) := by
  induction boxes generalizing c with
  | nil => exact .nil
  | cons box boxes ih => exact .cons rfl (ih _)

theorem sizes_of_sameSize {boxes placed : List (Box ℚ)} (h : List.Forall₂ SameSize boxes placed)
    (hsizes : ∀ b ∈ boxes, 0 ≤ b.width ∧ 0 ≤ b.height) : ∀ b ∈ placed, 0 ≤ b.width ∧ 0 ≤ b.height := by
  induction h with
  | nil => exact List.forall_mem_nil _
  | cons hsize _ ih =>
    obtain ⟨hfirst, hrest⟩ := List.forall_mem_cons.mp hsizes
    refine List.forall_mem_cons.mpr ⟨?_, ih hrest⟩
    rw [hsize]
    exact hfirst

/-- Boxes of the old sizes, put on classifiers, move them and nothing else. -/
theorem onlyMoved_setBoxes {boxes : List (Box Float)} {elements : List (ElementOf τ)}
    (h : List.Forall₂ SameSize ((elements.filterMap (·.classifier?)).map (·.box)) boxes) :
    List.Forall₂ OnlyMoved elements (setBoxes boxes elements) ∧
      ((setBoxes boxes elements).filterMap (·.classifier?)).map (·.box) = boxes := by
  induction elements generalizing boxes with
  | nil =>
    cases h
    exact ⟨.nil, rfl⟩
  | cons e elements ih =>
    cases e with
    | classifier c =>
      obtain ⟨box, others, hsize, hothers, rfl⟩ := List.forall₂_cons_left_iff.mp h
      obtain ⟨hmoved, hboxes⟩ := ih hothers
      exact ⟨.cons ⟨rfl, hsize⟩ hmoved, congrArg (box :: ·) hboxes⟩
    | relationship r =>
      have hset : setBoxes boxes (.relationship r :: elements) =
          .relationship r :: setBoxes boxes elements := by cases boxes <;> rfl
      obtain ⟨hmoved, hboxes⟩ := ih h
      rw [hset]
      exact ⟨.cons rfl hmoved, hboxes⟩

/-- On every diagram the grid keeps boxes apart in rows that end where they have to, with the boxes of
classifiers measured in exact numbers; and nothing but places changes, with the numbers at hand. -/
theorem arrange_spaced {τ : Type} (d : DiagramOf τ) (measure : ClassifierOf τ → Box ℚ)
    (options : Options ℚ) (hhorizontal : 0 ≤ options.horizontalGap) (hvertical : 0 ≤ options.verticalGap)
    (hsizes : ∀ c ∈ d.classifiers, 0 ≤ (measure c).width ∧ 0 ≤ (measure c).height) :
    Spaced options (d.classifiers.map measure) (place options 0 (d.classifiers.map measure)) ∧
      ∀ given : Options Float, List.Forall₂ OnlyMoved d.elements (d.arrange given).elements ∧
        (d.arrange given).classifiers.map (·.box) = place given 0.0 (d.classifiers.map (·.box)) ∧
        d.arrange given = { d with elements := (d.arrange given).elements } := by
  obtain ⟨rows, hrows, hstacked⟩ := exists_stacked options (d.classifiers.map measure)
  have hplaced := sameSize_placeFrom options 0 ⟨options.originX, options.originY, 0⟩
    (d.classifiers.map measure)
  have hpositive : ∀ b ∈ rows.flatten, 0 ≤ b.width ∧ 0 ≤ b.height := by
    rw [hrows]
    exact sizes_of_sameSize hplaced (List.forall_mem_map.mpr hsizes)
  refine ⟨⟨hplaced, ?_, ?_, rows, hrows, hstacked⟩, fun given => ?_⟩
  · exact hrows ▸ (hstacked.apart hhorizontal hvertical hpositive).1
  · exact hrows ▸ hstacked.starts
  · have hsame : List.Forall₂ SameSize (d.classifiers.map (·.box))
        (place given 0.0 (d.classifiers.map (·.box))) := sameSize_placeFrom ..
    obtain ⟨hmoved, hboxes⟩ := onlyMoved_setBoxes hsame
    exact ⟨hmoved, hboxes, rfl⟩

end Moving

/-- Three classes of which the second passes the greatest row width: the third makes a new row below the
higher of the two. -/
theorem arrange_spaced_rows :
    let d : Diagram := { (DiagramOf.empty "d" "" none none none {}).1 with
      elements := [.classifier (bareClass 0 "a"), .classifier (bareClass 1 "b"),
        .relationship (bareEdge 0 (bareClass 0 "a") (bareClass 1 "b") .association),
        .classifier (bareClass 2 "c")] }
    let measure : Classifier → Box ℚ := fun c => ⟨0, 0, 60, if c.key = 1 then 1 / 3 else 20⟩
    let options : Options ℚ := ⟨5, 5, 10, 4, 100⟩
    let placed : List (Box ℚ) := [⟨5, 5, 60, 20⟩, ⟨75, 5, 60, 1 / 3⟩, ⟨5, 29, 60, 20⟩]
    place options 0 (d.classifiers.map measure) = placed ∧
      Spaced options (d.classifiers.map measure) placed := by
  intro d measure options placed
  have hplaced : place options 0 (d.classifiers.map measure) = placed := by decide +kernel
  have hsizes : ∀ c ∈ d.classifiers, 0 ≤ (measure c).width ∧ 0 ≤ (measure c).height := by
    intro c _
    refine ⟨by norm_num [measure], ?_⟩
    show 0 ≤ if c.key = 1 then (1 / 3 : ℚ) else 20
    split <;> norm_num
  refine ⟨hplaced, ?_⟩
  rw [← hplaced]
  exact (arrange_spaced d measure options (by decide) (by decide) hsizes).1

end ClassAtlas.Grid
