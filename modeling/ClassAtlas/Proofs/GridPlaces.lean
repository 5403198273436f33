import ClassAtlas.Diagram.Grid
import ClassAtlas.Proofs.StoredDiagrams

/-! # Places on the grid are numbers

Adding a finite number never leads from numbers to what is none, not even where a sum is too large. So
however many boxes there are, all of them get places that a store can keep. -/

namespace ClassAtlas

/-! ## Sums -/

namespace Number

open Float.Model (UnpackedFloat Format)
open Float.Model.UnpackedFloat (Sign)

theorem isNaN_dite {p : Prop} [Decidable p] {f : p → UnpackedFloat} {g : ¬ p → UnpackedFloat}
    (hf : ∀ h, (f h).isNaN = false) (hg : ∀ h, (g h).isNaN = false) : (dite p f g).isNaN = false := by
  by_cases h : p
  · rw [dif_pos h]
    exact hf h
  · rw [dif_neg h]
    exact hg h

/-- Bits stand for a number unless their exponent is all ones. -/
theorem isNaN_unpack {b : BitVec Format.binary64.numBits}
    (h : UnpackedFloat.unpackExponent b ≠ -1#11) :
    (UnpackedFloat.unpack Format.binary64 b).isNaN = false := by
  delta UnpackedFloat.unpack
  dsimp only
  rw [if_neg h]
  by_cases hexponent : UnpackedFloat.unpackExponent b = 0#11
  · rw [if_pos hexponent]
    exact isNaN_dite (fun _ => rfl) fun _ => rfl
  · rw [if_neg hexponent]
    rfl

theorem isNaN_unpack_components {s : Sign} {exponent : BitVec 11} {mantissa : BitVec 52}
    (h : exponent ≠ -1#11) : (UnpackedFloat.unpack Format.binary64
      (UnpackedFloat.packComponents Format.binary64 s exponent mantissa)).isNaN = false :=
  isNaN_unpack (by rwa [UnpackedFloat.unpackExponent_packComponents])

/-- A number is still one when it was packed. -/
theorem isNaN_unpack_pack {u : UnpackedFloat} (h : u.isNaN = false) :
    (UnpackedFloat.unpack Format.binary64 (UnpackedFloat.pack Format.binary64 u)).isNaN = false := by
  have hinfinity (s : Sign) : (UnpackedFloat.unpack Format.binary64
      (UnpackedFloat.packedInfinity Format.binary64 s)).isNaN = false := by
    cases s <;> rfl
  cases u with
  | notANumber => cases h
  | infinity s => exact hinfinity s
  | zero s => exact isNaN_unpack_components (by decide)
  | finite s m e hm =>
    unfold UnpackedFloat.pack
    dsimp only
    split
    · exact hinfinity s
    · rename_i hsmall
      split
      · refine isNaN_unpack_components fun hones => hsmall ?_
        have hvalue := congrArg BitVec.toNat hones
        rw [BitVec.toNat_ofNat, Nat.mod_eq_of_lt (by omega)] at hvalue
        rw [hvalue]
        decide
      · exact isNaN_unpack_components (by decide)

theorem isNaN_round (format : Format) (s : Sign) (m : Nat) (e : Int) :
    (UnpackedFloat.round format s m e).isNaN = false := by
  unfold UnpackedFloat.round UnpackedFloat.roundWithAccuracy
  dsimp only
  exact isNaN_dite (fun _ => rfl) fun _ => rfl

/-- Only infinities of both signs add up to what is no number. -/
theorem isNaN_add {u v : UnpackedFloat} (hu : u.isNaN = false) (hv : v.isFinite = true) :
    (UnpackedFloat.add Format.binary64 u v).isNaN = false := by
  cases v with
  | notANumber | infinity s => cases hv
  | zero s =>
    cases u with
    | notANumber => cases hu
    | infinity t => rfl
    | zero t => cases s <;> cases t <;> rfl
    | finite t m e hm => rfl
  | finite s m e hm =>
    cases u with
    | notANumber => cases hu
    | infinity t => rfl
    | zero t => rfl
    | finite t n f hn =>
      unfold UnpackedFloat.add UnpackedFloat.normalize
      dsimp only
      split
      · exact isNaN_round ..
      · rfl
      · exact isNaN_round ..

end Number

theorem Store.Held.add {x y : Float} (hx : Store.Held x) (hy : y.isFinite = true) : Store.Held (x + y) :=
  Number.isNaN_unpack_pack (Number.isNaN_add hx hy)

/-! ## Rows of boxes -/

namespace Grid

open Store (Held)

/-- A place that a store can keep. -/
structure HeldBox (b : Box Float) : Prop where
  x : Held b.x
  y : Held b.y
  width : Held b.width
  height : Held b.height

/-- A cursor among standard boxes: the row has none so far, or is as high as they are. -/
structure Steady (c : Cursor Float) : Prop where
  x : Held c.x
  y : Held c.y
  rowHeight : c.rowHeight = 0.0 ∨ c.rowHeight = Box.standard.height

/-- A classifier at another place. -/
def Moved {τ : Type} (c c' : ClassifierOf τ) : Prop := c' = { c with box := c'.box }

section Places

variable {τ : Type} {c : Cursor Float} {cs : List (ClassifierOf τ)} {rs : List (RelationshipOf τ)}

theorem held_origin : Held Options.standard.originX ∧ Held Options.standard.originY := by
  unfold Held
  decide

theorem Steady.wrap (h : Steady c) : Steady (c.wrap .standard 0.0) := by
  unfold Cursor.wrap
  split
  · refine ⟨held_origin.1, h.y.add ?_, .inl rfl⟩
    rcases h.rowHeight with hheight | hheight <;> rw [hheight] <;> decide
  · exact h

theorem Steady.advance (h : Steady c) : Steady (c.advance .standard Box.standard) := by
  refine ⟨h.x.add (by decide), h.y, .inr ?_⟩
  show (if c.rowHeight < Box.standard.height then Box.standard.height else c.rowHeight) = _
  rcases h.rowHeight with hheight | hheight
  · rw [hheight]
    exact if_pos (show (0.0 : Float) < Box.standard.height by decide)
  · rw [hheight]
    exact ite_self _

/-- Standard boxes get places one after another. -/
theorem setBoxes_standard (rs : List (RelationshipOf τ)) (h : Steady c)
    (hboxes : ∀ c ∈ cs, c.box = Box.standard) :
    ∃ cs', List.Forall₂ Moved cs cs' ∧ (∀ c ∈ cs', HeldBox c.box) ∧
      setBoxes (placeFrom .standard 0.0 c (cs.map (·.box)))
          (cs.map .classifier ++ rs.map .relationship) =
        cs'.map .classifier ++ rs.map .relationship := by
  induction cs generalizing c with
  | nil =>
    refine ⟨[], .nil, List.forall_mem_nil _, ?_⟩
    show setBoxes [] (rs.map .relationship) = rs.map .relationship
    induction rs with
    | nil => rfl
    | cons r rs ih => exact congrArg (.relationship r :: ·) ih
  | cons first cs ih =>
    obtain ⟨hfirst, hcs⟩ := List.forall_mem_cons.mp hboxes
    obtain ⟨cs', hmoved, hheld, hrest⟩ := ih h.wrap.advance hcs
    let here := c.wrap .standard 0.0
    refine ⟨{ first with box := { Box.standard with x := here.x, y := here.y } } :: cs', ?_, ?_, ?_⟩
    · exact .cons rfl hmoved
    · refine List.forall_mem_cons.mpr ⟨⟨h.wrap.x, h.wrap.y, ?_, ?_⟩, hheld⟩
      · show Held Box.standard.width
        unfold Held
        decide
      · show Held Box.standard.height
        unfold Held
        decide
    · rw [List.map_cons, List.map_cons, hfirst, List.map_cons, List.cons_append, List.cons_append,
        ← hrest]
      rfl

/-- Placing the classifiers of a diagram moves them, and changes nothing else. -/
theorem arrange_standard {d : DiagramOf τ}
    (helements : d.elements = cs.map .classifier ++ rs.map .relationship)
    (hboxes : ∀ c ∈ cs, c.box = Box.standard) :
    ∃ cs', List.Forall₂ Moved cs cs' ∧ (∀ c ∈ cs', HeldBox c.box) ∧
      d.arrange .standard = { d with elements := cs'.map .classifier ++ rs.map .relationship } := by
  have hclassifiers : d.classifiers = cs := by
    rw [DiagramOf.classifiers, helements, List.filterMap_append, List.filterMap_map, List.filterMap_map]
    have hnone : rs.filterMap ((·.classifier?) ∘ ElementOf.relationship) = [] :=
      List.filterMap_eq_nil_iff.mpr fun _ _ => rfl
    rw [hnone, List.append_nil]
    exact List.filterMap_some
  have hstart : Steady ⟨Options.standard.originX, Options.standard.originY, 0.0⟩ :=
    ⟨held_origin.1, held_origin.2, .inl rfl⟩
  obtain ⟨cs', hmoved, hheld, hset⟩ := setBoxes_standard rs hstart hboxes
  refine ⟨cs', hmoved, hheld, ?_⟩
  rw [DiagramOf.arrange, hclassifiers, helements, place, hset]

end Places

end Grid

end ClassAtlas
