import ClassAtlas.Diagram.Multiplicity
import Mathlib.Data.List.TakeWhile

/-! # The grammar of multiplicities

The check works from left to right over characters. It accepts exactly the texts of a grammar with
four forms: a number, a star, a number up to a number, a number up to a star. -/

namespace ClassAtlas.Multiplicity

/-- One or more decimal digits. -/
def IsDigits (s : String) : Prop := s ≠ "" ∧ ∀ c ∈ s.toList, Text.isDecimalDigit c = true

/-- The forms of a multiplicity. -/
inductive WellFormed : String → Prop where
  | number {s : String} : IsDigits s → WellFormed s
  | star : WellFormed "*"
  | range {lower upper : String} : IsDigits lower → IsDigits upper →
      WellFormed (lower ++ ".." ++ upper)
  | unlimited {lower : String} : IsDigits lower → WellFormed (lower ++ ".." ++ "*")

theorem isNumber_toList {s : String} : isNumber s.toList = true ↔ IsDigits s := by
  simp [isNumber, IsDigits]

theorem isBound_toList {s : String} : isBound s.toList = true ↔ s = "*" ∨ IsDigits s := by
  rw [isBound, Bool.or_eq_true, isNumber_toList, beq_iff_eq]
  refine or_congr_left ⟨fun h => String.toList_injective h, ?_⟩
  rintro rfl
  rfl

/-- A point is no digit, so the digits before the two points are the whole lower number. -/
theorem isRange_iff {cs : List Char} : isRange cs = true ↔
    ∃ lower upper, cs = lower ++ '.' :: '.' :: upper ∧ isNumber lower = true ∧
      isBound upper = true := by
  constructor
  · intro h
    obtain ⟨hlower, hrest⟩ := Bool.and_eq_true_iff.mp h
    split at hrest
    · rename_i upper hdrop
      refine ⟨_, upper, ?_, hlower, hrest⟩
      rw [← hdrop, List.takeWhile_append_dropWhile]
    · contradiction
  · intro hgiven
    obtain ⟨lower, upper, rfl, hlower, hupper⟩ := hgiven
    have hdigits : ∀ c ∈ lower, Text.isDecimalDigit c = true := by
      simp only [isNumber, Bool.and_eq_true, List.all_eq_true] at hlower
      exact hlower.2
    have hpoint : Text.isDecimalDigit '.' = false := by decide
    rw [isRange, List.takeWhile_append_of_pos hdigits, List.dropWhile_append_of_pos hdigits,
      List.takeWhile_cons_of_neg (by simp [hpoint]), List.dropWhile_cons_of_neg (by simp [hpoint]),
      List.append_nil]
    simp [hlower, hupper]

theorem isValid_iff {s : String} : isValid s = true ↔ WellFormed s := by
  rw [isValid, Bool.or_eq_true, isBound_toList, isRange_iff]
  constructor
  · rintro ((rfl | hs) | ⟨lower, upper, hs, hlower, hupper⟩)
    · exact .star
    · exact .number hs
    · have hcut : s = String.ofList lower ++ ".." ++ String.ofList upper := by
        apply String.toList_injective
        simp [hs]
      rw [← String.toList_ofList (l := lower), isNumber_toList] at hlower
      rw [← String.toList_ofList (l := upper), isBound_toList] at hupper
      rw [hcut]
      rcases hupper with hstar | hupper
      · rw [hstar]
        exact .unlimited hlower
      · exact .range hlower hupper
  · intro h
    cases h with
    | number hs => exact .inl (.inr hs)
    | star => exact .inl (.inl rfl)
    | @range lower upper hlower hupper =>
      exact .inr ⟨lower.toList, upper.toList, by simp, isNumber_toList.mpr hlower,
        isBound_toList.mpr (.inr hupper)⟩
    | @unlimited lower hlower =>
      exact .inr ⟨lower.toList, "*".toList, by simp, isNumber_toList.mpr hlower, rfl⟩

end ClassAtlas.Multiplicity
