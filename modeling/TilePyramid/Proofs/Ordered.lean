import Mathlib
import TilePyramid.Proofs.Exact

/-!
# Ordered scalars

Most of what a rectangle does with its sides is to compare them, and a comparison does not round.
`Scalar.Ordered` says of a kind of scalars that its comparisons are those of places on a line, so
that what only compares is proved for exact and for rounded arithmetic at once. An undefined value
has no place: it compares with nothing.
-/

namespace TilePyramid

/-- Scalars whose defined values are compared by their places on a line. A difference may be
rounded, but it is not below zero if its numbers are in order. -/
class Scalar.Ordered (α : Type) [Scalar α] where
  /-- Where a defined value lies on the line. -/
  place : α → ℝ
  lt_iff_place (a b : α) :
    a < b ↔ Scalar.isNaN a = false ∧ Scalar.isNaN b = false ∧ place a < place b
  le_iff_place (a b : α) :
    a ≤ b ↔ Scalar.isNaN a = false ∧ Scalar.isNaN b = false ∧ place a ≤ place b
  not_sub_lt_zero {a b : α} : a ≤ b → ¬ b - a < 0.0

/-- The real numbers are their own places. -/
noncomputable instance {circle : Circle} : Scalar.Ordered (Exact circle) where
  place a := a.value
  lt_iff_place a b := by simp
  le_iff_place a b := by simp
  not_sub_lt_zero {a b} h := by
    have hzero : (0.0 : ℝ) = 0 := by norm_num
    simpa [hzero] using h

namespace Scalar

variable {α : Type} [Scalar α] {a b c d : α}

theorem equal_iff : equal a b = true ↔ a ≤ b ∧ b ≤ a := by
  rw [equal, Bool.and_eq_true, decide_eq_true_iff, decide_eq_true_iff]

variable [Ordered α]

open Ordered

theorem isNaN_of_lt (h : a < b) : isNaN a = false ∧ isNaN b = false := by
  rw [lt_iff_place] at h
  exact ⟨h.1, h.2.1⟩

theorem isNaN_of_le (h : a ≤ b) : isNaN a = false ∧ isNaN b = false := by
  rw [le_iff_place] at h
  exact ⟨h.1, h.2.1⟩

/-- Defined values are in one order or in the other. -/
theorem le_iff : a ≤ b ↔ isNaN a = false ∧ isNaN b = false ∧ ¬ b < a := by
  rw [le_iff_place, lt_iff_place, not_and, not_and, not_lt]
  exact ⟨fun h => ⟨h.1, h.2.1, fun _ _ => h.2.2⟩, fun h => ⟨h.1, h.2.1, h.2.2 h.2.1 h.1⟩⟩

theorem not_lt_of_le (h : a ≤ b) : ¬ b < a := (le_iff.1 h).2.2

theorem lt_irrefl (a : α) : ¬ a < a := by
  rw [lt_iff_place]
  exact fun h => h.2.2.false

theorem lt_trans (h : a < b) (h' : b < c) : a < c := by
  rw [lt_iff_place] at *
  exact ⟨h.1, h'.2.1, h.2.2.trans h'.2.2⟩

theorem le_trans (h : a ≤ b) (h' : b ≤ c) : a ≤ c := by
  rw [le_iff_place] at *
  exact ⟨h.1, h'.2.1, h.2.2.trans h'.2.2⟩

theorem lt_of_le_of_lt_of_le (hab : a ≤ b) (hbc : b < c) (hcd : c ≤ d) : a < d := by
  rw [le_iff_place] at hab hcd
  rw [lt_iff_place] at *
  exact ⟨hab.1, hcd.2.1, (hab.2.2.trans_lt hbc.2.2).trans_le hcd.2.2⟩

end Scalar

end TilePyramid
