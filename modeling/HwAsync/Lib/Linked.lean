/-
# Chains through memory

Cells that each name the next one, until one that names none: what a reader finds who follows them
from a first cell on.
-/

import Mathlib.Data.List.Basic
import Mathlib.Tactic.Common

namespace HwAsync.Lib

variable {α : Type} {cell : ℕ → Option (α × Option ℕ)}

/-- The values from a cell on, up to the first that has no next one.  There are none if a cell has
no value, or if the chain does not end within `fuel` cells. -/
def follow (cell : ℕ → Option (α × Option ℕ)) : ℕ → Option ℕ → Option (List α)
  | _, none => some []
  | 0, some _ => none
  | fuel + 1, some i =>
      match cell i with
      | none => none
      | some (a, next) => (follow cell fuel next).map (a :: ·)

/-- Cells in a row, each of them linked to the one behind it and the last to none. -/
def Linked (cell : ℕ → Option (α × Option ℕ)) (start : ℕ) (values : List α) : Prop :=
  ∀ k (hk : k < values.length),
    cell (start + k) =
      some (values[k], if k + 1 = values.length then none else some (start + k + 1))

theorem Linked.tail {start : ℕ} {a : α} {values : List α} (h : Linked cell start (a :: values)) :
    Linked cell (start + 1) values := by
  intro k hk
  have hcell := h (k + 1) (Nat.succ_lt_succ hk)
  rw [List.length_cons, List.getElem_cons_succ] at hcell
  rw [Nat.add_assoc, Nat.add_comm 1 k, hcell]
  simp only [Nat.add_right_cancel_iff]

/-- Such a chain ends, and has its values in order. -/
theorem Linked.follow_eq {start fuel : ℕ} {values : List α} (h : Linked cell start values)
    (hne : values ≠ []) (hfuel : values.length ≤ fuel) :
    follow cell fuel (some start) = some values := by
  induction values generalizing start fuel with
  | nil => exact absurd rfl hne
  | cons a values ih =>
      obtain ⟨fuel, rfl⟩ : ∃ n, fuel = n + 1 := ⟨fuel - 1, by rw [List.length_cons] at hfuel; omega⟩
      have hfirst := h 0 (Nat.succ_pos _)
      rw [Nat.add_zero, List.length_cons, List.getElem_cons_zero] at hfirst
      rw [follow, hfirst]
      dsimp only
      by_cases hlast : values = []
      · subst hlast
        rw [List.length_nil, if_pos rfl, follow]
        rfl
      · have hlength : values.length ≠ 0 := fun hzero => hlast (List.length_eq_zero_iff.mp hzero)
        have hrest := ih h.tail hlast (Nat.le_of_succ_le_succ hfuel)
        rw [if_neg (by omega), hrest]
        rfl

end HwAsync.Lib
