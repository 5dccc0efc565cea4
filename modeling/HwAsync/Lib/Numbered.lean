/-
# Consecutively numbered lists

A sender numbers what it sends, one after the other; what it still holds and what
it still has to send are slices of that numbered history.  This module has the
rules for such slices: how a numbered list splits and grows, and that discarding
everything up to a number is the same as dropping a count of items.
-/

import Mathlib.Data.List.Basic
import Mathlib.Data.List.Nodup
import Mathlib.Tactic.Common

namespace HwAsync.Lib

universe ua

variable {α : Type ua} {key : α → ℕ}

/-- The keys of the list are the numbers directly after `a`, in order. -/
def Numbered (key : α → ℕ) : ℕ → List α → Prop
  | _, [] => True
  | a, x :: rest => key x = a + 1 ∧ Numbered key (a + 1) rest

namespace Numbered

@[simp]
theorem nil (a : ℕ) : Numbered key a [] := trivial

@[simp]
theorem cons_iff {a : ℕ} {x : α} {rest : List α} :
    Numbered key a (x :: rest) ↔ key x = a + 1 ∧ Numbered key (a + 1) rest := Iff.rfl

theorem append_iff {a : ℕ} {l r : List α} :
    Numbered key a (l ++ r) ↔ Numbered key a l ∧ Numbered key (a + l.length) r := by
  induction l generalizing a with
  | nil => simp
  | cons x rest ih =>
      rw [List.cons_append, cons_iff, cons_iff, ih, and_assoc, List.length_cons]
      rw [show a + (rest.length + 1) = a + 1 + rest.length by omega]

/-- The next number is appended. -/
theorem concat {a : ℕ} {l : List α} (h : Numbered key a l) {x : α}
    (hx : key x = a + l.length + 1) : Numbered key a (l ++ [x]) :=
  append_iff.mpr ⟨h, hx, trivial⟩

theorem drop {a : ℕ} {l : List α} (h : Numbered key a l) {n : ℕ} (hn : n ≤ l.length) :
    Numbered key (a + n) (l.drop n) := by
  rw [← List.take_append_drop n l, append_iff] at h
  rw [List.length_take, Nat.min_eq_left hn] at h
  exact h.2

theorem take {a : ℕ} {l : List α} (h : Numbered key a l) (n : ℕ) :
    Numbered key a (l.take n) := by
  rw [← List.take_append_drop n l, append_iff] at h
  exact h.1

theorem lt_of_mem {a : ℕ} {l : List α} (h : Numbered key a l) {x : α} (hx : x ∈ l) :
    a < key x := by
  induction l generalizing a with
  | nil => cases hx
  | cons y rest ih =>
      obtain ⟨hy, hrest⟩ := h
      cases hx with
      | head => omega
      | tail _ hmem =>
          have := ih hrest hmem
          omega

theorem pairwise_lt {a : ℕ} {l : List α} (h : Numbered key a l) :
    l.Pairwise fun x y => key x < key y := by
  induction l generalizing a with
  | nil => exact .nil
  | cons x rest ih =>
      obtain ⟨hx, hrest⟩ := h
      exact .cons (fun y hy => hx ▸ hrest.lt_of_mem hy) (ih hrest)

/-- Discarding up to a number drops a count of items. -/
theorem dropWhile_le {a : ℕ} {l : List α} (h : Numbered key a l) (n : ℕ) :
    l.dropWhile (fun x => decide (key x ≤ n)) = l.drop (n - a) := by
  induction l generalizing a with
  | nil => simp
  | cons x rest ih =>
      obtain ⟨hx, hrest⟩ := h
      by_cases hn : a + 1 ≤ n
      · rw [List.dropWhile_cons_of_pos (by simpa [hx] using hn), ih hrest,
          show n - a = (n - (a + 1)) + 1 by omega, List.drop_succ_cons]
      · rw [List.dropWhile_cons_of_neg (by simpa [hx] using hn),
          show n - a = 0 by omega, List.drop_zero]

end Numbered

end HwAsync.Lib
