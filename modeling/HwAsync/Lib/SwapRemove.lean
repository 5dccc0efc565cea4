/-
# Removal from a table without gaps

The element that is removed is overwritten with the last one, which is then taken off the end.  No
element but the last one moves, and that one moves to a lower index.
-/

import Mathlib.Data.List.Basic
import Mathlib.Data.List.Perm.Basic
import Mathlib.Tactic.Common

namespace HwAsync.Lib

universe ua

variable {α : Type ua} {xs : List α} {i k : ℕ} {a : α}

/-- The last element takes the place of the one at `i`. -/
def swapRemove (i : ℕ) (xs : List α) : List α :=
  match xs.getLast? with
  | none => []
  | some last => (xs.set i last).dropLast

theorem swapRemove_concat (i : ℕ) (ys : List α) (last : α) :
    swapRemove i (ys ++ [last]) = ((ys ++ [last]).set i last).dropLast := by
  rw [swapRemove, List.getLast?_concat]

/-- The end of a table that has an element. -/
theorem exists_concat (hi : xs[i]? = some a) : ∃ ys last, xs = ys ++ [last] :=
  (List.eq_nil_or_concat' xs).resolve_left fun hnil => by
    rw [hnil] at hi
    cases hi

/-- The last element takes the index. -/
theorem getElem?_swapRemove_self (hi : i + 1 < xs.length) :
    (swapRemove i xs)[i]? = xs.getLast? := by
  obtain ⟨ys, last, rfl⟩ :=
    exists_concat (List.getElem?_eq_getElem (Nat.lt_of_succ_lt hi))
  rw [List.length_append, List.length_singleton] at hi
  rw [swapRemove_concat, List.getLast?_concat, List.getElem?_dropLast, List.length_set,
    List.length_append, List.length_singleton, if_pos (by omega), List.getElem?_set_self]
  rw [List.length_append, List.length_singleton]
  omega

/-- All others stay where they are. -/
theorem getElem?_swapRemove_of_ne (hne : k ≠ i) (hk : (swapRemove i xs)[k]? = some a) :
    xs[k]? = some a := by
  unfold swapRemove at hk
  split at hk
  · cases hk
  · rw [List.getElem?_dropLast] at hk
    split at hk
    · rwa [List.getElem?_set_ne (Ne.symm hne)] at hk
    · cases hk

theorem length_swapRemove (i : ℕ) (xs : List α) : (swapRemove i xs).length = xs.length - 1 := by
  unfold swapRemove
  split
  · rename_i hnone
    rw [List.getLast?_eq_none_iff.mp hnone]
    rfl
  · rw [List.length_dropLast, List.length_set]

/-- What stands at the index afterwards was the last element. -/
theorem getLast?_of_getElem?_swapRemove (hk : (swapRemove i xs)[i]? = some a) :
    xs.getLast? = some a := by
  have hlt := (List.getElem?_eq_some_iff.mp hk).1
  rw [length_swapRemove] at hlt
  rwa [getElem?_swapRemove_self (by omega)] at hk

/-- Elements move to lower indices only. -/
theorem exists_le_of_getElem?_swapRemove (hk : (swapRemove i xs)[k]? = some a) :
    ∃ j, k ≤ j ∧ xs[j]? = some a := by
  by_cases hself : k = i
  · subst hself
    have hlt := (List.getElem?_eq_some_iff.mp hk).1
    rw [length_swapRemove] at hlt
    have hlast := getLast?_of_getElem?_swapRemove hk
    rw [List.getLast?_eq_getElem?] at hlast
    exact ⟨xs.length - 1, Nat.le_of_lt hlt, hlast⟩
  · exact ⟨k, Nat.le_refl k, getElem?_swapRemove_of_ne hself hk⟩

/-- What is left is everything but the element. -/
theorem perm_swapRemove (hi : xs[i]? = some a) : xs.Perm (a :: swapRemove i xs) := by
  obtain ⟨ys, last, rfl⟩ := exists_concat hi
  rw [swapRemove_concat]
  rcases Nat.lt_or_ge i ys.length with hlt | hge
  · rw [List.getElem?_append_left hlt, List.getElem?_eq_getElem hlt] at hi
    obtain rfl := Option.some.inj hi
    rw [List.set_append_left _ _ hlt, List.dropLast_concat, List.set_eq_take_append_cons_drop,
      if_pos hlt]
    -- the two elements change places
    have hsplit : ys = ys.take i ++ ys[i] :: ys.drop (i + 1) := by
      rw [List.getElem_cons_drop, List.take_append_drop]
    calc
      (ys ++ [last]).Perm (last :: ys) := List.perm_append_singleton last ys
      _ = last :: (ys.take i ++ ys[i] :: ys.drop (i + 1)) := by rw [← hsplit]
      List.Perm _ (last :: ys[i] :: (ys.take i ++ ys.drop (i + 1))) :=
        List.Perm.cons _ List.perm_middle
      List.Perm _ (ys[i] :: last :: (ys.take i ++ ys.drop (i + 1))) := List.Perm.swap ..
      List.Perm _ (ys[i] :: (ys.take i ++ last :: ys.drop (i + 1))) :=
        List.Perm.cons _ List.perm_middle.symm
  · have hend : i = ys.length := by
      have hbound := (List.getElem?_eq_some_iff.mp hi).1
      rw [List.length_append, List.length_singleton] at hbound
      omega
    subst hend
    rw [List.getElem?_concat_length] at hi
    obtain rfl := Option.some.inj hi
    rw [List.set_append_right _ _ (Nat.le_refl _), Nat.sub_self, List.set_cons_zero,
      List.dropLast_concat]
    exact List.perm_append_singleton _ ys

end HwAsync.Lib
