/-
# Blocks at a stride

Memory that is cut into blocks of one size, one behind the other: which block an address lies in,
and how many blocks a piece of memory has room for.
-/

import Mathlib.Algebra.BigOperators.Group.Finset.Basic
import Mathlib.Algebra.Group.Action.Defs
import Mathlib.Order.Interval.Finset.Nat
import Mathlib.Tactic.Common

namespace HwAsync.Lib

/-- The addresses from `start` on, as many as `size`. -/
def block (start size : ℕ) : Finset ℕ := Finset.Ico start (start + size)

variable {base stride n i j c : ℕ}

@[simp]
theorem mem_block {start size : ℕ} : c ∈ block start size ↔ start ≤ c ∧ c < start + size :=
  Finset.mem_Ico

@[simp]
theorem card_block (start size : ℕ) : (block start size).card = size := by
  rw [block, Nat.card_Ico, Nat.add_sub_cancel_left]

/-- The block of an address is found by a division. -/
theorem mem_block_iff_div (hpos : 0 < stride) :
    c ∈ block (base + i * stride) stride ↔ base ≤ c ∧ (c - base) / stride = i := by
  rw [mem_block, Nat.div_eq_iff hpos]
  omega

/-- Every address of the first `n` blocks lies in one of them. -/
theorem exists_mem_block_iff (hpos : 0 < stride) :
    (∃ i < n, c ∈ block (base + i * stride) stride) ↔ base ≤ c ∧ c < base + n * stride := by
  constructor
  · rintro ⟨i, hi, hc⟩
    have hle : (i + 1) * stride ≤ n * stride := Nat.mul_le_mul_right _ hi
    rw [mem_block] at hc
    rw [Nat.add_mul] at hle
    omega
  · rintro ⟨hle, hlt⟩
    refine ⟨(c - base) / stride, ?_, (mem_block_iff_div hpos).mpr ⟨hle, rfl⟩⟩
    rw [Nat.div_lt_iff_lt_mul hpos]
    omega

/-- Two blocks have no address in common. -/
theorem disjoint_block (hne : i ≠ j) :
    Disjoint (block (base + i * stride) stride) (block (base + j * stride) stride) := by
  rw [Finset.disjoint_left]
  intro c hi hj
  have hpos : 0 < stride := by
    rw [mem_block] at hi
    omega
  exact hne (((mem_block_iff_div hpos).mp hi).2.symm.trans ((mem_block_iff_div hpos).mp hj).2)

/-- Disjoint blocks inside of a larger one have no more addresses than that. -/
theorem card_mul_le {ι : Type} {blocks : Finset ι} {start : ι → ℕ} {size lo len : ℕ}
    (hdisjoint : (blocks : Set ι).PairwiseDisjoint fun i => block (start i) size)
    (hinside : ∀ i ∈ blocks, block (start i) size ⊆ block lo len) : blocks.card * size ≤ len := by
  classical
  have hcard := Finset.card_biUnion hdisjoint
  simp only [card_block, Finset.sum_const, smul_eq_mul] at hcard
  have hle := Finset.card_le_card (Finset.biUnion_subset.mpr hinside)
  rwa [hcard, card_block] at hle

end HwAsync.Lib
