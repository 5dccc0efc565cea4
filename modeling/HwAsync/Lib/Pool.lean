/-
# Pools

A pool lends out the items it was filled with and takes them back.  At any time
an item is free or out, never both and never neither: that is the conservation
law a buffer pool has to keep through every path that takes buffers, the failing
ones included.
-/

import HwAsync.Lib.Run
import Mathlib.Algebra.Order.Group.Multiset
import Mathlib.Algebra.Order.Sub.Basic

namespace HwAsync.Lib

universe ue

/-- The items in the pool and the items lent out. -/
structure Pool (ι : Type ue) where
  free : Multiset ι
  out : Multiset ι

/-- The two moves of a pool. -/
inductive Pool.Move (ι : Type ue)
  | lend (items : Multiset ι)
  | giveBack (items : Multiset ι)

namespace Pool

variable {ι : Type ue} [DecidableEq ι]

/-- One move: only free items are lent, and only lent items come back. -/
def step (p : Pool ι) : Move ι → Option (Pool ι)
  | .lend items => if items ≤ p.free then some ⟨p.free - items, p.out + items⟩ else none
  | .giveBack items => if items ≤ p.out then some ⟨p.free + items, p.out - items⟩ else none

end Pool

/-- A pool that starts with all its items free. -/
def poolMachine {ι : Type ue} [DecidableEq ι] (items : Multiset ι) :
    Machine (Pool ι) (Pool.Move ι) where
  start p := p = ⟨items, 0⟩
  step := Pool.step

namespace Pool

variable {ι : Type ue} [DecidableEq ι] {items : Multiset ι} {p : Pool ι}

/-- Every item is free or out. -/
theorem free_add_out (hreached : (poolMachine items).Reached p) : p.free + p.out = items := by
  refine hreached.invariant (fun p => p.free + p.out = items) ?_ ?_
  · rintro p rfl
    simp
  · intro p m q hp _ hstep
    cases m with
    | lend lent =>
        simp only [poolMachine, step] at hstep
        split at hstep
        · obtain rfl := Option.some.inj hstep
          rw [add_comm p.out, ← add_assoc, tsub_add_cancel_of_le ‹_›, hp]
        · cases hstep
    | giveBack back =>
        simp only [poolMachine, step] at hstep
        split at hstep
        · obtain rfl := Option.some.inj hstep
          rw [add_assoc, add_tsub_cancel_of_le ‹_›, hp]
        · cases hstep

/-- Free items of a reachable pool may be lent. -/
theorem reached_lend {lent rest : Multiset ι} (hreached : (poolMachine items).Reached p)
    (hfree : p.free = lent + rest) : (poolMachine items).Reached ⟨rest, p.out + lent⟩ := by
  have hstep : (poolMachine items).step p (.lend lent) = some ⟨rest, p.out + lent⟩ := by
    have hle : lent ≤ lent + rest := Multiset.le_add_right lent rest
    simp only [poolMachine, step, hfree, if_pos hle, add_tsub_cancel_left]
  exact hreached.step trivial hstep

/-- Lent items of a reachable pool may come back. -/
theorem reached_giveBack {back rest : Multiset ι} (hreached : (poolMachine items).Reached p)
    (hout : p.out = back + rest) : (poolMachine items).Reached ⟨p.free + back, rest⟩ := by
  have hstep : (poolMachine items).step p (.giveBack back) =
      some ⟨p.free + back, rest⟩ := by
    have hle : back ≤ back + rest := Multiset.le_add_right back rest
    simp only [poolMachine, step, hout, if_pos hle, add_tsub_cancel_left]
  exact hreached.step trivial hstep

end Pool

end HwAsync.Lib
