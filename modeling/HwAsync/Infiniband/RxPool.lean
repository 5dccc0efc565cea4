/-
# The pool of receive buffers

The memory manager keeps the receive buffers in a `boost::pool`.  When its free list is empty, the
pool asks for a new block of buffers, whose size it chooses itself; a block that would exceed
`ms_async_rdma_receive_buffers` is refused, and so is one that there is no memory for.

`post_chunks_to_srq` takes buffers one by one until it has as many as it wants, or gets none.
-/

import Mathlib.Algebra.Order.Ring.Int
import Mathlib.Data.List.Basic

namespace HwAsync.Infiniband

/-- `mem_pool` with its context.  A buffer is named by when it was allocated. -/
structure RxPool where
  store : List ℕ
  nBufsAllocated : ℕ
  deriving DecidableEq, Repr

/-- The blocks that an empty pool asks for one after the other, by how much is allocated so far: the
number of buffers, and whether there is memory for it. -/
abbrev Growth := ℕ → List (ℕ × Bool)

namespace RxPool

/-- `can_alloc`. -/
def canAlloc (receiveBuffers : ℤ) (nbufs : ℕ) (p : RxPool) : Bool :=
  if receiveBuffers ≤ 0 then true
  else if (p.nBufsAllocated + nbufs : ℤ) > receiveBuffers then false
  else true

/-- `slow_malloc`: the pool gets the first block that it is not refused. -/
def slowMalloc (receiveBuffers : ℤ) (growth : Growth) (p : RxPool) : Option (ℕ × RxPool) :=
  match (growth p.nBufsAllocated).find? fun block =>
      p.canAlloc receiveBuffers block.1 && block.2 with
  | none => none
  | some (nbufs, _) =>
      match List.range' p.nBufsAllocated nbufs with
      | [] => none
      | chunk :: store => some (chunk, ⟨store, p.nBufsAllocated + nbufs⟩)

/-- `get_rx_buffer`. -/
def getRxBuffer (receiveBuffers : ℤ) (growth : Growth) (p : RxPool) : Option (ℕ × RxPool) :=
  match p.store with
  | chunk :: store => some (chunk, { p with store := store })
  | [] => p.slowMalloc receiveBuffers growth

/-- `release_rx_buffer`. -/
def releaseRxBuffer (chunk : ℕ) (p : RxPool) : RxPool := { p with store := chunk :: p.store }

/-- `post_chunks_to_srq`: the buffers it posts. -/
def postChunksToSrq (receiveBuffers : ℤ) (growth : Growth) : ℕ → RxPool → List ℕ × RxPool
  | 0, p => ([], p)
  | num + 1, p =>
      match p.getRxBuffer receiveBuffers growth with
      | none => ([], p)
      | some (chunk, p') =>
          let (chunks, q) := postChunksToSrq receiveBuffers growth num p'
          (chunk :: chunks, q)

/-- The free buffers of the pool, with those of the blocks that it gets when it is asked `num`
times. -/
def supply (receiveBuffers : ℤ) (growth : Growth) : ℕ → RxPool → ℕ
  | 0, p => p.store.length
  | num + 1, p =>
      match p.getRxBuffer receiveBuffers growth with
      | none => p.store.length
      | some (_, p') => supply receiveBuffers growth num p' + 1

/-! ## What is posted and what is left -/

variable {receiveBuffers : ℤ} {growth : Growth}

/-- A pool that gives no buffer has none. -/
theorem store_of_getRxBuffer_eq_none {p : RxPool}
    (h : p.getRxBuffer receiveBuffers growth = none) : p.store = [] := by
  unfold getRxBuffer at h
  cases hstore : p.store with
  | nil => rfl
  | cons chunk store =>
    rw [hstore] at h
    cases h

theorem nBufsAllocated_of_getRxBuffer {p q : RxPool} {chunk : ℕ}
    (h : p.getRxBuffer receiveBuffers growth = some (chunk, q)) (hlimit : 0 < receiveBuffers)
    (hp : (p.nBufsAllocated : ℤ) ≤ receiveBuffers) : (q.nBufsAllocated : ℤ) ≤ receiveBuffers := by
  unfold getRxBuffer at h
  split at h
  · cases h
    exact hp
  · unfold slowMalloc at h
    split at h
    · cases h
    · rename_i nbufs memory hblock
      split at h
      · cases h
      · cases h
        have hallowed := List.find?_some hblock
        rw [Bool.and_eq_true, canAlloc, if_neg (not_le.mpr hlimit)] at hallowed
        by_contra hexceeds
        rw [if_pos (by push_cast at hexceeds; exact not_le.mp hexceeds)] at hallowed
        exact absurd hallowed.1 Bool.noConfusion

theorem postChunksToSrq_succ_of_none {p : RxPool} {num : ℕ}
    (h : p.getRxBuffer receiveBuffers growth = none) :
    p.postChunksToSrq receiveBuffers growth (num + 1) = ([], p) := by
  rw [postChunksToSrq, h]

theorem postChunksToSrq_succ {p q : RxPool} {num chunk : ℕ}
    (h : p.getRxBuffer receiveBuffers growth = some (chunk, q)) :
    p.postChunksToSrq receiveBuffers growth (num + 1) =
      (chunk :: (q.postChunksToSrq receiveBuffers growth num).1,
        (q.postChunksToSrq receiveBuffers growth num).2) := by
  rw [postChunksToSrq, h]

/-- A bounded pool never has more buffers than the limit. -/
theorem nBufsAllocated_posted_le (hlimit : 0 < receiveBuffers) {num : ℕ} {p : RxPool}
    (hp : (p.nBufsAllocated : ℤ) ≤ receiveBuffers) :
    ((p.postChunksToSrq receiveBuffers growth num).2.nBufsAllocated : ℤ) ≤ receiveBuffers := by
  induction num generalizing p with
  | zero => exact hp
  | succ num ih =>
    cases h : p.getRxBuffer receiveBuffers growth with
    | none =>
      rw [postChunksToSrq_succ_of_none h]
      exact hp
    | some got =>
      obtain ⟨chunk, q⟩ := got
      rw [postChunksToSrq_succ h]
      exact ih (nBufsAllocated_of_getRxBuffer h hlimit hp)

/-- What is posted and what is left make up the supply. -/
theorem length_posted_add_store (receiveBuffers : ℤ) (growth : Growth) (num : ℕ) (p : RxPool) :
    (p.postChunksToSrq receiveBuffers growth num).1.length +
        (p.postChunksToSrq receiveBuffers growth num).2.store.length =
      p.supply receiveBuffers growth num := by
  induction num generalizing p with
  | zero => exact Nat.zero_add _
  | succ num ih =>
    cases h : p.getRxBuffer receiveBuffers growth with
    | none =>
      rw [postChunksToSrq_succ_of_none h, supply, h]
      exact Nat.zero_add _
    | some got =>
      obtain ⟨chunk, q⟩ := got
      rw [postChunksToSrq_succ h, supply, h]
      show (q.postChunksToSrq receiveBuffers growth num).1.length + 1 + _ = _
      rw [Nat.add_right_comm, ih q]

theorem length_posted_le (receiveBuffers : ℤ) (growth : Growth) (num : ℕ) (p : RxPool) :
    (p.postChunksToSrq receiveBuffers growth num).1.length ≤ num := by
  induction num generalizing p with
  | zero => exact Nat.le_refl _
  | succ num ih =>
    cases h : p.getRxBuffer receiveBuffers growth with
    | none =>
      rw [postChunksToSrq_succ_of_none h]
      exact Nat.zero_le _
    | some got =>
      obtain ⟨chunk, q⟩ := got
      rw [postChunksToSrq_succ h]
      exact Nat.succ_le_succ (ih q)

/-- The pool is empty when less is posted than was asked for. -/
theorem store_of_length_posted_lt {num : ℕ} {p : RxPool}
    (h : (p.postChunksToSrq receiveBuffers growth num).1.length < num) :
    (p.postChunksToSrq receiveBuffers growth num).2.store = [] := by
  induction num generalizing p with
  | zero => exact absurd h (Nat.not_lt_zero _)
  | succ num ih =>
    cases hget : p.getRxBuffer receiveBuffers growth with
    | none =>
      rw [postChunksToSrq_succ_of_none hget]
      exact store_of_getRxBuffer_eq_none hget
    | some got =>
      obtain ⟨chunk, q⟩ := got
      rw [postChunksToSrq_succ hget] at h ⊢
      exact ih (Nat.lt_of_succ_lt_succ h)

/-- As many are posted as were asked for exactly if the supply is enough. -/
theorem length_posted_eq_iff {num : ℕ} {p : RxPool} :
    (p.postChunksToSrq receiveBuffers growth num).1.length = num ↔
      num ≤ p.supply receiveBuffers growth num := by
  have hsum := length_posted_add_store receiveBuffers growth num p
  constructor
  · intro hall
    omega
  · intro henough
    by_contra hne
    have hlt := Nat.lt_of_le_of_ne (length_posted_le receiveBuffers growth num p) hne
    rw [store_of_length_posted_lt hlt, List.length_nil] at hsum
    omega

/-- Nothing is left exactly if the supply was not more than was asked for. -/
theorem store_posted_eq_nil_iff {num : ℕ} {p : RxPool} :
    (p.postChunksToSrq receiveBuffers growth num).2.store = [] ↔
      p.supply receiveBuffers growth num ≤ num := by
  have hsum := length_posted_add_store receiveBuffers growth num p
  have hle := length_posted_le receiveBuffers growth num p
  constructor
  · intro hnil
    rw [hnil, List.length_nil] at hsum
    omega
  · intro henough
    by_contra hne
    have hlength := List.length_pos_of_ne_nil hne
    have hlt : (p.postChunksToSrq receiveBuffers growth num).1.length < num := by omega
    exact hne (store_of_length_posted_lt hlt)

end RxPool

end HwAsync.Infiniband
