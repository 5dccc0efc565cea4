/-
# The chain of receive requests

`post_chunks_to_srq` makes one receive request for every buffer that it gets, in an array whose
elements it links to each other, and posts them all with one call.  When the pool runs dry it cuts
the chain behind the last request it has; when it gets no buffer at all it posts nothing.

The arrays lie on the stack, and their elements have no value before they are set.  What is posted
is what the adapter finds when it follows the chain from the first element on.

The pool knows a chunk by its name, which is the number of chunks that were allocated before it.
Where the chunk lies is another number, its address, and only the adapter needs it.
-/

import HwAsync.Infiniband.RxBlock
import HwAsync.Infiniband.RxPool
import HwAsync.Lib.Linked

namespace HwAsync.Infiniband

open HwAsync.Lib

/-- `ibv_sge`. -/
structure Sge where
  addr : ℕ
  length : UInt32
  lkey : UInt32
  deriving DecidableEq, Repr

/-- A chunk as it lies in memory: what is set in it, and its address. -/
structure PlacedChunk extends RxHeader where
  address : ℕ
  deriving DecidableEq

/-- `chunk->data`. -/
def PlacedChunk.data (chunk : PlacedChunk) : ℕ := chunk.address + TxCluster.sizeofChunk

/-- `ibv_recv_wr`.  `next` and `sgList` are indexes of the two arrays; `wrId`, a pointer to the
chunk that only comes back with its completion, is the name of the chunk. -/
structure RecvWr where
  wrId : ℕ
  next : Option ℕ
  sgList : ℕ
  numSge : ℕ
  deriving DecidableEq, Repr

/-- `isge` and `rx_work_request`. -/
structure RecvArrays where
  isge : List (Option Sge)
  rxWorkRequest : List (Option RecvWr)
  deriving DecidableEq, Repr

/-- A receive request as the adapter has it. -/
structure RecvRequest where
  wrId : ℕ
  sges : List Sge
  deriving DecidableEq, Repr

namespace RecvArrays

/-- The arrays of a call. -/
def new (num : ℕ) : RecvArrays := ⟨List.replicate num none, List.replicate num none⟩

/-- The request for a chunk, as the `i`-th of `num`; `head` tells where the chunks lie. -/
def push (head : ℕ → PlacedChunk) (num i chunk : ℕ) (arrays : RecvArrays) : RecvArrays where
  isge := arrays.isge.set i
    (some ⟨(head chunk).data, (head chunk).bytes, (head chunk).lkey⟩)
  rxWorkRequest := arrays.rxWorkRequest.set i
    (some ⟨chunk, if i = num - 1 then none else some (i + 1), i, 1⟩)

/-- `rx_work_request[i].next = 0`. -/
def cut (i : ℕ) (arrays : RecvArrays) : RecvArrays :=
  { arrays with
    rxWorkRequest := arrays.rxWorkRequest.modify i fun wr =>
      wr.map fun w => { w with next := none } }

/-- What the adapter reads of an element, and where it goes on. -/
def read (arrays : RecvArrays) (i : ℕ) : Option (RecvRequest × Option ℕ) :=
  match arrays.rxWorkRequest[i]? with
  | some (some w) =>
      match (List.range' w.sgList w.numSge).mapM fun j => (arrays.isge[j]?).join with
      | none => none
      | some sges => some (⟨w.wrId, sges⟩, w.next)
  | _ => none

/-- What `ibv_post_srq_recv` posts, from the first element on. -/
def posted (arrays : RecvArrays) : Option (List RecvRequest) :=
  follow arrays.read arrays.rxWorkRequest.length (some 0)

end RecvArrays

/-- What a call of `post_chunks_to_srq` leaves: the number it returns, the chunks it took, the
arrays that it posted if any, and the pool. -/
structure PostCall (σ : Type) where
  returned : ℕ
  taken : List ℕ
  arrays : Option RecvArrays
  pool : σ

section Calls

variable {σ : Type} (getRxBuffer : σ → Option (ℕ × σ)) (head : ℕ → PlacedChunk)

/-- The loop, with `left` more elements behind the `i` that are set. -/
def postLoop (num : ℕ) : (left i : ℕ) → RecvArrays → List ℕ → σ → PostCall σ
  | 0, i, arrays, taken, s => ⟨i, taken, some arrays, s⟩
  | left + 1, i, arrays, taken, s =>
      match getRxBuffer s with
      | none =>
          if i = 0 then ⟨0, taken, none, s⟩ else ⟨i, taken, some (arrays.cut (i - 1)), s⟩
      | some (chunk, s') =>
          postLoop num left (i + 1) (arrays.push head num i chunk) (taken ++ [chunk]) s'

/-- `post_chunks_to_srq`. -/
def postChunksToSrq (num : ℕ) (s : σ) : PostCall σ :=
  postLoop getRxBuffer head num num 0 (.new num) [] s

/-- The chunks that are taken one after the other, until there are enough or none is left. -/
def takeChunks : ℕ → σ → List ℕ × σ
  | 0, s => ([], s)
  | num + 1, s =>
      match getRxBuffer s with
      | none => ([], s)
      | some (chunk, s') => (chunk :: (takeChunks num s').1, (takeChunks num s').2)

end Calls

/-- The request for a chunk: its whole data area, with its key. -/
def chunkRequest (head : ℕ → PlacedChunk) (chunk : ℕ) : RecvRequest :=
  ⟨chunk, [⟨(head chunk).data, (head chunk).bytes, (head chunk).lkey⟩]⟩

/-- A call that posts what it took from the pool, each chunk once, as one chain that ends, and does
not call the adapter if it took nothing. -/
structure PostCall.Proper {σ : Type} (head : ℕ → PlacedChunk) (num : ℕ) (call : PostCall σ) :
    Prop where
  returned : call.returned = call.taken.length
  le_num : call.taken.length ≤ num
  nodup : call.taken.Nodup
  posted : ∀ arrays ∈ call.arrays, arrays.posted = some (call.taken.map (chunkRequest head))
  called : call.arrays = none ↔ call.taken = []

/-! ## The arrays -/

variable {σ : Type} {getRxBuffer : σ → Option (ℕ × σ)} {head : ℕ → PlacedChunk} {num : ℕ}
  {arrays : RecvArrays} {taken : List ℕ}

/-- The first elements are the requests for these chunks, where the one with the number `last` would
be the end of the chain. -/
structure RecvArrays.Filled (head : ℕ → PlacedChunk) (num last : ℕ) (taken : List ℕ)
    (arrays : RecvArrays) : Prop where
  lengths : arrays.isge.length = num ∧ arrays.rxWorkRequest.length = num
  sge : ∀ k (hk : k < taken.length), arrays.isge[k]? =
    some (some ⟨(head taken[k]).data, (head taken[k]).bytes, (head taken[k]).lkey⟩)
  wr : ∀ k (hk : k < taken.length), arrays.rxWorkRequest[k]? =
    some (some ⟨taken[k], if k + 1 = last then none else some (k + 1), k, 1⟩)

namespace RecvArrays

theorem filled_new : (new num).Filled head num num [] :=
  ⟨⟨List.length_replicate, List.length_replicate⟩, fun k hk => absurd hk (Nat.not_lt_zero k),
    fun k hk => absurd hk (Nat.not_lt_zero k)⟩

theorem Filled.push {chunk : ℕ} (h : arrays.Filled head num num taken)
    (hlt : taken.length < num) :
    (arrays.push head num taken.length chunk).Filled head num num (taken ++ [chunk]) := by
  obtain ⟨⟨hisge, hwr⟩, hsges, hwrs⟩ := h
  refine ⟨⟨?_, ?_⟩, fun k hk => ?_, fun k hk => ?_⟩
  · exact (List.length_set ..).trans hisge
  · exact (List.length_set ..).trans hwr
  · rw [List.length_append, List.length_singleton] at hk
    rcases Nat.lt_succ_iff_lt_or_eq.mp hk with hbefore | rfl
    · rw [RecvArrays.push, List.getElem?_set_ne hbefore.ne', hsges k hbefore]
      simp only [List.getElem_append_left hbefore]
    · rw [RecvArrays.push, List.getElem?_set_self (hisge ▸ hlt)]
      simp only [List.getElem_concat_length]
  · rw [List.length_append, List.length_singleton] at hk
    rcases Nat.lt_succ_iff_lt_or_eq.mp hk with hbefore | rfl
    · rw [RecvArrays.push, List.getElem?_set_ne hbefore.ne', hwrs k hbefore]
      simp only [List.getElem_append_left hbefore]
    · have hlast : taken.length = num - 1 ↔ taken.length + 1 = num := by omega
      rw [RecvArrays.push, List.getElem?_set_self (hwr ▸ hlt)]
      simp only [List.getElem_concat_length, hlast]

/-- The chain is cut behind the last request. -/
theorem Filled.cut (h : arrays.Filled head num num taken) (hpos : 0 < taken.length)
    (hlt : taken.length < num) :
    (arrays.cut (taken.length - 1)).Filled head num taken.length taken := by
  obtain ⟨⟨hisge, hwr⟩, hsges, hwrs⟩ := h
  refine ⟨⟨hisge, (List.length_modify ..).trans hwr⟩, hsges, fun k hk => ?_⟩
  have hcut : (arrays.cut (taken.length - 1)).rxWorkRequest[k]? =
      (arrays.rxWorkRequest[k]?).map fun wr =>
        if taken.length - 1 = k then wr.map fun w => { w with next := none } else wr :=
    List.getElem?_modify ..
  rw [hcut, hwrs k hk, Option.map_some]
  by_cases hlast : k + 1 = taken.length
  · have hend : taken.length - 1 = k := by omega
    rw [if_pos hlast, if_pos hend]
    rfl
  · have hnot : taken.length - 1 ≠ k := by omega
    have hmore : k + 1 ≠ num := by omega
    rw [if_neg hlast, if_neg hnot, if_neg hmore]

/-- A chain that ends at its last request is posted as it is. -/
theorem Filled.posted_eq (h : arrays.Filled head num taken.length taken) (hne : taken ≠ [])
    (hle : taken.length ≤ num) : arrays.posted = some (taken.map (chunkRequest head)) := by
  have hlinked : Linked arrays.read 0 (taken.map (chunkRequest head)) := by
    intro k hk
    rw [List.length_map] at hk
    rw [RecvArrays.read, Nat.zero_add, h.wr k hk]
    simp [h.sge k hk, chunkRequest]
  refine hlinked.follow_eq (fun hnil => hne (List.map_eq_nil_iff.mp hnil)) ?_
  rw [List.length_map, h.lengths.2]
  exact hle

end RecvArrays

/-! ## The calls -/

theorem postLoop_spec {left i : ℕ} {s : σ} (h : arrays.Filled head num num taken)
    (hi : taken.length = i) (hnum : i + left = num) (hpos : 0 < num) :
    (postLoop getRxBuffer head num left i arrays taken s).taken =
        taken ++ (takeChunks getRxBuffer left s).1 ∧
      (postLoop getRxBuffer head num left i arrays taken s).pool =
        (takeChunks getRxBuffer left s).2 ∧
      (postLoop getRxBuffer head num left i arrays taken s).returned =
        (taken ++ (takeChunks getRxBuffer left s).1).length ∧
      (taken ++ (takeChunks getRxBuffer left s).1).length ≤ num ∧
      ((postLoop getRxBuffer head num left i arrays taken s).arrays = none ↔
        taken ++ (takeChunks getRxBuffer left s).1 = []) ∧
      ∀ arrays' ∈ (postLoop getRxBuffer head num left i arrays taken s).arrays,
        arrays'.Filled head num (taken ++ (takeChunks getRxBuffer left s).1).length
          (taken ++ (takeChunks getRxBuffer left s).1) := by
  induction left generalizing i arrays taken s with
  | zero =>
      rw [Nat.add_zero] at hnum
      rw [postLoop, takeChunks, List.append_nil]
      refine ⟨rfl, rfl, hi.symm, by omega, ?_, fun arrays' harrays => ?_⟩
      · refine iff_of_false (Option.some_ne_none _) fun hnil => ?_
        rw [hnil, List.length_nil] at hi
        omega
      · obtain rfl := Option.some.inj harrays
        rw [show taken.length = num by omega]
        exact h
  | succ left ih =>
      rw [postLoop, takeChunks]
      cases hget : getRxBuffer s with
      | none =>
          dsimp only
          rw [List.append_nil]
          split
          · rename_i hzero
            have hnil : taken = [] := List.length_eq_zero_iff.mp (hi.trans hzero)
            subst hnil
            exact ⟨rfl, rfl, rfl, Nat.zero_le _, iff_of_true rfl rfl, nofun⟩
          · rename_i hsome
            refine ⟨rfl, rfl, hi.symm, by omega, ?_, fun arrays' harrays => ?_⟩
            · refine iff_of_false (Option.some_ne_none _) fun hnil => ?_
              rw [hnil, List.length_nil] at hi
              exact hsome hi.symm
            · obtain rfl := Option.some.inj harrays
              rw [← hi]
              exact h.cut (by omega) (by omega)
      | some got =>
          obtain ⟨chunk, s'⟩ := got
          have hrest := @ih (arrays.push head num i chunk) (taken ++ [chunk]) (i + 1) s'
            (hi ▸ h.push (by omega)) (by rw [List.length_append, hi, List.length_singleton])
            (by omega)
          rw [List.append_assoc, List.singleton_append] at hrest
          exact hrest

/-- **The chain.**  A call for one request or more posts exactly what it took from the pool. -/
theorem postChunksToSrq_spec (hpos : 0 < num) (s : σ)
    (hnodup : (takeChunks getRxBuffer num s).1.Nodup) :
    (postChunksToSrq getRxBuffer head num s).Proper head num ∧
      (postChunksToSrq getRxBuffer head num s).taken = (takeChunks getRxBuffer num s).1 ∧
      (postChunksToSrq getRxBuffer head num s).pool = (takeChunks getRxBuffer num s).2 := by
  have hspec := @postLoop_spec σ getRxBuffer head num (.new num) [] num 0 s
    RecvArrays.filled_new rfl (Nat.zero_add num) hpos
  simp only [List.nil_append] at hspec
  obtain ⟨htaken, hpool, hreturned, hle, hcalled, hfilled⟩ := hspec
  rw [postChunksToSrq]
  refine ⟨⟨?_, ?_, ?_, fun arrays harrays => ?_, ?_⟩, htaken, hpool⟩
  · rw [hreturned, htaken]
  · rw [htaken]
    exact hle
  · rw [htaken]
    exact hnodup
  · rw [htaken]
    have hne : (takeChunks getRxBuffer num s).1 ≠ [] := by
      intro hnil
      rw [hcalled.mpr hnil] at harrays
      cases harrays
    exact (hfilled arrays harrays).posted_eq hne hle
  · rw [htaken]
    exact hcalled

/-- The chunks are those of the pool of receive buffers. -/
theorem takeChunks_getRxBuffer (receiveBuffers : ℤ) (growth : Growth) (num : ℕ) (p : RxPool) :
    takeChunks (RxPool.getRxBuffer receiveBuffers growth) num p =
      p.postChunksToSrq receiveBuffers growth num := by
  induction num generalizing p with
  | zero => rfl
  | succ num ih =>
      rw [takeChunks, RxPool.postChunksToSrq]
      cases p.getRxBuffer receiveBuffers growth with
      | none => rfl
      | some got => simp only [ih]

end HwAsync.Infiniband
