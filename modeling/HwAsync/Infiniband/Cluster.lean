/-
# The cluster of tx chunks

`Infiniband::MemoryManager::Cluster` keeps the chunks for sending.  They are
taken from the back of `free_chunks`, as many as a byte count needs or as many
as there are, and come back cleared.
-/

import HwAsync.Infiniband.Chunk
import Mathlib.Data.Multiset.AddSub

namespace HwAsync.Infiniband

/-- `Infiniband::MemoryManager::Cluster`. -/
structure Cluster where
  bufferSize : ℕ
  freeChunks : List Chunk

/-- The addresses of a list of chunks, in no order. -/
def addrs (chunks : List Chunk) : Multiset ℕ := ↑(chunks.map Chunk.addr)

@[simp]
theorem addrs_nil : addrs [] = 0 := rfl

@[simp]
theorem addrs_cons (c : Chunk) (chunks : List Chunk) :
    addrs (c :: chunks) = c.addr ::ₘ addrs chunks := rfl

@[simp]
theorem addrs_append (chunks more : List Chunk) :
    addrs (chunks ++ more) = addrs chunks + addrs more := by
  simp [addrs]

@[simp]
theorem card_addrs (chunks : List Chunk) : (addrs chunks).card = chunks.length := by
  simp [addrs]

namespace Cluster

/-- `Cluster::take_back`. -/
def takeBack (k : Cluster) (ck : List Chunk) : Cluster :=
  { k with freeChunks := k.freeChunks ++ ck.map Chunk.clear }

/-- The chunks `bytes` need, counted in a `uint32_t`. -/
def needed (k : Cluster) (bytes : ℕ) : ℕ :=
  if bytes % k.bufferSize = 0 then bytes / k.bufferSize % 2 ^ 32
  else (bytes / k.bufferSize + 1) % 2 ^ 32

/-- `Cluster::get_buffers`: the chunks pushed to the caller's vector, whose number
is the returned value, and the cluster. -/
def getBuffers (k : Cluster) (bytes : ℕ) : List Chunk × Cluster :=
  if k.freeChunks = [] then ([], k)
  else if bytes = 0 then (k.freeChunks, { k with freeChunks := [] })
  else
    let num := min (k.needed bytes) k.freeChunks.length
    (k.freeChunks.reverse.take num,
      { k with freeChunks := (k.freeChunks.reverse.drop num).reverse })

/-- A free chunk, ready to be written from its start. -/
structure Clean (k : Cluster) (c : Chunk) : Prop where
  offset : c.offset = 0
  bytes : c.bytes = k.bufferSize

/-- A cluster whose chunks are all clean and of one size, one byte at least. -/
structure Ready (k : Cluster) : Prop where
  bufferSize_pos : 0 < k.bufferSize
  bufferSize_lt : k.bufferSize < 2 ^ 32
  clean : ∀ c ∈ k.freeChunks, k.Clean c

variable {k : Cluster} {bytes : ℕ}

@[simp]
theorem getBuffers_bufferSize : (k.getBuffers bytes).2.bufferSize = k.bufferSize := by
  unfold getBuffers
  split_ifs <;> rfl

@[simp]
theorem takeBack_bufferSize (ck : List Chunk) : (k.takeBack ck).bufferSize = k.bufferSize :=
  rfl

/-- The chunks handed out and the chunks kept are the chunks that were free. -/
theorem addrs_getBuffers :
    addrs (k.getBuffers bytes).1 + addrs (k.getBuffers bytes).2.freeChunks =
      addrs k.freeChunks := by
  unfold getBuffers
  split_ifs with hempty hbytes
  · simp
  · simp
  · have hperm : (k.freeChunks.reverse.take (min (k.needed bytes) k.freeChunks.length) ++
        (k.freeChunks.reverse.drop (min (k.needed bytes) k.freeChunks.length)).reverse).Perm
        k.freeChunks := by
      refine ((List.reverse_perm _).append_left _).trans ?_
      rw [List.take_append_drop]
      exact List.reverse_perm _
    rw [← addrs_append]
    exact Multiset.coe_eq_coe.mpr (hperm.map Chunk.addr)

theorem mem_of_mem_getBuffers {c : Chunk}
    (hc : c ∈ (k.getBuffers bytes).1 ∨ c ∈ (k.getBuffers bytes).2.freeChunks) :
    c ∈ k.freeChunks := by
  unfold getBuffers at hc
  split_ifs at hc with hempty hbytes
  · simp [hempty] at hc
  · simpa using hc
  · rcases hc with hc | hc
    · simpa using List.mem_of_mem_take hc
    · simpa using List.mem_of_mem_drop (List.mem_reverse.mp hc)

/-- The chunks handed out are clean, and so are those kept. -/
theorem Ready.getBuffers (hk : k.Ready) :
    (∀ c ∈ (k.getBuffers bytes).1, k.Clean c) ∧ (k.getBuffers bytes).2.Ready := by
  refine ⟨fun c hc => hk.clean c (mem_of_mem_getBuffers (.inl hc)), ?_, ?_, fun c hc => ?_⟩
  · simpa using hk.bufferSize_pos
  · simpa using hk.bufferSize_lt
  · have h := hk.clean c (mem_of_mem_getBuffers (.inr hc))
    exact ⟨h.offset, by simpa using h.bytes⟩

/-- Chunks of the right size come back clean. -/
theorem Ready.takeBack (hk : k.Ready) {ck : List Chunk}
    (hck : ∀ c ∈ ck, c.bytes = k.bufferSize) : (k.takeBack ck).Ready := by
  refine ⟨hk.bufferSize_pos, hk.bufferSize_lt, fun c hc => ?_⟩
  simp only [Cluster.takeBack, List.mem_append, List.mem_map] at hc
  rcases hc with hc | ⟨d, hd, rfl⟩
  · exact ⟨(hk.clean c hc).offset, (hk.clean c hc).bytes⟩
  · exact ⟨rfl, hck d hd⟩

theorem addrs_takeBack (ck : List Chunk) :
    addrs (k.takeBack ck).freeChunks = addrs k.freeChunks + addrs ck := by
  simp [Cluster.takeBack, addrs, Function.comp_def]

theorem needed_pos (hsize : 0 < k.bufferSize) (hpos : 0 < bytes) (hbytes : bytes < 2 ^ 32) :
    0 < k.needed bytes := by
  have hle : bytes / k.bufferSize ≤ bytes := Nat.div_le_self _ _
  unfold needed
  split
  · rename_i hdvd
    have hdiv : 0 < bytes / k.bufferSize :=
      Nat.div_pos (Nat.le_of_dvd hpos (Nat.dvd_of_mod_eq_zero hdvd)) hsize
    rw [Nat.mod_eq_of_lt (by omega)]
    exact hdiv
  · rename_i hdvd
    -- the quotient is below `bytes` unless a chunk is one byte
    have hlt : bytes / k.bufferSize < bytes := by
      apply Nat.div_lt_self hpos
      by_contra hone
      have hsize_eq : k.bufferSize = 1 := by omega
      exact hdvd (by rw [hsize_eq, Nat.mod_one])
    rw [Nat.mod_eq_of_lt (by omega)]
    exact Nat.succ_pos _

/-- Nothing is handed out only when nothing is free. -/
theorem freeChunks_of_getBuffers_nil (hsize : 0 < k.bufferSize) (hpos : 0 < bytes)
    (hbytes : bytes < 2 ^ 32) (hnil : (k.getBuffers bytes).1 = []) : k.freeChunks = [] := by
  by_contra hne
  have hfree : 0 < k.freeChunks.length := List.length_pos_iff.mpr hne
  have hneeded := needed_pos hsize hpos hbytes
  rw [getBuffers, if_neg hne, if_neg (by omega)] at hnil
  have hlen := congrArg List.length hnil
  simp only [List.length_take, List.length_reverse, List.length_nil] at hlen
  omega

end Cluster

end HwAsync.Infiniband
