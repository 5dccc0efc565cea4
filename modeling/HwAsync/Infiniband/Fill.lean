/-
# The layout of the tx chunks

`Cluster::fill` registers one piece of memory for all tx chunks and cuts it into buffers;
`get_chunk_by_buffer` computes the chunk of an address back from that layout.  The size of the
piece, the offset of the loop and the index of a chunk are `uint32_t`.

Where the piece is as large as the chunks together, they tile it.  From 2^32 on it is smaller, and
the loop stops early.
-/

import HwAsync.Infiniband.Cluster
import HwAsync.Lib.Stride

namespace HwAsync.Infiniband

open HwAsync.Lib

/-- A `Chunk` of the array behind `chunk_base`; `mr` is a key of the registration. -/
structure TxChunk where
  mr : ℕ
  bytes : UInt32
  bound : UInt32
  offset : UInt32
  buffer : ℕ
  deriving DecidableEq

namespace TxChunk

/-- What `memset` leaves. -/
def zero : TxChunk := ⟨0, 0, 0, 0, 0⟩

/-- `new(chunk) Chunk(m, len, b)`, whose constructor does not set `bound`. -/
def construct (old : TxChunk) (m : ℕ) (len : UInt32) (b : ℕ) : TxChunk :=
  { old with mr := m, bytes := len, offset := 0, buffer := b }

/-- The addresses that the chunk has for its data. -/
def room (c : TxChunk) : Finset ℕ := block c.buffer c.bytes.toNat

end TxChunk

/-- A `Cluster` with its memory.  `free_chunks` points into the array behind `chunk_base`; the
indexes stand for the pointers. -/
structure TxCluster where
  bufferSize : UInt32
  numChunk : UInt32
  base : ℕ
  endAddr : ℕ
  chunks : List TxChunk
  freeChunks : List ℕ
  deriving DecidableEq

namespace TxCluster

/-- `Cluster::is_my_buffer`. -/
def isMyBuffer (k : TxCluster) (c : ℕ) : Bool := k.base ≤ c && c < k.endAddr

/-- `Cluster::get_chunk_by_buffer`: a signed difference, divided and then cut to 32 bits. -/
def getChunkByBuffer (k : TxCluster) (c : ℕ) : ℕ :=
  ((((c : ℤ) - k.base).tdiv k.bufferSize.toNat) % 2 ^ 32).toNat

/-- The addresses of the buffer of the chunk with this index. -/
def room (k : TxCluster) (i : ℕ) : Finset ℕ := (k.chunks.getD i .zero).room

/-- The loop of `fill`, `none` when the fuel is spent. -/
def fillLoop (m : ℕ) (bytes : UInt32) :
    ℕ → TxCluster → (offset : UInt32) → (chunk : ℕ) → Option TxCluster
  | 0, _, _, _ => none
  | fuel + 1, k, offset, chunk =>
      if offset < bytes then
        fillLoop m bytes fuel
          { k with
            chunks := k.chunks.set chunk
              ((k.chunks.getD chunk .zero).construct m k.bufferSize (k.base + offset.toNat))
            freeChunks := k.freeChunks ++ [chunk] }
          (offset + k.bufferSize) (chunk + 1)
      else some k

/-- `Cluster::fill` of a new cluster, where `manager.malloc` returned `base` and `ibv_reg_mr`
returned `m`. -/
def fill (bufferSize : UInt32) (base m : ℕ) (num : UInt32) (fuel : ℕ) : Option TxCluster :=
  let bytes := bufferSize * num
  fillLoop m bytes fuel
    { bufferSize := bufferSize
      numChunk := num
      base := base
      endAddr := base + bytes.toNat
      chunks := List.replicate num.toNat .zero
      freeChunks := [] }
    0 0

/-! ## The loop -/

/-- The cluster after `i` rounds: the first `i` chunks are built, at multiples of the buffer size
as 32 bits hold them. -/
structure Built (bufferSize : UInt32) (base m : ℕ) (num : UInt32) (i : ℕ) (k : TxCluster) :
    Prop where
  size_eq : k.bufferSize = bufferSize
  base_eq : k.base = base
  end_eq : k.endAddr = base + (bufferSize * num).toNat
  num_eq : k.numChunk = num
  length : k.chunks.length = num.toNat
  chunk : ∀ j < i, k.chunks[j]? =
    some ⟨m, bufferSize, 0, 0, base + j * bufferSize.toNat % 2 ^ 32⟩
  rest : ∀ j, i ≤ j → j < num.toNat → k.chunks[j]? = some .zero
  free : k.freeChunks = List.range i

variable {bufferSize num : UInt32} {base m i : ℕ} {k : TxCluster}

/-- One round builds the next chunk. -/
theorem Built.round (h : Built bufferSize base m num i k) (hi : i < num.toNat) {offset : UInt32}
    (hoffset : offset.toNat = i * bufferSize.toNat % 2 ^ 32) :
    Built bufferSize base m num (i + 1)
      { k with
        chunks := k.chunks.set i
          ((k.chunks.getD i .zero).construct m k.bufferSize (k.base + offset.toNat))
        freeChunks := k.freeChunks ++ [i] } := by
  have hold : k.chunks.getD i .zero = .zero := by
    rw [List.getD_eq_getElem?_getD, h.rest i le_rfl hi, Option.getD_some]
  refine ⟨h.size_eq, h.base_eq, h.end_eq, h.num_eq, ?_, fun j hj => ?_, fun j hj hlt => ?_, ?_⟩
  · rw [List.length_set, h.length]
  · rcases Nat.lt_succ_iff_lt_or_eq.mp hj with hlt | rfl
    · rw [List.getElem?_set_ne (Nat.ne_of_gt hlt), h.chunk j hlt]
    · rw [List.getElem?_set_self (h.length ▸ hi), hold, h.size_eq, h.base_eq, hoffset]
      rfl
  · rw [List.getElem?_set_ne (by omega), h.rest j (by omega) hlt]
  · change k.freeChunks ++ [i] = _
    rw [h.free, List.range_succ]

/-- The offset never passes the size of the memory unseen: it meets it in round `num` at the
latest. -/
theorem fillLoop_spec {fuel : ℕ} (h : Built bufferSize base m num i k) {offset : UInt32}
    (hi : i ≤ num.toNat) (hoffset : offset.toNat = i * bufferSize.toNat % 2 ^ 32)
    (hfuel : num.toNat < i + fuel) :
    ∃ n k', fillLoop m (bufferSize * num) fuel k offset i = some k' ∧ n ≤ num.toNat ∧
      Built bufferSize base m num n k' ∧
      (bufferSize * num).toNat ≤ n * bufferSize.toNat % 2 ^ 32 := by
  induction fuel generalizing i k offset with
  | zero => omega
  | succ fuel ih =>
      have hbytes : (bufferSize * num).toNat = num.toNat * bufferSize.toNat % 2 ^ 32 := by
        rw [UInt32.toNat_mul, Nat.mul_comm]
      rw [fillLoop]
      split
      · rename_i hlt
        have hne : i ≠ num.toNat := by
          rintro rfl
          rw [UInt32.lt_iff_toNat_lt, hoffset, hbytes] at hlt
          exact lt_irrefl _ hlt
        refine ih (h.round (by omega) hoffset) (by omega) ?_ (by omega)
        rw [UInt32.toNat_add, hoffset, h.size_eq, Nat.mod_add_mod, Nat.add_mul, Nat.one_mul]
      · rename_i hle
        refine ⟨i, k, rfl, hi, h, ?_⟩
        rw [← hoffset]
        exact UInt32.le_iff_toNat_le.mp (UInt32.not_lt.mp hle)

/-- **`fill` terminates**, in no more rounds than there are chunks to build. -/
theorem fill_spec (bufferSize num : UInt32) (base m : ℕ) {fuel : ℕ} (hfuel : num.toNat < fuel) :
    ∃ n k, fill bufferSize base m num fuel = some k ∧ n ≤ num.toNat ∧
      Built bufferSize base m num n k ∧
      (bufferSize * num).toNat ≤ n * bufferSize.toNat % 2 ^ 32 := by
  have hstart : Built bufferSize base m num 0
      ⟨bufferSize, num, base, base + (bufferSize * num).toNat,
        List.replicate num.toNat .zero, []⟩ := by
    refine ⟨rfl, rfl, rfl, rfl, List.length_replicate, ?_, fun j _ hj => ?_, rfl⟩
    · exact fun j hj => absurd hj (Nat.not_lt_zero _)
    · rw [List.getElem?_replicate, if_pos hj]
  refine fillLoop_spec hstart (Nat.zero_le _) ?_ (by omega)
  rw [Nat.zero_mul]
  rfl

/-- More fuel changes nothing. -/
theorem fillLoop_mono {bytes : UInt32} {fuel more : ℕ} {offset : UInt32} {chunk : ℕ}
    {k' : TxCluster} (hle : fuel ≤ more) (h : fillLoop m bytes fuel k offset chunk = some k') :
    fillLoop m bytes more k offset chunk = some k' := by
  induction fuel generalizing k offset chunk more with
  | zero => simp [fillLoop] at h
  | succ fuel ih =>
      obtain ⟨more, rfl⟩ : ∃ n, more = n + 1 := ⟨more - 1, by omega⟩
      rw [fillLoop] at h ⊢
      split at h
      · rename_i hlt
        rw [if_pos hlt]
        exact ih (by omega) h
      · rename_i hlt
        rw [if_neg hlt]
        exact h

/-! ## The layout -/

/-- What the cluster is for: `num` chunks to send from, whose buffers tile the memory, each of them
found again by the addresses of its buffer. -/
structure LaidOut (num : UInt32) (k : TxCluster) : Prop where
  length : k.freeChunks.length = num.toNat
  nodup : k.freeChunks.Nodup
  inArray : ∀ i ∈ k.freeChunks, i < k.chunks.length
  size : ∀ i ∈ k.freeChunks, (k.room i).card = k.bufferSize.toNat
  disjoint : ∀ i ∈ k.freeChunks, ∀ j ∈ k.freeChunks, i ≠ j → Disjoint (k.room i) (k.room j)
  tiling : ∀ c, (∃ i ∈ k.freeChunks, c ∈ k.room i) ↔ k.base ≤ c ∧ c < k.endAddr
  mine : ∀ c, k.isMyBuffer c = true ↔ ∃ i ∈ k.freeChunks, c ∈ k.room i
  found : ∀ c, ∀ i ∈ k.freeChunks, c ∈ k.room i → k.getChunkByBuffer c = i

theorem Built.room_eq {n : ℕ} (h : Built bufferSize base m num n k) (hi : i < n) :
    k.room i = block (base + i * bufferSize.toNat % 2 ^ 32) bufferSize.toNat := by
  rw [room, List.getD_eq_getElem?_getD, h.chunk i hi]
  rfl

/-- Laid out chunks have room in the memory, whose size is a 32-bit number. -/
theorem Built.mul_lt {n : ℕ} (h : Built bufferSize base m num n k) (hk : k.LaidOut num) :
    bufferSize.toNat * num.toNat < 2 ^ 32 := by
  have hn : n = num.toNat := by
    rw [← hk.length, h.free, List.length_range]
  have hmem : ∀ {i : ℕ}, i ∈ Finset.range n → i ∈ k.freeChunks := by
    intro i hi
    rw [h.free]
    exact List.mem_range.mpr (Finset.mem_range.mp hi)
  have hinside : ∀ i ∈ Finset.range n,
      block (base + i * bufferSize.toNat % 2 ^ 32) bufferSize.toNat ⊆
        block base (bufferSize * num).toNat := by
    intro i hi c hc
    rw [← h.room_eq (Finset.mem_range.mp hi)] at hc
    have hrange := (hk.tiling c).mp ⟨i, hmem hi, hc⟩
    rw [h.base_eq, h.end_eq] at hrange
    exact mem_block.mpr hrange
  have hle := card_mul_le (fun i hi j hj hne => ?_) hinside
  · rw [Finset.card_range, hn, Nat.mul_comm] at hle
    exact lt_of_le_of_lt hle (bufferSize * num).toNat_lt
  · have hdisjoint := hk.disjoint i (hmem hi) j (hmem hj) hne
    rwa [h.room_eq (Finset.mem_range.mp hi), h.room_eq (Finset.mem_range.mp hj)] at hdisjoint

/-- The index of an address of a buffer. -/
theorem getChunkByBuffer_eq {c : ℕ} (hbase : k.base ≤ c) :
    k.getChunkByBuffer c = (c - k.base) / k.bufferSize.toNat % 2 ^ 32 := by
  rw [getChunkByBuffer, ← Int.ofNat_sub hbase, ← Int.ofNat_tdiv]
  norm_cast

/-- A cluster whose chunks lie in the order of their indexes, with nothing cut off, is laid out. -/
theorem Built.laidOut (h : Built bufferSize base m num num.toNat k) (hpos : 0 < bufferSize)
    (hfits : bufferSize.toNat * num.toNat < 2 ^ 32) : k.LaidOut num := by
  have hsize : 0 < bufferSize.toNat := UInt32.lt_iff_toNat_lt.mp hpos
  have hmem : ∀ {i : ℕ}, i ∈ k.freeChunks ↔ i < num.toNat := by
    intro i
    rw [h.free, List.mem_range]
  have hroom : ∀ {i : ℕ}, i < num.toNat →
      k.room i = block (base + i * bufferSize.toNat) bufferSize.toNat := by
    intro i hi
    have hle : i * bufferSize.toNat ≤ num.toNat * bufferSize.toNat :=
      Nat.mul_le_mul_right _ hi.le
    rw [h.room_eq hi, Nat.mod_eq_of_lt (by rw [Nat.mul_comm] at hfits; omega)]
  have hend : k.endAddr = base + num.toNat * bufferSize.toNat := by
    rw [h.end_eq, UInt32.toNat_mul, Nat.mod_eq_of_lt hfits, Nat.mul_comm]
  have htiling : ∀ c, (∃ i ∈ k.freeChunks, c ∈ k.room i) ↔ k.base ≤ c ∧ c < k.endAddr := by
    intro c
    rw [h.base_eq, hend, ← exists_mem_block_iff hsize]
    constructor
    · rintro ⟨i, hi, hc⟩
      exact ⟨i, hmem.mp hi, hroom (hmem.mp hi) ▸ hc⟩
    · rintro ⟨i, hi, hc⟩
      exact ⟨i, hmem.mpr hi, (hroom hi).symm ▸ hc⟩
  refine ⟨?_, ?_, fun i hi => ?_, fun i hi => ?_, fun i hi j hj hne => ?_, htiling,
    fun c => ?_, fun c i hi hc => ?_⟩
  · rw [h.free, List.length_range]
  · rw [h.free]
    exact List.nodup_range
  · rw [h.length]
    exact hmem.mp hi
  · rw [hroom (hmem.mp hi), card_block, h.size_eq]
  · rw [hroom (hmem.mp hi), hroom (hmem.mp hj)]
    exact disjoint_block hne
  · rw [htiling, isMyBuffer, Bool.and_eq_true, decide_eq_true_iff, decide_eq_true_iff]
  · rw [hroom (hmem.mp hi)] at hc
    obtain ⟨hle, hdiv⟩ := (mem_block_iff_div hsize).mp hc
    have hlt : i < 2 ^ 32 := lt_trans (hmem.mp hi) num.toNat_lt
    rw [getChunkByBuffer_eq (h.base_eq ▸ hle), h.base_eq, h.size_eq, hdiv, Nat.mod_eq_of_lt hlt]

/-- **The tx chunks.**  They are laid out exactly if their sizes together are below 2^32. -/
theorem laidOut_iff (bufferSize num : UInt32) (base m : ℕ) (hpos : 0 < bufferSize) :
    (∃ fuel k, fill bufferSize base m num fuel = some k ∧ k.LaidOut num) ↔
      bufferSize.toNat * num.toNat < 2 ^ 32 := by
  obtain ⟨n, built, hfill, hn, hbuilt, hreached⟩ :=
    fill_spec bufferSize num base m (Nat.lt_succ_self _)
  constructor
  · rintro ⟨fuel, k, hk, hlaid⟩
    have hmore := fillLoop_mono (Nat.le_max_left fuel (num.toNat + 1)) hk
    have hsame : built = k :=
      Option.some.inj ((fillLoop_mono (Nat.le_max_right _ _) hfill).symm.trans hmore)
    subst hsame
    exact hbuilt.mul_lt hlaid
  · intro hfits
    refine ⟨_, built, hfill, ?_⟩
    have hsize : 0 < bufferSize.toNat := UInt32.lt_iff_toNat_lt.mp hpos
    -- no product is cut off, and so the loop cannot stop before the last chunk
    have heq : n = num.toNat := by
      by_contra hne
      have hle : (n + 1) * bufferSize.toNat ≤ num.toNat * bufferSize.toNat :=
        Nat.mul_le_mul_right _ (by omega)
      rw [Nat.add_mul, Nat.one_mul, Nat.mul_comm num.toNat] at hle
      rw [UInt32.toNat_mul, Nat.mod_eq_of_lt hfits, Nat.mod_eq_of_lt (by omega)] at hreached
      omega
    subst heq
    exact hbuilt.laidOut hpos hfits

/-- Three chunks of 512 bytes. -/
theorem laidOut_iff_three :
    ∃ fuel k, fill 512 4096 7 3 fuel = some k ∧ k.LaidOut 3 :=
  (laidOut_iff 512 3 4096 7 (by decide)).mpr (by decide)

/-- 32768 chunks of 128 KiB are 2^32 bytes together, and none is built. -/
theorem not_laidOut_wrapped :
    ∃ k, fill (128 * 1024) 4096 7 32768 1 = some k ∧ k.freeChunks = [] ∧
      ∀ fuel k', fill (128 * 1024) 4096 7 32768 fuel = some k' → ¬ k'.LaidOut 32768 := by
  have hbytes : (128 * 1024 * 32768 : UInt32) = 0 := by decide
  have hnone : ∀ {fuel : ℕ} {k' : TxCluster},
      fill (128 * 1024) 4096 7 32768 (fuel + 1) = some k' → k'.freeChunks = [] := by
    intro fuel k' hfill
    rw [fill, hbytes, fillLoop, if_neg (by decide)] at hfill
    rw [← Option.some.inj hfill]
  obtain ⟨k, hk⟩ : ∃ k, fill (128 * 1024) 4096 7 32768 1 = some k :=
    ⟨_, by rw [fill, hbytes, fillLoop, if_neg (by decide)]⟩
  refine ⟨k, hk, hnone hk, fun fuel k' hfill hlaid => ?_⟩
  cases fuel with
  | zero => cases hfill
  | succ fuel =>
      have hlength := hlaid.length
      rw [hnone hfill] at hlength
      exact absurd hlength (by decide)

/-! ## The cluster to send from -/

/-- `sizeof(Chunk)`. -/
def sizeofChunk : ℕ := 32

/-- A chunk of the array with the memory behind its buffer. -/
def toChunk (memory : ℕ → UInt8) (addr : ℕ) (c : TxChunk) : Chunk where
  addr := addr
  bytes := c.bytes.toNat
  bound := c.bound.toNat
  offset := c.offset.toNat
  data := (List.range c.bytes.toNat).map fun i => memory (c.buffer + i)
  length_data := by rw [List.length_map, List.length_range]

/-- The cluster as the sender sees it, whose array lies at `chunkBase`. -/
def toCluster (memory : ℕ → UInt8) (chunkBase : ℕ) (k : TxCluster) : Cluster where
  bufferSize := k.bufferSize.toNat
  freeChunks := k.freeChunks.map fun i =>
    toChunk memory (chunkBase + i * sizeofChunk) (k.chunks.getD i .zero)

/-- However many chunks there are, those that `fill` leaves are ready to be sent from, and no chunk
is there twice. -/
theorem ready_of_fill (memory : ℕ → UInt8) (chunkBase : ℕ) {fuel : ℕ} (hpos : 0 < bufferSize)
    (hfill : fill bufferSize base m num fuel = some k) :
    (k.toCluster memory chunkBase).Ready ∧
      (addrs (k.toCluster memory chunkBase).freeChunks).Nodup := by
  obtain ⟨n, built, hbuilt, -, h, -⟩ :=
    fill_spec bufferSize num base m (Nat.lt_succ_self _)
  have hmore := fillLoop_mono (Nat.le_max_left fuel (num.toNat + 1)) hfill
  obtain rfl : built = k :=
    Option.some.inj ((fillLoop_mono (Nat.le_max_right _ _) hbuilt).symm.trans hmore)
  refine ⟨⟨?_, built.bufferSize.toNat_lt, fun c hc => ?_⟩, ?_⟩
  · rw [toCluster, h.size_eq]
    exact UInt32.lt_iff_toNat_lt.mp hpos
  · obtain ⟨i, hi, rfl⟩ := List.mem_map.mp hc
    rw [h.free, List.mem_range] at hi
    rw [List.getD_eq_getElem?_getD, h.chunk i hi]
    exact ⟨rfl, congrArg UInt32.toNat h.size_eq.symm⟩
  · have hinjective : Function.Injective fun i => chunkBase + i * sizeofChunk := by
      intro i j hij
      simp only [sizeofChunk] at hij
      omega
    have haddrs : (built.toCluster memory chunkBase).freeChunks.map Chunk.addr =
        (List.range n).map fun i => chunkBase + i * sizeofChunk := by
      rw [toCluster, List.map_map, h.free]
      rfl
    rw [addrs, haddrs]
    exact List.Nodup.map hinjective List.nodup_range

end TxCluster

end HwAsync.Infiniband
