/-
# The blocks of the rx pool

The pool of receive buffers gets its memory from `PoolAllocator::malloc`, which sets up a chunk at
every multiple of the size of a chunk with its data.  The pool cuts the same memory into elements,
whose size is rounded up to a multiple of 8, and hands these out as chunks.

The two agree if the size needs no rounding.  Then every chunk that the pool hands out in any run
has been set up; otherwise only the first one of a block has.
-/

import HwAsync.Infiniband.Fill
import HwAsync.Lib.Run
import Mathlib.Logic.Function.Basic

namespace HwAsync.Infiniband

open HwAsync.Lib

/-- `sizeof(mem_info)`, in front of the chunks. -/
def sizeofMemInfo : ℕ := 24

/-- What `PoolAllocator::malloc` sets in a `Chunk`. -/
structure RxHeader where
  lkey : UInt32
  bytes : UInt32
  offset : UInt32
  buffer : ℕ
  deriving DecidableEq

/-- `mem_info`, with the address of its `chunks` and the headers that were written there. -/
structure RxBlock where
  lkey : UInt32
  nbufs : UInt32
  chunks : ℕ
  headers : ℕ → Option RxHeader

/-- `MemPoolContext`, with `ms_async_rdma_buffer_size` and `ms_async_rdma_receive_buffers`. -/
structure RxContext where
  bufferSize : UInt32
  receiveBuffers : ℤ
  nBufsAllocated : UInt32
  deriving DecidableEq

namespace RxContext

/-- `rx_buf_size`. -/
def rxBufSize (ctx : RxContext) : ℕ := TxCluster.sizeofChunk + ctx.bufferSize.toNat

/-- `MemPoolContext::can_alloc`, in `unsigned` arithmetic. -/
def canAlloc (ctx : RxContext) (nbufs : UInt32) : Bool :=
  if ctx.receiveBuffers ≤ 0 then true
  else if ctx.nBufsAllocated + nbufs > .ofNat ctx.receiveBuffers.toNat then false
  else true

/-- `MemPoolContext::update_stats`. -/
def updateStats (nbufs : UInt32) (ctx : RxContext) : RxContext :=
  { ctx with nBufsAllocated := ctx.nBufsAllocated + nbufs }

/-- The loop over the chunks, from the one at `ch` on. -/
def initChunks (ctx : RxContext) (lkey : UInt32) :
    ℕ → (ch : ℕ) → (ℕ → Option RxHeader) → ℕ → Option RxHeader
  | 0, _, headers => headers
  | n + 1, ch, headers =>
      ctx.initChunks lkey n (ch + ctx.rxBufSize)
        (Function.update headers ch (some ⟨lkey, ctx.bufferSize, 0, ch + TxCluster.sizeofChunk⟩))

/-- `PoolAllocator::malloc`.  `malloc` is that of the manager, by the size, and `regMr` is
`ibv_reg_mr`, by address and length; both may fail. -/
def malloc (mem : ℕ → Option ℕ) (regMr : ℕ → ℕ → Option UInt32) (bytes : ℕ) (ctx : RxContext) :
    Option RxBlock × RxContext :=
  let nbufs : UInt32 := .ofNat (bytes / ctx.rxBufSize)
  if ctx.canAlloc nbufs then
    match mem (bytes + sizeofMemInfo) with
    | none => (none, ctx)
    | some m =>
        match regMr (m + sizeofMemInfo) bytes with
        | none => (none, ctx)
        | some lkey =>
            (some ⟨lkey, nbufs, m + sizeofMemInfo,
              ctx.initChunks lkey nbufs.toNat (m + sizeofMemInfo) fun _ => none⟩,
              ctx.updateStats nbufs)
  else (none, ctx)

/-- The size of an element in `boost::pool`. -/
def elementSize (ctx : RxContext) : ℕ := (ctx.rxBufSize + 7) / 8 * 8

/-- The elements that the pool cuts a block into. -/
def elements (ctx : RxContext) (n : ℕ) (b : RxBlock) : List ℕ :=
  (List.range n).map fun k => b.chunks + k * ctx.elementSize

/-- The element is a chunk that has been set up, with the data inside. -/
structure Initialised (ctx : RxContext) (b : RxBlock) (p : ℕ) : Prop where
  header : b.headers p = some ⟨b.lkey, ctx.bufferSize, 0, p + TxCluster.sizeofChunk⟩
  inside : block (p + TxCluster.sizeofChunk) ctx.bufferSize.toNat ⊆ block p ctx.elementSize

/-- A block of this size gives chunks for all of `n` elements: the sizes agree, where more than one
of them counts, and the number of chunks is not cut off. -/
def Fits (ctx : RxContext) (n bytes : ℕ) : Prop :=
  n = 0 ∨ (n = 1 ∨ 8 ∣ ctx.bufferSize.toNat) ∧ n ≤ bytes / ctx.rxBufSize % 2 ^ 32

instance (ctx : RxContext) (n bytes : ℕ) : Decidable (ctx.Fits n bytes) :=
  inferInstanceAs (Decidable (_ ∨ _))

/-! ## A block -/

variable {ctx : RxContext} {n bytes : ℕ} {b : RxBlock} {mem : ℕ → Option ℕ}
  {regMr : ℕ → ℕ → Option UInt32}

/-- The headers are those at the multiples of `rx_buf_size`. -/
theorem initChunks_eq {lkey : UInt32} {ch p : ℕ} {headers : ℕ → Option RxHeader} :
    ctx.initChunks lkey n ch headers p =
      if ∃ i < n, p = ch + i * ctx.rxBufSize then
        some ⟨lkey, ctx.bufferSize, 0, p + TxCluster.sizeofChunk⟩
      else headers p := by
  induction n generalizing ch headers with
  | zero => rw [initChunks, if_neg fun h => by obtain ⟨i, hi, -⟩ := h; omega]
  | succ n ih =>
      rw [initChunks, ih]
      by_cases hfirst : p = ch
      · -- whatever later rounds do here, they write the same
        rw [if_pos (show ∃ i < n + 1, p = ch + i * ctx.rxBufSize from
          ⟨0, Nat.succ_pos n, by rw [hfirst, Nat.zero_mul, Nat.add_zero]⟩)]
        split
        · rfl
        · rw [hfirst, Function.update_self]
      · have hshift : (∃ i < n, p = ch + ctx.rxBufSize + i * ctx.rxBufSize) ↔
            ∃ i < n + 1, p = ch + i * ctx.rxBufSize := by
          constructor
          · rintro ⟨i, hi, rfl⟩
            exact ⟨i + 1, Nat.succ_lt_succ hi, by rw [Nat.succ_mul]; omega⟩
          · rintro ⟨i, hi, hp⟩
            cases i with
            | zero => exact absurd (by rw [hp, Nat.zero_mul, Nat.add_zero]) hfirst
            | succ i => exact ⟨i, Nat.lt_of_succ_lt_succ hi, by rw [hp, Nat.succ_mul]; omega⟩
        simp only [hshift]
        rw [Function.update_of_ne hfirst]

/-- What `PoolAllocator::malloc` returns, if it returns anything. -/
theorem malloc_eq_some (h : (ctx.malloc mem regMr bytes).1 = some b) :
    (ctx.malloc mem regMr bytes).2 = ctx.updateStats b.nbufs ∧
      b.nbufs.toNat = bytes / ctx.rxBufSize % 2 ^ 32 ∧
      b.headers = ctx.initChunks b.lkey b.nbufs.toNat b.chunks fun _ => none := by
  unfold malloc at h ⊢
  dsimp only at h ⊢
  split at h
  · rename_i hcan
    rw [if_pos hcan]
    split at h
    · cases h
    · rename_i m hmem
      split at h
      · cases h
      · rename_i lkey hreg
        cases h
        exact ⟨rfl, UInt32.toNat_ofNat', rfl⟩
  · cases h

theorem malloc_eq_none (h : (ctx.malloc mem regMr bytes).1 = none) :
    (ctx.malloc mem regMr bytes).2 = ctx := by
  unfold malloc at h ⊢
  dsimp only at h ⊢
  split at h
  · rename_i hcan
    rw [if_pos hcan]
    split at h
    · rfl
    · split at h
      · rfl
      · cases h
  · rename_i hcan
    rw [if_neg hcan]

/-- The number of buffers says nothing about an element. -/
theorem Initialised.updateStats {p : ℕ} {nbufs : UInt32} (h : ctx.Initialised b p) :
    (ctx.updateStats nbufs).Initialised b p :=
  ⟨h.header, h.inside⟩

/-- An element and the data of a chunk at its start. -/
theorem block_subset_element (p : ℕ) :
    block (p + TxCluster.sizeofChunk) ctx.bufferSize.toNat ⊆ block p ctx.elementSize := by
  intro c hc
  simp only [mem_block, elementSize, rxBufSize] at hc ⊢
  omega

/-- An element is set up exactly if it starts at a chunk. -/
theorem initialised_iff_mul (h : (ctx.malloc mem regMr bytes).1 = some b) {k : ℕ} :
    ctx.Initialised b (b.chunks + k * ctx.elementSize) ↔
      ∃ i < bytes / ctx.rxBufSize % 2 ^ 32, k * ctx.elementSize = i * ctx.rxBufSize := by
  obtain ⟨-, hnbufs, hheaders⟩ := malloc_eq_some h
  have hshift : (∃ i < b.nbufs.toNat, b.chunks + k * ctx.elementSize =
      b.chunks + i * ctx.rxBufSize) ↔
        ∃ i < b.nbufs.toNat, k * ctx.elementSize = i * ctx.rxBufSize := by
    simp only [Nat.add_left_cancel_iff]
  rw [← hnbufs, ← hshift]
  constructor
  · intro hinit
    by_contra hnone
    have hheader := hinit.header
    rw [hheaders, initChunks_eq, if_neg hnone] at hheader
    cases hheader
  · intro hchunk
    refine ⟨?_, block_subset_element _⟩
    rw [hheaders, initChunks_eq, if_pos hchunk]

/-- The elements lie as far apart as the chunks exactly if nothing is rounded. -/
theorem elementSize_eq_iff : ctx.elementSize = ctx.rxBufSize ↔ 8 ∣ ctx.bufferSize.toNat := by
  simp only [elementSize, rxBufSize, TxCluster.sizeofChunk]
  omega

/-- The second chunk is the only one that the second element can start at. -/
theorem eq_of_second {i : ℕ} (h : ctx.elementSize = i * ctx.rxBufSize) :
    ctx.elementSize = ctx.rxBufSize := by
  have hbounds : ctx.rxBufSize ≤ ctx.elementSize ∧ ctx.elementSize < ctx.rxBufSize + 8 := by
    simp only [elementSize]
    omega
  have hsize : TxCluster.sizeofChunk ≤ ctx.rxBufSize := Nat.le_add_right _ _
  simp only [TxCluster.sizeofChunk] at hsize
  rcases Nat.lt_trichotomy i 1 with hi | rfl | hi
  · rw [Nat.lt_one_iff.mp hi, Nat.zero_mul] at h
    omega
  · rw [h, Nat.one_mul]
  · have hle : 2 * ctx.rxBufSize ≤ i * ctx.rxBufSize := Nat.mul_le_mul_right _ hi
    omega

/-- A size that needs no rounding, and a request that has room for the elements. -/
theorem fits_of_dvd (hdvd : 8 ∣ ctx.bufferSize.toNat) (hroom : n * ctx.elementSize ≤ bytes)
    (hmany : bytes / ctx.rxBufSize < 2 ^ 32) : ctx.Fits n bytes := by
  have hpos : 0 < ctx.rxBufSize := Nat.lt_of_lt_of_le (by decide) (Nat.le_add_right _ _)
  refine .inr ⟨.inr hdvd, ?_⟩
  rw [Nat.mod_eq_of_lt hmany, Nat.le_div_iff_mul_le hpos]
  rwa [elementSize_eq_iff.mpr hdvd] at hroom

/-- **A block of the rx pool.**  All elements that the pool makes of it are initialised chunks
exactly if the block fits. -/
theorem initialised_iff_fits (h : (ctx.malloc mem regMr bytes).1 = some b) :
    (∀ p ∈ ctx.elements n b, ctx.Initialised b p) ↔ ctx.Fits n bytes := by
  have hmem : (∀ p ∈ ctx.elements n b, ctx.Initialised b p) ↔
      ∀ k < n, ∃ i < bytes / ctx.rxBufSize % 2 ^ 32,
        k * ctx.elementSize = i * ctx.rxBufSize := by
    simp only [elements, List.forall_mem_map, List.mem_range, initialised_iff_mul h]
  have hpos : 0 < ctx.rxBufSize := Nat.lt_of_lt_of_le (by decide) (Nat.le_add_right _ _)
  rw [hmem, Fits]
  constructor
  · intro hall
    rcases Nat.eq_zero_or_pos n with hzero | hn
    · exact .inl hzero
    · -- the last element needs as many chunks in front of it as there are elements
      have hlast : n ≤ bytes / ctx.rxBufSize % 2 ^ 32 := by
        obtain ⟨i, hi, heq⟩ := hall (n - 1) (by omega)
        have hround : ctx.rxBufSize ≤ ctx.elementSize := by
          simp only [elementSize]
          omega
        have hle : (n - 1) * ctx.rxBufSize ≤ i * ctx.rxBufSize :=
          heq ▸ Nat.mul_le_mul_left _ hround
        have := Nat.le_of_mul_le_mul_right hle hpos
        omega
      refine .inr ⟨?_, hlast⟩
      rcases Nat.lt_or_ge 1 n with hmany | hone
      · obtain ⟨i, -, heq⟩ := hall 1 hmany
        rw [Nat.one_mul] at heq
        exact .inr (elementSize_eq_iff.mp (eq_of_second heq))
      · exact .inl (by omega)
  · rintro (rfl | ⟨halign, hle⟩) k hk
    · exact absurd hk (Nat.not_lt_zero _)
    · refine ⟨k, by omega, ?_⟩
      rcases halign with rfl | hdvd
      · rw [Nat.lt_one_iff.mp hk, Nat.zero_mul, Nat.zero_mul]
      · rw [elementSize_eq_iff.mpr hdvd]

/-- Memory at one address, and a registration that always succeeds. -/
def plainMemory : (ℕ → Option ℕ) × (ℕ → ℕ → Option UInt32) :=
  (fun _ => some 4096, fun _ _ => some 7)

/-- Three buffers of 128 bytes. -/
theorem initialised_iff_fits_three :
    ∃ b, (malloc plainMemory.1 plainMemory.2 496 ⟨128, 0, 0⟩).1 = some b ∧
      elements ⟨128, 0, 0⟩ 3 b = [4120, 4280, 4440] ∧
      ∀ p ∈ elements ⟨128, 0, 0⟩ 3 b, Initialised ⟨128, 0, 0⟩ b p := by
  obtain ⟨b, hb, helements⟩ : ∃ b, (malloc plainMemory.1 plainMemory.2 496 ⟨128, 0, 0⟩).1 = some b ∧
      elements ⟨128, 0, 0⟩ 3 b = [4120, 4280, 4440] := ⟨_, rfl, rfl⟩
  exact ⟨b, hb, helements, (initialised_iff_fits hb).mpr (by decide)⟩

/-- With 100 bytes the second element starts four bytes behind the second chunk. -/
theorem not_initialised_rounded :
    ∃ b, (malloc plainMemory.1 plainMemory.2 288 ⟨100, 0, 0⟩).1 = some b ∧
      (4256 : ℕ) ∈ elements ⟨100, 0, 0⟩ 2 b ∧ b.headers 4256 = none ∧
      b.headers 4252 = some ⟨7, 100, 0, 4284⟩ ∧ ¬ Initialised ⟨100, 0, 0⟩ b 4256 := by
  refine ⟨_, rfl, by decide, rfl, rfl, fun h => ?_⟩
  cases h.header

end RxContext

/-! ## The pool -/

/-- The free elements of `mem_pool` and those in use, each with its block. -/
structure RxMemory where
  ctx : RxContext
  store : List (RxBlock × ℕ)
  out : List (RxBlock × ℕ)

/-- What is asked of the pool.  An empty pool asks for `bytes`, to make `n` elements of them. -/
inductive RxMemoryAction
  | getRxBuffer (n bytes : ℕ) (mem : ℕ → Option ℕ) (regMr : ℕ → ℕ → Option UInt32)
  | releaseRxBuffer (chunk : ℕ)

namespace RxMemory

/-- The pool asks for the size of the elements at least. -/
def step (r : RxMemory) : RxMemoryAction → Option RxMemory
  | .getRxBuffer n bytes mem regMr =>
      match r.store with
      | e :: store => some { r with store := store, out := e :: r.out }
      | [] =>
          if n * r.ctx.elementSize ≤ bytes then
            match r.ctx.malloc mem regMr bytes with
            | (none, ctx) => some { r with ctx := ctx }
            | (some b, ctx) =>
                match (r.ctx.elements n b).map fun p => (b, p) with
                | [] => some { r with ctx := ctx }
                | e :: store => some { ctx := ctx, store := store, out := e :: r.out }
          else none
  | .releaseRxBuffer chunk =>
      match r.out.find? fun e => e.2 == chunk with
      | none => none
      | some e => some { r with store := e :: r.store, out := r.out.eraseP fun e => e.2 == chunk }

/-- Any run of a new pool. -/
def machine : Machine RxMemory RxMemoryAction where
  start r := r.store = [] ∧ r.out = []
  step := step

/-- The block that the step gets, if it needs one, fits. -/
def Fitting (r : RxMemory) : RxMemoryAction → Prop
  | .getRxBuffer n bytes _ _ => r.store = [] → r.ctx.Fits n bytes
  | .releaseRxBuffer _ => True

/-- All elements are initialised chunks, the free ones and those in use. -/
structure AllInitialised (r : RxMemory) : Prop where
  store : ∀ e ∈ r.store, r.ctx.Initialised e.1 e.2
  out : ∀ e ∈ r.out, r.ctx.Initialised e.1 e.2

variable {r t : RxMemory} {a : RxMemoryAction}

/-- The step lemma. -/
theorem AllInitialised.step (h : r.AllInitialised) (hfits : Fitting r a)
    (hstep : r.step a = some t) : t.AllInitialised := by
  cases a with
  | getRxBuffer n bytes mem regMr =>
      simp only [RxMemory.step] at hstep
      split at hstep
      · rename_i e store hstore
        cases hstep
        have hall : ∀ x ∈ e :: store, r.ctx.Initialised x.1 x.2 := hstore ▸ h.store
        exact ⟨fun x hx => hall x (List.mem_cons_of_mem e hx),
          List.forall_mem_cons.mpr ⟨hall e List.mem_cons_self, h.out⟩⟩
      · rename_i hstore
        split at hstep
        · cases hmalloc : r.ctx.malloc mem regMr bytes with
          | mk block ctx =>
              rw [hmalloc] at hstep
              cases block with
              | none =>
                  cases hstep
                  have hctx := RxContext.malloc_eq_none (congrArg Prod.fst hmalloc)
                  rw [hmalloc] at hctx
                  rw [show ctx = r.ctx from hctx]
                  exact h
              | some b =>
                  have hb : (r.ctx.malloc mem regMr bytes).1 = some b := congrArg Prod.fst hmalloc
                  have hctx : ctx = r.ctx.updateStats b.nbufs :=
                    (congrArg Prod.snd hmalloc).symm.trans (RxContext.malloc_eq_some hb).1
                  have hnew : ∀ e ∈ (r.ctx.elements n b).map fun p => (b, p),
                      r.ctx.Initialised e.1 e.2 := by
                    rw [List.forall_mem_map]
                    exact (RxContext.initialised_iff_fits hb).mpr (hfits hstore)
                  subst hctx
                  dsimp only at hstep
                  split at hstep
                  · cases hstep
                    exact ⟨fun e he => (h.store e he).updateStats,
                      fun e he => (h.out e he).updateStats⟩
                  · rename_i e store hcut
                    rw [hcut, List.forall_mem_cons] at hnew
                    cases hstep
                    exact ⟨fun x hx => (hnew.2 x hx).updateStats,
                      List.forall_mem_cons.mpr
                        ⟨hnew.1.updateStats, fun x hx => (h.out x hx).updateStats⟩⟩
        · cases hstep
  | releaseRxBuffer chunk =>
      simp only [RxMemory.step] at hstep
      split at hstep
      · cases hstep
      · rename_i e hfound
        cases hstep
        exact ⟨List.forall_mem_cons.mpr ⟨h.out e (List.mem_of_find?_eq_some hfound), h.store⟩,
          fun x hx => h.out x (List.mem_of_mem_eraseP hx)⟩

/-- **The rx pool.**  Where every block fits, all chunks of the pool are initialised, whatever is
taken from it and given back. -/
theorem allInitialised_of_reached (hreached : machine.ReachedUnder Fitting r) :
    r.AllInitialised := by
  apply hreached.invariant AllInitialised
  · rintro r ⟨hstore, hout⟩
    exact ⟨by rw [hstore]; exact nofun, by rw [hout]; exact nofun⟩
  · exact fun r a t h hfits hstep => h.step hfits hstep

end RxMemory

end HwAsync.Infiniband
