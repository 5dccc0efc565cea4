/-
# The assertions of `submit`

`submit` asserts that what it copies has a beginning, that the copying came to its end, that nothing
was left between two chunks, and that it does not send more than there is.  Its copying takes the
chunk behind the one it filled before it looks whether there is one, so it reads `tx_buffers` beyond
the end whenever the last chunk gets full.

Here `submit` reports the first of these faults.
-/

import HwAsync.Rdma.SendStream

namespace HwAsync.Rdma

open HwAsync.Lib HwAsync.Infiniband

/-- `assert(start != end)`, `assert(bytes == 0)`, `assert(copy_it == it)`,
`assert(total <= pending_bl.length())`, and `tx_buffers[i]` for an `i` that is not below the
size. -/
inductive SubmitFault
  | startAtEnd
  | bytesLeft
  | copyItBehind
  | totalTooLong
  | outOfRange
  deriving DecidableEq, Repr

/-- `fill_tx_via_copy`.  Where `copyBuffers` does not come to the end of the buffers,
`tx_buffers[++chunk_idx]` was read for the size of `tx_buffers`. -/
def fillTxViaCopyChecked (worker o : ℕ) (v : Walk) : Except SubmitFault (ℕ × Walk) :=
  if v.uncopied = [] then .error .startAtEnd
  else
    let g := getRegedMem worker o v.pending v.side v.needReserveBytes
    match g.chunks with
    | [] => .ok (0, { v with pending := g.pending, side := g.side })
    | c :: rest =>
        let f := copyBuffers v.uncopied ⟨0, [], c, rest⟩
        if !f.ended then .error .outOfRange
        else if f.copied ≠ v.needReserveBytes then .error .bytesLeft
        else
          .ok (f.copied, { v with
            txBuffers := v.txBuffers ++ f.chunks
            uncopied := f.start
            pending := g.pending
            side := g.side })

/-- The loop of `submit`. -/
def submitLoopChecked (worker o : ℕ) : List Buffer → Walk → Except SubmitFault Walk
  | [], v =>
      if v.needReserveBytes = 0 then .ok v
      else
        match fillTxViaCopyChecked worker o v with
        | .error fault => .error fault
        | .ok (copied, v1) => .ok { v1 with total := v1.total + copied }
  | b :: rest, v =>
      match b.txChunk with
      | none =>
          submitLoopChecked worker o rest { v with
            needReserveBytes := v.needReserveBytes + b.bytes.length
            uncopied := v.uncopied ++ [b] }
      | some chunk =>
          if v.needReserveBytes = 0 then
            if v.uncopied = [] then
              submitLoopChecked worker o rest { v with
                txBuffers := v.txBuffers ++ [chunk], total := v.total + b.bytes.length }
            else .error .copyItBehind
          else
            match fillTxViaCopyChecked worker o v with
            | .error fault => .error fault
            | .ok (copied, v1) =>
                if copied < v1.needReserveBytes then .ok { v1 with total := v1.total + copied }
                else if v1.uncopied = [] then
                  submitLoopChecked worker o rest { v1 with
                    txBuffers := v1.txBuffers ++ [chunk]
                    total := v1.total + copied + b.bytes.length
                    needReserveBytes := 0 }
                else .error .copyItBehind

/-- `submit`, or its first fault. -/
def Socket.submitChecked (worker o : ℕ) (s : Socket) (t : TxSide) (post : PostResult) :
    Except SubmitFault SendOutcome :=
  if s.error ≠ 0 then .ok ⟨-s.error, s, t, []⟩
  else if s.pendingBl.length = 0 then .ok ⟨0, s, t, []⟩
  else
    match submitLoopChecked worker o s.pendingBl.buffers ⟨[], 0, 0, [], s.pending, t⟩ with
    | .error fault => .error fault
    | .ok v =>
        match s.sending v post with
        | none => .error .totalTooLong
        | some out => .ok out

/-- A run of so many bytes leaves room in the last of the chunks it needs, and these are free. -/
def RunFits (size free run : ℕ) : Prop := ¬ size ∣ run ∧ run / size < free

instance (size free run : ℕ) : Decidable (RunFits size free run) :=
  inferInstanceAs (Decidable (_ ∧ _))

/-- The condition: `run` is the bytes of the ordinary buffers since the last tx chunk, and `skipped`
whether there are any. -/
def Fits (size : ℕ) : ℕ → ℕ → Bool → List Buffer → Prop
  | free, run, _, [] => run = 0 ∨ free = 0 ∨ RunFits size free run
  | free, run, skipped, b :: rest =>
      match b.txChunk with
      | none => Fits size free (run + b.bytes.length) true rest
      | some _ =>
          if run = 0 then skipped = false ∧ Fits size free 0 false rest
          else free = 0 ∨ RunFits size free run ∧ Fits size (free - (run / size + 1)) 0 false rest

instance decidableFits (size : ℕ) : (free run : ℕ) → (skipped : Bool) → (buffers : List Buffer) →
    Decidable (Fits size free run skipped buffers)
  | free, run, _, [] => inferInstanceAs (Decidable (run = 0 ∨ free = 0 ∨ RunFits size free run))
  | free, run, _, ⟨bytes, none⟩ :: rest => decidableFits size free (run + bytes.length) true rest
  | free, run, skipped, ⟨_, some _⟩ :: rest =>
      have : Decidable (Fits size free 0 false rest) := decidableFits size free 0 false rest
      have : Decidable (Fits size (free - (run / size + 1)) 0 false rest) :=
        decidableFits size (free - (run / size + 1)) 0 false rest
      inferInstanceAs (Decidable (if run = 0 then skipped = false ∧ Fits size free 0 false rest
        else free = 0 ∨ RunFits size free run ∧
          Fits size (free - (run / size + 1)) 0 false rest))

variable {worker o : ℕ}

/-! ## Without a fault it is `submit` -/

theorem fillTxViaCopy_of_checked {v : Walk} {r : ℕ × Walk}
    (hfill : fillTxViaCopyChecked worker o v = .ok r) : fillTxViaCopy worker o v = some r := by
  unfold fillTxViaCopyChecked at hfill
  unfold fillTxViaCopy
  split at hfill
  · cases hfill
  · rename_i huncopied
    rw [if_neg huncopied]
    dsimp only at hfill ⊢
    generalize getRegedMem worker o v.pending v.side v.needReserveBytes = g at hfill ⊢
    obtain ⟨chunks, pending, side⟩ := g
    cases chunks with
    | nil =>
        cases hfill
        rfl
    | cons c rest =>
        dsimp only at hfill ⊢
        split at hfill
        · cases hfill
        · split at hfill
          · cases hfill
          · rename_i hcopied
            cases hfill
            rw [not_not] at hcopied
            have hassert : ((copyBuffers v.uncopied ⟨0, [], c, rest⟩).ended &&
                (copyBuffers v.uncopied ⟨0, [], c, rest⟩).copied != v.needReserveBytes) =
                  false := by
              simp [hcopied]
            rw [hassert]
            rfl

theorem submitLoop_of_checked {buffers : List Buffer} {v v' : Walk}
    (hloop : submitLoopChecked worker o buffers v = .ok v') :
    submitLoop worker o buffers v = some v' := by
  induction buffers generalizing v with
  | nil =>
      unfold submitLoopChecked at hloop
      unfold submitLoop
      split at hloop
      · rename_i hzero
        cases hloop
        rw [if_pos hzero]
      · rename_i hneed
        rw [if_neg hneed]
        split at hloop
        · cases hloop
        · rename_i hfill
          cases hloop
          rw [fillTxViaCopy_of_checked hfill]
  | cons b rest ih =>
      unfold submitLoopChecked at hloop
      unfold submitLoop
      cases hchunk : b.txChunk with
      | none =>
          rw [hchunk] at hloop
          exact ih hloop
      | some chunk =>
          rw [hchunk] at hloop
          dsimp only at hloop ⊢
          split at hloop
          · rename_i hzero
            rw [if_pos hzero]
            split at hloop
            · rename_i hnil
              rw [if_pos hnil]
              exact ih hloop
            · cases hloop
          · rename_i hneed
            rw [if_neg hneed]
            split at hloop
            · cases hloop
            · rename_i copied v1 hfill
              rw [fillTxViaCopy_of_checked hfill]
              dsimp only
              split at hloop
              · rename_i hshort
                cases hloop
                rw [if_pos hshort]
              · rename_i hall
                rw [if_neg hall]
                split at hloop
                · rename_i hnil
                  rw [if_pos hnil]
                  exact ih hloop
                · cases hloop

/-- Where there is no fault, this is `submit`. -/
theorem submit_of_checked {s : Socket} {t : TxSide} {post : PostResult} {out : SendOutcome}
    (hsubmit : s.submitChecked worker o t post = .ok out) :
    s.submit worker o t post = some out := by
  unfold Socket.submitChecked at hsubmit
  unfold Socket.submit
  split at hsubmit
  · rename_i herror
    cases hsubmit
    rw [if_pos herror]
  · rename_i herror
    rw [if_neg herror]
    split at hsubmit
    · rename_i hempty
      cases hsubmit
      rw [if_pos hempty]
    · rename_i hbytes
      rw [if_neg hbytes]
      split at hsubmit
      · cases hsubmit
      · rename_i v hloop
        rw [submitLoop_of_checked hloop]
        dsimp only
        split at hsubmit
        · cases hsubmit
        · rename_i hsending
          cases hsubmit
          exact hsending

/-! ## The room in the chunks -/

/-- The current chunk has room, and those behind it are untouched. -/
structure Cursor.HasRoom (size : ℕ) (c : Cursor) : Prop where
  bytes_eq : c.current.bytes = size
  offset_lt : c.current.offset < size
  rest_unwritten : Unwritten size c.rest

/-- How much can be written. -/
def Cursor.room (size : ℕ) (c : Cursor) : ℕ := size - c.current.offset + size * c.rest.length

variable {size : ℕ}

/-- One write into a chunk with room: the rest of the buffer, or as much as there is room for. -/
theorem Cursor.HasRoom.write {c : Cursor} (hlt : size < 2 ^ 32) (hc : c.HasRoom size)
    (src : List UInt8) :
    (c.current.write src).1 = min src.length (size - c.current.offset) ∧
      (c.current.write src).2.bytes = size ∧
      (c.current.write src).2.offset = c.current.offset + (c.current.write src).1 ∧
      ((c.current.write src).2.isFull = true ↔ size - c.current.offset ≤ src.length) := by
  have hbytes := hc.bytes_eq
  have hoffset := hc.offset_lt
  obtain ⟨-, -, hbytes', hcount, hoffset', -⟩ :=
    Chunk.write_spec (c := c.current) ⟨by omega, by omega⟩ src
  rw [hbytes] at hbytes' hcount
  refine ⟨hcount, hbytes', hoffset', ?_⟩
  rw [Chunk.isFull_iff, hbytes', hoffset']
  omega

/-- A buffer that leaves room in the current chunk. -/
theorem copyBuffer_of_lt {c : Cursor} (hlt : size < 2 ^ 32) (hc : c.HasRoom size)
    {src : List UInt8} (hshort : src.length < size - c.current.offset) :
    ∃ c', copyBuffer src c.copied c.filled c.current c.rest = .room c' ∧ c'.HasRoom size ∧
      c'.room size + src.length = c.room size ∧ c'.copied = c.copied + src.length := by
  obtain ⟨hcount, hbytes, hoffset, hfull⟩ := hc.write hlt src
  rw [copyBuffer.eq_def]
  by_cases hnil : src = []
  · rw [if_pos hnil, hnil]
    exact ⟨c, rfl, hc, rfl, rfl⟩
  · have hroom : (c.current.write src).2.isFull = false := by
      rw [← Bool.not_eq_true, hfull]
      omega
    rw [if_neg hnil]
    dsimp only
    rw [if_neg (by rw [hroom]; exact Bool.false_ne_true)]
    refine ⟨_, rfl, ⟨hbytes, by dsimp only; omega, hc.rest_unwritten⟩, ?_, by dsimp only; omega⟩
    unfold Cursor.room
    dsimp only
    omega

/-- A buffer is copied if it leaves room, and uses up the chunks otherwise. -/
theorem copyBuffer_room_iff (hlt : size < 2 ^ 32) (hsize : 0 < size) (rest : List Chunk)
    {src : List UInt8} {copied : ℕ} {filled : List Chunk} {current : Chunk}
    (hc : (Cursor.mk copied filled current rest).HasRoom size) :
    (src.length < (Cursor.mk copied filled current rest).room size →
      ∃ c', copyBuffer src copied filled current rest = .room c' ∧ c'.HasRoom size ∧
        c'.room size + src.length = (Cursor.mk copied filled current rest).room size ∧
        c'.copied = copied + src.length) ∧
    ((Cursor.mk copied filled current rest).room size ≤ src.length →
      ∃ n chunks, copyBuffer src copied filled current rest = .exhausted n chunks) := by
  induction rest generalizing src copied filled current with
  | nil =>
      have hroom : (Cursor.mk copied filled current []).room size = size - current.offset := rfl
      rw [hroom]
      refine ⟨fun hshort => copyBuffer_of_lt hlt hc hshort, fun hlong => ?_⟩
      have hoffset := hc.offset_lt
      have hnil : src ≠ [] := List.ne_nil_of_length_pos (by dsimp only at hoffset; omega)
      have hfull := (hc.write hlt src).2.2.2.mpr hlong
      refine ⟨copied + (current.write src).1, filled ++ [(current.write src).2], ?_⟩
      rw [copyBuffer, if_neg hnil]
      exact if_pos hfull
  | cons next rest ih =>
      by_cases hshort : src.length < size - current.offset
      · have hroom : size - current.offset ≤
            (Cursor.mk copied filled current (next :: rest)).room size := Nat.le_add_right _ _
        exact ⟨fun _ => copyBuffer_of_lt hlt hc hshort, fun hlong => by omega⟩
      · have hoffset := hc.offset_lt
        have hnil : src ≠ [] := List.ne_nil_of_length_pos (by dsimp only at hoffset; omega)
        obtain ⟨hcount, -, -, hfull⟩ := hc.write hlt src
        have hstep : copyBuffer src copied filled current (next :: rest) =
            copyBuffer (src.drop (current.write src).1) (copied + (current.write src).1)
              (filled ++ [(current.write src).2]) next rest := by
          rw [copyBuffer, if_neg hnil]
          exact if_pos (hfull.mpr (Nat.not_lt.mp hshort))
        have hnext := hc.rest_unwritten next List.mem_cons_self
        have hroom : (Cursor.mk copied filled current (next :: rest)).room size =
            size - current.offset + (Cursor.mk (copied + (current.write src).1)
              (filled ++ [(current.write src).2]) next rest).room size := by
          unfold Cursor.room
          dsimp only
          rw [hnext.1, List.length_cons, Nat.mul_succ, Nat.sub_zero]
          omega
        have hwritten : (current.write src).1 = size - current.offset := by
          dsimp only at hcount
          rw [hcount]
          exact Nat.min_eq_right (Nat.not_lt.mp hshort)
        obtain ⟨hfits, hexhausts⟩ := @ih (src.drop (current.write src).1)
          (copied + (current.write src).1) (filled ++ [(current.write src).2]) next
          ⟨hnext.2, by rw [hnext.1]; exact hsize,
            fun c hc' => hc.rest_unwritten c (List.mem_cons_of_mem _ hc')⟩
        rw [List.length_drop] at hfits hexhausts
        rw [hstep, hroom]
        refine ⟨fun hlen => ?_, fun hlen => hexhausts (by omega)⟩
        obtain ⟨c', hcopy, hroom', hleft, hcopied⟩ := hfits (by omega)
        exact ⟨c', hcopy, hroom', by omega, by omega⟩

/-- So does a run of buffers. -/
theorem copyBuffers_room_iff (hlt : size < 2 ^ 32) (hsize : 0 < size) (buffers : List Buffer)
    {c : Cursor} (hc : c.HasRoom size) :
    ((contents buffers).length < c.room size →
      (copyBuffers buffers c).ended = true ∧ (copyBuffers buffers c).start = [] ∧
        (copyBuffers buffers c).copied = c.copied + (contents buffers).length) ∧
    (c.room size ≤ (contents buffers).length → (copyBuffers buffers c).ended = false) := by
  have hpos : 0 < c.room size := by
    have hoffset := hc.offset_lt
    unfold Cursor.room
    omega
  induction buffers generalizing c with
  | nil => exact ⟨fun _ => ⟨rfl, rfl, rfl⟩, fun hlong => absurd hlong (Nat.not_le.mpr hpos)⟩
  | cons b rest ih =>
      obtain ⟨hfits, hexhausts⟩ :=
        @copyBuffer_room_iff size hlt hsize c.rest b.bytes c.copied c.filled c.current hc
      rw [contents_cons, List.length_append]
      by_cases hshort : b.bytes.length < c.room size
      · obtain ⟨c', hcopy, hc', hleft, hcopied⟩ := hfits hshort
        have hroom : (Cursor.mk c.copied c.filled c.current c.rest).room size = c.room size := rfl
        obtain ⟨hends, hleaves⟩ := ih hc' (by omega)
        simp only [copyBuffers, hcopy]
        refine ⟨fun hlen => ?_, fun hlen => hleaves (by omega)⟩
        obtain ⟨hended, hstart, hall⟩ := hends (by omega)
        exact ⟨hended, hstart, by omega⟩
      · obtain ⟨n, chunks, hcopy⟩ := hexhausts (Nat.not_lt.mp hshort)
        simp only [copyBuffers, hcopy]
        exact ⟨fun hlen => by omega, fun _ => trivial⟩

/-- A buffer that uses up the chunks fills the current one. -/
theorem copyBuffer_fills (hlt : size < 2 ^ 32) {rest : List Chunk} {src : List UInt8}
    {copied n : ℕ} {filled chunks : List Chunk} {current : Chunk}
    (hc : (Cursor.mk copied filled current rest).HasRoom size)
    (hcopy : copyBuffer src copied filled current rest = .exhausted n chunks) :
    src ≠ [] ∧ (current.write src).2.isFull = true ∧
      (current.write src).1 = size - current.offset := by
  have hnil : src ≠ [] := by
    intro hnil
    rw [copyBuffer.eq_def, if_pos hnil] at hcopy
    cases hcopy
  obtain ⟨hcount, -, -, hfull⟩ := hc.write hlt src
  have hisFull : (current.write src).2.isFull = true := by
    by_contra hroom
    rw [copyBuffer.eq_def, if_neg hnil] at hcopy
    dsimp only at hcopy
    rw [if_neg hroom] at hcopy
    cases hcopy
  exact ⟨hnil, hisFull, hcount.trans (Nat.min_eq_right (hfull.mp hisFull))⟩

/-- Chunks that are used up have as much as there was room for. -/
theorem copyBuffer_exhausted (hlt : size < 2 ^ 32) (hsize : 0 < size) (rest : List Chunk)
    {src : List UInt8} {copied n : ℕ} {filled chunks : List Chunk} {current : Chunk}
    (hc : (Cursor.mk copied filled current rest).HasRoom size)
    (hcopy : copyBuffer src copied filled current rest = .exhausted n chunks) :
    n = copied + (Cursor.mk copied filled current rest).room size := by
  induction rest generalizing src copied filled current with
  | nil =>
      obtain ⟨hnil, hisFull, hwritten⟩ := copyBuffer_fills hlt hc hcopy
      rw [copyBuffer, if_neg hnil] at hcopy
      dsimp only at hcopy
      rw [if_pos hisFull] at hcopy
      cases hcopy
      exact congrArg (copied + ·) hwritten
  | cons next rest ih =>
      obtain ⟨hnil, hisFull, hwritten⟩ := copyBuffer_fills hlt hc hcopy
      have hnext := hc.rest_unwritten next List.mem_cons_self
      rw [copyBuffer, if_neg hnil] at hcopy
      dsimp only at hcopy
      rw [if_pos hisFull] at hcopy
      have hall := ih ⟨hnext.2, by rw [hnext.1]; exact hsize,
        fun c hc' => hc.rest_unwritten c (List.mem_cons_of_mem _ hc')⟩ hcopy
      unfold Cursor.room at hall ⊢
      dsimp only at hall ⊢
      rw [hall, hnext.1, hwritten, List.length_cons, Nat.mul_succ]
      omega

theorem copyBuffers_exhausted (hlt : size < 2 ^ 32) (hsize : 0 < size) (buffers : List Buffer)
    {c : Cursor} (hc : c.HasRoom size) (hended : (copyBuffers buffers c).ended = false) :
    (copyBuffers buffers c).copied = c.copied + c.room size := by
  induction buffers generalizing c with
  | nil => cases hended
  | cons b rest ih =>
      obtain ⟨hfits, hexhausts⟩ :=
        @copyBuffer_room_iff size hlt hsize c.rest b.bytes c.copied c.filled c.current hc
      by_cases hshort : b.bytes.length < c.room size
      · obtain ⟨c', hcopy, hc', hleft, hcopied⟩ := hfits hshort
        have hroom : (Cursor.mk c.copied c.filled c.current c.rest).room size = c.room size := rfl
        simp only [copyBuffers, hcopy] at hended ⊢
        rw [ih hc' hended]
        omega
      · obtain ⟨n, chunks, hcopy⟩ := hexhausts (Nat.not_lt.mp hshort)
        simp only [copyBuffers, hcopy]
        exact copyBuffer_exhausted hlt hsize c.rest hc hcopy

/-! ## A run -/

/-- How many chunks are reserved: as many as the bytes need, or all. -/
theorem length_getBuffers {k : Cluster} {bytes : ℕ} (hpos : 0 < bytes) (hlt : bytes < 2 ^ 32) :
    (k.getBuffers bytes).1.length =
        min (bytes / k.bufferSize + if k.bufferSize ∣ bytes then 0 else 1) k.freeChunks.length ∧
      (k.getBuffers bytes).1.length + (k.getBuffers bytes).2.freeChunks.length =
        k.freeChunks.length := by
  have hneeded : k.needed bytes =
      bytes / k.bufferSize + if k.bufferSize ∣ bytes then 0 else 1 := by
    have hle : bytes / k.bufferSize ≤ bytes := Nat.div_le_self _ _
    unfold Cluster.needed
    simp only [Nat.dvd_iff_mod_eq_zero]
    split
    · exact Nat.mod_eq_of_lt (by omega)
    · rename_i hdvd
      -- the quotient is below `bytes` unless a chunk is one byte
      have hless : bytes / k.bufferSize < bytes := by
        by_cases hone : 1 < k.bufferSize
        · exact Nat.div_lt_self hpos hone
        · obtain hzero | hone : k.bufferSize = 0 ∨ k.bufferSize = 1 := by omega
          · rwa [hzero, Nat.div_zero]
          · exact absurd (by rw [hone, Nat.mod_one]) hdvd
      exact Nat.mod_eq_of_lt (by omega)
  rw [← hneeded]
  constructor
  · unfold Cluster.getBuffers
    by_cases hfree : k.freeChunks = []
    · rw [if_pos hfree, hfree]
      exact (Nat.min_zero _).symm
    · rw [if_neg hfree, if_neg (by omega)]
      dsimp only
      rw [List.length_take, List.length_reverse]
      omega
  · have hcards := congrArg Multiset.card (@Cluster.addrs_getBuffers k bytes)
    rwa [Multiset.card_add, card_addrs, card_addrs, card_addrs] at hcards

/-- The chunks that are reserved have room for a run and one byte more. -/
theorem runFits_iff (hsize : 0 < size) (free run : ℕ) :
    RunFits size free run ↔ run < size * min (run / size + if size ∣ run then 0 else 1) free := by
  unfold RunFits
  by_cases hdvd : size ∣ run
  · rw [if_pos hdvd, Nat.add_zero]
    refine iff_of_false (fun h => h.1 hdvd) (Nat.not_lt.mpr ?_)
    have hle : size * min (run / size) free ≤ size * (run / size) :=
      Nat.mul_le_mul_left size (Nat.min_le_left _ _)
    rwa [Nat.mul_div_cancel' hdvd] at hle
  · rw [if_neg hdvd, and_iff_right hdvd, Nat.mul_comm, ← Nat.div_lt_iff_lt_mul hsize]
    omega

/-- What a call of `fill_tx_via_copy` leaves when it does not fault, and when this is. -/
theorem fillTxViaCopyChecked_spec {v : Walk} (hready : v.side.cluster.Ready)
    (hneed : v.needReserveBytes = (contents v.uncopied).length) (hpos : 0 < v.needReserveBytes)
    (hlt : v.needReserveBytes < 2 ^ 32) :
    (v.side.cluster.freeChunks = [] → ∃ v', fillTxViaCopyChecked worker o v = .ok (0, v') ∧
      v'.total = v.total ∧ v'.needReserveBytes = v.needReserveBytes) ∧
    (RunFits v.side.cluster.bufferSize v.side.cluster.freeChunks.length v.needReserveBytes →
      ∃ v', fillTxViaCopyChecked worker o v = .ok (v.needReserveBytes, v') ∧ v'.total = v.total ∧
        v'.needReserveBytes = v.needReserveBytes ∧ v'.uncopied = [] ∧ v'.side.cluster.Ready ∧
        v'.side.cluster.bufferSize = v.side.cluster.bufferSize ∧
        v'.side.cluster.freeChunks.length = v.side.cluster.freeChunks.length -
          (v.needReserveBytes / v.side.cluster.bufferSize + 1)) ∧
    (v.side.cluster.freeChunks ≠ [] →
      ¬ RunFits v.side.cluster.bufferSize v.side.cluster.freeChunks.length v.needReserveBytes →
      fillTxViaCopyChecked worker o v = .error .outOfRange) := by
  have huncopied : v.uncopied ≠ [] := by
    intro hnil
    rw [hnil] at hneed
    exact absurd hneed hpos.ne'
  have hsize := hready.bufferSize_pos
  obtain ⟨hlength, hsum⟩ := @length_getBuffers v.side.cluster v.needReserveBytes hpos hlt
  have hsame := @Cluster.getBuffers_bufferSize v.side.cluster v.needReserveBytes
  obtain ⟨hclean, hready'⟩ := @Cluster.Ready.getBuffers v.side.cluster v.needReserveBytes hready
  obtain ⟨hchunks, hcluster, -⟩ :=
    @getRegedMem_eq worker o v.side v.pending v.needReserveBytes
  have hfits := runFits_iff hsize v.side.cluster.freeChunks.length v.needReserveBytes
  rw [← hlength, ← hchunks] at hfits
  rw [← hchunks] at hclean hlength hsum
  rw [← hcluster] at hready' hsame hsum
  unfold fillTxViaCopyChecked
  rw [if_neg huncopied]
  dsimp only
  generalize getRegedMem worker o v.pending v.side v.needReserveBytes = g at *
  cases hgot : g.chunks with
  | nil =>
      rw [hgot] at hfits
      refine ⟨fun _ => ⟨_, rfl, rfl, rfl⟩, fun hruns => ?_, fun hne _ => ?_⟩
      · exact absurd (hfits.mp hruns) (Nat.not_lt_zero _)
      · rw [hchunks] at hgot
        exact absurd (Cluster.freeChunks_of_getBuffers_nil hsize hpos hlt hgot) hne
  | cons c rest =>
      rw [hgot] at hfits hclean hlength hsum
      dsimp only
      have hroom : (Cursor.mk 0 [] c rest).HasRoom v.side.cluster.bufferSize := by
        have hc := hclean c List.mem_cons_self
        refine ⟨hc.bytes, by dsimp only; rw [hc.offset]; exact hsize, fun d hd => ?_⟩
        have hd' := hclean d (List.mem_cons_of_mem c hd)
        exact ⟨hd'.offset, hd'.bytes⟩
      have hall : (Cursor.mk 0 [] c rest).room v.side.cluster.bufferSize =
          v.side.cluster.bufferSize * (c :: rest).length := by
        unfold Cursor.room
        dsimp only
        rw [(hclean c List.mem_cons_self).offset, List.length_cons, Nat.mul_succ, Nat.sub_zero,
          Nat.add_comm]
      obtain ⟨hends, hleaves⟩ :=
        copyBuffers_room_iff hready.bufferSize_lt hsize v.uncopied hroom
      rw [hall, ← hneed] at hends hleaves
      refine ⟨fun hnil => ?_, fun hruns => ?_, fun _ hshort => ?_⟩
      · rw [hnil] at hsum
        exact absurd hsum (by simp)
      · obtain ⟨hended, hstart, hcopied⟩ := hends (hfits.mp hruns)
        rw [Nat.zero_add] at hcopied
        rw [hended, hcopied, if_neg (by decide), if_neg (not_not_intro rfl)]
        refine ⟨_, rfl, rfl, rfl, hstart, hready', hsame, ?_⟩
        have hmin := hruns.2
        rw [if_neg hruns.1] at hlength
        dsimp only
        omega
      · rw [hleaves (Nat.not_lt.mp fun hlong => hshort (hfits.mpr hlong))]
        rfl

/-- The three ways of a run: there is no chunk, it fits, or it uses up its chunks. -/
theorem fillTxViaCopyChecked_cases {v : Walk} (hready : v.side.cluster.Ready)
    (hneed : v.needReserveBytes = (contents v.uncopied).length) (hpos : 0 < v.needReserveBytes)
    (hlt : v.needReserveBytes < 2 ^ 32) :
    (v.side.cluster.freeChunks.length = 0 ∧
      ∃ v', fillTxViaCopyChecked worker o v = .ok (0, v') ∧ v'.total = v.total ∧
        v'.needReserveBytes = v.needReserveBytes) ∨
    (v.side.cluster.freeChunks.length ≠ 0 ∧
      RunFits v.side.cluster.bufferSize v.side.cluster.freeChunks.length v.needReserveBytes ∧
      ∃ v', fillTxViaCopyChecked worker o v = .ok (v.needReserveBytes, v') ∧ v'.total = v.total ∧
        v'.needReserveBytes = v.needReserveBytes ∧ v'.uncopied = [] ∧ v'.side.cluster.Ready ∧
        v'.side.cluster.bufferSize = v.side.cluster.bufferSize ∧
        v'.side.cluster.freeChunks.length = v.side.cluster.freeChunks.length -
          (v.needReserveBytes / v.side.cluster.bufferSize + 1)) ∨
    (v.side.cluster.freeChunks.length ≠ 0 ∧
      ¬ RunFits v.side.cluster.bufferSize v.side.cluster.freeChunks.length v.needReserveBytes ∧
      fillTxViaCopyChecked worker o v = .error .outOfRange) := by
  obtain ⟨hnone, hfits, hfaults⟩ := @fillTxViaCopyChecked_spec worker o v hready hneed hpos hlt
  by_cases hfree : v.side.cluster.freeChunks = []
  · exact .inl ⟨by rw [hfree]; rfl, hnone hfree⟩
  · have hlength : v.side.cluster.freeChunks.length ≠ 0 :=
      fun h => hfree (List.eq_nil_of_length_eq_zero h)
    by_cases hruns : RunFits v.side.cluster.bufferSize v.side.cluster.freeChunks.length
        v.needReserveBytes
    · exact .inr (.inl ⟨hlength, hruns, hfits hruns⟩)
    · exact .inr (.inr ⟨hlength, hruns, hfaults hfree hruns⟩)

/-! ## The loop -/

/-- **The loop does not fault if and only if the buffers fit**; then its total is at most what there
is. -/
theorem submitLoopChecked_iff (buffers : List Buffer) {v : Walk} (hready : v.side.cluster.Ready)
    (hneed : v.needReserveBytes = (contents v.uncopied).length)
    (hlt : v.needReserveBytes + (contents buffers).length < 2 ^ 32) :
    ((∃ v', submitLoopChecked worker o buffers v = .ok v') ↔
      Fits v.side.cluster.bufferSize v.side.cluster.freeChunks.length v.needReserveBytes
        (!v.uncopied.isEmpty) buffers) ∧
    ∀ v', submitLoopChecked worker o buffers v = .ok v' →
      v'.total ≤ v.total + v.needReserveBytes + (contents buffers).length := by
  induction buffers generalizing v with
  | nil =>
      unfold submitLoopChecked Fits
      by_cases hzero : v.needReserveBytes = 0
      · rw [if_pos hzero]
        refine ⟨iff_of_true ⟨v, rfl⟩ (.inl hzero), ?_⟩
        rintro _ ⟨⟩
        omega
      · rw [if_neg hzero]
        rcases @fillTxViaCopyChecked_cases worker o v hready hneed (by omega) (by omega) with
          ⟨hfree, v', hfill, htotal, -⟩ | ⟨-, hruns, v', hfill, htotal, -⟩ |
          ⟨hfree, hruns, hfill⟩
        · rw [hfill]
          refine ⟨iff_of_true ⟨_, rfl⟩ (.inr (.inl hfree)), ?_⟩
          rintro _ ⟨⟩
          dsimp only
          omega
        · rw [hfill]
          refine ⟨iff_of_true ⟨_, rfl⟩ (.inr (.inr hruns)), ?_⟩
          rintro _ ⟨⟩
          dsimp only
          omega
        · rw [hfill, or_iff_right hzero, or_iff_right hfree]
          exact ⟨iff_of_false (by rintro ⟨_, ⟨⟩⟩) hruns, by rintro _ ⟨⟩⟩
  | cons b rest ih =>
      rw [contents_cons, List.length_append] at hlt ⊢
      unfold submitLoopChecked Fits
      cases hchunk : b.txChunk with
      | none =>
          dsimp only
          have hcontents : v.needReserveBytes + b.bytes.length =
              (contents (v.uncopied ++ [b])).length := by
            rw [contents_append, List.length_append, hneed, contents_cons, contents_nil,
              List.append_nil]
          obtain ⟨hiff, htotal⟩ := @ih { v with
            needReserveBytes := v.needReserveBytes + b.bytes.length
            uncopied := v.uncopied ++ [b] } hready hcontents (by dsimp only; omega)
          have hskipped : (!(v.uncopied ++ [b]).isEmpty) = true := by simp
          rw [hskipped] at hiff
          refine ⟨hiff, fun v' hv' => ?_⟩
          have hle := htotal v' hv'
          dsimp only at hle
          omega
      | some chunk =>
          dsimp only
          by_cases hzero : v.needReserveBytes = 0
          · rw [if_pos hzero, if_pos hzero]
            by_cases hnil : v.uncopied = []
            · obtain ⟨hiff, htotal⟩ := @ih { v with
                txBuffers := v.txBuffers ++ [chunk], total := v.total + b.bytes.length }
                hready hneed (by dsimp only; omega)
              have hskipped : (!v.uncopied.isEmpty) = false := by rw [hnil]; rfl
              dsimp only at hiff htotal
              rw [hskipped] at hiff
              rw [if_pos hnil, hskipped, and_iff_right rfl]
              rw [hzero] at hiff htotal ⊢
              refine ⟨hiff, fun v' hv' => ?_⟩
              have hle := htotal v' hv'
              omega
            · have hskipped : (!v.uncopied.isEmpty) ≠ false := by simpa using hnil
              rw [if_neg hnil]
              exact ⟨iff_of_false (by rintro ⟨_, ⟨⟩⟩) fun h => hskipped h.1, by rintro _ ⟨⟩⟩
          · rw [if_neg hzero, if_neg hzero]
            rcases @fillTxViaCopyChecked_cases worker o v hready hneed (by omega) (by omega) with
              ⟨hfree, v', hfill, htotal, hsame⟩ |
              ⟨hfree, hruns, v', hfill, htotal, hsame, hnil, hready', hsize, hleft⟩ |
              ⟨hfree, hruns, hfill⟩
            · rw [hfill]
              dsimp only
              rw [if_pos (by omega)]
              refine ⟨iff_of_true ⟨_, rfl⟩ (.inl hfree), ?_⟩
              rintro _ ⟨⟩
              dsimp only
              omega
            · rw [hfill, or_iff_right hfree, and_iff_right hruns]
              dsimp only
              rw [if_neg (by omega), if_pos hnil]
              have hdone : 0 = (contents v'.uncopied).length := by rw [hnil]; rfl
              obtain ⟨hiff, htotal'⟩ := @ih { v' with
                txBuffers := v'.txBuffers ++ [chunk]
                total := v'.total + v.needReserveBytes + b.bytes.length
                needReserveBytes := 0 } hready' hdone (by dsimp only; omega)
              have hskipped : (!v'.uncopied.isEmpty) = false := by rw [hnil]; rfl
              dsimp only at hiff htotal'
              rw [hskipped, hsize, hleft] at hiff
              refine ⟨hiff, fun w hw => ?_⟩
              have hle := htotal' w hw
              omega
            · rw [hfill, or_iff_right hfree]
              exact ⟨iff_of_false (by rintro ⟨_, ⟨⟩⟩) fun h => hruns h.1, by rintro _ ⟨⟩⟩

/-! ## `submit` -/

/-- **`submit` does not fault if and only if the runs of ordinary buffers fit their chunks**: no run
that is copied ends with a chunk, or needs more chunks than there are, and no run in front of a tx
chunk has empty buffers only. -/
theorem submitChecked_iff {s : Socket} {t : TxSide} (hready : t.cluster.Ready)
    (post : PostResult) :
    (∃ out, s.submitChecked worker o t post = .ok out) ↔
      s.error ≠ 0 ∨ s.pendingBl.length = 0 ∨
        Fits t.cluster.bufferSize t.cluster.freeChunks.length 0 false s.pendingBl.buffers := by
  unfold Socket.submitChecked
  by_cases herror : s.error = 0
  · rw [if_neg (not_not_intro herror), or_iff_right (not_not_intro herror)]
    by_cases hempty : s.pendingBl.length = 0
    · rw [if_pos hempty]
      exact iff_of_true ⟨_, rfl⟩ (.inl hempty)
    · rw [if_neg hempty, or_iff_right hempty]
      obtain ⟨hiff, htotal⟩ := @submitLoopChecked_iff worker o s.pendingBl.buffers
        ⟨[], 0, 0, [], s.pending, t⟩ hready rfl (by
          have hlt := s.pendingBl.length_lt
          dsimp only
          omega)
      have hskipped : (!([] : List Buffer).isEmpty) = false := rfl
      dsimp only at hiff htotal
      rw [hskipped] at hiff
      rw [← hiff]
      cases hloop : submitLoopChecked worker o s.pendingBl.buffers
          ⟨[], 0, 0, [], s.pending, t⟩ with
      | error fault => exact iff_of_false (by rintro ⟨_, ⟨⟩⟩) (by rintro ⟨_, ⟨⟩⟩)
      | ok v =>
          have hle := htotal v hloop
          rw [Nat.zero_add] at hle
          refine iff_of_true ?_ ⟨v, rfl⟩
          dsimp only
          have hsending : ∃ out, s.sending v post = some out := by
            unfold Socket.sending
            dsimp only
            by_cases hzero : v.total = 0
            · rw [if_pos hzero]
              exact ⟨_, rfl⟩
            · have hlong : ¬ s.pendingBl.length < v.total := Nat.not_lt.mpr hle
              rw [if_neg hzero, if_neg hlong]
              exact ⟨_, rfl⟩
          obtain ⟨out, hout⟩ := hsending
          rw [hout]
          exact ⟨out, rfl⟩
  · rw [if_pos herror]
    exact iff_of_true ⟨_, rfl⟩ (.inl herror)

/-- A connected socket with these bytes to send. -/
def pendingSocket (bl : Bufferlist) : Socket := { quietSocket with pendingBl := bl }

theorem ready_twoChunks : SendRun.twoChunks.cluster.Ready := by
  refine ⟨by decide, by decide, fun c hc => ?_⟩
  have hclean : ∀ c ∈ SendRun.twoChunks.cluster.freeChunks, c.offset = 0 ∧ c.bytes = 2 := by decide
  exact ⟨(hclean c hc).1, (hclean c hc).2⟩

/-- Three bytes for chunks of two, and a buffer in a chunk of its own. -/
theorem submitChecked_iff_mixed : ∃ out,
    (pendingSocket SendRun.mixed).submitChecked 0 0 SendRun.twoChunks .posted = .ok out :=
  (submitChecked_iff ready_twoChunks .posted).mpr (.inr (.inr (by decide)))

/-- Four bytes in an ordinary buffer. -/
def even : Bufferlist where
  buffers := [⟨[1, 2, 3, 4], none⟩]
  length_lt := by decide

/-- An empty buffer in front of one in a chunk of its own. -/
def hollow : Bufferlist where
  buffers := [⟨[], none⟩, ⟨[4, 5], some SendRun.filled⟩]
  length_lt := by decide

/-- Four bytes fill two chunks of two, and the chunk behind them is read; and `copy_it` stays on the
empty buffer. -/
theorem not_submitChecked_even :
    ((pendingSocket even).submitChecked 0 0 SendRun.twoChunks .posted = .error .outOfRange ∧
      ¬ ∃ out, (pendingSocket even).submitChecked 0 0 SendRun.twoChunks .posted = .ok out) ∧
    (pendingSocket hollow).submitChecked 0 0 SendRun.twoChunks .posted = .error .copyItBehind := by
  have heven : (pendingSocket even).submitChecked 0 0 SendRun.twoChunks .posted =
      .error .outOfRange := rfl
  refine ⟨⟨heven, ?_⟩, rfl⟩
  rintro ⟨out, hout⟩
  rw [heven] at hout
  cases hout

end HwAsync.Rdma
