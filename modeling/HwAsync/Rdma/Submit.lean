/-
# Sending on an RDMA socket

`submit` moves pending bytes into tx chunks and posts the chunks.  It walks the
buffers of `pending_bl`; a run of ordinary buffers is copied into chunks reserved
from the shared pool, a buffer that already lies in a tx chunk is posted as it
is.  The chunks are reserved, counted in `inflight` and taken off `pending_bl`
before the one step that can fail, `ibv_post_send`.

The 32-bit counters of `submit` count bytes of one `bufferlist`, whose length is
itself an `unsigned`, so they are plain numbers here; the product that
`get_reged_mem` compares is not, and keeps its wrap.
-/

import HwAsync.Infiniband.Cluster
import HwAsync.Lib.Pool
import HwAsync.Rdma.State

namespace HwAsync.Rdma

open HwAsync.Lib HwAsync.Infiniband

/-! ## The pending bytes -/

@[simp]
theorem contents_nil : contents [] = [] := rfl

@[simp]
theorem contents_cons (b : Buffer) (buffers : List Buffer) :
    contents (b :: buffers) = b.bytes ++ contents buffers := rfl

/-- The buffers behind the first `n` bytes. -/
def dropBytes : ℕ → List Buffer → List Buffer
  | 0, buffers => buffers
  | _ + 1, [] => []
  | n + 1, b :: rest =>
      if b.bytes.length ≤ n + 1 then dropBytes (n + 1 - b.bytes.length) rest
      else { b with bytes := b.bytes.drop (n + 1) } :: rest

theorem contents_dropBytes (n : ℕ) (buffers : List Buffer) :
    contents (dropBytes n buffers) = (contents buffers).drop n := by
  induction buffers generalizing n with
  | nil => cases n <;> simp [dropBytes]
  | cons b rest ih =>
      cases n with
      | zero => simp [dropBytes]
      | succ n =>
          simp only [dropBytes]
          split
          · have hnil : b.bytes.drop (n + 1) = [] := List.drop_eq_nil_of_le ‹_›
            rw [ih, contents_cons, List.drop_append, hnil, List.nil_append]
          · simp only [contents_cons]
            rw [List.drop_append_of_le_length (by omega)]

namespace Bufferlist

/-- `bufferlist::length`. -/
def length (bl : Bufferlist) : ℕ := (contents bl.buffers).length

/-- `splice` of everything behind the first `n` bytes into the list itself. -/
def drop (bl : Bufferlist) (n : ℕ) : Bufferlist where
  buffers := dropBytes n bl.buffers
  length_lt := by
    have h := bl.length_lt
    rw [contents_dropBytes, List.length_drop]
    omega

/-- What `submit` leaves of the list when `total` bytes are on their way. -/
def consume (bl : Bufferlist) (total : ℕ) : Bufferlist :=
  if total < bl.length then bl.drop total else clear

theorem contents_consume (bl : Bufferlist) (total : ℕ) :
    contents (bl.consume total).buffers = (contents bl.buffers).drop total := by
  unfold consume
  split
  · exact contents_dropBytes total bl.buffers
  · have hall : (contents bl.buffers).length ≤ total := by
      simpa [length] using ‹¬ total < bl.length›
    simp [clear, List.drop_eq_nil_of_le hall]

/-- `claim_append`, as long as the lengths still add up. -/
def append (bl more : Bufferlist) : Option Bufferlist :=
  if h : (contents (bl.buffers ++ more.buffers)).length < 2 ^ 32 then
    some ⟨bl.buffers ++ more.buffers, h⟩
  else none

end Bufferlist

/-! ## Reserving chunks -/

/-- What the sending side of all sockets shares: the tx cluster, the dispatcher's
`inflight` and `pending_workers`, and the `pending_sent_conns` of each worker. -/
structure TxSide where
  cluster : Cluster
  inflight : ℕ
  pendingWorkers : List ℕ
  pendingSentConns : ℕ → List ℕ

namespace TxSide

/-- `RDMADispatcher::make_pending_worker`. -/
def makePendingWorker (t : TxSide) (worker : ℕ) : TxSide :=
  if worker ∈ t.pendingWorkers then t
  else { t with pendingWorkers := t.pendingWorkers ++ [worker] }

/-- The worker at the front of `pending_workers`, which `notify_pending_workers`
wakes, and the list without it. -/
def notifyPendingWorkers (t : TxSide) : Option ℕ × TxSide :=
  match t.pendingWorkers with
  | [] => (none, t)
  | w :: rest => (some w, { t with pendingWorkers := rest })

/-- `RDMADispatcher::post_tx_buffer`: the worker woken, and the tx side. -/
def postTxBuffer (t : TxSide) (chunks : List Chunk) : Option ℕ × TxSide :=
  if chunks = [] then (none, t)
  else
    { t with
      inflight := (t.inflight + 2 ^ 64 - chunks.length) % 2 ^ 64
      cluster := t.cluster.takeBack chunks }.notifyPendingWorkers

end TxSide

/-- The chunks `get_reged_mem` reserved, the socket's `pending` flag and the tx
side afterwards. -/
structure Reged where
  chunks : List Chunk
  pending : Bool
  side : TxSide

/-- `RDMAWorker::get_reged_mem` for socket `o`. -/
def getRegedMem (worker o : ℕ) (pending : Bool) (t : TxSide) (bytes : ℕ) : Reged :=
  let r := t.cluster.getBuffers bytes
  let got := t.cluster.bufferSize * r.1.length % 2 ^ 32
  let t1 := { t with cluster := r.2, inflight := (t.inflight + r.1.length) % 2 ^ 64 }
  if bytes ≤ got then ⟨r.1, pending, t1⟩
  else
    let t2 :=
      if pending then t1
      else { t1 with
        pendingSentConns :=
          Function.update t1.pendingSentConns worker (t1.pendingSentConns worker ++ [o]) }
    ⟨r.1, true, t2.makePendingWorker worker⟩

namespace TxSide

/-- The critical section of `get_tx_buffers` and the count in `inflight`. -/
def reserve (t : TxSide) (bytes : ℕ) : List Chunk × TxSide :=
  let r := t.cluster.getBuffers bytes
  (r.1, { t with cluster := r.2, inflight := (t.inflight + r.1.length) % 2 ^ 64 })

/-- What `get_reged_mem` compares: the bytes of the chunks it got, computed in a
`uint32_t`, suffice. -/
def enough (t : TxSide) (chunks : List Chunk) (bytes : ℕ) : Prop :=
  bytes ≤ t.cluster.bufferSize * chunks.length % 2 ^ 32

instance (t : TxSide) (chunks : List Chunk) (bytes : ℕ) : Decidable (t.enough chunks bytes) :=
  inferInstanceAs (Decidable (_ ≤ _))

/-- The rest of `get_reged_mem` when they do not. -/
def enqueue (t : TxSide) (worker o : ℕ) (pending : Bool) : TxSide :=
  let t1 :=
    if pending then t
    else { t with
      pendingSentConns :=
        Function.update t.pendingSentConns worker (t.pendingSentConns worker ++ [o]) }
  t1.makePendingWorker worker

/-- The part of `post_tx_buffer` before `notify_pending_workers`. -/
def returnTx (t : TxSide) (chunks : List Chunk) : TxSide :=
  { t with
    inflight := (t.inflight + 2 ^ 64 - chunks.length) % 2 ^ 64
    cluster := t.cluster.takeBack chunks }

theorem postTxBuffer_eq (t : TxSide) (chunks : List Chunk) :
    t.postTxBuffer chunks =
      if chunks = [] then (none, t) else (t.returnTx chunks).notifyPendingWorkers := rfl

end TxSide

/-! ## Those that wait -/

@[simp]
theorem notifyPendingWorkers_cluster (side : TxSide) :
    side.notifyPendingWorkers.2.cluster = side.cluster := by
  unfold TxSide.notifyPendingWorkers
  split <;> rfl

@[simp]
theorem notifyPendingWorkers_inflight (side : TxSide) :
    side.notifyPendingWorkers.2.inflight = side.inflight := by
  unfold TxSide.notifyPendingWorkers
  split <;> rfl

@[simp]
theorem notifyPendingWorkers_pendingSentConns (side : TxSide) :
    side.notifyPendingWorkers.2.pendingSentConns = side.pendingSentConns := by
  unfold TxSide.notifyPendingWorkers
  split <;> rfl

/-- `make_pending_worker` enters the worker, and changes nothing else. -/
theorem makePendingWorker_eq (side : TxSide) (w : ℕ) :
    (side.makePendingWorker w).cluster = side.cluster ∧
      (side.makePendingWorker w).inflight = side.inflight ∧
      (side.makePendingWorker w).pendingSentConns = side.pendingSentConns ∧
      (∀ v, v ∈ (side.makePendingWorker w).pendingWorkers ↔
        v ∈ side.pendingWorkers ∨ v = w) := by
  unfold TxSide.makePendingWorker
  split
  · rename_i hmem
    refine ⟨rfl, rfl, rfl, fun v => ⟨.inl, ?_⟩⟩
    rintro (hv | rfl)
    · exact hv
    · exact hmem
  · exact ⟨rfl, rfl, rfl, by simp⟩

/-- The rest of `get_reged_mem` enters the worker and, unless it is there, the
socket. -/
theorem enqueue_eq (side : TxSide) (w o : ℕ) (pending : Bool) :
    (side.enqueue w o pending).cluster = side.cluster ∧
      (side.enqueue w o pending).inflight = side.inflight ∧
      (∀ v, v ∈ (side.enqueue w o pending).pendingWorkers ↔
        v ∈ side.pendingWorkers ∨ v = w) ∧
      (side.enqueue w o pending).pendingSentConns =
        if pending then side.pendingSentConns
        else Function.update side.pendingSentConns w (side.pendingSentConns w ++ [o]) := by
  unfold TxSide.enqueue
  split
  · obtain ⟨hcluster, hinflight, hconns, hworkers⟩ := makePendingWorker_eq side w
    exact ⟨hcluster, hinflight, hworkers, hconns⟩
  · obtain ⟨hcluster, hinflight, hconns, hworkers⟩ := makePendingWorker_eq
      { side with
        pendingSentConns := Function.update side.pendingSentConns w
          (side.pendingSentConns w ++ [o]) } w
    exact ⟨hcluster, hinflight, hworkers, hconns⟩

/-- `get_reged_mem` is two critical sections: the reservation, and the entry in the
lists of those that wait. -/
theorem getRegedMem_eq_reserve (worker o : ℕ) (pending : Bool) (t : TxSide) (bytes : ℕ) :
    getRegedMem worker o pending t bytes =
      if t.enough (t.reserve bytes).1 bytes then
        ⟨(t.reserve bytes).1, pending, (t.reserve bytes).2⟩
      else
        ⟨(t.reserve bytes).1, true, (t.reserve bytes).2.enqueue worker o pending⟩ := rfl

/-! ## Copying into chunks -/

/-- The position of `fill_tx_via_copy` in `tx_buffers`: the chunks before
`current_chunk`, the current one, and those behind it. -/
structure Cursor where
  copied : ℕ
  filled : List Chunk
  current : Chunk
  rest : List Chunk

/-- How the copying of a buffer ends: with the buffer, or with `tx_buffers`. -/
inductive Copy
  | room (cursor : Cursor)
  | exhausted (copied : ℕ) (chunks : List Chunk)

/-- The inner loop of `fill_tx_via_copy`; a write that leaves room in the chunk has
taken what was left of the buffer. -/
def copyBuffer (src : List UInt8) (copied : ℕ) (filled : List Chunk) (current : Chunk)
    (rest : List Chunk) : Copy :=
  if src = [] then .room ⟨copied, filled, current, rest⟩
  else
    let w := current.write src
    if w.2.isFull then
      match rest with
      | [] => .exhausted (copied + w.1) (filled ++ [w.2])
      | next :: rest =>
          copyBuffer (src.drop w.1) (copied + w.1) (filled ++ [w.2]) next rest
    else .room ⟨copied + w.1, filled, w.2, rest⟩

/-- What `fill_tx_via_copy` leaves: the bytes copied, its chunks, the buffers its
`start` still points to, and whether it came to `end`. -/
structure Filled where
  copied : ℕ
  chunks : List Chunk
  start : List Buffer
  ended : Bool

/-- The outer loop of `fill_tx_via_copy`; `start` stays on the buffer that used up
the last chunk. -/
def copyBuffers : List Buffer → Cursor → Filled
  | [], c => ⟨c.copied, c.filled ++ c.current :: c.rest, [], true⟩
  | b :: rest, c =>
      match copyBuffer b.bytes c.copied c.filled c.current c.rest with
      | .room c' => copyBuffers rest c'
      | .exhausted copied chunks => ⟨copied, chunks, b :: rest, false⟩

/-- The variables of `submit`: `tx_buffers`, `total`, `need_reserve_bytes` and the
buffers between `copy_it` and `it`, with the socket's `pending` flag and the tx
side. -/
structure Walk where
  txBuffers : List Chunk
  total : ℕ
  needReserveBytes : ℕ
  uncopied : List Buffer
  pending : Bool
  side : TxSide

/-- `fill_tx_via_copy`: the bytes it returns and the variables it leaves; `none`
where one of its assertions fails. -/
def fillTxViaCopy (worker o : ℕ) (v : Walk) : Option (ℕ × Walk) :=
  if v.uncopied = [] then none
  else
    let g := getRegedMem worker o v.pending v.side v.needReserveBytes
    match g.chunks with
    | [] => some (0, { v with pending := g.pending, side := g.side })
    | c :: rest =>
        let f := copyBuffers v.uncopied ⟨0, [], c, rest⟩
        if f.ended && f.copied != v.needReserveBytes then none
        else
          some (f.copied, { v with
            txBuffers := v.txBuffers ++ f.chunks
            uncopied := f.start
            pending := g.pending
            side := g.side })

/-- The loop of `submit` from `it` on, to the label `sending`. -/
def submitLoop (worker o : ℕ) : List Buffer → Walk → Option Walk
  | [], v =>
      if v.needReserveBytes = 0 then some v
      else
        match fillTxViaCopy worker o v with
        | none => none
        | some (copied, v1) => some { v1 with total := v1.total + copied }
  | b :: rest, v =>
      match b.txChunk with
      | none =>
          submitLoop worker o rest { v with
            needReserveBytes := v.needReserveBytes + b.bytes.length
            uncopied := v.uncopied ++ [b] }
      | some chunk =>
          if v.needReserveBytes = 0 then
            if v.uncopied = [] then
              submitLoop worker o rest { v with
                txBuffers := v.txBuffers ++ [chunk], total := v.total + b.bytes.length }
            else none
          else
            match fillTxViaCopy worker o v with
            | none => none
            | some (copied, v1) =>
                if copied < v1.needReserveBytes then
                  some { v1 with total := v1.total + copied }
                else if v1.uncopied = [] then
                  submitLoop worker o rest { v1 with
                    txBuffers := v1.txBuffers ++ [chunk]
                    total := v1.total + copied + b.bytes.length
                    needReserveBytes := 0 }
                else none

/-! ## Posting -/

/-- What `ibv_post_send` answers; when it fails it has posted nothing. -/
inductive PostResult
  | posted
  | failed (errno : ℕ)
  deriving DecidableEq

/-- `post_work_request`: the returned value and the chunks now on the send queue. -/
def postWorkRequest (txBuffers : List Chunk) : PostResult → ℤ × List Chunk
  | .posted => (0, txBuffers)
  | .failed errno => (-errno, [])

/-- What `submit` or `send` returns and leaves. -/
structure SendOutcome where
  ret : ℤ
  socket : Socket
  side : TxSide
  posted : List Chunk

namespace Socket

/-- `submit` from the label `sending` on. -/
def sending (s : Socket) (v : Walk) (post : PostResult) : Option SendOutcome :=
  let s1 := { s with pending := v.pending }
  if v.total = 0 then some ⟨-eagain, s1, v.side, []⟩
  else if s1.pendingBl.length < v.total then none
  else
    let s2 := { s1 with pendingBl := s1.pendingBl.consume v.total }
    let r := postWorkRequest v.txBuffers post
    let ret :=
      if r.1 < 0 then r.1 else if s2.pendingBl.length ≠ 0 then -eagain else 0
    some ⟨ret, s2, v.side, r.2⟩

/-- `submit` of socket `o`; `none` where an assertion fails. -/
def submit (worker o : ℕ) (s : Socket) (t : TxSide) (post : PostResult) :
    Option SendOutcome :=
  if s.error ≠ 0 then some ⟨-s.error, s, t, []⟩
  else if s.pendingBl.length = 0 then some ⟨0, s, t, []⟩
  else
    match submitLoop worker o s.pendingBl.buffers ⟨[], 0, 0, [], s.pending, t⟩ with
    | none => none
    | some v => s.sending v post

/-- `send`. -/
def send (worker o : ℕ) (s : Socket) (t : TxSide) (bl : Bufferlist) (post : PostResult) :
    Option SendOutcome :=
  if s.error ≠ 0 then some ⟨if s.active then -s.error else -epipe, s, t, []⟩
  else if bl.length = 0 then some ⟨0, s, t, []⟩
  else
    match s.pendingBl.append bl with
    | none => none
    | some pendingBl =>
        let s1 := { s with pendingBl := pendingBl }
        if !s.connected then some ⟨bl.length, s1, t, []⟩
        else
          match s1.submit worker o t post with
          | none => none
          | some out =>
              some { out with
                ret := if out.ret < 0 ∧ out.ret ≠ -eagain then out.ret else bl.length }

end Socket

/-- A send completion: the work request it is for, its status, and the queue pair
it names. -/
inductive TxWr
  | chunk (c : Chunk)
  | fin (localQpn : ℕ)
  deriving DecidableEq

structure TxCompletion where
  wr : TxWr
  success : Bool
  qpNum : ℕ
  deriving DecidableEq

/-- The chunks that a batch of send completions gives back. -/
def completedChunks (cqe : List TxCompletion) : List Chunk :=
  cqe.filterMap fun response =>
    match response.wr with
    | .chunk c => some c
    | .fin _ => none

/-- The sockets that `handle_tx_event` faults: those that `get_conn_lockless` finds,
connected, under the number of a completion that failed. -/
def faultedConns (conn : ℕ → Option ℕ) (isConnected : ℕ → Bool) (cqe : List TxCompletion) :
    List ℕ :=
  cqe.filterMap fun response =>
    if response.success then none else (conn response.qpNum).filter isConnected

/-- `handle_tx_event`: the tx side afterwards.  A disconnect message must name the
queue pair it was sent on; `none` is the abort. -/
def handleTxEvent (t : TxSide) (cqe : List TxCompletion) : Option (Option ℕ × TxSide) :=
  if cqe.all fun response =>
      match response.wr with
      | .chunk _ => true
      | .fin localQpn => localQpn == response.qpNum then
    some (t.postTxBuffer (completedChunks cqe))
  else none

/-! ## What the copying keeps -/

/-- The bytes that a list of posted chunks sends. -/
def sentAll (chunks : List Chunk) : List UInt8 := chunks.flatMap Chunk.sent

@[simp]
theorem sentAll_nil : sentAll [] = [] := rfl

@[simp]
theorem sentAll_cons (c : Chunk) (chunks : List Chunk) :
    sentAll (c :: chunks) = c.sent ++ sentAll chunks := rfl

@[simp]
theorem sentAll_append (chunks more : List Chunk) :
    sentAll (chunks ++ more) = sentAll chunks ++ sentAll more :=
  List.flatMap_append

/-- Chunks of one size that have not been written. -/
def Unwritten (size : ℕ) (chunks : List Chunk) : Prop :=
  ∀ c ∈ chunks, c.offset = 0 ∧ c.bytes = size

theorem Unwritten.sentAll_eq {size : ℕ} {chunks : List Chunk}
    (hchunks : Unwritten size chunks) : sentAll chunks = [] := by
  simp only [sentAll, List.flatMap_eq_nil_iff, Chunk.sent]
  intro c hc
  simp [(hchunks c hc).1]

/-- The chunks of a cursor, in the order of `tx_buffers`. -/
def Cursor.chunks (c : Cursor) : List Chunk := c.filled ++ c.current :: c.rest

/-- A cursor that has written `out` into the chunks with the addresses `own`: the
current chunk has room, and those behind it are untouched. -/
structure Cursor.Wrote (size : ℕ) (own : Multiset ℕ) (out : List UInt8) (c : Cursor) :
    Prop where
  copied_eq : c.copied = out.length
  addrs_eq : addrs c.chunks = own
  sent_eq : sentAll c.chunks = out
  size_eq : ∀ d ∈ c.chunks, d.bytes = size
  current_room : c.current.offset < size
  rest_unwritten : Unwritten size c.rest

variable {size : ℕ} {own : Multiset ℕ}

/-- One write into the current chunk. -/
theorem Cursor.Wrote.write {c : Cursor} {out src : List UInt8} (hlt : size < 2 ^ 32)
    (hc : c.Wrote size own out) (hne : src ≠ []) :
    0 < (c.current.write src).1 ∧ (c.current.write src).1 ≤ src.length ∧
      addrs (c.filled ++ (c.current.write src).2 :: c.rest) = own ∧
      sentAll (c.filled ++ (c.current.write src).2 :: c.rest) =
        out ++ src.take (c.current.write src).1 ∧
      (∀ d ∈ c.filled ++ (c.current.write src).2 :: c.rest, d.bytes = size) ∧
      ((c.current.write src).2.isFull = false →
        (c.current.write src).1 = src.length ∧ (c.current.write src).2.offset < size) := by
  have hbytes : c.current.bytes = size := hc.size_eq _ (by simp [Cursor.chunks])
  have hroom := hc.current_room
  have hwritable : c.current.Writable := ⟨by omega, by omega⟩
  have hpos : 0 < src.length := List.length_pos_iff.mpr hne
  have hrest := hc.rest_unwritten.sentAll_eq
  obtain ⟨hwritable', haddr, hbytes', hcount, hoffset, hsent⟩ :=
    Chunk.write_spec hwritable src
  refine ⟨by omega, by omega, ?_, ?_, ?_, fun hroom' => ?_⟩
  · simpa [Cursor.chunks, haddr] using hc.addrs_eq
  · have h := hc.sent_eq
    simp only [Cursor.chunks, sentAll_append, sentAll_cons, hrest, List.append_nil] at h ⊢
    rw [hsent, ← List.append_assoc, h]
  · intro d hd
    simp only [List.mem_append, List.mem_cons] at hd
    rcases hd with hd | rfl | hd
    · exact hc.size_eq d (by simp [Cursor.chunks, hd])
    · rw [hbytes', hbytes]
    · exact hc.size_eq d (by simp [Cursor.chunks, hd])
  · have hfull := Chunk.isFull_iff (c.current.write src).2
    rw [hroom'] at hfull
    have hle := hwritable'.offset_le
    have hne' : (c.current.write src).2.offset ≠ (c.current.write src).2.bytes :=
      fun h => Bool.false_ne_true (hfull.mpr h)
    exact ⟨Chunk.write_eq_length hwritable hroom', by omega⟩

/-- A buffer that leaves room in the current chunk is written whole. -/
theorem copyBuffer_room (hlt : size < 2 ^ 32) {src out : List UInt8} {c : Cursor}
    (hc : c.Wrote size own out) (hroom : src = [] ∨ (c.current.write src).2.isFull = false) :
    ∃ c', copyBuffer src c.copied c.filled c.current c.rest = .room c' ∧
      c'.Wrote size own (out ++ src) := by
  by_cases hne : src = []
  · refine ⟨c, ?_, by simpa [hne] using hc⟩
    rw [copyBuffer.eq_def, if_pos hne]
  · have hfull := hroom.resolve_left hne
    obtain ⟨-, -, haddrs, hsent, hsizes, hall⟩ := hc.write hlt hne
    obtain ⟨hcount, hoffset⟩ := hall hfull
    rw [hcount, List.take_length] at hsent
    refine ⟨⟨c.copied + (c.current.write src).1, c.filled, (c.current.write src).2, c.rest⟩,
      ?_, ?_, haddrs, hsent, hsizes, hoffset, hc.rest_unwritten⟩
    · rw [copyBuffer.eq_def, if_neg hne]
      simp [hfull]
    · simp [hc.copied_eq, hcount]

/-- The copying of one buffer writes the buffer, or as much of it as there is
room for, one byte at least. -/
theorem copyBuffer_spec (hsize : 0 < size) (hlt : size < 2 ^ 32) (rest : List Chunk)
    {src out : List UInt8} {copied : ℕ} {filled : List Chunk} {current : Chunk}
    (hc : (Cursor.mk copied filled current rest).Wrote size own out) :
    (∃ c', copyBuffer src copied filled current rest = .room c' ∧
      c'.Wrote size own (out ++ src)) ∨
    ∃ k chunks, copyBuffer src copied filled current rest =
        .exhausted (out.length + k) chunks ∧
      0 < k ∧ k ≤ src.length ∧ addrs chunks = own ∧ sentAll chunks = out ++ src.take k ∧
      ∀ d ∈ chunks, d.bytes = size := by
  induction rest generalizing src out copied filled current with
  | nil =>
      by_cases hroom : src = [] ∨ (current.write src).2.isFull = false
      · exact .inl (copyBuffer_room hlt hc hroom)
      · obtain ⟨hne, hfull⟩ := not_or.mp hroom
        obtain ⟨hpos, hle, haddrs, hsent, hsizes, -⟩ := hc.write hlt hne
        refine .inr ⟨(current.write src).1, filled ++ [(current.write src).2], ?_, hpos, hle,
          haddrs, hsent, hsizes⟩
        rw [copyBuffer, if_neg hne, ← hc.copied_eq]
        simp [hfull]
  | cons next rest ih =>
      by_cases hroom : src = [] ∨ (current.write src).2.isFull = false
      · exact .inl (copyBuffer_room hlt hc hroom)
      · obtain ⟨hne, hfull⟩ := not_or.mp hroom
        obtain ⟨hpos, hle, haddrs, hsent, hsizes, -⟩ := hc.write hlt hne
        have hnext := hc.rest_unwritten next (by simp)
        have hwrote : (Cursor.mk (copied + (current.write src).1)
            (filled ++ [(current.write src).2]) next rest).Wrote size own
            (out ++ src.take (current.write src).1) :=
          ⟨by rw [List.length_append, List.length_take, Nat.min_eq_left hle, ← hc.copied_eq],
            by simpa [Cursor.chunks] using haddrs, by simpa [Cursor.chunks] using hsent,
            by simpa [Cursor.chunks] using hsizes,
            by simpa [hnext.1] using hsize, fun d hd => hc.rest_unwritten d (by simp [hd])⟩
        have hstep : copyBuffer src copied filled current (next :: rest) =
            copyBuffer (src.drop (current.write src).1) (copied + (current.write src).1)
              (filled ++ [(current.write src).2]) next rest := by
          rw [copyBuffer, if_neg hne]
          simp [hfull]
        rw [hstep]
        rcases @ih (src.drop (current.write src).1) _ _ _ _ hwrote with
          ⟨c', hcopy, hc'⟩ | ⟨k, chunks, hcopy, hk, hkle, haddrs', hsent', hsizes'⟩
        · refine .inl ⟨c', hcopy, ?_⟩
          rwa [List.append_assoc, List.take_append_drop] at hc'
        · rw [List.length_drop] at hkle
          refine .inr ⟨(current.write src).1 + k, chunks, ?_, by omega, ?_, haddrs', ?_,
            hsizes'⟩
          · rw [hcopy, List.length_append, List.length_take, Nat.min_eq_left hle, Nat.add_assoc]
          · change 0 < (current.write src).1 at hpos
            change (current.write src).1 ≤ src.length at hle
            omega
          · rw [hsent', List.append_assoc, List.take_add]

/-- What copying a run of buffers writes: a prefix of their bytes, all of them when
it comes to the end. -/
theorem copyBuffers_spec (hsize : 0 < size) (hlt : size < 2 ^ 32) (buffers : List Buffer)
    {out : List UInt8} {c : Cursor} (hc : c.Wrote size own out) :
    ∃ k, k ≤ (contents buffers).length ∧ (copyBuffers buffers c).copied = out.length + k ∧
      addrs (copyBuffers buffers c).chunks = own ∧
      sentAll (copyBuffers buffers c).chunks = out ++ (contents buffers).take k ∧
      (∀ d ∈ (copyBuffers buffers c).chunks, d.bytes = size) ∧
      ((copyBuffers buffers c).ended = true → k = (contents buffers).length) ∧
      (contents buffers ≠ [] → 0 < k) := by
  induction buffers generalizing c out with
  | nil =>
      refine ⟨0, Nat.le_refl _, hc.copied_eq, hc.addrs_eq, ?_, hc.size_eq, fun _ => rfl,
        fun h => absurd rfl h⟩
      rw [contents_nil, List.take_nil, List.append_nil]
      exact hc.sent_eq
  | cons b rest ih =>
      rcases @copyBuffer_spec size own hsize hlt c.rest b.bytes out c.copied c.filled c.current hc
        with ⟨c', hcopy, hc'⟩ | ⟨k, chunks, hcopy, hk, hkle, haddrs, hsent, hsizes⟩
      · obtain ⟨k, hkle, hcopied, haddrs, hsent, hsizes, hended, hpos⟩ := ih hc'
        simp only [copyBuffers, hcopy, contents_cons, List.length_append]
        refine ⟨b.bytes.length + k, by omega, ?_, haddrs, ?_, hsizes, ?_, fun hne => ?_⟩
        · rw [hcopied, List.length_append, Nat.add_assoc]
        · rw [hsent, List.append_assoc, List.take_length_add_append]
        · intro h
          rw [hended h]
        · by_cases hrest : contents rest = []
          · have hb : 0 < b.bytes.length := List.length_pos_iff.mpr (by simpa [hrest] using hne)
            omega
          · have h := hpos hrest
            omega
      · simp only [copyBuffers, hcopy, contents_cons, List.length_append]
        refine ⟨k, by omega, rfl, haddrs, ?_, hsizes, by simp, fun _ => hk⟩
        rw [hsent, List.take_append_of_le_length hkle]

/-! ## What `submit` keeps -/

section Reserve

variable {worker o : ℕ} {t : TxSide}

theorem getRegedMem_eq (pending : Bool) (bytes : ℕ) :
    (getRegedMem worker o pending t bytes).chunks = (t.cluster.getBuffers bytes).1 ∧
      (getRegedMem worker o pending t bytes).side.cluster = (t.cluster.getBuffers bytes).2 ∧
      (getRegedMem worker o pending t bytes).side.inflight =
        (t.inflight + (t.cluster.getBuffers bytes).1.length) % 2 ^ 64 := by
  unfold getRegedMem TxSide.makePendingWorker
  dsimp only
  split_ifs <;> exact ⟨rfl, rfl, rfl⟩

/-- Between two states of the tx side, `chunks` were taken from the free ones and
counted in `inflight`. -/
structure Reserved (t t' : TxSide) (chunks : List Chunk) : Prop where
  addrs_eq : addrs chunks + addrs t'.cluster.freeChunks = addrs t.cluster.freeChunks
  inflight_eq : t'.inflight = (t.inflight + chunks.length) % 2 ^ 64
  size_eq : ∀ d ∈ chunks, d.bytes = t.cluster.bufferSize
  ready : t'.cluster.Ready
  bufferSize_eq : t'.cluster.bufferSize = t.cluster.bufferSize

/-- `fill_tx_via_copy` on the ordinary buffers it was called for: no assertion
fails, and the chunks it reserved hold a prefix of their bytes. -/
theorem fillTxViaCopy_spec {v : Walk} (hready : v.side.cluster.Ready)
    (hneed : v.needReserveBytes = (contents v.uncopied).length) (hpos : 0 < v.needReserveBytes) :
    ∃ copied v' chunks, fillTxViaCopy worker o v = some (copied, v') ∧
      Reserved v.side v'.side chunks ∧ v'.txBuffers = v.txBuffers ++ chunks ∧
      v'.total = v.total ∧ v'.needReserveBytes = v.needReserveBytes ∧
      copied ≤ v.needReserveBytes ∧ (0 < copied ↔ chunks ≠ []) ∧
      sentAll chunks = (contents v.uncopied).take copied := by
  have hne : contents v.uncopied ≠ [] := List.ne_nil_of_length_pos (by omega)
  have huncopied : v.uncopied ≠ [] := fun h => hne (by simp [h])
  have haddrs := @Cluster.addrs_getBuffers v.side.cluster v.needReserveBytes
  have hsize := @Cluster.getBuffers_bufferSize v.side.cluster v.needReserveBytes
  obtain ⟨hclean, hready'⟩ := @Cluster.Ready.getBuffers v.side.cluster v.needReserveBytes hready
  obtain ⟨hchunks, hcluster, hinflight⟩ :=
    @getRegedMem_eq worker o v.side v.pending v.needReserveBytes
  unfold fillTxViaCopy
  rw [if_neg huncopied]
  dsimp only
  generalize getRegedMem worker o v.pending v.side v.needReserveBytes = g at *
  rw [← hcluster] at haddrs hready' hsize
  rw [← hchunks] at haddrs hinflight hclean
  cases hgot : g.chunks with
  | nil =>
      rw [hgot] at haddrs hinflight
      exact ⟨0, { v with pending := g.pending, side := g.side }, [], rfl,
        ⟨haddrs, hinflight, by simp, hready', hsize⟩, by simp, rfl, rfl, Nat.zero_le _, by simp,
        by simp⟩
  | cons c rest =>
      dsimp only
      rw [hgot] at haddrs hinflight hclean
      -- nothing is written yet, and the first chunk has room
      have hstart : (Cursor.mk 0 [] c rest).Wrote v.side.cluster.bufferSize (addrs (c :: rest))
          [] := by
        have hunwritten : Unwritten v.side.cluster.bufferSize (c :: rest) :=
          fun d hd => ⟨(hclean d hd).offset, (hclean d hd).bytes⟩
        refine ⟨rfl, rfl, hunwritten.sentAll_eq, fun d hd => (hclean d hd).bytes, ?_,
          fun d hd => hunwritten d (by simp [hd])⟩
        rw [(hclean c (by simp)).offset]
        exact hready.bufferSize_pos
      obtain ⟨k, hk, hcopied, haddrs', hsent, hsizes, hended, hkpos⟩ :=
        copyBuffers_spec hready.bufferSize_pos hready.bufferSize_lt v.uncopied hstart
      rw [List.length_nil, Nat.zero_add] at hcopied
      generalize copyBuffers v.uncopied ⟨0, [], c, rest⟩ = f at *
      have hassert : (f.ended && f.copied != v.needReserveBytes) = false := by
        cases hend : f.ended with
        | false => rfl
        | true => simp [hcopied, hended hend, hneed]
      have hlength : f.chunks.length = (c :: rest).length := by
        rw [← card_addrs, haddrs', card_addrs]
      have hnonempty : f.chunks ≠ [] := List.ne_nil_of_length_pos (by simp [hlength])
      rw [hassert, if_neg Bool.false_ne_true]
      refine ⟨f.copied, { v with
          txBuffers := v.txBuffers ++ f.chunks
          uncopied := f.start
          pending := g.pending
          side := g.side }, f.chunks, rfl,
        ⟨by rw [haddrs', haddrs], by rw [hlength, hinflight], hsizes, hready', hsize⟩, rfl, rfl,
        rfl, by omega, ⟨fun _ => hnonempty, fun _ => ?_⟩, ?_⟩
      · rw [hcopied]
        exact hkpos hne
      · rw [hsent, hcopied]
        rfl

/-- Nothing was reserved. -/
theorem Reserved.refl (hready : t.cluster.Ready) (hinflight : t.inflight < 2 ^ 64) :
    Reserved t t [] where
  addrs_eq := by simp
  inflight_eq := (Nat.mod_eq_of_lt hinflight).symm
  size_eq := by simp
  ready := hready
  bufferSize_eq := rfl

/-- Buffers that do not lie in tx chunks. -/
def Ordinary (buffers : List Buffer) : Prop := ∀ b ∈ buffers, b.txChunk = none

theorem Ordinary.dropBytes {buffers : List Buffer} (hbuffers : Ordinary buffers) (n : ℕ) :
    Ordinary (dropBytes n buffers) := by
  induction buffers generalizing n with
  | nil => cases n <;> simpa [HwAsync.Rdma.dropBytes] using hbuffers
  | cons b rest ih =>
      have hrest : Ordinary rest := fun c hc => hbuffers c (by simp [hc])
      cases n with
      | zero => simpa [HwAsync.Rdma.dropBytes] using hbuffers
      | succ n =>
          simp only [HwAsync.Rdma.dropBytes]
          split
          · exact ih hrest _
          · intro c hc
            rcases List.mem_cons.mp hc with rfl | hc
            · exact hbuffers b (by simp)
            · exact hrest c hc

theorem Ordinary.consume {bl : Bufferlist} (hbl : Ordinary bl.buffers) (total : ℕ) :
    Ordinary (bl.consume total).buffers := by
  unfold Bufferlist.consume
  split
  · exact hbl.dropBytes total
  · simp [Ordinary, Bufferlist.clear]

/-- Over ordinary buffers the loop only counts. -/
theorem submitLoop_ordinary {buffers : List Buffer} (hbuffers : Ordinary buffers) (v : Walk) :
    submitLoop worker o buffers v = submitLoop worker o [] { v with
      needReserveBytes := v.needReserveBytes + (contents buffers).length
      uncopied := v.uncopied ++ buffers } := by
  induction buffers generalizing v with
  | nil => simp
  | cons b rest ih =>
      have hstep : submitLoop worker o (b :: rest) v = submitLoop worker o rest { v with
          needReserveBytes := v.needReserveBytes + b.bytes.length
          uncopied := v.uncopied ++ [b] } := by
        rw [submitLoop.eq_def]
        simp only [hbuffers b (by simp)]
      rw [hstep, ih fun c hc => hbuffers c (by simp [hc])]
      simp [Nat.add_assoc]

/-- The end of `submit`, for chunks that hold the first `total` pending bytes. -/
theorem sending_spec {s : Socket} {v : Walk} (hordinary : Ordinary s.pendingBl.buffers)
    (htotal : v.total ≤ s.pendingBl.length) (hempty : v.total = 0 → v.txBuffers = [])
    (hsent : sentAll v.txBuffers = (contents s.pendingBl.buffers).take v.total)
    (post : PostResult) :
    ∃ out, s.sending v post = some out ∧ out.side = v.side ∧
      Ordinary out.socket.pendingBl.buffers ∧
      sentAll v.txBuffers ++ contents out.socket.pendingBl.buffers =
        contents s.pendingBl.buffers ∧
      out.posted = (postWorkRequest v.txBuffers post).2 := by
  by_cases hzero : v.total = 0
  · refine ⟨⟨-eagain, { s with pending := v.pending }, v.side, []⟩, ?_, rfl, hordinary, ?_, ?_⟩
    · simp [Socket.sending, hzero]
    · simp [hempty hzero]
    · rw [hempty hzero]
      cases post <;> rfl
  · simp only [Socket.sending, hzero, if_false, Nat.not_lt.mpr htotal]
    refine ⟨_, rfl, rfl, hordinary.consume v.total, ?_, rfl⟩
    rw [hsent, Bufferlist.contents_consume, List.take_append_drop]

/-- **`submit` on ordinary pending data.**  No assertion fails.  Some chunks are
reserved; their bytes followed by the new `pending_bl` are the old one; and they
are posted unless `ibv_post_send` fails. -/
theorem submit_spec {s : Socket} (hready : t.cluster.Ready) (hinflight : t.inflight < 2 ^ 64)
    (hordinary : Ordinary s.pendingBl.buffers) (post : PostResult) :
    ∃ out chunks, s.submit worker o t post = some out ∧ Reserved t out.side chunks ∧
      Ordinary out.socket.pendingBl.buffers ∧
      sentAll chunks ++ contents out.socket.pendingBl.buffers =
        contents s.pendingBl.buffers ∧
      out.posted = (postWorkRequest chunks post).2 := by
  have hidle : (postWorkRequest [] post).2 = [] := by cases post <;> rfl
  unfold Socket.submit
  by_cases herror : s.error ≠ 0
  · rw [if_pos herror]
    exact ⟨_, [], rfl, .refl hready hinflight, hordinary, by simp, hidle.symm⟩
  · rw [if_neg herror]
    by_cases hlength : s.pendingBl.length = 0
    · rw [if_pos hlength]
      exact ⟨_, [], rfl, .refl hready hinflight, hordinary, by simp, hidle.symm⟩
    · rw [if_neg hlength]
      have hpos : 0 < (contents s.pendingBl.buffers).length := Nat.pos_of_ne_zero hlength
      obtain ⟨copied, v, chunks, hfill, hreserved, htx, htotal, -, hle, hcopied, hsent⟩ :=
        @fillTxViaCopy_spec worker o
          ⟨[], 0, (contents s.pendingBl.buffers).length, s.pendingBl.buffers, s.pending, t⟩
          hready rfl hpos
      have hloop : submitLoop worker o s.pendingBl.buffers ⟨[], 0, 0, [], s.pending, t⟩ =
          some { v with total := copied } := by
        rw [submitLoop_ordinary hordinary, submitLoop]
        simp [hpos.ne', hfill, htotal]
      rw [List.nil_append] at htx
      have hempty : copied = 0 → v.txBuffers = [] := by
        intro hzero
        by_contra hne
        have h := hcopied.mpr (htx ▸ hne)
        omega
      obtain ⟨out, hout, hside, hordinary', hcontents, hposted⟩ :=
        @sending_spec s { v with total := copied } hordinary hle hempty
          (by rw [htx]; exact hsent) post
      rw [hloop]
      exact ⟨out, chunks, hout, hside ▸ hreserved, hordinary', htx ▸ hcontents,
        htx ▸ hposted⟩

/-- What `post_tx_buffer` gives back. -/
theorem postTxBuffer_spec (hinflight : t.inflight < 2 ^ 64) {chunks : List Chunk}
    (hle : chunks.length ≤ t.inflight) :
    (t.postTxBuffer chunks).2.cluster = t.cluster.takeBack chunks ∧
      (t.postTxBuffer chunks).2.inflight = t.inflight - chunks.length := by
  unfold TxSide.postTxBuffer TxSide.notifyPendingWorkers
  split
  · rename_i hnil
    simp [hnil, Cluster.takeBack]
  · have hmod : (t.inflight + 2 ^ 64 - chunks.length) % 2 ^ 64 =
        t.inflight - chunks.length := by omega
    rw [hmod]
    dsimp only
    split <;> exact ⟨rfl, rfl⟩

end Reserve

/-! ## What sending leaves alone -/

section Frame

variable {worker o : ℕ} {s : Socket} {t : TxSide} {post : PostResult} {out : SendOutcome}

theorem sending_socket {v : Walk} (hsending : s.sending v post = some out) :
    ∃ pending pendingBl,
      out.socket = { s with pending := pending, pendingBl := pendingBl } := by
  unfold Socket.sending at hsending
  dsimp only at hsending
  split at hsending
  · obtain rfl := Option.some.inj hsending
    exact ⟨v.pending, s.pendingBl, rfl⟩
  · split at hsending
    · cases hsending
    · obtain rfl := Option.some.inj hsending
      exact ⟨v.pending, _, rfl⟩

/-- `submit` touches only `pending` and `pending_bl` of its socket. -/
theorem submit_socket (hsubmit : s.submit worker o t post = some out) :
    ∃ pending pendingBl,
      out.socket = { s with pending := pending, pendingBl := pendingBl } := by
  unfold Socket.submit at hsubmit
  split at hsubmit
  · obtain rfl := Option.some.inj hsubmit
    exact ⟨s.pending, s.pendingBl, rfl⟩
  · split at hsubmit
    · obtain rfl := Option.some.inj hsubmit
      exact ⟨s.pending, s.pendingBl, rfl⟩
    · split at hsubmit
      · cases hsubmit
      · exact sending_socket hsubmit

/-- `send` touches only `pending` and `pending_bl` too, and posts nothing before the
socket is connected. -/
theorem send_socket {bl : Bufferlist} (hsend : s.send worker o t bl post = some out) :
    (∃ pending pendingBl,
      out.socket = { s with pending := pending, pendingBl := pendingBl }) ∧
      (out.posted ≠ [] → s.connected = true) := by
  unfold Socket.send at hsend
  split at hsend
  · obtain rfl := Option.some.inj hsend
    exact ⟨⟨s.pending, s.pendingBl, rfl⟩, fun h => absurd rfl h⟩
  · split at hsend
    · obtain rfl := Option.some.inj hsend
      exact ⟨⟨s.pending, s.pendingBl, rfl⟩, fun h => absurd rfl h⟩
    · split at hsend
      · cases hsend
      · rename_i pendingBl _
        dsimp only at hsend
        cases hconnected : s.connected with
        | false =>
            simp only [hconnected, Bool.not_false, if_true, Option.some.injEq] at hsend
            subst hsend
            exact ⟨⟨s.pending, pendingBl, by rw [← hconnected]⟩, fun h => absurd rfl h⟩
        | true =>
            simp only [hconnected, Bool.not_true, Bool.false_eq_true, if_false] at hsend
            split at hsend
            · cases hsend
            · rename_i out' hsubmit
              obtain rfl := Option.some.inj hsend
              obtain ⟨pending, pendingBl', hsocket⟩ := submit_socket hsubmit
              exact ⟨⟨pending, pendingBl', by rw [hsocket, ← hconnected]⟩, fun _ => rfl⟩

/-- What `ibv_post_send` answers changes only what `submit` returns. -/
theorem sending_of_posted {v : Walk} (hsending : s.sending v .posted = some out)
    (post : PostResult) :
    ∃ ret posted, s.sending v post = some ⟨ret, out.socket, out.side, posted⟩ := by
  unfold Socket.sending at hsending ⊢
  dsimp only at hsending ⊢
  split at hsending
  · rename_i htotal
    cases hsending
    rw [if_pos htotal]
    exact ⟨_, _, rfl⟩
  · rename_i htotal
    rw [if_neg htotal]
    split at hsending
    · cases hsending
    · rename_i hle
      cases hsending
      rw [if_neg hle]
      exact ⟨_, _, rfl⟩

theorem submit_of_posted (hsubmit : s.submit worker o t .posted = some out) (post : PostResult) :
    ∃ ret posted, s.submit worker o t post = some ⟨ret, out.socket, out.side, posted⟩ := by
  unfold Socket.submit at hsubmit ⊢
  split at hsubmit
  · rename_i herror
    cases hsubmit
    rw [if_pos herror]
    exact ⟨_, _, rfl⟩
  · rename_i herror
    rw [if_neg herror]
    split at hsubmit
    · rename_i hnone
      cases hsubmit
      rw [if_pos hnone]
      exact ⟨_, _, rfl⟩
    · rename_i hpos
      rw [if_neg hpos]
      split at hsubmit
      · cases hsubmit
      · exact sending_of_posted hsubmit post

end Frame

end HwAsync.Rdma
