/-
# Reading without a copy

`zero_copy_read` hands up a region of chunk memory where `read` copies bytes out.
Both serve the same `buffers` and the same queue of completions, but `read` takes
the oldest chunk and `zero_copy_read` the newest one; the chunk behind a region
moves to `res_mem`; and a remote close is noted in the thread's `errno`, not in
`error`.

The first part says what one call returns and moves.  The second compares the two
calls on a batch that closes the connection.
-/

import HwAsync.Rdma.Read

namespace HwAsync.Rdma

open HwAsync.Lib HwAsync.Infiniband

/-- A region of a chunk's memory, as `claim_char` wraps it; chunk and start are
its key in `res_mem`. -/
structure Region where
  chunk : Chunk
  start : ℕ
  size : ℕ
  deriving DecidableEq

namespace Region

/-- The bytes a region shows. -/
def bytes (g : Region) : List UInt8 := (g.chunk.data.drop g.start).take g.size

/-- The address a region starts at. -/
def key (g : Region) : ℕ × ℕ := (g.chunk.addr, g.start)

end Region

/-- `res_mem[addr] = rdma_chunk`. -/
def reserve (resMem : List Region) (g : Region) : List Region :=
  resMem.filter (fun h => h.key ≠ g.key) ++ [g]

/-- The ways a call of `zero_copy_read` does not return: the assertion on the
status of a completion, and `back` of an empty vector. -/
inductive Trap
  | failedCompletion
  | emptyBuffers
  deriving DecidableEq

/-- What a call of `zero_copy_read` returns and does. -/
structure ZeroCopyOutcome where
  ret : ℤ
  region : Option Region
  posted : List Chunk
  socket : Socket
  errno : Option ℕ
  deriving DecidableEq

/-- The loop over `buffers`, from the back: the empty chunks it posts, the first
chunk with a byte to give, and the chunks before that one. -/
def popChunks : List Chunk → List Chunk × Option Chunk × List Chunk
  | [] => ([], none, [])
  | c :: earlier =>
      if sub32 c.bound c.offset = 0 then
        let r := popChunks earlier
        (c :: r.1, r.2)
      else ([], some c, earlier)

/-- The state of the completion loop of `zero_copy_read`. -/
structure Batch where
  posted : List Chunk
  buffers : List Chunk
  errno : Option ℕ

/-- One round of the completion loop of `zero_copy_read`. -/
def takeCompletion (connected : Bool) (p : Batch) (response : IbvWc) : Except Trap Batch :=
  if response.success then
    let chunk := response.chunk.prepareRead response.byteLen
    if response.byteLen = 0 then
      .ok { p with
        errno := if connected then some econnreset else p.errno
        posted := p.posted ++ [chunk] }
    else
      .ok { p with buffers := p.buffers ++ [chunk] }
  else .error .failedCompletion

namespace Socket

/-- `zero_copy_read`, into a `bufferptr` without data. -/
def zeroCopyRead (s : Socket) : Except Trap ZeroCopyOutcome :=
  if s.error ≠ 0 then .ok ⟨-s.error, none, [], s, none⟩
  else
    match popChunks s.buffers.reverse with
    | (posted, some c, earlier) =>
        let readSize := sub32 c.bound c.offset
        .ok ⟨readSize, some ⟨c, c.offset, readSize⟩, posted,
          { s with buffers := earlier.reverse }, none⟩
    | (posted, none, earlier) =>
        let s1 := { s with buffers := earlier.reverse }.getWc
        if s1.1 = [] then .ok ⟨-eagain, none, posted, s1.2, none⟩
        else
          match s1.1.foldlM (takeCompletion s1.2.connected) ⟨posted, s1.2.buffers, none⟩ with
          | .error trap => .error trap
          | .ok p =>
              match p.buffers.getLast? with
              | none => .error .emptyBuffers
              | some c =>
                  .ok ⟨c.bound, some ⟨c, 0, c.bound⟩, p.posted,
                    { s1.2 with buffers := p.buffers.dropLast }, p.errno⟩

/-- `release_memory`, whose body is empty. -/
def releaseMemory (s : Socket) (_ : Region) : Socket := s

/-- `~RDMAReliableConnectedSocketImpl`: the chunks it posts, and the socket whose
vectors are gone with it. -/
def destroy (s : Socket) : List Chunk × Socket :=
  (s.wc.map IbvWc.chunk ++ s.buffers,
    { s.cleanup with wc := [], buffers := [], error := econnreset })

/-- The bytes a socket holds for its reader. -/
def bytesHeld (s : Socket) : List UInt8 := unreadAll s.buffers ++ s.wc.flatMap IbvWc.payload

/-- The addresses of the chunks a socket holds. -/
def chunksHeld (s : Socket) : List ℕ :=
  s.buffers.map Chunk.addr ++ s.wc.map fun w => w.chunk.addr

/-- A socket between two calls: its chunks have bytes to give and its completions
succeeded. -/
structure Regular (s : Socket) : Prop where
  waiting : Waiting s.buffers
  success : ∀ w ∈ s.wc, w.success = true

end Socket

/-! ## The completions of one batch -/

/-- The chunks of a batch that carry data, prepared for reading. -/
def dataChunks (cqe : List IbvWc) : List Chunk :=
  (cqe.filter fun w => w.byteLen ≠ 0).map fun w => w.chunk.prepareRead w.byteLen

/-- The chunks of a batch that carry none. -/
def finChunks (cqe : List IbvWc) : List Chunk :=
  (cqe.filter fun w => w.byteLen = 0).map fun w => w.chunk.prepareRead w.byteLen

theorem batch_cons_fin {w : IbvWc} (hzero : w.byteLen = 0) (rest : List IbvWc) :
    dataChunks (w :: rest) = dataChunks rest ∧
      finChunks (w :: rest) = w.chunk.prepareRead w.byteLen :: finChunks rest := by
  simp [dataChunks, finChunks, hzero]

theorem batch_cons_data {w : IbvWc} (hdata : w.byteLen ≠ 0) (rest : List IbvWc) :
    dataChunks (w :: rest) = w.chunk.prepareRead w.byteLen :: dataChunks rest ∧
      finChunks (w :: rest) = finChunks rest := by
  simp [dataChunks, finChunks, hdata]

theorem waiting_dataChunks (cqe : List IbvWc) : Waiting (dataChunks cqe) := by
  intro c hc
  obtain ⟨w, hw, rfl⟩ := List.mem_map.mp hc
  have hne : w.byteLen ≠ 0 := by simpa using (List.mem_filter.mp hw).2
  obtain ⟨hreadable, hunread⟩ := w.prepared
  have hpayload : w.payload ≠ [] :=
    List.ne_nil_of_length_pos (by rw [w.length_payload]; exact Nat.pos_of_ne_zero hne)
  exact ⟨hreadable, hunread ▸ hpayload⟩

theorem dataChunks_eq_nil {cqe : List IbvWc} :
    dataChunks cqe = [] ↔ ∀ w ∈ cqe, w.byteLen = 0 := by
  simp [dataChunks, List.filter_eq_nil_iff]

theorem unreadAll_dataChunks (cqe : List IbvWc) :
    unreadAll (dataChunks cqe) = cqe.flatMap IbvWc.payload := by
  induction cqe with
  | nil => rfl
  | cons w rest ih =>
      by_cases hzero : w.byteLen = 0
      · have hnil : w.payload = [] := List.eq_nil_of_length_eq_zero (by simp [hzero])
        rw [(batch_cons_fin hzero rest).1, ih, List.flatMap_cons, hnil, List.nil_append]
      · rw [(batch_cons_data hzero rest).1, unreadAll_cons, w.prepared.2, ih, List.flatMap_cons]

/-- Every chunk of a batch is one or the other. -/
theorem perm_chunks (cqe : List IbvWc) :
    ((finChunks cqe).map Chunk.addr ++ (dataChunks cqe).map Chunk.addr).Perm
      (cqe.map fun w => w.chunk.addr) := by
  have hsplit := (List.filter_append_perm (fun w : IbvWc => decide (w.byteLen = 0)) cqe).map
    fun w => w.chunk.addr
  simpa [finChunks, dataChunks, Function.comp_def] using hsplit

/-- A successful batch: the chunks with data are kept in order, the others
posted. -/
theorem foldlM_takeCompletion {connected : Bool} {cqe : List IbvWc} (p : Batch)
    (hsuccess : ∀ w ∈ cqe, w.success = true) :
    ∃ errno, cqe.foldlM (takeCompletion connected) p =
      .ok ⟨p.posted ++ finChunks cqe, p.buffers ++ dataChunks cqe, errno⟩ := by
  induction cqe generalizing p with
  | nil => exact ⟨p.errno, by simp [finChunks, dataChunks, pure, Except.pure]⟩
  | cons w rest ih =>
      have hw : w.success = true := hsuccess w (by simp)
      have hrest : ∀ v ∈ rest, v.success = true := fun v hv => hsuccess v (by simp [hv])
      by_cases hzero : w.byteLen = 0
      · obtain ⟨hdata, hfin⟩ := batch_cons_fin hzero rest
        obtain ⟨errno, htail⟩ := ih
          { p with
            errno := if connected then some econnreset else p.errno
            posted := p.posted ++ [w.chunk.prepareRead w.byteLen] } hrest
        refine ⟨errno, ?_⟩
        simp only [List.foldlM_cons, takeCompletion, hw, if_true, if_pos hzero]
        rw [hdata, hfin]
        exact htail.trans (by simp)
      · obtain ⟨hdata, hfin⟩ := batch_cons_data hzero rest
        obtain ⟨errno, htail⟩ := ih
          { p with buffers := p.buffers ++ [w.chunk.prepareRead w.byteLen] } hrest
        refine ⟨errno, ?_⟩
        simp only [List.foldlM_cons, takeCompletion, hw, if_true, if_neg hzero]
        rw [hdata, hfin]
        exact htail.trans (by simp)

/-! ## One call -/

/-- The region that shows the unread bytes of a chunk. -/
def Region.ofChunk (c : Chunk) : Region := ⟨c, c.offset, sub32 c.bound c.offset⟩

theorem Region.size_ofChunk {c : Chunk} (hc : c.Readable) :
    (Region.ofChunk c).size = c.unread.length := by
  have hoffset := hc.offset_le
  have hbound := hc.bound_le
  have hbytes := hc.bytes_lt
  rw [Chunk.length_unread hc, Region.ofChunk]
  exact sub32_of_le hoffset (by omega)

theorem Region.bytes_ofChunk {c : Chunk} (hc : c.Readable) :
    (Region.ofChunk c).bytes = c.unread := by
  have hsize := Region.size_ofChunk hc
  rw [Chunk.length_unread hc] at hsize
  rw [Region.bytes, hsize]
  rfl

theorem Region.ofChunk_prepareRead (w : IbvWc) :
    Region.ofChunk (w.chunk.prepareRead w.byteLen) =
      ⟨w.chunk.prepareRead w.byteLen, 0, w.byteLen⟩ := by
  have hlt : w.byteLen < 2 ^ 32 := lt_of_le_of_lt w.byteLen_le w.bytes_lt
  simp [Region.ofChunk, Chunk.prepareRead, sub32_of_le (Nat.zero_le _) hlt]

/-- A chunk with a byte to give ends the loop over `buffers` at once. -/
theorem popChunks_cons {earlier : List Chunk} {c : Chunk} (hc : c.Readable)
    (hne : c.unread ≠ []) : popChunks (c :: earlier) = ([], some c, earlier) := by
  have hsize := Region.size_ofChunk hc
  have hpos := List.length_pos_iff.mpr hne
  have hsub : sub32 c.bound c.offset ≠ 0 := by
    simp only [Region.ofChunk] at hsize
    omega
  rw [popChunks, if_neg hsub]

namespace Socket

/-- The chunks a call of `zero_copy_read` chooses from. -/
def queue (s : Socket) : List Chunk := if s.buffers = [] then dataChunks s.wc else s.buffers

/-- The completions that wait until `buffers` is empty. -/
def wcLeft (s : Socket) : List IbvWc := if s.buffers = [] then [] else s.wc

/-- The chunks without data that it posts. -/
def fins (s : Socket) : List Chunk := if s.buffers = [] then finChunks s.wc else []

variable {s : Socket}

theorem Regular.waiting_queue (hs : s.Regular) : Waiting s.queue := by
  unfold queue
  split
  · exact waiting_dataChunks s.wc
  · exact hs.waiting

theorem queue_eq_nil (h : s.queue = []) : s.buffers = [] ∧ dataChunks s.wc = [] := by
  rw [queue] at h
  split at h
  · rename_i hbuffers
    exact ⟨hbuffers, h⟩
  · rename_i hbuffers
    exact absurd h hbuffers

theorem zeroCopyRead_of_error (herror : s.error ≠ 0) :
    s.zeroCopyRead = .ok ⟨-s.error, none, [], s, none⟩ := by
  simp [zeroCopyRead, herror]

/-- Nothing queued. -/
theorem zeroCopyRead_of_idle (herror : s.error = 0) (hbuffers : s.buffers = [])
    (hwc : s.wc = []) : s.zeroCopyRead = .ok ⟨-eagain, none, [], s, none⟩ := by
  cases s
  simp_all [zeroCopyRead, popChunks]

/-- Only zero-length completions queued. -/
theorem zeroCopyRead_of_fins (hs : s.Regular) (herror : s.error = 0)
    (hbuffers : s.buffers = []) (hwc : s.wc ≠ []) (hnone : dataChunks s.wc = []) :
    s.zeroCopyRead = .error .emptyBuffers := by
  obtain ⟨errno, hloop⟩ :=
    @foldlM_takeCompletion s.connected s.wc ⟨[], [], none⟩ hs.success
  rw [hnone] at hloop
  simp [zeroCopyRead, herror, hbuffers, popChunks, hwc, hloop]

/-- **The newest chunk.**  A call that finds chunks hands up the last of them. -/
theorem zeroCopyRead_of_queue (hs : s.Regular) (herror : s.error = 0) {earlier : List Chunk}
    {c : Chunk} (hqueue : s.queue = earlier ++ [c]) :
    ∃ errno, s.zeroCopyRead = .ok ⟨c.unread.length, some (Region.ofChunk c), s.fins,
      { s with buffers := earlier, wc := s.wcLeft }, errno⟩ := by
  obtain ⟨hc, hne⟩ := hs.waiting_queue c (by simp [hqueue])
  have hsize := Region.size_ofChunk hc
  by_cases hbuffers : s.buffers = []
  · obtain ⟨errno, hloop⟩ :=
      @foldlM_takeCompletion s.connected s.wc ⟨[], [], none⟩ hs.success
    rw [queue, if_pos hbuffers] at hqueue
    have hwc : s.wc ≠ [] := by
      intro h
      simp [h, dataChunks] at hqueue
    obtain ⟨w, -, rfl⟩ : ∃ w ∈ s.wc.filter fun w => w.byteLen ≠ 0,
        w.chunk.prepareRead w.byteLen = c := by
      have hmem : c ∈ dataChunks s.wc := by simp [hqueue]
      exact List.mem_map.mp hmem
    rw [Region.ofChunk_prepareRead] at hsize ⊢
    refine ⟨errno, ?_⟩
    simp [zeroCopyRead, herror, hbuffers, popChunks, hwc, hloop, hqueue, fins, wcLeft,
      Chunk.prepareRead]
    exact hsize
  · rw [queue, if_neg hbuffers] at hqueue
    refine ⟨none, ?_⟩
    simp only [Region.ofChunk] at hsize
    simp [zeroCopyRead, herror, hqueue, popChunks_cons hc hne, fins, wcLeft,
      Region.ofChunk, hsize]

end Socket

/-- A request of no byte leaves the chunks as they are. -/
theorem serves_readBuffers_zero {s : Socket} (hwaiting : Waiting s.buffers) :
    Serves 0 (unreadAll s.buffers) (s.buffers.map Chunk.addr) (s.readBuffers 0) := by
  cases hbuffers : s.buffers with
  | nil =>
      simp only [Socket.readBuffers, hbuffers, readChunks]
      exact ⟨rfl, le_refl 0, .inl rfl, waiting_nil, rfl, .of_eq rfl⟩
  | cons c rest =>
      rw [hbuffers] at hwaiting
      obtain ⟨⟨hc, hne⟩, hrest⟩ := waiting_cons.mp hwaiting
      obtain ⟨hreadable, haddr, hcount, hout, hunread⟩ := Chunk.read_spec hc 0
      rw [List.drop_zero] at hunread
      rw [List.take_zero] at hout
      have hover : (c.read 0).chunk.isOver = false := by
        rw [Bool.eq_false_iff, Ne, Chunk.isOver_iff hreadable, hunread]
        exact hne
      have hread : s.readBuffers 0 = ⟨0, [], [], (c.read 0).chunk :: rest⟩ := by
        simp [Socket.readBuffers, hbuffers, readChunks, hcount, hout, hover]
      rw [hread]
      exact
        { read_eq := rfl
          read_le := le_refl 0
          full_of_left := .inr rfl
          waiting := waiting_cons.mpr ⟨⟨hreadable, hunread ▸ hne⟩, hrest⟩
          stream_eq := by simp [hunread]
          addrs_perm := by simp [haddr] }

/-- What a call leaves and moves, in terms of the socket before it. -/
structure Accounts (before : Socket) (out : List UInt8) (moved : List ℕ) (after : Socket) :
    Prop where
  regular : after.Regular
  bytes_eq : out ++ after.bytesHeld = before.bytesHeld
  chunks_perm : (moved ++ after.chunksHeld).Perm before.chunksHeld

theorem toNat_returned (read error : ℕ) : (returned read error).toNat = read := by
  unfold returned eagain
  split_ifs <;> omega

/-- What `read` returned and did accounts for its bytes and chunks, at any length
and on any socket. -/
theorem read_accounts {s : Socket} {len : ℕ} {o : ReadOutcome} (hs : s.Regular)
    (hfits : RequestFits len (unreadAll s.buffers).length) (hread : s.read len = some o) :
    Accounts s o.bytes (o.posted.map Chunk.addr) o.socket := by
  have hp : Serves len (unreadAll s.buffers) (s.buffers.map Chunk.addr) (s.readBuffers len) := by
    rcases Nat.eq_zero_or_pos len with rfl | hlen
    · exact serves_readBuffers_zero hs.waiting
    · exact serves_readBuffers hlen hs.waiting hfits
  by_cases hready : s.active = true ∧ s.connected = true
  · obtain ⟨q, hloop, hcall⟩ := Socket.read_eq_some len hready.1 hready.2 hs.success
    obtain rfl := Option.some.inj (hcall.symm.trans hread)
    have hq := Serves.completions hp hloop
    exact
      { regular := ⟨by simpa using hq.waiting, by simp⟩
        bytes_eq := by
          simpa [ReadOutcome.bytes, toNat_returned, hq.read_eq, Socket.bytesHeld]
            using hq.stream_eq
        chunks_perm := by simpa [Socket.chunksHeld] using hq.addrs_perm }
  · rw [Socket.read_of_not_ready hready] at hread
    obtain rfl := Option.some.inj hread
    exact ⟨⟨hs.waiting, hs.success⟩, rfl, .refl _⟩

/-- The chunks a call moves elsewhere: to the pool, or up with a region. -/
def ZeroCopyOutcome.moved (o : ZeroCopyOutcome) : List ℕ :=
  o.posted.map Chunk.addr ++ o.region.toList.map fun g => g.chunk.addr

/-- The bytes a call hands up. -/
def ZeroCopyOutcome.bytes (o : ZeroCopyOutcome) : List UInt8 := o.region.toList.flatMap Region.bytes

/-- A call of `zero_copy_read` that returns hands up nothing and leaves the socket
alone, or hands up the newest chunk. -/
theorem zeroCopyRead_cases {s : Socket} {o : ZeroCopyOutcome} (hs : s.Regular)
    (hread : s.zeroCopyRead = .ok o) :
    ((s.error ≠ 0 ∨ s.buffers = [] ∧ s.wc = []) ∧
      o.region = none ∧ o.ret < 0 ∧ o.posted = [] ∧ o.socket = s) ∨
    (s.error = 0 ∧ ∃ earlier c, s.queue = earlier ++ [c] ∧ o.ret = c.unread.length ∧
      o.region = some (Region.ofChunk c) ∧ o.posted = s.fins ∧
      o.socket = { s with buffers := earlier, wc := s.wcLeft }) := by
  by_cases herror : s.error = 0
  · rcases List.eq_nil_or_concat s.queue with hempty | ⟨earlier, c, hqueue⟩
    · obtain ⟨hbuffers, hnone⟩ := Socket.queue_eq_nil hempty
      by_cases hwc : s.wc = []
      · rw [Socket.zeroCopyRead_of_idle herror hbuffers hwc] at hread
        obtain rfl := Except.ok.inj hread
        exact .inl ⟨.inr ⟨hbuffers, hwc⟩, rfl, by simp [eagain], rfl, rfl⟩
      · rw [Socket.zeroCopyRead_of_fins hs herror hbuffers hwc hnone] at hread
        cases hread
    · rw [List.concat_eq_append] at hqueue
      obtain ⟨errno, hcall⟩ := Socket.zeroCopyRead_of_queue hs herror hqueue
      obtain rfl := Except.ok.inj (hcall.symm.trans hread)
      exact .inr ⟨herror, earlier, c, hqueue, rfl, rfl, rfl, rfl⟩
  · rw [Socket.zeroCopyRead_of_error herror] at hread
    obtain rfl := Except.ok.inj hread
    refine .inl ⟨.inl herror, rfl, ?_, rfl, rfl⟩
    show -(s.error : ℤ) < 0
    omega

/-- A call on completions that succeeded fails in one way only: the batch had no
data, and nothing was buffered. -/
theorem zeroCopyRead_trap {s : Socket} {trap : Trap} (hs : s.Regular)
    (hread : s.zeroCopyRead = .error trap) :
    trap = .emptyBuffers ∧ s.buffers = [] ∧ s.wc ≠ [] ∧ dataChunks s.wc = [] := by
  by_cases herror : s.error = 0
  · rcases List.eq_nil_or_concat s.queue with hempty | ⟨earlier, c, hqueue⟩
    · obtain ⟨hbuffers, hnone⟩ := Socket.queue_eq_nil hempty
      by_cases hwc : s.wc = []
      · rw [Socket.zeroCopyRead_of_idle herror hbuffers hwc] at hread
        cases hread
      · rw [Socket.zeroCopyRead_of_fins hs herror hbuffers hwc hnone] at hread
        exact ⟨(Except.error.inj hread).symm, hbuffers, hwc, hnone⟩
    · rw [List.concat_eq_append] at hqueue
      obtain ⟨errno, hcall⟩ := Socket.zeroCopyRead_of_queue hs herror hqueue
      cases hcall.symm.trans hread
  · rw [Socket.zeroCopyRead_of_error herror] at hread
    cases hread

/-- The queue and what stays in `wc` are the bytes held. -/
theorem Socket.bytesHeld_eq_queue (s : Socket) :
    s.bytesHeld = unreadAll s.queue ++ s.wcLeft.flatMap IbvWc.payload := by
  by_cases hbuffers : s.buffers = [] <;>
    simp [bytesHeld, queue, wcLeft, hbuffers, unreadAll_dataChunks]

/-- So are the addresses, once the empty chunks are posted. -/
theorem Socket.chunksHeld_perm_queue (s : Socket) :
    (s.fins.map Chunk.addr ++ s.queue.map Chunk.addr ++ s.wcLeft.map fun w => w.chunk.addr).Perm
      s.chunksHeld := by
  by_cases hbuffers : s.buffers = []
  · simpa [chunksHeld, queue, fins, wcLeft, hbuffers] using perm_chunks s.wc
  · simp [chunksHeld, queue, fins, wcLeft, hbuffers]

/-- What `zero_copy_read` returned and did accounts for its chunks. -/
theorem zeroCopyRead_accounts {s : Socket} {o : ZeroCopyOutcome} (hs : s.Regular)
    (hread : s.zeroCopyRead = .ok o) :
    o.socket.Regular ∧ (o.moved ++ o.socket.chunksHeld).Perm s.chunksHeld := by
  rcases zeroCopyRead_cases hs hread with
    ⟨-, hregion, -, hposted, hsocket⟩ | ⟨-, earlier, c, hqueue, -, hregion, hposted, hsocket⟩
  · rw [hsocket]
    exact ⟨hs, by simp [ZeroCopyOutcome.moved, hregion, hposted]⟩
  · have hwaiting := hs.waiting_queue
    rw [hqueue] at hwaiting
    have hwc : ∀ w ∈ s.wcLeft, w.success = true := by
      intro w hw
      unfold Socket.wcLeft at hw
      split at hw
      · simp at hw
      · exact hs.success w hw
    rw [hsocket]
    refine ⟨⟨(waiting_append.mp hwaiting).1, hwc⟩, ?_⟩
    have hqueued := s.chunksHeld_perm_queue
    rw [hqueue] at hqueued
    apply List.Perm.trans _ hqueued
    simp only [ZeroCopyOutcome.moved, hregion, hposted, Socket.chunksHeld, List.perm_iff_count,
      List.count_append, List.map_append, Option.toList_some, List.map_cons, List.map_nil,
      Region.ofChunk]
    intro a
    omega

/-- **Order.**  With one chunk to choose from, a call hands up the oldest bytes. -/
theorem zeroCopyRead_ordered {s : Socket} {o : ZeroCopyOutcome} (hs : s.Regular)
    (hsingle : s.error ≠ 0 ∨ s.queue.length ≤ 1) (hread : s.zeroCopyRead = .ok o) :
    o.bytes ++ o.socket.bytesHeld = s.bytesHeld := by
  rcases zeroCopyRead_cases hs hread with
    ⟨-, hregion, -, -, hsocket⟩ | ⟨herror, earlier, c, hqueue, -, hregion, -, hsocket⟩
  · simp [ZeroCopyOutcome.bytes, hregion, hsocket]
  · have hearlier : earlier = [] := by
      have h := hsingle.resolve_left (fun h => h herror)
      rw [hqueue, List.length_append, List.length_singleton] at h
      exact List.eq_nil_of_length_eq_zero (by omega)
    subst hearlier
    obtain ⟨hc, -⟩ := hs.waiting_queue c (by simp [hqueue])
    rw [s.bytesHeld_eq_queue, hqueue]
    simp [ZeroCopyOutcome.bytes, hregion, Region.bytes_ofChunk hc, hsocket, Socket.bytesHeld]

/-! ## A remote close -/

/-- A zero-length completion sets the error of a connected socket. -/
theorem handleCompletion_error {connected : Bool} {len : ℕ} {p q : Polled} {w : IbvWc}
    (hstep : handleCompletion connected len p w = some q) :
    q.error = if connected = true ∧ w.byteLen = 0 then econnreset else p.error := by
  unfold handleCompletion at hstep
  split at hstep
  · by_cases hzero : w.byteLen = 0
    · rw [if_pos hzero, Option.some.injEq] at hstep
      simp [← hstep, hzero]
    · rw [if_neg hzero] at hstep
      rw [if_neg fun h => hzero h.2]
      split_ifs at hstep <;> rw [← Option.some.inj hstep]
  · cases hstep

theorem completions_error {connected : Bool} {len : ℕ} {cqe : List IbvWc} {p q : Polled}
    (hloop : cqe.foldlM (handleCompletion connected len) p = some q) :
    q.error =
      if connected = true ∧ ∃ w ∈ cqe, w.byteLen = 0 then econnreset else p.error := by
  induction cqe generalizing p with
  | nil =>
      obtain rfl : p = q := by simpa using hloop
      simp
  | cons w rest ih =>
      simp only [List.foldlM_cons, Option.bind_eq_bind, Option.bind_eq_some_iff] at hloop
      obtain ⟨p', hstep, hrest⟩ := hloop
      rw [ih hrest, handleCompletion_error hstep]
      by_cases hconnected : connected = true <;> by_cases hzero : w.byteLen = 0 <;>
        simp [hconnected, hzero]

/-- What `read` makes of a remote close. -/
theorem read_error {s : Socket} {len : ℕ} {o : ReadOutcome}
    (hsuccess : ∀ w ∈ s.wc, w.success = true) (hread : s.read len = some o) :
    o.socket.error =
      if s.active = true ∧ s.connected = true ∧ ∃ w ∈ s.wc, w.byteLen = 0 then econnreset
      else s.error := by
  by_cases hready : s.active = true ∧ s.connected = true
  · obtain ⟨q, hloop, hcall⟩ := Socket.read_eq_some len hready.1 hready.2 hsuccess
    obtain rfl := Option.some.inj (hcall.symm.trans hread)
    have herror := completions_error hloop
    simpa [hready.1, hready.2] using herror
  · rw [Socket.read_of_not_ready hready] at hread
    obtain rfl := Option.some.inj hread
    rw [if_neg fun h => hready ⟨h.1, h.2.1⟩]

/-- `zero_copy_read` never sets the error. -/
theorem zeroCopyRead_error {s : Socket} {o : ZeroCopyOutcome} (hs : s.Regular)
    (hread : s.zeroCopyRead = .ok o) : o.socket.error = s.error := by
  rcases zeroCopyRead_cases hs hread with
    ⟨-, -, -, -, hsocket⟩ | ⟨-, earlier, c, -, -, -, -, hsocket⟩
  · rw [hsocket]
  · rw [hsocket]

/-- The sockets after some more calls. -/
inductive Later (s : Socket) : Socket → Prop
  | now : Later s s
  | read {t : Socket} {len : ℕ} {o : ReadOutcome} (prior : Later s t)
      (hread : t.read len = some o) : Later s o.socket
  | zeroCopyRead {t : Socket} {o : ZeroCopyOutcome} (prior : Later s t)
      (hread : t.zeroCopyRead = .ok o) : Later s o.socket

/-- A batch of completions. -/
def Closes (cqe : List IbvWc) : Prop := ∃ w ∈ cqe, w.byteLen = 0

/-- A call of `zero_copy_read` treats a remote close in its batch as `read` does. -/
structure ClosesLikeRead (s : Socket) : Prop where
  no_trap : s.zeroCopyRead ≠ .error .emptyBuffers
  error_eq : ∀ o, s.zeroCopyRead = .ok o →
    ∀ len o', s.read len = some o' → o.socket.error = o'.socket.error
  reset : ∀ o, s.zeroCopyRead = .ok o → s.connected = true → Closes s.wc →
    o.socket.error = econnreset
  no_data : ∀ o, s.zeroCopyRead = .ok o → (∀ w ∈ s.wc, w.byteLen = 0) → o.ret < 0
  later : ∀ o, s.zeroCopyRead = .ok o → s.connected = true → Closes s.wc →
    ∀ t, Later o.socket t → t.bytesHeld = [] →
      (∀ len o', t.read len = some o' → o'.ret = -econnreset) ∧
        ∀ o', t.zeroCopyRead = .ok o' → o'.ret = -econnreset

/-- **Remote close.**  On a connected socket with empty `buffers`, `zero_copy_read`
agrees with `read` about a batch exactly when no completion in it closes. -/
theorem closesLikeRead_iff {s : Socket} (hconnected : s.connected = true)
    (hbuffers : s.buffers = []) (herror : s.error = 0)
    (hsuccess : ∀ w ∈ s.wc, w.success = true) :
    ClosesLikeRead s ↔ ∀ w ∈ s.wc, w.byteLen ≠ 0 := by
  have hs : s.Regular := ⟨hbuffers ▸ waiting_nil, hsuccess⟩
  constructor
  · intro hcloses w hw hzero
    have hmem : Closes s.wc := ⟨w, hw, hzero⟩
    cases hcall : s.zeroCopyRead with
    | error trap =>
        obtain ⟨rfl, -⟩ := zeroCopyRead_trap hs hcall
        exact hcloses.no_trap hcall
    | ok o =>
        have hreset := hcloses.reset o hcall hconnected hmem
        rw [zeroCopyRead_error hs hcall, herror] at hreset
        simp [econnreset] at hreset
  · intro hdata
    have hopen : ¬ Closes s.wc := fun ⟨w, hw, hzero⟩ => hdata w hw hzero
    have hnone : (∀ w ∈ s.wc, w.byteLen = 0) → s.wc = [] := fun h =>
      List.eq_nil_iff_forall_not_mem.mpr fun w hw => hdata w hw (h w hw)
    refine ⟨?_, ?_, fun o _ _ h => absurd h hopen, ?_, fun o _ _ h => absurd h hopen⟩
    · intro hcall
      obtain ⟨-, -, hwc, hempty⟩ := zeroCopyRead_trap hs hcall
      exact hwc (hnone (dataChunks_eq_nil.mp hempty))
    · intro o hcall len o' hread
      rw [zeroCopyRead_error hs hcall, read_error hsuccess hread, if_neg fun h => hopen h.2.2]
    · intro o hcall hzero
      rcases zeroCopyRead_cases hs hcall with ⟨-, -, hret, -⟩ | ⟨-, earlier, c, hqueue, -⟩
      · exact hret
      · simp [Socket.queue, hbuffers, hnone hzero, dataChunks] at hqueue

/-- A connected socket with one completion queued. -/
def socketWith (w : IbvWc) : Socket := { quietSocket with wc := [w] }

/-- A batch of data does not tell the two calls apart. -/
theorem closesLikeRead_iff_twoBytes : ClosesLikeRead (socketWith ReadRun.twoBytes) :=
  (closesLikeRead_iff rfl rfl rfl (by decide)).mpr (by decide)

/-- A completion that closes the connection. -/
def closeNotice : IbvWc where
  chunk := .empty 9 2
  byteLen := 0
  success := true
  byteLen_le := by decide
  bytes_lt := by decide

/-- A close on its own takes the last element of an empty vector; one that follows
data leaves the error at zero, where `read` sets it. -/
theorem not_closesLikeRead_closeNotice :
    (socketWith closeNotice).zeroCopyRead = .error .emptyBuffers ∧
      (∃ o, { quietSocket with wc := [ReadRun.twoBytes, closeNotice] }.zeroCopyRead = .ok o ∧
        o.ret = 2 ∧ o.socket.error = 0 ∧ o.errno = some econnreset) ∧
      ¬ ClosesLikeRead (socketWith closeNotice) := by
  refine ⟨rfl, ⟨_, rfl, rfl, rfl, rfl⟩, fun h => h.no_trap rfl⟩

end HwAsync.Rdma
