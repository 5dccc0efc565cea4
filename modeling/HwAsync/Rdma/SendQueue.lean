/-
# The send queues

A queue pair is created for `max_send_wr` outstanding requests, which is also how many tx chunks
there are for all sockets together.  Nobody counts the requests of a queue pair: `submit` posts as
many as it got chunks, and `fin` posts one that needs no chunk.

`ibv_post_send` takes the requests of its list one by one, as far as the queue has room, and a
request has its place until its completion is polled.
-/

import HwAsync.Rdma.TxChunks

namespace HwAsync.Rdma

open HwAsync.Lib HwAsync.Infiniband

/-! ## Posting -/

def enomem : ℕ := 12

/-- What `ibv_post_send` does: how many requests it takes, what it answers, and whether a request
found the queue full. -/
structure PostSend where
  taken : ℕ
  result : PostResult
  full : Bool

/-- `ibv_post_send` of `n` requests on a queue that has room for `room`.  A `failure` is a request
that is refused for another reason, with its `errno`. -/
def ibvPostSend (room n : ℕ) (failure : Option (ℕ × ℕ)) : PostSend :=
  match failure.filter fun f => f.1 < min room n with
  | some (i, errno) => ⟨i, .failed errno, false⟩
  | none => if room < n then ⟨room, .failed enomem, true⟩ else ⟨n, .posted, false⟩

/-- A request with the number of the queue pair that it is on. -/
structure SendWr where
  qpNum : ℕ
  wr : TxWr
  deriving DecidableEq

/-- The request that a completion is for. -/
def TxCompletion.request (c : TxCompletion) : SendWr := ⟨c.qpNum, c.wr⟩

/-- The sockets of a stack with the requests on their queue pairs that are not completed; a socket
has the number of its queue pair.  `refused` lists the queue pairs that refused a request because
they were full. -/
structure SendQueues where
  side : TxSide
  sockets : ℕ → Socket
  sendQueue : List SendWr
  refused : List ℕ

inductive SendQueueAction
  | queue (o : ℕ) (bl : Bufferlist)
  | submit (worker o : ℕ) (failure : Option (ℕ × ℕ))
  | shutdown (o : ℕ) (failure : Option (ℕ × ℕ))
  | close (o : ℕ) (failure : Option (ℕ × ℕ))
  | handleTxEvent (conn : ℕ → Option ℕ) (cqe : List TxCompletion)

namespace SendQueues

/-- How many requests a queue pair has that are not completed. -/
def outstanding (r : SendQueues) (o : ℕ) : ℕ := r.sendQueue.countP (·.qpNum = o)

/-- `ibv_post_send` on the queue pair of one socket. -/
def post (maxSendWr : ℕ) (r : SendQueues) (o : ℕ) (wrs : List TxWr) (failure : Option (ℕ × ℕ)) :
    PostResult × SendQueues :=
  let p := ibvPostSend (maxSendWr - r.outstanding o) wrs.length failure
  (p.result, { r with
    sendQueue := r.sendQueue ++ (wrs.take p.taken).map (SendWr.mk o)
    refused := if p.full then r.refused ++ [o] else r.refused })

/-- Replace one socket. -/
def setSocket (r : SendQueues) (o : ℕ) (s : Socket) : SendQueues :=
  { r with sockets := Function.update r.sockets o s }

/-- `fin`. -/
def fin (maxSendWr : ℕ) (r : SendQueues) (o : ℕ) (failure : Option (ℕ × ℕ)) : SendQueues :=
  (r.post maxSendWr o [.fin o] failure).2

/-- `shutdown`. -/
def shutdown (maxSendWr : ℕ) (r : SendQueues) (o : ℕ) (failure : Option (ℕ × ℕ)) : SendQueues :=
  let r1 := if (r.sockets o).error = 0 then r.fin maxSendWr o failure else r
  r1.setSocket o { r.sockets o with error := econnreset, active := false }

/-- `close`, which has the body of `shutdown`. -/
def close (maxSendWr : ℕ) (r : SendQueues) (o : ℕ) (failure : Option (ℕ × ℕ)) : SendQueues :=
  r.shutdown maxSendWr o failure

/-- `submit` of one socket: the chunks that it fills are the requests that it posts. -/
def submit (maxSendWr worker : ℕ) (r : SendQueues) (o : ℕ) (failure : Option (ℕ × ℕ)) :
    Option SendQueues :=
  match (r.sockets o).submit worker o r.side .posted with
  | none => none
  | some filled =>
      let p := r.post maxSendWr o (filled.posted.map .chunk) failure
      match (r.sockets o).submit worker o r.side p.1 with
      | none => none
      | some out => some { p.2.setSocket o out.socket with side := out.side }

/-- One step. -/
def step (maxSendWr : ℕ) (r : SendQueues) : SendQueueAction → Option SendQueues
  | .queue o bl =>
      if ∀ b ∈ bl.buffers, b.txChunk = none then
        match (r.sockets o).pendingBl.append bl with
        | none => none
        | some pendingBl => some (r.setSocket o { r.sockets o with pendingBl := pendingBl })
      else none
  | .submit worker o failure => r.submit maxSendWr worker o failure
  | .shutdown o failure => some (r.shutdown maxSendWr o failure)
  | .close o failure => some (r.close maxSendWr o failure)
  | .handleTxEvent conn cqe =>
      if (cqe.map TxCompletion.request : Multiset SendWr) ≤ r.sendQueue then
        match handleTxEvent r.side cqe with
        | none => none
        | some (_, side) =>
            let faulted := faultedConns conn (fun i => (r.sockets i).connected) cqe
            some { r with
              side := side
              sockets := fun i =>
                if i ∈ faulted then (r.sockets i).fault else r.sockets i
              sendQueue := r.sendQueue.diff (cqe.map TxCompletion.request) }
      else none

/-- Nothing was sent yet, and there are as many tx chunks as a queue pair takes requests. -/
structure Fresh (maxSendWr : ℕ) (r : SendQueues) : Prop where
  ready : r.side.cluster.Ready
  length_freeChunks : r.side.cluster.freeChunks.length = maxSendWr
  inflight : r.side.inflight = 0
  sendQueue : r.sendQueue = []
  refused : r.refused = []
  ordinary : ∀ o, Ordinary (r.sockets o).pendingBl.buffers

/-- No queue has more requests than it was created for, and none was refused because it is full. -/
structure WithinBounds (maxSendWr : ℕ) (r : SendQueues) : Prop where
  outstanding_le : ∀ o, r.outstanding o ≤ maxSendWr
  refused : r.refused = []

/-- A disconnect message finds a place on its queue. -/
def finFits (maxSendWr : ℕ) (r : SendQueues) : SendQueueAction → Prop
  | .shutdown o _ | .close o _ => (r.sockets o).error = 0 → r.outstanding o < maxSendWr
  | _ => True

instance (maxSendWr : ℕ) (r : SendQueues) (a : SendQueueAction) :
    Decidable (r.finFits maxSendWr a) :=
  match a with
  | .shutdown _ _ | .close _ _ => inferInstanceAs (Decidable (_ → _))
  | .queue _ _ | .submit _ _ _ | .handleTxEvent _ _ => .isTrue trivial

end SendQueues

/-- The send queues under the steps of the sockets and of the dispatcher. -/
def sendQueueMachine (maxSendWr : ℕ) : Machine SendQueues SendQueueAction where
  start := SendQueues.Fresh maxSendWr
  step := SendQueues.step maxSendWr

/-! ## `ibv_post_send` -/

section Post

variable {room n : ℕ} {failure : Option (ℕ × ℕ)}

theorem ibvPostSend_taken_le (room n : ℕ) (failure : Option (ℕ × ℕ)) :
    (ibvPostSend room n failure).taken ≤ room ∧ (ibvPostSend room n failure).taken ≤ n := by
  unfold ibvPostSend
  cases hfailure : failure.filter fun f => f.1 < min room n with
  | none =>
      dsimp only
      split
      · rename_i hlt
        exact ⟨le_rfl, Nat.le_of_lt hlt⟩
      · rename_i hle
        exact ⟨Nat.not_lt.mp hle, le_rfl⟩
  | some f =>
      have hf := (Option.filter_eq_some_iff.mp hfailure).2
      rw [decide_eq_true_iff, lt_min_iff] at hf
      exact ⟨Nat.le_of_lt hf.1, Nat.le_of_lt hf.2⟩

/-- Only requests beyond the room find the queue full. -/
theorem ibvPostSend_full (hfull : (ibvPostSend room n failure).full = true) : room < n := by
  unfold ibvPostSend at hfull
  split at hfull
  · cases hfull
  · split at hfull
    · assumption
    · cases hfull

/-- One request finds the queue full if there is no room. -/
theorem ibvPostSend_one (room : ℕ) (failure : Option (ℕ × ℕ)) :
    (ibvPostSend room 1 failure).full = true ↔ room = 0 := by
  constructor
  · intro hfull
    have hlt := ibvPostSend_full hfull
    omega
  · rintro rfl
    have hnone : (failure.filter fun f => f.1 < min 0 1) = none := by
      rw [Option.filter_eq_none_iff]
      intro f _
      rw [Nat.zero_min, decide_eq_true_iff]
      exact Nat.not_lt_zero f.1
    unfold ibvPostSend
    rw [hnone]
    rfl

end Post

/-! ## What the steps keep -/

/-- A request that sends a chunk. -/
def TxWr.isChunk : TxWr → Bool
  | .chunk _ => true
  | .fin _ => false

/-- How many chunks are on the send queues. -/
def chunksQueued (queue : List SendWr) : ℕ := queue.countP (·.wr.isChunk)

namespace SendQueues

/-- What holds whether the disconnect messages find a place or not. -/
structure Kept (maxSendWr : ℕ) (r : SendQueues) : Prop where
  ready : r.side.cluster.Ready
  inflight_lt : r.side.inflight < 2 ^ 64
  ordinary : ∀ o, Ordinary (r.sockets o).pendingBl.buffers
  chunks_le : r.side.cluster.freeChunks.length + chunksQueued r.sendQueue ≤ maxSendWr
  size_eq : ∀ o c, ⟨o, .chunk c⟩ ∈ r.sendQueue → c.bytes = r.side.cluster.bufferSize
  error_of_fin : ∀ o q, ⟨o, .fin q⟩ ∈ r.sendQueue → (r.sockets o).error ≠ 0
  outstanding_le : ∀ o, r.outstanding o ≤ maxSendWr

variable {maxSendWr worker o : ℕ} {r t : SendQueues} {failure : Option (ℕ × ℕ)}

theorem Kept.of_fresh (h : r.Fresh maxSendWr) : r.Kept maxSendWr where
  ready := h.ready
  inflight_lt := by rw [h.inflight]; decide
  ordinary := h.ordinary
  chunks_le := by
    rw [h.sendQueue, h.length_freeChunks]
    exact le_rfl
  size_eq o c hc := by
    rw [h.sendQueue] at hc
    cases hc
  error_of_fin o q hq := by
    rw [h.sendQueue] at hq
    cases hq
  outstanding_le o := by
    unfold outstanding
    rw [h.sendQueue]
    exact Nat.zero_le _

/-- As long as no disconnect message was posted, a queue has only chunks. -/
theorem Kept.outstanding_le_chunksQueued (h : r.Kept maxSendWr) (herror : (r.sockets o).error = 0) :
    r.outstanding o ≤ chunksQueued r.sendQueue := by
  refine List.countP_mono_left fun e he ho => ?_
  obtain ⟨i, wr⟩ := e
  obtain rfl : i = o := of_decide_eq_true ho
  cases wr with
  | chunk c => rfl
  | fin q => exact absurd herror (h.error_of_fin i q he)

/-- The number of requests on each queue after a post. -/
theorem outstanding_post (r : SendQueues) (wrs : List TxWr) (i : ℕ) :
    (r.post maxSendWr o wrs failure).2.outstanding i = r.outstanding i +
      if i = o then (ibvPostSend (maxSendWr - r.outstanding o) wrs.length failure).taken
      else 0 := by
  obtain ⟨-, hle⟩ :=
    ibvPostSend_taken_le (maxSendWr - r.outstanding o) wrs.length failure
  unfold outstanding post
  dsimp only
  rw [List.countP_append]
  congr 1
  rw [List.countP_map]
  by_cases hi : i = o
  · rw [if_pos hi, List.countP_eq_length.mpr, List.length_take]
    · exact Nat.min_eq_left hle
    · intro wr _
      exact decide_eq_true hi.symm
  · rw [if_neg hi, List.countP_eq_zero]
    intro wr _ hwr
    exact hi (of_decide_eq_true hwr).symm

theorem outstanding_post_le (r : SendQueues) (wrs : List TxWr)
    (hle : ∀ i, r.outstanding i ≤ maxSendWr) (i : ℕ) :
    (r.post maxSendWr o wrs failure).2.outstanding i ≤ maxSendWr := by
  obtain ⟨hroom, -⟩ :=
    ibvPostSend_taken_le (maxSendWr - r.outstanding o) wrs.length failure
  rw [outstanding_post]
  have hi := hle i
  split
  · rename_i heq
    rw [heq] at hi ⊢
    omega
  · exact hi

theorem ordinary_update {sockets : ℕ → Socket} {s : Socket}
    (hsockets : ∀ i, Ordinary (sockets i).pendingBl.buffers) (hs : Ordinary s.pendingBl.buffers)
    (i : ℕ) : Ordinary (Function.update sockets o s i).pendingBl.buffers := by
  by_cases hi : i = o
  · rw [hi, Function.update_self]
    exact hs
  · rw [Function.update_of_ne hi]
    exact hsockets i

/-- What `submit` does besides the post. -/
theorem submit_cases (hsubmit : r.submit maxSendWr worker o failure = some t) :
    ∃ filled, (r.sockets o).submit worker o r.side .posted = some filled ∧
      t = { (r.post maxSendWr o (filled.posted.map .chunk) failure).2.setSocket o filled.socket with
        side := filled.side } := by
  unfold submit at hsubmit
  split at hsubmit
  · cases hsubmit
  · rename_i filled hfilled
    dsimp only at hsubmit
    obtain ⟨ret, posted, hout⟩ := submit_of_posted hfilled
      (r.post maxSendWr o (filled.posted.map .chunk) failure).1
    rw [hout] at hsubmit
    cases hsubmit
    exact ⟨filled, hfilled, rfl⟩

/-- `submit` takes its chunks from the free ones, so that its queue has room for them: the requests
that are there already have other chunks. -/
theorem Kept.submit (h : r.Kept maxSendWr)
    (hsubmit : r.submit maxSendWr worker o failure = some t) :
    t.Kept maxSendWr ∧ t.refused = r.refused := by
  obtain ⟨filled, hfilled, rfl⟩ := submit_cases hsubmit
  obtain ⟨out, chunks, hout, hreserved, hordinary, -, hposted⟩ :=
    @submit_spec worker o r.side (r.sockets o) h.ready h.inflight_lt (h.ordinary o) .posted
  rw [hfilled] at hout
  obtain rfl := Option.some.inj hout
  obtain rfl : filled.posted = chunks := hposted
  obtain ⟨pending, pendingBl, hsocket⟩ := submit_socket hfilled
  have herror : filled.socket.error = (r.sockets o).error := by rw [hsocket]
  have hfree : filled.posted.length + filled.side.cluster.freeChunks.length =
      r.side.cluster.freeChunks.length := by
    have hcards := congrArg Multiset.card hreserved.addrs_eq
    rwa [Multiset.card_add, card_addrs, card_addrs, card_addrs] at hcards
  have hchunks := h.chunks_le
  have htaken := (ibvPostSend_taken_le (maxSendWr - r.outstanding o)
    (filled.posted.map TxWr.chunk).length failure).2
  have hnew (e : SendWr) (he : e ∈ ((filled.posted.map TxWr.chunk).take
      (ibvPostSend (maxSendWr - r.outstanding o) (filled.posted.map TxWr.chunk).length
        failure).taken).map (SendWr.mk o)) : ∃ c ∈ filled.posted, e = ⟨o, .chunk c⟩ := by
    obtain ⟨wr, hwr, rfl⟩ := List.mem_map.mp he
    obtain ⟨c, hc, rfl⟩ := List.mem_map.mp (List.mem_of_mem_take hwr)
    exact ⟨c, hc, rfl⟩
  constructor
  · refine ⟨hreserved.ready, ?_, fun i => ?_, ?_, fun i c hc => ?_, fun i q hq => ?_,
      outstanding_post_le r _ h.outstanding_le⟩
    · rw [hreserved.inflight_eq]
      exact Nat.mod_lt _ (by decide)
    · exact ordinary_update h.ordinary hordinary i
    · show filled.side.cluster.freeChunks.length + chunksQueued (r.sendQueue ++ _) ≤ maxSendWr
      unfold chunksQueued at hchunks ⊢
      rw [List.countP_append]
      refine Nat.le_trans (Nat.add_le_add_left (Nat.add_le_add_left List.countP_le_length _) _) ?_
      rw [List.length_map] at htaken
      rw [List.length_map, List.length_take, List.length_map]
      omega
    · rw [hreserved.bufferSize_eq]
      obtain hold | hmore := List.mem_append.mp hc
      · exact h.size_eq i c hold
      · obtain ⟨c', hc', heq⟩ := hnew _ hmore
        cases heq
        exact hreserved.size_eq c hc'
    · show (Function.update r.sockets o filled.socket i).error ≠ 0
      obtain hold | hmore := List.mem_append.mp hq
      · by_cases hi : i = o
        · rw [hi, Function.update_self, herror, ← hi]
          exact h.error_of_fin i q hold
        · rw [Function.update_of_ne hi]
          exact h.error_of_fin i q hold
      · obtain ⟨c, -, heq⟩ := hnew _ hmore
        cases heq
  · have hroom : (ibvPostSend (maxSendWr - r.outstanding o)
        (filled.posted.map TxWr.chunk).length failure).full = false := by
      rw [Bool.eq_false_iff]
      intro hfull
      have hlt := ibvPostSend_full hfull
      rw [List.length_map] at hlt
      by_cases hzero : (r.sockets o).error = 0
      · have hle := h.outstanding_le_chunksQueued hzero
        omega
      · unfold Socket.submit at hfilled
        rw [if_pos hzero] at hfilled
        cases hfilled
        exact absurd hlt (Nat.not_lt_zero _)
    show (if _ then _ else _) = _
    rw [hroom]
    rfl

/-- A disconnect message on the queue of a socket that has none there yet. -/
theorem Kept.fin (h : r.Kept maxSendWr) (s : Socket) (herror : s.error ≠ 0)
    (hordinary : Ordinary s.pendingBl.buffers) :
    ((r.fin maxSendWr o failure).setSocket o s).Kept maxSendWr := by
  have hnew (e : SendWr) (he : e ∈ (([TxWr.fin o]).take (ibvPostSend (maxSendWr - r.outstanding o)
      1 failure).taken).map (SendWr.mk o)) : e = ⟨o, .fin o⟩ := by
    obtain ⟨wr, hwr, rfl⟩ := List.mem_map.mp he
    rw [List.mem_singleton.mp (List.mem_of_mem_take hwr)]
  refine ⟨h.ready, h.inflight_lt, fun i => ?_, ?_, fun i c hc => ?_, fun i q hq => ?_,
    outstanding_post_le r _ h.outstanding_le⟩
  · exact ordinary_update h.ordinary hordinary i
  · show r.side.cluster.freeChunks.length + chunksQueued (r.sendQueue ++ _) ≤ maxSendWr
    have hnone : chunksQueued ((([TxWr.fin o]).take (ibvPostSend (maxSendWr - r.outstanding o) 1
        failure).taken).map (SendWr.mk o)) = 0 := by
      refine List.countP_eq_zero.mpr fun e he => ?_
      rw [hnew e he]
      exact Bool.false_ne_true
    have hchunks := h.chunks_le
    unfold chunksQueued at hchunks hnone ⊢
    rw [List.countP_append]
    exact hnone ▸ hchunks
  · obtain hold | hmore := List.mem_append.mp hc
    · exact h.size_eq i c hold
    · cases hnew _ hmore
  · show (Function.update r.sockets o s i).error ≠ 0
    by_cases hi : i = o
    · rw [hi, Function.update_self]
      exact herror
    · rw [Function.update_of_ne hi]
      obtain hold | hmore := List.mem_append.mp hq
      · exact h.error_of_fin i q hold
      · exact absurd (congrArg SendWr.qpNum (hnew _ hmore)) hi

/-- Another socket in the place of one, that has an error if that one has. -/
theorem Kept.setSocket (h : r.Kept maxSendWr) (s : Socket)
    (herror : (r.sockets o).error ≠ 0 → s.error ≠ 0) (hordinary : Ordinary s.pendingBl.buffers) :
    (r.setSocket o s).Kept maxSendWr := by
  refine ⟨h.ready, h.inflight_lt, fun i => ?_, h.chunks_le, h.size_eq, fun i q hq => ?_,
    h.outstanding_le⟩
  · exact ordinary_update h.ordinary hordinary i
  · show (Function.update r.sockets o s i).error ≠ 0
    have hfin := h.error_of_fin i q hq
    by_cases hi : i = o
    · rw [hi, Function.update_self]
      exact herror (hi ▸ hfin)
    · rw [Function.update_of_ne hi]
      exact hfin

/-- `shutdown` and `close` are refused a place for the disconnect message exactly on a full
queue. -/
theorem Kept.shutdown (h : r.Kept maxSendWr) :
    (r.shutdown maxSendWr o failure).Kept maxSendWr ∧
      ((r.shutdown maxSendWr o failure).refused = r.refused ↔
        ((r.sockets o).error = 0 → r.outstanding o < maxSendWr)) := by
  have hreset : econnreset ≠ 0 := by decide
  unfold SendQueues.shutdown
  by_cases herror : (r.sockets o).error = 0
  · rw [if_pos herror]
    refine ⟨h.fin _ hreset (h.ordinary o), ?_⟩
    have hfull := ibvPostSend_one (maxSendWr - r.outstanding o) failure
    have hle := h.outstanding_le o
    show (if (ibvPostSend (maxSendWr - r.outstanding o) 1 failure).full = true then _ else _) =
      _ ↔ _
    by_cases hroom : maxSendWr - r.outstanding o = 0
    · rw [if_pos (hfull.mpr hroom)]
      refine iff_of_false (fun heq => ?_) fun hlt => absurd (hlt herror) (by omega)
      exact List.cons_ne_nil o [] (List.append_right_eq_self.mp heq)
    · rw [if_neg fun hyes => hroom (hfull.mp hyes)]
      exact iff_of_true rfl fun _ => by omega
  · rw [if_neg herror]
    exact ⟨h.setSocket _ (fun _ => hreset) (h.ordinary o), iff_of_true rfl fun hzero =>
      absurd hzero herror⟩

/-- What the dispatcher leaves of the pool. -/
theorem handleTxEvent_side {side side' : TxSide} {cqe : List TxCompletion} {woken : Option ℕ}
    (hlt : side.inflight < 2 ^ 64) (hhandle : Rdma.handleTxEvent side cqe = some (woken, side')) :
    side'.cluster = side.cluster.takeBack (completedChunks cqe) ∧ side'.inflight < 2 ^ 64 := by
  unfold Rdma.handleTxEvent at hhandle
  split at hhandle
  · have heq : side' = (side.postTxBuffer (completedChunks cqe)).2 :=
      (congrArg Prod.snd (Option.some.inj hhandle)).symm
    rw [heq]
    unfold TxSide.postTxBuffer
    split
    · rename_i hnil
      rw [hnil]
      exact ⟨by simp [Cluster.takeBack], hlt⟩
    · rw [notifyPendingWorkers_cluster, notifyPendingWorkers_inflight]
      exact ⟨rfl, Nat.mod_lt _ (by decide)⟩
  · cases hhandle

/-- The chunks among the completed requests are those that go back. -/
theorem chunksQueued_completed (cqe : List TxCompletion) :
    chunksQueued (cqe.map TxCompletion.request) = (completedChunks cqe).length := by
  induction cqe with
  | nil => rfl
  | cons c rest ih =>
      obtain ⟨wr, success, qpNum⟩ := c
      unfold chunksQueued completedChunks at ih ⊢
      rw [List.map_cons, List.countP_cons, ih, List.filterMap_cons]
      cases wr with
      | chunk c => rfl
      | fin q => rfl

/-- Completed chunks go from the queues to the pool. -/
theorem Kept.handleTxEvent {conn : ℕ → Option ℕ} {cqe : List TxCompletion} (h : r.Kept maxSendWr)
    (hstep : r.step maxSendWr (.handleTxEvent conn cqe) = some t) :
    t.Kept maxSendWr ∧ t.refused = r.refused := by
  simp only [step] at hstep
  split at hstep
  · rename_i hle
    split at hstep
    · cases hstep
    · rename_i woken side hhandle
      cases hstep
      obtain ⟨hcluster, hinflight⟩ := handleTxEvent_side h.inflight_lt hhandle
      have hperm : r.sendQueue.Perm ((cqe.map TxCompletion.request) ++
          r.sendQueue.diff (cqe.map TxCompletion.request)) := by
        rw [← Multiset.coe_eq_coe, ← Multiset.coe_add, ← Multiset.coe_sub]
        exact (add_tsub_cancel_of_le hle).symm
      have hback (c : Chunk) (hc : c ∈ completedChunks cqe) :
          c.bytes = r.side.cluster.bufferSize := by
        obtain ⟨response, hresponse, hwr⟩ := List.mem_filterMap.mp hc
        refine h.size_eq response.qpNum c (hperm.mem_iff.mpr (List.mem_append_left _ ?_))
        refine List.mem_map.mpr ⟨response, hresponse, ?_⟩
        split at hwr
        · rename_i c' hchunk
          cases hwr
          exact congrArg (SendWr.mk response.qpNum) hchunk
        · cases hwr
      have hstays (e : SendWr) (he : e ∈ r.sendQueue.diff (cqe.map TxCompletion.request)) :
          e ∈ r.sendQueue := hperm.mem_iff.mpr (List.mem_append_right _ he)
      refine ⟨⟨?_, hinflight, fun i => ?_, ?_, fun i c hc => ?_, fun i q hq => ?_, fun i => ?_⟩,
        rfl⟩
      · dsimp only
        rw [hcluster]
        exact h.ready.takeBack hback
      · dsimp only
        split
        · exact h.ordinary i
        · exact h.ordinary i
      · have hcount := hperm.countP_eq (·.wr.isChunk)
        rw [List.countP_append] at hcount
        have hcompleted := chunksQueued_completed cqe
        have hchunks := h.chunks_le
        unfold chunksQueued at hcompleted hchunks ⊢
        dsimp only
        rw [hcluster]
        unfold Cluster.takeBack
        rw [List.length_append, List.length_map]
        omega
      · dsimp only
        rw [hcluster, Cluster.takeBack_bufferSize]
        exact h.size_eq i c (hstays _ hc)
      · dsimp only
        split
        · show econnreset ≠ 0
          decide
        · exact h.error_of_fin i q (hstays _ hq)
      · have hcount := hperm.countP_eq (·.qpNum = i)
        rw [List.countP_append] at hcount
        have hi := h.outstanding_le i
        unfold outstanding at hi ⊢
        dsimp only
        omega
  · cases hstep

/-- What a step keeps, and when it is refused a place. -/
theorem Kept.step {a : SendQueueAction} (h : r.Kept maxSendWr)
    (hstep : r.step maxSendWr a = some t) :
    t.Kept maxSendWr ∧ (t.refused = r.refused ↔ r.finFits maxSendWr a) := by
  cases a with
  | queue o bl =>
      simp only [SendQueues.step] at hstep
      split at hstep
      · rename_i hbl
        split at hstep
        · cases hstep
        · rename_i pendingBl happend
          cases hstep
          refine ⟨h.setSocket _ (fun herror => herror) ?_, iff_of_true rfl trivial⟩
          unfold Bufferlist.append at happend
          split at happend
          · cases happend
            intro b hb
            exact (List.mem_append.mp hb).elim (h.ordinary o b) (hbl b)
          · cases happend
      · cases hstep
  | submit worker o failure =>
      obtain ⟨hkept, hrefused⟩ := h.submit hstep
      exact ⟨hkept, iff_of_true hrefused trivial⟩
  | shutdown o failure =>
      cases hstep
      exact h.shutdown
  | close o failure =>
      cases hstep
      exact h.shutdown
  | handleTxEvent conn cqe =>
      obtain ⟨hkept, hrefused⟩ := h.handleTxEvent hstep
      exact ⟨hkept, iff_of_true hrefused trivial⟩

/-- **The send queues do not overflow as long as each disconnect message finds a place**, and
nothing else can be refused one: a step of such a run keeps this exactly if it meets the
condition. -/
theorem withinBounds_of_finFits (hreached :
    (sendQueueMachine maxSendWr).ReachedUnder (finFits maxSendWr) r) :
    r.WithinBounds maxSendWr ∧ ∀ a t, r.step maxSendWr a = some t →
      (t.WithinBounds maxSendWr ↔ r.finFits maxSendWr a) := by
  obtain ⟨hkept, hrefused⟩ : r.Kept maxSendWr ∧ r.refused = [] := by
    refine hreached.invariant (fun r => r.Kept maxSendWr ∧ r.refused = [])
      (fun r (hfresh : Fresh _ r) => ⟨.of_fresh hfresh, hfresh.refused⟩)
      fun r a t hr hok hstep => ?_
    obtain ⟨hkept, hiff⟩ := hr.1.step hstep
    exact ⟨hkept, (hiff.mpr hok).trans hr.2⟩
  refine ⟨⟨hkept.outstanding_le, hrefused⟩, fun a t hstep => ?_⟩
  obtain ⟨hkept', hiff⟩ := hkept.step hstep
  rw [hrefused] at hiff
  exact ⟨fun h => hiff.mp h.refused, fun hok => ⟨hkept'.outstanding_le, hiff.mpr hok⟩⟩

/-- Two chunks of two bytes, queues for two requests, and nothing sent yet. -/
def twoPlaces : SendQueues where
  side := ⟨⟨2, [.empty 100 2, .empty 200 2]⟩, 0, [], fun _ => []⟩
  sockets := fun _ => quietSocket
  sendQueue := []
  refused := []

theorem fresh_twoPlaces : twoPlaces.Fresh 2 where
  ready := ⟨by decide, by decide, by
    intro c hc
    rcases List.mem_pair.mp hc with rfl | rfl <;> exact ⟨rfl, rfl⟩⟩
  length_freeChunks := rfl
  inflight := rfl
  sendQueue := rfl
  refused := rfl
  ordinary _ b hb := by cases hb

/-- A chunk with the first two bytes of socket 7, as it is on the queue. -/
def firstSent : Chunk := ⟨200, 2, 0, 2, [1, 2], rfl⟩

/-- A socket sends over both chunks, one of them is completed, and then it is closed, with the
disconnect message; another socket sends over the free chunk. -/
theorem withinBounds_of_finFits_completed : ∃ r : SendQueues, r.outstanding 7 = 2 ∧
    r.outstanding 8 = 1 ∧ r.WithinBounds 2 := by
  obtain ⟨r, hreplay, hseven, height⟩ : ∃ r,
      (sendQueueMachine 2).replay (finFits 2) twoPlaces
        [.queue 7 ⟨[⟨[1, 2, 3], none⟩], by decide⟩, .submit 0 7 none,
          .handleTxEvent (fun _ => none) [⟨.chunk firstSent, true, 7⟩], .close 7 none,
          .queue 8 ⟨[⟨[4], none⟩], by decide⟩, .submit 0 8 none] = some r ∧
      r.outstanding 7 = 2 ∧ r.outstanding 8 = 1 := ⟨_, rfl, rfl, rfl⟩
  exact ⟨r, hseven, height,
    (withinBounds_of_finFits (.of_replay (.start fresh_twoPlaces) hreplay)).1⟩

/-- It is closed before the first completion: there is no place for the disconnect message. -/
theorem not_withinBounds_full : ∃ r, (sendQueueMachine 2).Reached r ∧ r.outstanding 7 = 2 ∧
    r.refused = [7] ∧ ¬ r.WithinBounds 2 := by
  obtain ⟨r, hreplay, hseven, hrefused⟩ : ∃ r,
      (sendQueueMachine 2).replay (fun _ _ => True) twoPlaces
        [.queue 7 ⟨[⟨[1, 2, 3], none⟩], by decide⟩, .submit 0 7 none, .close 7 none] = some r ∧
      r.outstanding 7 = 2 ∧ r.refused = [7] := ⟨_, rfl, rfl, rfl⟩
  refine ⟨r, .of_replay (.start fresh_twoPlaces) hreplay, hseven, hrefused, fun h => ?_⟩
  have hnone := h.refused
  rw [hrefused] at hnone
  cases hnone

end SendQueues

end HwAsync.Rdma
