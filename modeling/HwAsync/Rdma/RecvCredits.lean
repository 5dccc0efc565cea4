/-
# The credits of the shared receive queue

`Infiniband::init` posts a number of receive requests, and from then on every completed one is
replaced: at once by `polling`, or later by `post_chunk_to_pool`, which pays back what `polling`
could not post.  Either may get as few buffers as the pool has.

Every call of `post_chunks_to_srq` is kept with what it left, so that all chains of a run can be
looked at.  No buffer is in two places, and so none is posted twice.
-/

import HwAsync.Infiniband.RecvChain
import HwAsync.Rdma.Credits
import Mathlib.Data.List.Perm.Basic

namespace HwAsync.Rdma

open HwAsync.Lib HwAsync.Infiniband

/-- A call of `post_chunks_to_srq`, with the chunks as they lay in memory at that time. -/
structure RecvCall where
  num : ℕ
  head : ℕ → PlacedChunk
  call : PostCall RxPool

/-- The receive side of a dispatcher with its requests, and all calls so far. -/
structure RecvRun where
  pool : RxPool
  postBacklog : ℤ
  srq : List RecvRequest
  rxCq : List RxResponse
  wc : List RxResponse
  held : List ℕ
  calls : List RecvCall

/-- What happens next.  The adapter may complete any request; a call that posts has the blocks that
the pool may get in `growth`. -/
inductive RecvAction
  | receive (request : RecvRequest) (qpNum : UInt32) (success : Bool)
  | pollRx (n : ℕ)
  | handleRx (conns : UInt32 → Option ℕ) (growth : Growth) (head : ℕ → PlacedChunk)
  | postChunkToPool (chunk : ℕ) (growth : Growth) (head : ℕ → PlacedChunk)

namespace RecvRun

/-- The requests that a call posts. -/
def requests (call : PostCall RxPool) : List RecvRequest :=
  match call.arrays with
  | none => []
  | some arrays => arrays.posted.getD []

/-- `post_chunks_to_srq`, with what it returns. -/
def post (receiveBuffers : ℤ) (growth : Growth) (head : ℕ → PlacedChunk) (num : ℕ) (r : RecvRun) :
    ℕ × RecvRun :=
  let call := postChunksToSrq (RxPool.getRxBuffer receiveBuffers growth) head num r.pool
  (call.returned,
    { r with
      pool := call.pool
      srq := r.srq ++ requests call
      calls := r.calls ++ [⟨num, head, call⟩] })

/-- The body of the loop of `polling` over the completions. -/
def handleResponse (conns : UInt32 → Option ℕ) (r : RecvRun) (response : RxResponse) : RecvRun :=
  if response.success then
    match conns response.qpNum with
    | none => { r with pool := r.pool.releaseRxBuffer response.chunk }
    | some _ => { r with held := r.held ++ [response.chunk] }
  else { r with pool := r.pool.releaseRxBuffer response.chunk }

/-- The receive part of `polling` behind `poll_cq`. -/
def handleRx (receiveBuffers : ℤ) (conns : UInt32 → Option ℕ) (growth : Growth)
    (head : ℕ → PlacedChunk) (r : RecvRun) : RecvRun :=
  let rxRet := r.wc.length
  let (posted, r') := r.post receiveBuffers growth head rxRet
  r.wc.foldl (handleResponse conns)
    { r' with postBacklog := r.postBacklog + (rxRet - posted), wc := [] }

/-- `RDMADispatcher::post_chunk_to_pool`. -/
def postChunkToPool (receiveBuffers : ℤ) (growth : Growth) (head : ℕ → PlacedChunk) (chunk : ℕ)
    (r : RecvRun) : RecvRun :=
  let freed : RecvRun :=
    { r with pool := r.pool.releaseRxBuffer chunk, held := r.held.erase chunk }
  if r.postBacklog > 0 then
    let (posted, r') := freed.post receiveBuffers growth head r.postBacklog.toNat
    { r' with postBacklog := r.postBacklog - posted }
  else freed

/-- `poll_cq` returns any number of completions up to `MAX_COMPLETIONS`. -/
def step (receiveBuffers : ℤ) (r : RecvRun) : RecvAction → Option RecvRun
  | .receive request qpNum success =>
      if request ∈ r.srq then
        some { r with
          srq := r.srq.erase request
          rxCq := r.rxCq ++ [⟨request.wrId, qpNum, success⟩] }
      else none
  | .pollRx n =>
      if r.wc = [] ∧ n ≤ maxCompletions then
        some { r with rxCq := r.rxCq.drop n, wc := r.rxCq.take n }
      else none
  | .handleRx conns growth head =>
      if r.wc = [] then none else some (r.handleRx receiveBuffers conns growth head)
  | .postChunkToPool chunk growth head =>
      if chunk ∈ r.held then some (r.postChunkToPool receiveBuffers growth head chunk) else none

/-- `Infiniband::init`: the requests are posted from a new pool. -/
def init (receiveBuffers : ℤ) (growth : Growth) (head : ℕ → PlacedChunk) (rxQueueLen : ℕ) :
    RecvRun :=
  (post receiveBuffers growth head rxQueueLen ⟨⟨[], 0⟩, 0, [], [], [], [], []⟩).2

/-- Any run after an `init` that posted `credits` requests. -/
def machine (receiveBuffers : ℤ) (credits : ℕ) : Machine RecvRun RecvAction where
  start r := ∃ growth head rxQueueLen, 0 < rxQueueLen ∧
    r = init receiveBuffers growth head rxQueueLen ∧ r.srq.length = credits
  step := step receiveBuffers

/-! ## Where the buffers are -/

/-- The buffers of the pool, of the adapter, of the polling thread and of the sockets. -/
def buffers (r : RecvRun) : List ℕ :=
  r.pool.store ++ (r.srq.map RecvRequest.wrId ++
    (r.rxCq.map RxResponse.chunk ++ (r.wc.map RxResponse.chunk ++ r.held)))

/-- No buffer is in two places, and all of them have been allocated. -/
structure Owned (r : RecvRun) : Prop where
  nodup : r.buffers.Nodup
  allocated : ∀ c ∈ r.buffers, c < r.pool.nBufsAllocated

variable {receiveBuffers : ℤ} {growth : Growth} {head : ℕ → PlacedChunk}
  {conns : UInt32 → Option ℕ} {r t : RecvRun}

/-- A step that moves buffers from place to place. -/
theorem Owned.move (h : r.Owned) (hperm : t.buffers.Perm r.buffers)
    (hallocated : t.pool.nBufsAllocated = r.pool.nBufsAllocated) : t.Owned := by
  refine ⟨hperm.nodup_iff.mpr h.nodup, fun c hc => ?_⟩
  rw [hallocated]
  exact h.allocated c (hperm.mem_iff.mp hc)

/-- A buffer that a socket gives back. -/
theorem Owned.free (h : r.Owned) {chunk : ℕ} (hheld : chunk ∈ r.held) :
    Owned { r with pool := r.pool.releaseRxBuffer chunk, held := r.held.erase chunk } := by
  refine h.move (List.perm_iff_count.mpr fun c => ?_) rfl
  have herase := (List.perm_cons_erase hheld).count_eq c
  simp only [buffers, RxPool.releaseRxBuffer, List.count_append, List.count_cons] at herase ⊢
  omega

/-- What the pool hands out was free, or has just been allocated. -/
theorem getRxBuffer_eq {p q : RxPool} {chunk : ℕ}
    (h : p.getRxBuffer receiveBuffers growth = some (chunk, q)) :
    p.nBufsAllocated ≤ q.nBufsAllocated ∧
      chunk :: q.store =
        p.store ++ List.range' p.nBufsAllocated (q.nBufsAllocated - p.nBufsAllocated) := by
  unfold RxPool.getRxBuffer at h
  split at h
  · rename_i c store hstore
    cases h
    rw [hstore, Nat.sub_self, List.range'_zero, List.append_nil]
    exact ⟨le_rfl, rfl⟩
  · rename_i hstore
    unfold RxPool.slowMalloc at h
    split at h
    · cases h
    · rename_i nbufs memory hblock
      split at h
      · cases h
      · rename_i c store hrange
        cases h
        rw [hstore, List.nil_append, Nat.add_sub_cancel_left, hrange]
        exact ⟨Nat.le_add_right _ _, rfl⟩

/-- The same for all chunks of a call. -/
theorem perm_takeChunks (num : ℕ) (p : RxPool) :
    p.nBufsAllocated ≤
        (takeChunks (RxPool.getRxBuffer receiveBuffers growth) num p).2.nBufsAllocated ∧
      ((takeChunks (RxPool.getRxBuffer receiveBuffers growth) num p).1 ++
          (takeChunks (RxPool.getRxBuffer receiveBuffers growth) num p).2.store).Perm
        (p.store ++ List.range' p.nBufsAllocated
          ((takeChunks (RxPool.getRxBuffer receiveBuffers growth) num p).2.nBufsAllocated -
            p.nBufsAllocated)) := by
  induction num generalizing p with
  | zero => exact ⟨le_rfl, by simp [takeChunks]⟩
  | succ num ih =>
      rw [takeChunks]
      cases hget : p.getRxBuffer receiveBuffers growth with
      | none => exact ⟨le_rfl, by simp⟩
      | some got =>
          obtain ⟨chunk, q⟩ := got
          obtain ⟨hle, hchunk⟩ := getRxBuffer_eq hget
          obtain ⟨hle', hperm⟩ := ih q
          dsimp only
          refine ⟨hle.trans hle', ?_⟩
          generalize takeChunks (RxPool.getRxBuffer receiveBuffers growth) num q = out at hle' hperm
          have hrange : List.range' p.nBufsAllocated (q.nBufsAllocated - p.nBufsAllocated) ++
              List.range' q.nBufsAllocated (out.2.nBufsAllocated - q.nBufsAllocated) =
                List.range' p.nBufsAllocated (out.2.nBufsAllocated - p.nBufsAllocated) := by
            have hnext : q.nBufsAllocated =
                p.nBufsAllocated + 1 * (q.nBufsAllocated - p.nBufsAllocated) := by omega
            have hsum : out.2.nBufsAllocated - p.nBufsAllocated =
                q.nBufsAllocated - p.nBufsAllocated +
                  (out.2.nBufsAllocated - q.nBufsAllocated) := by omega
            rw [hsum, ← List.range'_append, ← hnext]
          rw [← hrange, ← List.append_assoc, ← hchunk]
          exact hperm.cons chunk

/-- The buffers that a call allocates are above all others. -/
theorem nodup_allocated (h : r.Owned) (count : ℕ) :
    (r.buffers ++ List.range' r.pool.nBufsAllocated count).Nodup := by
  refine List.Nodup.append h.nodup List.nodup_range' fun c hc hrange => ?_
  exact absurd (h.allocated c hc) (Nat.not_lt.mpr (List.mem_range'_1.mp hrange).1)

theorem nodup_takeChunks (h : r.Owned) (num : ℕ) :
    (takeChunks (RxPool.getRxBuffer receiveBuffers growth) num r.pool).1.Nodup := by
  obtain ⟨-, hperm⟩ := @perm_takeChunks receiveBuffers growth num r.pool
  have hfree : (r.pool.store ++ List.range' r.pool.nBufsAllocated
      ((takeChunks (RxPool.getRxBuffer receiveBuffers growth) num r.pool).2.nBufsAllocated -
        r.pool.nBufsAllocated)).Nodup :=
    (nodup_allocated h _).sublist ((List.sublist_append_left ..).append (List.Sublist.refl _))
  exact (List.nodup_append.mp (hperm.nodup_iff.mpr hfree)).1

/-- A call posts the requests for the chunks that it takes, and returns how many these are. -/
theorem post_eq (h : r.Owned) {num : ℕ} (hnum : 0 < num) :
    r.post receiveBuffers growth head num =
      ((takeChunks (RxPool.getRxBuffer receiveBuffers growth) num r.pool).1.length,
        { r with
          pool := (takeChunks (RxPool.getRxBuffer receiveBuffers growth) num r.pool).2
          srq := r.srq ++
            (takeChunks (RxPool.getRxBuffer receiveBuffers growth) num r.pool).1.map
              (chunkRequest head)
          calls := r.calls ++ [⟨num, head,
            postChunksToSrq (RxPool.getRxBuffer receiveBuffers growth) head num r.pool⟩] }) := by
  obtain ⟨hproper, htaken, hpool⟩ := @postChunksToSrq_spec _
    (RxPool.getRxBuffer receiveBuffers growth) head num hnum r.pool (nodup_takeChunks h num)
  have hrequests : requests
      (postChunksToSrq (RxPool.getRxBuffer receiveBuffers growth) head num r.pool) =
        (takeChunks (RxPool.getRxBuffer receiveBuffers growth) num r.pool).1.map
          (chunkRequest head) := by
    rw [← htaken]
    unfold requests
    split
    · rename_i hnone
      rw [hproper.called.mp hnone, List.map_nil]
    · rename_i arrays hsome
      rw [hproper.posted arrays hsome, Option.getD_some]
  rw [post, hproper.returned, hrequests, htaken, hpool]

/-- What a call leaves where no buffer is in two places. -/
theorem post_spec (h : r.Owned) {num : ℕ} (hnum : 0 < num) :
    (postChunksToSrq (RxPool.getRxBuffer receiveBuffers growth) head num r.pool).Proper head num ∧
      (r.post receiveBuffers growth head num).2.Owned ∧
      (r.post receiveBuffers growth head num).1 ≤ num ∧
      (r.post receiveBuffers growth head num).2.srq.length =
        r.srq.length + (r.post receiveBuffers growth head num).1 := by
  obtain ⟨hproper, htaken, -⟩ := @postChunksToSrq_spec _
    (RxPool.getRxBuffer receiveBuffers growth) head num hnum r.pool (nodup_takeChunks h num)
  obtain ⟨hle, hperm⟩ := @perm_takeChunks receiveBuffers growth num r.pool
  have hnum' := hproper.le_num
  rw [htaken] at hnum'
  refine ⟨hproper, ?_, ?_, ?_⟩
  · have hbuffers : (r.post receiveBuffers growth head num).2.buffers.Perm
        (r.buffers ++ List.range' r.pool.nBufsAllocated
          ((takeChunks (RxPool.getRxBuffer receiveBuffers growth) num r.pool).2.nBufsAllocated -
            r.pool.nBufsAllocated)) := by
      refine List.perm_iff_count.mpr fun c => ?_
      have hcount := hperm.count_eq c
      have hids : ((takeChunks (RxPool.getRxBuffer receiveBuffers growth) num r.pool).1.map
          (chunkRequest head)).map RecvRequest.wrId =
            (takeChunks (RxPool.getRxBuffer receiveBuffers growth) num r.pool).1 := by
        rw [List.map_map]
        exact List.map_id _
      rw [post_eq h hnum]
      simp only [buffers, List.map_append, hids, List.count_append] at hcount ⊢
      omega
    refine ⟨hbuffers.nodup_iff.mpr (nodup_allocated h _), fun c hc => ?_⟩
    have hmem := List.mem_append.mp (hbuffers.mem_iff.mp hc)
    rw [post_eq h hnum]
    dsimp only
    rcases hmem with hold | hrange
    · exact (h.allocated c hold).trans_le hle
    · have hlt := (List.mem_range'_1.mp hrange).2
      omega
  · rw [post_eq h hnum]
    exact hnum'
  · rw [post_eq h hnum]
    dsimp only
    rw [List.length_append, List.length_map]

/-- What a completion does: its buffer goes back to the pool or to a socket. -/
theorem handleResponse_spec (conns : UInt32 → Option ℕ) (r : RecvRun) (response : RxResponse) :
    (r.handleResponse conns response).postBacklog = r.postBacklog ∧
      (r.handleResponse conns response).srq = r.srq ∧
      (r.handleResponse conns response).rxCq = r.rxCq ∧
      (r.handleResponse conns response).wc = r.wc ∧
      (r.handleResponse conns response).calls = r.calls ∧
      (r.handleResponse conns response).pool.nBufsAllocated = r.pool.nBufsAllocated ∧
      (r.handleResponse conns response).buffers.Perm (response.chunk :: r.buffers) := by
  have hreleased : ∀ c : ℕ, ({ r with pool := r.pool.releaseRxBuffer c } : RecvRun).buffers.Perm
      (c :: r.buffers) := fun _ => .rfl
  unfold handleResponse
  split
  · split
    · exact ⟨rfl, rfl, rfl, rfl, rfl, rfl, hreleased _⟩
    · refine ⟨rfl, rfl, rfl, rfl, rfl, rfl, List.perm_iff_count.mpr fun c => ?_⟩
      simp only [buffers, List.count_append, List.count_cons, List.count_nil]
      omega
  · exact ⟨rfl, rfl, rfl, rfl, rfl, rfl, hreleased _⟩

theorem foldl_handleResponse_spec (conns : UInt32 → Option ℕ) (batch : List RxResponse)
    (r : RecvRun) :
    (batch.foldl (handleResponse conns) r).postBacklog = r.postBacklog ∧
      (batch.foldl (handleResponse conns) r).srq = r.srq ∧
      (batch.foldl (handleResponse conns) r).rxCq = r.rxCq ∧
      (batch.foldl (handleResponse conns) r).wc = r.wc ∧
      (batch.foldl (handleResponse conns) r).calls = r.calls ∧
      (batch.foldl (handleResponse conns) r).pool.nBufsAllocated = r.pool.nBufsAllocated ∧
      (batch.foldl (handleResponse conns) r).buffers.Perm
        (batch.map RxResponse.chunk ++ r.buffers) := by
  induction batch generalizing r with
  | nil => exact ⟨rfl, rfl, rfl, rfl, rfl, rfl, .rfl⟩
  | cons response batch ih =>
      obtain ⟨hbacklog, hsrq, hcq, hwc, hcalls, hallocated, hperm⟩ :=
        handleResponse_spec conns r response
      obtain ⟨hbacklog', hsrq', hcq', hwc', hcalls', hallocated', hperm'⟩ :=
        ih (r.handleResponse conns response)
      refine ⟨hbacklog'.trans hbacklog, hsrq'.trans hsrq, hcq'.trans hcq, hwc'.trans hwc,
        hcalls'.trans hcalls, hallocated'.trans hallocated, ?_⟩
      exact hperm'.trans ((hperm.append_left _).trans List.perm_middle)

/-! ## The runs -/

/-- The requests that are posted, completed or owed are those of `init`, what is owed is never
negative, and every call was for one request at least and posted a proper chain. -/
structure Conserved (credits : ℕ) (r : RecvRun) : Prop where
  credits_eq : (r.srq.length + r.rxCq.length + r.wc.length : ℤ) + r.postBacklog = credits
  backlog_nonneg : 0 ≤ r.postBacklog
  calls : ∀ c ∈ r.calls, 0 < c.num ∧ c.call.Proper c.head c.num
  owned : r.Owned

/-- What `init` posts are the credits. -/
theorem conserved_init {rxQueueLen : ℕ} (hpos : 0 < rxQueueLen) :
    (init receiveBuffers growth head rxQueueLen).Conserved
      (init receiveBuffers growth head rxQueueLen).srq.length := by
  have howned : Owned ⟨⟨[], 0⟩, 0, [], [], [], [], []⟩ :=
    ⟨List.nodup_nil, fun c hc => absurd hc List.not_mem_nil⟩
  obtain ⟨hproper, howned', -, -⟩ := @post_spec receiveBuffers growth head _ howned _ hpos
  refine ⟨?_, le_rfl, ?_, howned'⟩
  · show ((init receiveBuffers growth head rxQueueLen).srq.length + 0 + 0 : ℤ) + 0 = _
    omega
  · intro c hc
    obtain rfl := List.mem_singleton.mp hc
    exact ⟨hpos, hproper⟩

theorem Conserved.handleRx {credits : ℕ} (h : r.Conserved credits) (hwc : r.wc ≠ []) :
    (r.handleRx receiveBuffers conns growth head).Conserved credits := by
  have hnum : 0 < r.wc.length := List.length_pos_iff.mpr hwc
  obtain ⟨hproper, howned, hle, hsrq⟩ := @post_spec receiveBuffers growth head _ h.owned _ hnum
  have hcredits := h.credits_eq
  have hnonneg := h.backlog_nonneg
  unfold RecvRun.handleRx
  dsimp only
  obtain ⟨hbacklog', hsrq', hcq', hwc', hcalls', hallocated', hperm'⟩ :=
    foldl_handleResponse_spec conns r.wc
      { (r.post receiveBuffers growth head r.wc.length).2 with
        postBacklog := r.postBacklog +
          (r.wc.length - (r.post receiveBuffers growth head r.wc.length).1)
        wc := [] }
  refine ⟨?_, ?_, ?_, ?_⟩
  · rw [hbacklog', hsrq', hcq', hwc']
    show (((r.post receiveBuffers growth head r.wc.length).2.srq.length : ℤ) +
      r.rxCq.length + 0) + (r.postBacklog + _) = credits
    omega
  · rw [hbacklog']
    show 0 ≤ r.postBacklog + _
    omega
  · rw [hcalls']
    intro c hc
    rcases List.mem_append.mp hc with hold | hnew
    · exact h.calls c hold
    · obtain rfl := List.mem_singleton.mp hnew
      exact ⟨hnum, hproper⟩
  · -- the completions that were in hand are now in the pool or at the sockets
    refine howned.move (hperm'.trans (List.perm_iff_count.mpr fun c => ?_)) hallocated'
    simp only [buffers, post, List.count_append, List.map_nil, List.count_nil]
    omega

theorem Conserved.postChunkToPool {credits chunk : ℕ} (h : r.Conserved credits)
    (hheld : chunk ∈ r.held) :
    (r.postChunkToPool receiveBuffers growth head chunk).Conserved credits := by
  have hfreed := h.owned.free hheld
  have hcredits := h.credits_eq
  have hnonneg := h.backlog_nonneg
  unfold RecvRun.postChunkToPool
  dsimp only
  split
  · rename_i howed
    have hnum : 0 < r.postBacklog.toNat := by omega
    obtain ⟨hproper, howned, hle, hsrq⟩ := @post_spec receiveBuffers growth head _ hfreed _ hnum
    refine ⟨?_, ?_, ?_, ⟨howned.nodup, howned.allocated⟩⟩
    · show ((_ : List RecvRequest).length + r.rxCq.length + r.wc.length : ℤ) + _ = credits
      dsimp only at hsrq hle ⊢
      omega
    · dsimp only at hle ⊢
      omega
    · intro c hc
      rcases List.mem_append.mp hc with hold | hnew
      · exact h.calls c hold
      · obtain rfl := List.mem_singleton.mp hnew
        exact ⟨hnum, hproper⟩
  · exact ⟨hcredits, hnonneg, h.calls, hfreed⟩

/-- The step lemma. -/
theorem Conserved.step {credits : ℕ} {a : RecvAction} (h : r.Conserved credits)
    (hstep : r.step receiveBuffers a = some t) : t.Conserved credits := by
  have hcredits := h.credits_eq
  cases a with
  | receive request qpNum success =>
      simp only [RecvRun.step, Option.ite_none_right_eq_some, Option.some.injEq] at hstep
      obtain ⟨hmem, rfl⟩ := hstep
      have hperm := List.perm_cons_erase hmem
      refine ⟨?_, h.backlog_nonneg, h.calls, h.owned.move ?_ rfl⟩
      · have hlength := hperm.length_eq
        simp only [List.length_append, List.length_cons, List.length_nil] at hlength ⊢
        omega
      · refine List.perm_iff_count.mpr fun c => ?_
        have hcount := (hperm.map RecvRequest.wrId).count_eq c
        simp only [buffers, List.map_append, List.map_cons, List.map_nil, List.count_append,
          List.count_cons, List.count_nil] at hcount ⊢
        omega
  | pollRx n =>
      simp only [RecvRun.step, Option.ite_none_right_eq_some, Option.some.injEq] at hstep
      obtain ⟨⟨hwc, -⟩, rfl⟩ := hstep
      rw [hwc, List.length_nil] at hcredits
      refine ⟨?_, h.backlog_nonneg, h.calls, h.owned.move ?_ rfl⟩
      · have hlength := congrArg List.length (List.take_append_drop n r.rxCq)
        rw [List.length_append] at hlength
        dsimp only
        omega
      · refine List.perm_iff_count.mpr fun c => ?_
        have hcount := congrArg (fun l => (l.map RxResponse.chunk).count c)
          (List.take_append_drop n r.rxCq)
        simp only [buffers, hwc, List.map_append, List.map_nil, List.count_append,
          List.count_nil] at hcount ⊢
        omega
  | handleRx conns growth head =>
      simp only [RecvRun.step, Option.ite_none_left_eq_some, Option.some.injEq] at hstep
      obtain ⟨hwc, rfl⟩ := hstep
      exact h.handleRx hwc
  | postChunkToPool chunk growth head =>
      simp only [RecvRun.step, Option.ite_none_right_eq_some, Option.some.injEq] at hstep
      obtain ⟨hheld, rfl⟩ := hstep
      exact h.postChunkToPool hheld

/-- **The credits.**  In every run the requests that `init` posted are posted, completed, in the
hands of `polling` or owed; what is owed is never negative; and every call of `post_chunks_to_srq`
was for one request at least, and posted exactly the chunks it took from the pool, each once, as one
chain that ends. -/
theorem conserved_of_reached {credits : ℕ} (hreached : (machine receiveBuffers credits).Reached r) :
    ((r.srq.length + r.rxCq.length + r.wc.length : ℤ) + r.postBacklog = credits ∧
      (r.wc = [] → (r.srq.length + r.rxCq.length : ℤ) + r.postBacklog = credits)) ∧
      0 ≤ r.postBacklog ∧
      ∀ c ∈ r.calls, 0 < c.num ∧ c.call.Proper c.head c.num := by
  have h : r.Conserved credits := by
    apply hreached.invariant (Conserved credits)
    · rintro r ⟨growth, head, rxQueueLen, hpos, rfl, hcredits⟩
      rw [← hcredits]
      exact conserved_init hpos
    · exact fun r a t h _ hstep => h.step hstep
  have hcredits := h.credits_eq
  refine ⟨⟨hcredits, fun hwc => ?_⟩, h.backlog_nonneg, h.calls⟩
  rw [hwc, List.length_nil] at hcredits
  omega

/-! ## The runs without the requests -/

/-- The run as the one that counts: of a request there is the buffer. -/
def toCreditRun (r : RecvRun) : CreditRun :=
  ⟨r.pool, r.postBacklog.toNat, r.srq.map RecvRequest.wrId, r.rxCq, r.wc, r.held⟩

/-- What happens in it. -/
def toCreditAction : RecvAction → CreditAction
  | .receive _ qpNum success => .receive qpNum success
  | .pollRx _ => .pollRx
  | .handleRx conns growth _ => .handleRx conns growth
  | .postChunkToPool chunk growth _ => .postChunkToPool chunk growth

/-- The adapter completes the oldest request, and `poll_cq` returns as many completions as it
may. -/
def InOrder (r : RecvRun) : RecvAction → Prop
  | .receive request _ _ => r.srq.head? = some request
  | .pollRx n => n = maxCompletions
  | _ => True

/-- A call posts the same buffers in both. -/
theorem toCreditRun_post (h : r.Owned) {num : ℕ} (hnum : 0 < num) :
    r.toCreditRun.postChunksToSrq receiveBuffers growth num =
      ((r.post receiveBuffers growth head num).1,
        (r.post receiveBuffers growth head num).2.toCreditRun) := by
  have hids : ∀ taken : List ℕ,
      (taken.map (chunkRequest head)).map RecvRequest.wrId = taken := by
    intro taken
    rw [List.map_map]
    exact List.map_id _
  rw [post_eq h hnum, takeChunks_getRxBuffer]
  simp only [CreditRun.postChunksToSrq, toCreditRun, List.map_append, hids]

theorem toCreditRun_foldl (batch : List RxResponse) (r : RecvRun) :
    (batch.foldl (handleResponse conns) r).toCreditRun =
      batch.foldl (CreditRun.handleResponse conns) r.toCreditRun := by
  induction batch generalizing r with
  | nil => rfl
  | cons response batch ih =>
      rw [List.foldl_cons, List.foldl_cons, ih]
      congr 1
      unfold handleResponse CreditRun.handleResponse
      split
      · cases conns response.qpNum with
        | none => rfl
        | some o => rfl
      · rfl

/-- The receive part of `polling` is that of the run that counts. -/
theorem toCreditRun_handleRx (h : r.Owned) (hnonneg : 0 ≤ r.postBacklog) (hwc : r.wc ≠ []) :
    (r.handleRx receiveBuffers conns growth head).toCreditRun =
      r.toCreditRun.handleRx receiveBuffers conns growth := by
  have hnum : 0 < r.wc.length := List.length_pos_iff.mpr hwc
  obtain ⟨-, -, hle, -⟩ := @post_spec receiveBuffers growth head _ h _ hnum
  have hpost := @toCreditRun_post receiveBuffers growth head _ h _ hnum
  unfold handleRx CreditRun.handleRx
  dsimp only
  rw [toCreditRun_foldl, show r.toCreditRun.wc = r.wc from rfl, hpost]
  congr 1
  have hbacklog : (r.postBacklog + (r.wc.length - (r.post receiveBuffers growth head
      r.wc.length).1 : ℤ)).toNat = r.postBacklog.toNat +
        (r.wc.length - (r.post receiveBuffers growth head r.wc.length).1) := by omega
  simp only [toCreditRun, hbacklog]

/-- So is `post_chunk_to_pool`. -/
theorem toCreditRun_postChunkToPool {chunk : ℕ} (h : r.Owned) (hnonneg : 0 ≤ r.postBacklog)
    (hheld : chunk ∈ r.held) :
    (r.postChunkToPool receiveBuffers growth head chunk).toCreditRun =
      r.toCreditRun.postChunkToPool receiveBuffers growth chunk := by
  unfold postChunkToPool CreditRun.postChunkToPool
  dsimp only
  by_cases howed : r.postBacklog > 0
  · have hnum : 0 < r.postBacklog.toNat := by omega
    have hpost := @toCreditRun_post receiveBuffers growth head _ (h.free hheld) _ hnum
    obtain ⟨-, -, hle, -⟩ := @post_spec receiveBuffers growth head _ (h.free hheld) _ hnum
    have hsame : ({ r.toCreditRun with
        pool := r.toCreditRun.pool.releaseRxBuffer chunk
        held := r.toCreditRun.held.erase chunk } : CreditRun) =
      toCreditRun { r with pool := r.pool.releaseRxBuffer chunk, held := r.held.erase chunk } := rfl
    rw [if_pos howed, if_pos (show 0 < r.toCreditRun.postBacklog from hnum), hsame,
      show r.toCreditRun.postBacklog = r.postBacklog.toNat from rfl, hpost]
    have hbacklog : (r.postBacklog - ((post receiveBuffers growth head r.postBacklog.toNat
        { r with pool := r.pool.releaseRxBuffer chunk, held := r.held.erase chunk }).1 : ℤ)).toNat =
          r.postBacklog.toNat - (post receiveBuffers growth head r.postBacklog.toNat
            { r with pool := r.pool.releaseRxBuffer chunk, held := r.held.erase chunk }).1 := by
      omega
    simp only [toCreditRun, hbacklog]
  · rw [if_neg howed, if_neg (show ¬ 0 < r.toCreditRun.postBacklog by
      show ¬ 0 < r.postBacklog.toNat
      omega)]
    rfl

/-- The step lemma: a step in order is one of the run that counts. -/
theorem toCreditRun_step {credits : ℕ} (h : r.Conserved credits) {a : RecvAction}
    (horder : r.InOrder a) (hstep : r.step receiveBuffers a = some t) :
    r.toCreditRun.step receiveBuffers (toCreditAction a) = some t.toCreditRun := by
  cases a with
  | receive request qpNum success =>
      simp only [RecvRun.step, Option.ite_none_right_eq_some, Option.some.injEq] at hstep
      obtain ⟨-, rfl⟩ := hstep
      obtain ⟨rest, hsrq⟩ := List.head?_eq_some_iff.mp horder
      simp only [toCreditAction, CreditRun.step, toCreditRun, hsrq, List.map_cons,
        List.erase_cons_head]
  | pollRx n =>
      simp only [RecvRun.step, Option.ite_none_right_eq_some, Option.some.injEq] at hstep
      obtain ⟨⟨hwc, -⟩, rfl⟩ := hstep
      obtain rfl : n = maxCompletions := horder
      simp only [toCreditAction, CreditRun.step, toCreditRun, hwc, if_true]
  | handleRx conns growth head =>
      simp only [RecvRun.step, Option.ite_none_left_eq_some, Option.some.injEq] at hstep
      obtain ⟨hwc, rfl⟩ := hstep
      have hsame : r.toCreditRun.wc ≠ [] := hwc
      rw [toCreditAction, CreditRun.step, if_neg hsame,
        toCreditRun_handleRx h.owned h.backlog_nonneg hwc]
  | postChunkToPool chunk growth head =>
      simp only [RecvRun.step, Option.ite_none_right_eq_some, Option.some.injEq] at hstep
      obtain ⟨hheld, rfl⟩ := hstep
      have hsame : chunk ∈ r.toCreditRun.held := hheld
      rw [toCreditAction, CreditRun.step, if_pos hsame,
        toCreditRun_postChunkToPool h.owned h.backlog_nonneg hheld]

/-- **Both are runs of one dispatcher.**  A run in order is, without the requests, one that counts,
under whatever condition on the latter. -/
theorem toCreditRun_of_reached {credits : ℕ} {ok : CreditRun → CreditAction → Prop}
    (hreached : (machine receiveBuffers credits).ReachedUnder
      (fun r a => r.InOrder a ∧ ok r.toCreditRun (toCreditAction a)) r) :
    (CreditRun.machine receiveBuffers credits).ReachedUnder ok r.toCreditRun := by
  have hboth : r.Conserved credits ∧
      (CreditRun.machine receiveBuffers credits).ReachedUnder ok r.toCreditRun := by
    refine hreached.invariant (fun r => r.Conserved credits ∧
      (CreditRun.machine receiveBuffers credits).ReachedUnder ok r.toCreditRun) ?_ ?_
    · rintro r ⟨growth, head, rxQueueLen, hpos, rfl, hcredits⟩
      refine ⟨hcredits ▸ conserved_init hpos, .start ⟨?_, rfl, rfl, rfl⟩⟩
      exact (List.length_map _).trans hcredits
    · rintro r a t ⟨h, hcounts⟩ ⟨horder, hok⟩ hstep
      exact ⟨h.step hstep, hcounts.step hok (toCreditRun_step h horder hstep)⟩
  exact hboth.2

/-- So no buffer is free while requests are owed, if every batch meets the condition. -/
theorem unstarved_of_inOrder {credits : ℕ}
    (hreached : (machine receiveBuffers credits).ReachedUnder
      (fun r a => r.InOrder a ∧ r.toCreditRun.Sustains receiveBuffers (toCreditAction a)) r)
    (howed : 0 < r.postBacklog) : r.pool.store = [] := by
  have hunstarved := CreditRun.unstarved_of_sustained (toCreditRun_of_reached hreached)
  exact hunstarved (Int.lt_toNat.mpr howed)

/-- Chunks of 128 bytes in a row. -/
def inRow (chunk : ℕ) : PlacedChunk :=
  ⟨⟨7, 128, 0, 4128 + 160 * chunk⟩, 4096 + 160 * chunk⟩

/-- Two requests from a pool of two buffers. -/
def twoPosted : RecvRun := init 2 (fun _ => [(2, true)]) inRow 2

/-- Both requests complete while the pool is empty, and the first buffer that comes back makes a
chain of one request, cut behind it. -/
theorem conserved_of_reached_dry :
    ∃ r : RecvRun, (machine 2 2).Reached r ∧ r.postBacklog = 1 ∧ r.srq.map RecvRequest.wrId = [0] ∧
      r.calls.map (fun c => (c.num, c.call.taken)) = [(2, [0, 1]), (2, []), (2, [0])] ∧
      ∀ c ∈ r.calls, 0 < c.num ∧ c.call.Proper c.head c.num := by
  obtain ⟨r, hreplay, hbacklog, hsrq, hcalls⟩ :
      ∃ r, (machine 2 2).replay (fun _ _ => True) twoPosted
        [.receive (chunkRequest inRow 0) 5 true,
          .receive (chunkRequest inRow 1) 5 true, .pollRx 2,
          .handleRx (fun _ => some 0) (fun _ => []) inRow,
          .postChunkToPool 0 (fun _ => []) inRow] = some r ∧
        r.postBacklog = 1 ∧ r.srq.map RecvRequest.wrId = [0] ∧
        r.calls.map (fun c => (c.num, c.call.taken)) = [(2, [0, 1]), (2, []), (2, [0])] :=
    ⟨_, rfl, rfl, rfl, rfl⟩
  have hreached : (machine 2 2).Reached r :=
    .of_replay (.start ⟨_, _, 2, by decide, rfl, rfl⟩) hreplay
  exact ⟨r, hreached, hbacklog, hsrq, hcalls, (conserved_of_reached hreached).2.2⟩

end RecvRun

end HwAsync.Rdma
