/-
# Receive requests that are owed

Every completed receive request is replaced by a new one.  When the pool of receive buffers does not
have enough of them, the dispatcher keeps the number it still owes, and `post_chunk_to_pool` posts
them as buffers come back from the sockets.  The buffers of failed completions, and of those whose
connection is gone, go back to the pool without that.

The adapter, the sockets and the polling thread take their steps in any order.  What is under the
lock of the dispatcher is one step.
-/

import HwAsync.Infiniband.RxPool
import HwAsync.Lib.Run
import HwAsync.Rdma.Polling

namespace HwAsync.Rdma

open HwAsync.Lib HwAsync.Infiniband

/-- An entry of the completion queue of receives. -/
structure RxResponse where
  chunk : ℕ
  qpNum : UInt32
  success : Bool
  deriving DecidableEq, Repr

/-- The buffer of the completion goes back to the pool at once. -/
def RxResponse.Returned (conns : UInt32 → Option ℕ) (response : RxResponse) : Prop :=
  response.success = false ∨ conns response.qpNum = none

instance (conns : UInt32 → Option ℕ) (response : RxResponse) :
    Decidable (response.Returned conns) := inferInstanceAs (Decidable (_ ∨ _))

/-- The receive side of the dispatcher, with the shared receive queue, the completion queue, the
completions that `polling` took from it, and the buffers that the sockets hold. -/
structure CreditRun where
  pool : RxPool
  postBacklog : ℕ
  srq : List ℕ
  rxCq : List RxResponse
  wc : List RxResponse
  held : List ℕ
  deriving DecidableEq, Repr

/-- What happens next.  `conns` is `get_conn_lockless` at that moment. -/
inductive CreditAction
  | receive (qpNum : UInt32) (success : Bool)
  | pollRx
  | handleRx (conns : UInt32 → Option ℕ) (growth : Growth)
  | postChunkToPool (chunk : ℕ) (growth : Growth)

namespace CreditRun

/-- `post_chunks_to_srq`, with how many it posted. -/
def postChunksToSrq (receiveBuffers : ℤ) (growth : Growth) (num : ℕ) (r : CreditRun) :
    ℕ × CreditRun :=
  let (chunks, pool) := r.pool.postChunksToSrq receiveBuffers growth num
  (chunks.length, { r with pool := pool, srq := r.srq ++ chunks })

/-- The body of the loop over the completions. -/
def handleResponse (conns : UInt32 → Option ℕ) (r : CreditRun) (response : RxResponse) :
    CreditRun :=
  if response.success then
    match conns response.qpNum with
    | none => { r with pool := r.pool.releaseRxBuffer response.chunk }
    | some _ => { r with held := r.held ++ [response.chunk] }
  else { r with pool := r.pool.releaseRxBuffer response.chunk }

/-- The receive completions of one poll. -/
def handleRx (receiveBuffers : ℤ) (conns : UInt32 → Option ℕ) (growth : Growth)
    (r : CreditRun) : CreditRun :=
  let rxRet := r.wc.length
  let (posted, r') := r.postChunksToSrq receiveBuffers growth rxRet
  r.wc.foldl (handleResponse conns)
    { r' with postBacklog := r.postBacklog + (rxRet - posted), wc := [] }

/-- `RDMADispatcher::post_chunk_to_pool`. -/
def postChunkToPool (receiveBuffers : ℤ) (growth : Growth) (chunk : ℕ) (r : CreditRun) :
    CreditRun :=
  let freed : CreditRun :=
    { r with pool := r.pool.releaseRxBuffer chunk, held := r.held.erase chunk }
  if 0 < r.postBacklog then
    let (posted, r') := freed.postChunksToSrq receiveBuffers growth r.postBacklog
    { r' with postBacklog := r.postBacklog - posted }
  else freed

def step (receiveBuffers : ℤ) (r : CreditRun) : CreditAction → Option CreditRun
  | .receive qpNum success =>
      match r.srq with
      | [] => none
      | chunk :: srq =>
          some { r with srq := srq, rxCq := r.rxCq ++ [⟨chunk, qpNum, success⟩] }
  | .pollRx =>
      if r.wc = [] then
        some { r with rxCq := r.rxCq.drop maxCompletions, wc := r.rxCq.take maxCompletions }
      else none
  | .handleRx conns growth =>
      if r.wc = [] then none else some (r.handleRx receiveBuffers conns growth)
  | .postChunkToPool chunk growth =>
      if chunk ∈ r.held then some (r.postChunkToPool receiveBuffers growth chunk) else none

/-- As it is after the start: `credits` requests are on the shared receive queue. -/
structure Fresh (credits : ℕ) (r : CreditRun) : Prop where
  srq : r.srq.length = credits
  postBacklog : r.postBacklog = 0
  rxCq : r.rxCq = []
  wc : r.wc = []

/-- The receive side of a dispatcher with a limit on the buffers. -/
def machine (receiveBuffers : ℤ) (credits : ℕ) : Machine CreditRun CreditAction :=
  ⟨Fresh credits, step receiveBuffers⟩

/-- No buffer is free while receive requests are owed. -/
def Unstarved (r : CreditRun) : Prop := 0 < r.postBacklog → r.pool.store = []

/-- Nothing is owed and the pool has a buffer for every completion; or none of the completions gives
its buffer back, and the pool does not have more than one for each. -/
def Sustains (receiveBuffers : ℤ) (r : CreditRun) : CreditAction → Prop
  | .handleRx conns growth =>
      (r.postBacklog = 0 ∧ r.wc.length ≤ r.pool.supply receiveBuffers growth r.wc.length) ∨
        (r.pool.supply receiveBuffers growth r.wc.length ≤ r.wc.length ∧
          ∀ response ∈ r.wc, ¬ response.Returned conns)
  | _ => True

instance (receiveBuffers : ℤ) (r : CreditRun) : DecidablePred (r.Sustains receiveBuffers)
  | .handleRx _ _ => inferInstanceAs (Decidable (_ ∨ _))
  | .receive _ _ | .pollRx | .postChunkToPool _ _ => inferInstanceAs (Decidable True)

/-! ## The loop over the completions -/

variable {receiveBuffers : ℤ} {growth : Growth} {conns : UInt32 → Option ℕ}

/-- What a completion does to the pool. -/
theorem handleResponse_spec (conns : UInt32 → Option ℕ) (r : CreditRun) (response : RxResponse) :
    (r.handleResponse conns response).postBacklog = r.postBacklog ∧
      (r.handleResponse conns response).srq = r.srq ∧
      (r.handleResponse conns response).rxCq = r.rxCq ∧
      (r.handleResponse conns response).wc = r.wc ∧
      ((r.handleResponse conns response).pool.store = [] ↔
        ¬ response.Returned conns ∧ r.pool.store = []) := by
  unfold handleResponse
  cases hsuccess : response.success with
  | false =>
    have hreturned : response.Returned conns := .inl hsuccess
    exact ⟨rfl, rfl, rfl, rfl, fun h => absurd h (List.cons_ne_nil _ _),
      fun h => absurd hreturned h.1⟩
  | true =>
    cases hconn : conns response.qpNum with
    | none =>
      have hreturned : response.Returned conns := .inr hconn
      exact ⟨rfl, rfl, rfl, rfl, fun h => absurd h (List.cons_ne_nil _ _),
        fun h => absurd hreturned h.1⟩
    | some conn =>
      have hkept : ¬ response.Returned conns := by
        rintro (hfailed | hgone)
        · exact absurd (hsuccess.symm.trans hfailed) Bool.noConfusion
        · exact Option.some_ne_none conn (hconn.symm.trans hgone)
      exact ⟨rfl, rfl, rfl, rfl, fun h => ⟨hkept, h⟩, fun h => h.2⟩

theorem foldl_handleResponse_spec (conns : UInt32 → Option ℕ) (batch : List RxResponse)
    (r : CreditRun) :
    (batch.foldl (handleResponse conns) r).postBacklog = r.postBacklog ∧
      (batch.foldl (handleResponse conns) r).srq = r.srq ∧
      (batch.foldl (handleResponse conns) r).rxCq = r.rxCq ∧
      (batch.foldl (handleResponse conns) r).wc = r.wc ∧
      ((batch.foldl (handleResponse conns) r).pool.store = [] ↔
        (∀ response ∈ batch, ¬ response.Returned conns) ∧ r.pool.store = []) := by
  induction batch generalizing r with
  | nil =>
      exact ⟨rfl, rfl, rfl, rfl, fun h => ⟨fun _ hmem => absurd hmem List.not_mem_nil, h⟩,
        fun h => h.2⟩
  | cons response batch ih =>
    obtain ⟨hbacklog, hsrq, hcq, hwc, hstore⟩ := handleResponse_spec conns r response
    obtain ⟨hbacklog', hsrq', hcq', hwc', hstore'⟩ := ih (r.handleResponse conns response)
    refine ⟨hbacklog'.trans hbacklog, hsrq'.trans hsrq, hcq'.trans hcq, hwc'.trans hwc, ?_⟩
    rw [List.foldl_cons, hstore', hstore, List.forall_mem_cons]
    tauto

/-! ## The steps that post -/

/-- How many of the requests for a batch are posted at once. -/
def postedFor (receiveBuffers : ℤ) (growth : Growth) (num : ℕ) (p : RxPool) : ℕ :=
  (p.postChunksToSrq receiveBuffers growth num).1.length

theorem handleRx_spec (receiveBuffers : ℤ) (conns : UInt32 → Option ℕ) (growth : Growth)
    (r : CreditRun) :
    (r.handleRx receiveBuffers conns growth).postBacklog =
        r.postBacklog +
          (r.wc.length - postedFor receiveBuffers growth r.wc.length r.pool) ∧
      (r.handleRx receiveBuffers conns growth).srq.length =
        r.srq.length + postedFor receiveBuffers growth r.wc.length r.pool ∧
      (r.handleRx receiveBuffers conns growth).rxCq = r.rxCq ∧
      (r.handleRx receiveBuffers conns growth).wc = [] ∧
      ((r.handleRx receiveBuffers conns growth).pool.store = [] ↔
        (∀ response ∈ r.wc, ¬ response.Returned conns) ∧
          r.pool.supply receiveBuffers growth r.wc.length ≤ r.wc.length) := by
  obtain ⟨hbacklog, hsrq, hcq, hwc, hstore⟩ := foldl_handleResponse_spec conns r.wc
    { (r.postChunksToSrq receiveBuffers growth r.wc.length).2 with
      postBacklog := r.postBacklog +
        (r.wc.length - (r.postChunksToSrq receiveBuffers growth r.wc.length).1)
      wc := [] }
  refine ⟨hbacklog, (congrArg List.length hsrq).trans List.length_append, hcq, hwc, ?_⟩
  exact hstore.trans (and_congr_right fun _ => RxPool.store_posted_eq_nil_iff)

theorem postChunkToPool_spec (receiveBuffers : ℤ) (growth : Growth) (r : CreditRun) (chunk : ℕ) :
    (r.postChunkToPool receiveBuffers growth chunk).Unstarved ∧
      (r.postChunkToPool receiveBuffers growth chunk).srq.length +
          (r.postChunkToPool receiveBuffers growth chunk).postBacklog =
        r.srq.length + r.postBacklog ∧
      (r.postChunkToPool receiveBuffers growth chunk).rxCq = r.rxCq ∧
      (r.postChunkToPool receiveBuffers growth chunk).wc = r.wc := by
  unfold postChunkToPool
  by_cases howed : 0 < r.postBacklog
  · rw [if_pos howed]
    let pool := r.pool.releaseRxBuffer chunk
    have hle := RxPool.length_posted_le receiveBuffers growth r.postBacklog pool
    refine ⟨?_, ?_, rfl, rfl⟩
    · intro hstill
      have hlt : (pool.postChunksToSrq receiveBuffers growth r.postBacklog).1.length <
          r.postBacklog := Nat.lt_of_sub_pos hstill
      exact RxPool.store_of_length_posted_lt hlt
    · show (r.srq ++ (pool.postChunksToSrq receiveBuffers growth r.postBacklog).1).length +
        (r.postBacklog - (pool.postChunksToSrq receiveBuffers growth r.postBacklog).1.length) = _
      rw [List.length_append]
      omega
  · rw [if_neg howed]
    exact ⟨fun hstill => absurd hstill howed, rfl, rfl, rfl⟩

/-! ## The runs -/

/-- A batch leaves no free buffer behind what is owed exactly if it meets the condition. -/
theorem unstarved_handleRx_iff (r : CreditRun) :
    (r.handleRx receiveBuffers conns growth).Unstarved ↔
      r.Sustains receiveBuffers (.handleRx conns growth) := by
  obtain ⟨hbacklog, -, -, -, hstore⟩ := handleRx_spec receiveBuffers conns growth r
  have hall : postedFor receiveBuffers growth r.wc.length r.pool = r.wc.length ↔
      r.wc.length ≤ r.pool.supply receiveBuffers growth r.wc.length := RxPool.length_posted_eq_iff
  have hle := RxPool.length_posted_le receiveBuffers growth r.wc.length r.pool
  have hsettled : (r.handleRx receiveBuffers conns growth).postBacklog = 0 ↔
      r.postBacklog = 0 ∧ r.wc.length ≤ r.pool.supply receiveBuffers growth r.wc.length := by
    rw [hbacklog, ← hall, Nat.add_eq_zero_iff, Nat.sub_eq_zero_iff_le]
    exact and_congr_right fun _ => ⟨fun hge => Nat.le_antisymm hle hge, fun heq => heq.ge⟩
  rw [Unstarved, hstore, Nat.pos_iff_ne_zero, Ne, hsettled]
  show _ ↔ _ ∨ _
  tauto

/-- The requests that were posted at the start are posted, completed or owed. -/
def Credited (credits : ℕ) (r : CreditRun) : Prop :=
  r.srq.length + r.rxCq.length + r.wc.length + r.postBacklog = credits

theorem Credited.step {credits : ℕ} {r t : CreditRun} {a : CreditAction}
    (h : r.Credited credits) (hstep : r.step receiveBuffers a = some t) : t.Credited credits := by
  unfold Credited at h ⊢
  cases a with
  | receive qpNum success =>
    simp only [CreditRun.step] at hstep
    split at hstep
    · cases hstep
    · rename_i chunk srq hsrq
      cases hstep
      rw [hsrq, List.length_cons] at h
      show srq.length + (r.rxCq ++ [_]).length + r.wc.length + r.postBacklog = credits
      rw [List.length_append, List.length_singleton]
      omega
  | pollRx =>
    simp only [CreditRun.step] at hstep
    split at hstep
    · rename_i hwc
      cases hstep
      rw [hwc, List.length_nil] at h
      have hsplit : (r.rxCq.drop maxCompletions).length + (r.rxCq.take maxCompletions).length =
          r.rxCq.length := by
        rw [List.length_drop, List.length_take]
        omega
      show r.srq.length + (r.rxCq.drop maxCompletions).length +
        (r.rxCq.take maxCompletions).length + r.postBacklog = credits
      omega
    · cases hstep
  | handleRx conns growth =>
    simp only [CreditRun.step] at hstep
    split at hstep
    · cases hstep
    · cases hstep
      obtain ⟨hbacklog, hsrq, hcq, hwc, -⟩ := handleRx_spec receiveBuffers conns growth r
      have hle : postedFor receiveBuffers growth r.wc.length r.pool ≤ r.wc.length :=
        RxPool.length_posted_le receiveBuffers growth r.wc.length r.pool
      rw [hbacklog, hsrq, hcq, hwc, List.length_nil]
      omega
  | postChunkToPool chunk growth =>
    simp only [CreditRun.step] at hstep
    split at hstep
    · cases hstep
      obtain ⟨-, hsum, hcq, hwc⟩ := postChunkToPool_spec receiveBuffers growth r chunk
      rw [hcq, hwc]
      omega
    · cases hstep

/-- Only a batch can leave a free buffer behind what is owed. -/
theorem unstarved_step_iff {r t : CreditRun} {a : CreditAction} (h : r.Unstarved)
    (hstep : r.step receiveBuffers a = some t) :
    t.Unstarved ↔ r.Sustains receiveBuffers a := by
  cases a with
  | receive qpNum success =>
    simp only [CreditRun.step] at hstep
    split at hstep
    · cases hstep
    · cases hstep
      exact ⟨fun _ => trivial, fun _ => h⟩
  | pollRx =>
    simp only [CreditRun.step] at hstep
    split at hstep
    · cases hstep
      exact ⟨fun _ => trivial, fun _ => h⟩
    · cases hstep
  | handleRx conns growth =>
    simp only [CreditRun.step] at hstep
    split at hstep
    · cases hstep
    · cases hstep
      exact r.unstarved_handleRx_iff
  | postChunkToPool chunk growth =>
    simp only [CreditRun.step] at hstep
    split at hstep
    · cases hstep
      exact ⟨fun _ => trivial, fun _ => (postChunkToPool_spec receiveBuffers growth r chunk).1⟩
    · cases hstep

theorem unstarved_of_sustained {credits : ℕ} {r : CreditRun}
    (hreached : (machine receiveBuffers credits).ReachedUnder (Sustains receiveBuffers) r) :
    r.Unstarved := by
  apply hreached.invariant Unstarved
  · intro s (hfresh : Fresh credits s)
    exact fun howed => absurd hfresh.postBacklog howed.ne'
  · intro s a t h hok hstep
    exact (unstarved_step_iff h hstep).mpr hok

/-- **Receive requests are owed only while no buffer is free**, in every run whose batches meet the
condition, and the next step keeps it so exactly if it meets it.  Then the shared receive queue is
not empty for good while a buffer is free: with no completion on the way, all requests are owed. -/
theorem unstarved_of_reached {credits : ℕ} {r : CreditRun}
    (hreached : (machine receiveBuffers credits).ReachedUnder (Sustains receiveBuffers) r) :
    r.Unstarved ∧
      (∀ a t, r.step receiveBuffers a = some t → (t.Unstarved ↔ r.Sustains receiveBuffers a)) ∧
      (0 < credits → r.srq = [] → r.rxCq = [] → r.wc = [] → r.pool.store = []) := by
  have hunstarved := unstarved_of_sustained hreached
  have hcredited : r.Credited credits := by
    apply hreached.invariant (Credited credits)
    · intro s (hfresh : Fresh credits s)
      rw [Credited, hfresh.srq, hfresh.rxCq, hfresh.wc, hfresh.postBacklog]
      rfl
    · intro s a t h _ hstep
      exact h.step hstep
  refine ⟨hunstarved, fun a t hstep => unstarved_step_iff hunstarved hstep, ?_⟩
  intro hcredits hsrq hcq hwc
  apply hunstarved
  rw [Credited, hsrq, hcq, hwc] at hcredited
  simpa [← hcredited] using hcredits

/-- A pool of two buffers, both posted. -/
def started : CreditRun := ⟨⟨[], 2⟩, 0, [0, 1], [], [], []⟩

theorem fresh_started : Fresh 2 started := ⟨rfl, rfl, rfl, rfl⟩

/-- Two completions for a live connection: both requests are owed, and the first buffer that comes
back is posted. -/
theorem unstarved_of_reached_settled :
    ∃ r : CreditRun, r.postBacklog = 1 ∧ r.srq = [0] ∧ r.pool.store = [] := by
  obtain ⟨r, hreplay, hbacklog, hsrq⟩ :
      ∃ r, (machine 2 2).replay (Sustains 2) started
        [.receive 7 true, .receive 7 true, .pollRx,
          .handleRx (fun _ => some 0) fun _ => [(2, true), (1, true)],
          .postChunkToPool 0 fun _ => []] = some r ∧ r.postBacklog = 1 ∧ r.srq = [0] :=
    ⟨_, rfl, rfl, rfl⟩
  have hreached : (machine 2 2).ReachedUnder (Sustains 2) r :=
    .of_replay (.start fresh_started) hreplay
  exact ⟨r, hbacklog, hsrq, (unstarved_of_reached hreached).1 (by rw [hbacklog]; exact Nat.one_pos)⟩

/-- Both completions fail: both buffers are free, both requests are owed, no socket holds a buffer
that could come back, and nothing is posted any more. -/
theorem not_unstarved_failed :
    ∃ r : CreditRun, (machine 2 2).Reached r ∧ r.postBacklog = 2 ∧ r.pool.store = [1, 0] ∧
      r.srq = [] ∧ r.rxCq = [] ∧ r.held = [] ∧ ¬ r.Unstarved := by
  obtain ⟨r, hreplay, hbacklog, hstore, hsrq, hcq, hheld⟩ :
      ∃ r, (machine 2 2).replay (fun _ _ => True) started
        [.receive 7 false, .receive 7 false, .pollRx,
          .handleRx (fun _ => some 0) fun _ => [(2, true), (1, true)]] = some r ∧
        r.postBacklog = 2 ∧ r.pool.store = [1, 0] ∧ r.srq = [] ∧ r.rxCq = [] ∧ r.held = [] :=
    ⟨_, rfl, rfl, rfl, rfl, rfl, rfl⟩
  refine ⟨r, .of_replay (.start fresh_started) hreplay, hbacklog, hstore, hsrq, hcq, hheld, ?_⟩
  intro hunstarved
  have hnil := hunstarved (by rw [hbacklog]; exact Nat.two_pos)
  rw [hstore] at hnil
  exact List.cons_ne_nil _ _ hnil

-- A pool that is extended in a batch has buffers left while a request of the batch before is owed:
-- the batch posts no more than its own.
example :
    ((machine 6 2).replay (fun _ _ => True) started
      [.receive 7 true, .receive 7 true, .pollRx,
        .handleRx (fun _ => some 0) fun _ => [(8, true), (5, true)],
        .postChunkToPool 0 fun _ => [], .receive 7 true, .pollRx,
        .handleRx (fun _ => some 0) fun _ => [(5, true), (4, true)]]).map
      (fun r => (r.postBacklog, r.pool.store, r.srq)) = some (1, [3, 4, 5], [2]) := rfl

end CreditRun

end HwAsync.Rdma
