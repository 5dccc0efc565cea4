/-
# Waking the workers that wait for tx chunks

A worker that gets too few chunks puts its socket on its own list and itself on the
dispatcher's; when chunks come back the dispatcher wakes one worker, and that one
wakes the next when it is done.  Getting too few chunks and entering the lists are
two critical sections, and the dispatcher may run in between.

The run theorem says which calls of `notify_pending_workers` must not fail to find
a waiting worker, so that no sender waits while every chunk is free.
-/

import HwAsync.Lib.Run
import HwAsync.Rdma.Submit
import Mathlib.Algebra.BigOperators.Group.Finset.Basic
import Mathlib.Data.Finset.Range

namespace HwAsync.Rdma

open HwAsync.Lib HwAsync.Infiniband

/-- A running `submit`: the socket, whether `handle_pending_message` called it, the
chunks it got so far, and whether they were too few. -/
structure SubmitCall where
  conn : ℕ
  handling : Bool
  held : List Chunk
  short : Bool
  deriving DecidableEq

/-- Where a worker thread is: outside, in `submit`, between the two critical sections
of `get_reged_mem`, or in `handle_pending_message`: at its loop, before the
`make_pending_worker` of its early return, or before its `notify_pending_workers`. -/
inductive WorkerPhase
  | outside
  | submitting (call : SubmitCall)
  | registering (call : SubmitCall)
  | looping
  | returning
  | ending
  deriving DecidableEq

namespace WorkerPhase

/-- The worker is in `handle_pending_message`. -/
def handling : WorkerPhase → Bool
  | outside => false
  | submitting call => call.handling
  | registering call => call.handling
  | looping => true
  | returning => true
  | ending => true

/-- The worker got too few chunks and has not entered the dispatcher's list for the
last time yet. -/
def window : WorkerPhase → Bool
  | submitting call => call.handling && call.short
  | registering _ => true
  | returning => true
  | _ => false

/-- The worker is in `handle_pending_message` and may still reach its
`notify_pending_workers`. -/
def active (p : WorkerPhase) : Bool := p.handling && !p.window

/-- The worker is neither in `handle_pending_message` nor in `get_reged_mem`. -/
def resting (p : WorkerPhase) : Bool := !p.handling && !p.window

/-- The chunks of the running `submit`. -/
def held : WorkerPhase → List Chunk
  | submitting call => call.held
  | registering call => call.held
  | _ => []

/-- The socket that `handle_pending_message` took from its list. -/
def handled : WorkerPhase → Option ℕ
  | submitting call => if call.handling then some call.conn else none
  | registering call => if call.handling then some call.conn else none
  | _ => none

end WorkerPhase

/-- The workers with the sending side, the chunks on send queues and the number of
those that a failed post lost; `home` is the worker of a socket, `owes` holds
between `return_tx` and `notify_pending_workers`, and `queued` are the workers with
a `tx_handler` event.  The pool has `total` chunks. -/
structure WakeRun where
  workers : ℕ
  home : ℕ → ℕ
  total : ℕ
  side : TxSide
  posted : List Chunk
  leaked : ℕ
  pending : ℕ → Bool
  phase : ℕ → WorkerPhase
  owes : Bool
  queued : List ℕ

inductive WakeAction
  | submit (o : ℕ)
  | handle (w : ℕ)
  | next (w : ℕ) (sends : Bool)
  | getTxBuffers (w : ℕ) (bytes : ℕ)
  | makePending (w : ℕ)
  | post (w : ℕ) (ok left : Bool)
  | makePendingAgain (w : ℕ)
  | notifyNext (w : ℕ)
  | returnTx (chunks : List Chunk)
  | notify

namespace WakeRun

def setPhase (r : WakeRun) (w : ℕ) (p : WorkerPhase) : WakeRun :=
  { r with phase := Function.update r.phase w p }

/-- `notify_pending_workers` with the event that `notify_worker` queues. -/
def notifyWorkers (r : WakeRun) : WakeRun :=
  { r with
    side := r.side.notifyPendingWorkers.2
    queued := r.queued ++ r.side.notifyPendingWorkers.1.toList }

/-- A worker waits for chunks: it has pending connections, or is about to. -/
def waits (r : WakeRun) (w : ℕ) : Prop :=
  r.side.pendingSentConns w ≠ [] ∨ (r.phase w).window = true

instance (r : WakeRun) (w : ℕ) : Decidable (r.waits w) :=
  inferInstanceAs (Decidable (_ ∨ _))

/-- The end of a `submit`: what it returns goes to the caller of `send`, or to
`handle_pending_message`. -/
def finish (r : WakeRun) (w : ℕ) (call : SubmitCall) (again : Bool) : WakeRun :=
  if !call.handling then r.setPhase w .outside
  else if again then
    { r.setPhase w .returning with
      side := { r.side with
        pendingSentConns := Function.update r.side.pendingSentConns w
          (r.side.pendingSentConns w ++ [call.conn]) } }
  else
    { r.setPhase w .looping with pending := Function.update r.pending call.conn false }

/-- One critical section of a worker or of the dispatcher. -/
def step (r : WakeRun) : WakeAction → Option WakeRun
  | .submit o =>
      if r.home o < r.workers ∧ r.phase (r.home o) = .outside then
        some (r.setPhase (r.home o) (.submitting ⟨o, false, [], false⟩))
      else none
  | .handle w =>
      if w < r.workers ∧ r.phase w = .outside ∧ w ∈ r.queued then
        some { r.setPhase w .looping with queued := r.queued.erase w }
      else none
  | .next w sends =>
      if w < r.workers ∧ r.phase w = .looping then
        match r.side.pendingSentConns w with
        | [] => some (r.setPhase w .ending)
        | o :: rest =>
            let r1 : WakeRun := { r with
              side := { r.side with
                pendingSentConns := Function.update r.side.pendingSentConns w rest } }
            -- a faulted socket and one with nothing to send post nothing
            if sends then some (r1.setPhase w (.submitting ⟨o, true, [], false⟩))
            else some { r1 with pending := Function.update r1.pending o false }
      else none
  | .getTxBuffers w bytes =>
      if w < r.workers ∧ 0 < bytes ∧ bytes < 2 ^ 32 then
        match r.phase w with
        | .submitting call =>
            if call.short then none
            else
              let got := r.side.reserve bytes
              let call1 := { call with held := call.held ++ got.1 }
              some { r.setPhase w
                  (if r.side.enough got.1 bytes then .submitting call1 else .registering call1)
                with side := got.2 }
        | _ => none
      else none
  | .makePending w =>
      if w < r.workers then
        match r.phase w with
        | .registering call =>
            some { r.setPhase w (.submitting { call with short := true }) with
              side := r.side.enqueue w call.conn (r.pending call.conn)
              pending := Function.update r.pending call.conn true }
        | _ => none
      else none
  | .post w ok left =>
      if w < r.workers then
        match r.phase w with
        | .submitting call =>
            -- bytes are left over only when the chunks were too few
            if !call.short && (left || call.held.isEmpty) then none
            else if call.held = [] then some (r.finish w call true)
            else if ok then some { r.finish w call left with posted := r.posted ++ call.held }
            else some { r.finish w call false with leaked := r.leaked + call.held.length }
        | _ => none
      else none
  | .makePendingAgain w =>
      if w < r.workers ∧ r.phase w = .returning then
        some { r.setPhase w .outside with side := r.side.makePendingWorker w }
      else none
  | .notifyNext w =>
      if w < r.workers ∧ r.phase w = .ending then
        some (r.notifyWorkers.setPhase w .outside)
      else none
  | .returnTx chunks =>
      if r.owes = false ∧ chunks ≠ [] ∧ (chunks : Multiset Chunk) ≤ r.posted then
        some { r with
          side := r.side.returnTx chunks
          posted := r.posted.diff chunks
          owes := true }
      else none
  | .notify =>
      if r.owes then some { r.notifyWorkers with owes := false } else none

/-- A full pool, and nothing going on. -/
structure Fresh (r : WakeRun) : Prop where
  bufferSize_pos : 0 < r.side.cluster.bufferSize
  free : r.side.cluster.freeChunks.length = r.total
  total_pos : 0 < r.total
  total_lt : r.total < 2 ^ 32
  inflight : r.side.inflight = 0
  pendingWorkers : r.side.pendingWorkers = []
  pendingSentConns : ∀ w, r.side.pendingSentConns w = []
  posted : r.posted = []
  leaked : r.leaked = 0
  pending : ∀ o, r.pending o = false
  phase : ∀ w, r.phase w = .outside
  owes : r.owes = false
  queued : r.queued = []

/-- No worker is in `get_reged_mem` or `handle_pending_message`, and the dispatcher
is not about to notify. -/
def AtRest (r : WakeRun) : Prop :=
  r.owes = false ∧ ∀ w < r.workers, (r.phase w).resting = true

/-- At rest, with nothing in flight, a worker with pending connections is woken
whenever there is one. -/
def SendersWoken (r : WakeRun) : Prop :=
  r.AtRest → r.side.inflight = 0 →
    (∃ w < r.workers, r.side.pendingSentConns w ≠ []) →
    ∃ w < r.workers, w ∈ r.queued ∧ r.side.pendingSentConns w ≠ []

/-- Something other than the caller will still wake a worker: chunks in flight, a
`notify_pending_workers` to come, or an event queued for a worker that waits. -/
def otherWakeup (r : WakeRun) (caller : Option ℕ) : Prop :=
  r.side.inflight ≠ 0 ∨ (caller ≠ none ∧ r.owes = true) ∨
    (∃ w < r.workers, some w ≠ caller ∧ (r.phase w).active = true) ∨
    ∃ w < r.workers, w ∈ r.queued ∧ r.waits w

/-- The last call of `notify_pending_workers` finds whoever waits: if
`pending_workers` is empty, no worker is between getting too few chunks and its
`make_pending_worker`; otherwise the worker at the front still waits, or none does. -/
def findsWaiting (r : WakeRun) (caller : Option ℕ) : Prop :=
  r.otherWakeup caller ∨
    match r.side.pendingWorkers with
    | [] => ∀ w < r.workers, (r.phase w).window = false
    | f :: _ => (f < r.workers ∧ r.waits f) ∨ ∀ w < r.workers, ¬ r.waits w

def wakesInTime (r : WakeRun) : WakeAction → Prop
  | .notifyNext w => r.findsWaiting (some w)
  | .notify => r.findsWaiting none
  | _ => True

instance (r : WakeRun) (caller : Option ℕ) : Decidable (r.otherWakeup caller) := by
  unfold otherWakeup
  infer_instance

instance (r : WakeRun) (caller : Option ℕ) : Decidable (r.findsWaiting caller) := by
  unfold findsWaiting
  split <;> infer_instance

instance (r : WakeRun) (a : WakeAction) : Decidable (r.wakesInTime a) := by
  unfold wakesInTime
  split <;> infer_instance

end WakeRun

/-- The workers and the dispatcher under every interleaving of their critical
sections. -/
def wakeMachine : Machine WakeRun WakeAction where
  start := WakeRun.Fresh
  step := WakeRun.step

namespace WakeRun

variable {r t : WakeRun}

/-! ## Where the chunks are -/

/-- The chunks of the running calls of `submit`. -/
def heldCount (r : WakeRun) : ℕ := ∑ w ∈ Finset.range r.workers, (r.phase w).held.length

theorem heldCount_update {w : ℕ} {p : WorkerPhase} (hw : w < r.workers)
    (hphase : t.phase = Function.update r.phase w p) (hworkers : t.workers = r.workers) :
    t.heldCount + (r.phase w).held.length = r.heldCount + p.held.length := by
  have hmem : w ∈ Finset.range r.workers := Finset.mem_range.mpr hw
  rw [heldCount, heldCount, hphase, hworkers, ← Finset.add_sum_erase _ _ hmem,
    ← Finset.add_sum_erase (Finset.range r.workers) (fun w => (r.phase w).held.length) hmem,
    Function.update_self]
  have hother : ∀ v ∈ (Finset.range r.workers).erase w,
      (Function.update r.phase w p v).held.length = (r.phase v).held.length := by
    intro v hv
    rw [Function.update_of_ne (Finset.ne_of_mem_erase hv)]
  rw [Finset.sum_congr rfl hother]
  omega

theorem heldCount_same (hphase : t.phase = r.phase) (hworkers : t.workers = r.workers) :
    t.heldCount = r.heldCount := by
  rw [heldCount, heldCount, hphase, hworkers]

/-- Every chunk is free or counted in `inflight`, and `inflight` counts those that a
`submit` holds, those on send queues and those lost. -/
structure PoolKept (r : WakeRun) : Prop where
  bufferSize_pos : 0 < r.side.cluster.bufferSize
  total_pos : 0 < r.total
  total_lt : r.total < 2 ^ 32
  free_add : r.side.cluster.freeChunks.length + r.side.inflight = r.total
  inflight_eq : r.side.inflight = r.heldCount + r.leaked + r.posted.length

/-- A step that leaves the chunks where they are. -/
theorem PoolKept.of_same (h : r.PoolKept) (hcluster : t.side.cluster = r.side.cluster)
    (hinflight : t.side.inflight = r.side.inflight) (htotal : t.total = r.total)
    (hheld : t.heldCount + t.leaked + t.posted.length =
      r.heldCount + r.leaked + r.posted.length) : t.PoolKept where
  bufferSize_pos := by rw [hcluster]; exact h.bufferSize_pos
  total_pos := by rw [htotal]; exact h.total_pos
  total_lt := by rw [htotal]; exact h.total_lt
  free_add := by rw [hcluster, hinflight, htotal]; exact h.free_add
  inflight_eq := by rw [hinflight, hheld]; exact h.inflight_eq

/-- A reservation takes chunks from the pool, and none only if there are none. -/
theorem reserve_spec {side : TxSide} {bytes : ℕ} (hsize : 0 < side.cluster.bufferSize)
    (hlt : side.cluster.freeChunks.length + side.inflight < 2 ^ 32) (hpos : 0 < bytes)
    (hbytes : bytes < 2 ^ 32) :
    (side.reserve bytes).2.cluster.bufferSize = side.cluster.bufferSize ∧
      (side.reserve bytes).2.pendingSentConns = side.pendingSentConns ∧
      (side.reserve bytes).2.pendingWorkers = side.pendingWorkers ∧
      (side.reserve bytes).2.inflight = side.inflight + (side.reserve bytes).1.length ∧
      (side.reserve bytes).1.length + (side.reserve bytes).2.cluster.freeChunks.length =
        side.cluster.freeChunks.length ∧
      ((side.reserve bytes).1 = [] → side.cluster.freeChunks = []) := by
  have hcard := congrArg Multiset.card (@Cluster.addrs_getBuffers side.cluster bytes)
  simp only [Multiset.card_add, card_addrs] at hcard
  refine ⟨Cluster.getBuffers_bufferSize, rfl, rfl, ?_, hcard, ?_⟩
  · simp only [TxSide.reserve]
    rw [Nat.mod_eq_of_lt (by omega)]
  · exact Cluster.freeChunks_of_getBuffers_nil hsize hpos hbytes

/-- The end of a `submit` takes the chunks off the worker. -/
theorem finish_eq (r : WakeRun) (w : ℕ) (call : SubmitCall) (again : Bool) :
    (r.finish w call again).side.cluster = r.side.cluster ∧
      (r.finish w call again).side.inflight = r.side.inflight ∧
      (r.finish w call again).side.pendingWorkers = r.side.pendingWorkers ∧
      (r.finish w call again).workers = r.workers ∧
      (r.finish w call again).home = r.home ∧
      (r.finish w call again).total = r.total ∧
      (r.finish w call again).posted = r.posted ∧
      (r.finish w call again).leaked = r.leaked ∧
      (r.finish w call again).owes = r.owes ∧
      (r.finish w call again).queued = r.queued ∧
      ∃ p, p.held = [] ∧ (r.finish w call again).phase = Function.update r.phase w p := by
  unfold finish
  split
  · exact ⟨rfl, rfl, rfl, rfl, rfl, rfl, rfl, rfl, rfl, rfl, _, rfl, rfl⟩
  · split
    · exact ⟨rfl, rfl, rfl, rfl, rfl, rfl, rfl, rfl, rfl, rfl, _, rfl, rfl⟩
    · exact ⟨rfl, rfl, rfl, rfl, rfl, rfl, rfl, rfl, rfl, rfl, _, rfl, rfl⟩

/-- A step that only moves one worker, which holds the same number of chunks. -/
theorem PoolKept.of_phase (h : r.PoolKept) {w : ℕ} {p : WorkerPhase} (hw : w < r.workers)
    (hphase : t.phase = Function.update r.phase w p) (hworkers : t.workers = r.workers)
    (hheld : p.held.length = (r.phase w).held.length)
    (hcluster : t.side.cluster = r.side.cluster)
    (hinflight : t.side.inflight = r.side.inflight) (htotal : t.total = r.total)
    (hleaked : t.leaked = r.leaked) (hposted : t.posted = r.posted) : t.PoolKept := by
  apply h.of_same hcluster hinflight htotal
  have hcount := heldCount_update hw hphase hworkers
  rw [hleaked, hposted]
  omega

theorem PoolKept.getTxBuffers (h : r.PoolKept) {w bytes : ℕ}
    (hstep : r.step (.getTxBuffers w bytes) = some t) : t.PoolKept ∧ t.side.inflight ≠ 0 := by
  simp only [step] at hstep
  split at hstep
  · rename_i hguard
    obtain ⟨hw, hpos, hbytes⟩ := hguard
    split at hstep
    · rename_i call hcall
      split at hstep
      · cases hstep
      · have htotal := h.free_add
        have htotal_pos := h.total_pos
        have htotal_lt := h.total_lt
        obtain ⟨hsize, -, -, hinflight, hfree, hnil⟩ :=
          reserve_spec h.bufferSize_pos (by omega) hpos hbytes
        -- the worker holds the reserved chunks, whether they are enough or not
        obtain ⟨p, hp, hphase⟩ : ∃ p : WorkerPhase,
            p.held = call.held ++ (r.side.reserve bytes).1 ∧
              (if r.side.enough (r.side.reserve bytes).1 bytes then
                WorkerPhase.submitting
                  { call with held := call.held ++ (r.side.reserve bytes).1 }
              else .registering
                { call with held := call.held ++ (r.side.reserve bytes).1 }) = p := by
          split
          · exact ⟨_, rfl, rfl⟩
          · exact ⟨_, rfl, rfl⟩
        simp only [hphase, Option.some.injEq] at hstep
        subst hstep
        have hcount := @heldCount_update r
          { r.setPhase w p with side := (r.side.reserve bytes).2 } w p hw rfl rfl
        rw [hcall, hp, List.length_append] at hcount
        have hheld : (WorkerPhase.submitting call).held = call.held := rfl
        rw [hheld] at hcount
        have heq := h.inflight_eq
        refine ⟨⟨hsize ▸ h.bufferSize_pos, htotal_pos, htotal_lt, ?_, ?_⟩, ?_⟩
        · simp only [setPhase]
          omega
        · simp only [setPhase] at hcount ⊢
          omega
        · intro hzero
          dsimp only at hzero
          have hgot : (r.side.reserve bytes).1 = [] :=
            List.length_eq_zero_iff.mp (by omega)
          have hempty := congrArg List.length (hnil hgot)
          simp only [List.length_nil] at hempty
          omega
    · cases hstep
  · cases hstep

theorem PoolKept.returnTx (h : r.PoolKept) {chunks : List Chunk}
    (hstep : r.step (.returnTx chunks) = some t) : t.PoolKept := by
  simp only [step] at hstep
  split at hstep
  · rename_i hguard
    obtain ⟨-, -, hle⟩ := hguard
    cases hstep
    have htotal := h.free_add
    have htotal_lt := h.total_lt
    have heq := h.inflight_eq
    have hcard := Multiset.card_le_card hle
    have hdiff := congrArg Multiset.card (Multiset.coe_sub r.posted chunks)
    rw [Multiset.card_sub hle] at hdiff
    simp only [Multiset.coe_card] at hcard hdiff
    have hinflight : (r.side.returnTx chunks).inflight = r.side.inflight - chunks.length := by
      simp only [TxSide.returnTx]
      omega
    refine ⟨h.bufferSize_pos, h.total_pos, htotal_lt, ?_, ?_⟩
    · rw [hinflight]
      simp only [TxSide.returnTx, Cluster.takeBack, List.length_append, List.length_map]
      omega
    · have hcount : heldCount { r with
          side := r.side.returnTx chunks, posted := r.posted.diff chunks, owes := true } =
          r.heldCount := heldCount_same rfl rfl
      rw [hinflight, hcount]
      dsimp only
      omega
  · cases hstep

theorem PoolKept.post (h : r.PoolKept) {w : ℕ} {ok left : Bool}
    (hstep : r.step (.post w ok left) = some t) : t.PoolKept := by
  simp only [step] at hstep
  split at hstep
  · rename_i hw
    split at hstep
    · rename_i call hcall
      have hheld : (r.phase w).held = call.held := by rw [hcall]; rfl
      have hfinish (again : Bool) : (r.finish w call again).heldCount + call.held.length =
          r.heldCount := by
        obtain ⟨-, -, -, hworkers, -, -, -, -, -, -, p, hp, hphase⟩ := finish_eq r w call again
        have hcount := heldCount_update hw hphase hworkers
        rwa [hp, hheld, List.length_nil, Nat.add_zero] at hcount
      split at hstep
      · cases hstep
      · split at hstep
        · rename_i hnil
          cases hstep
          obtain ⟨hcluster, hinflight, -, -, -, htotal, hposted, hleaked, -, -, -⟩ :=
            finish_eq r w call true
          have hcount := hfinish true
          rw [hnil, List.length_nil] at hcount
          exact h.of_same hcluster hinflight htotal (by rw [hleaked, hposted]; omega)
        · split at hstep
          · cases hstep
            obtain ⟨hcluster, hinflight, -, -, -, htotal, -, hleaked, -, -, -⟩ :=
              finish_eq r w call left
            have hcount := hfinish left
            refine h.of_same hcluster hinflight htotal ?_
            show (r.finish w call left).heldCount + (r.finish w call left).leaked +
              (r.posted ++ call.held).length = _
            rw [hleaked, List.length_append]
            omega
          · cases hstep
            obtain ⟨hcluster, hinflight, -, -, -, htotal, hposted, -, -, -, -⟩ :=
              finish_eq r w call false
            have hcount := hfinish false
            refine h.of_same hcluster hinflight htotal ?_
            show (r.finish w call false).heldCount + (r.leaked + call.held.length) +
              (r.finish w call false).posted.length = _
            rw [hposted]
            omega
    · cases hstep
  · cases hstep

/-- Every step keeps the count of the chunks. -/
theorem PoolKept.step {a : WakeAction} (h : r.PoolKept) (hstep : r.step a = some t) :
    t.PoolKept := by
  cases a with
  | submit o =>
      simp only [WakeRun.step] at hstep
      split at hstep <;> cases hstep
      rename_i hguard
      exact h.of_phase hguard.1 rfl rfl (by rw [hguard.2]; rfl) rfl rfl rfl rfl rfl
  | handle w =>
      simp only [WakeRun.step] at hstep
      split at hstep <;> cases hstep
      rename_i hguard
      exact h.of_phase hguard.1 rfl rfl (by rw [hguard.2.1]; rfl) rfl rfl rfl rfl rfl
  | next w sends =>
      simp only [WakeRun.step] at hstep
      split at hstep
      · rename_i hguard
        have hnone : (r.phase w).held = [] := by rw [hguard.2]; rfl
        split at hstep
        · cases hstep
          exact h.of_phase hguard.1 rfl rfl (by rw [hnone]; rfl) rfl rfl rfl rfl rfl
        · split at hstep <;> cases hstep
          · exact h.of_phase hguard.1 rfl rfl (by rw [hnone]; rfl) rfl rfl rfl rfl rfl
          · exact h.of_same rfl rfl rfl rfl
      · cases hstep
  | getTxBuffers w bytes => exact (h.getTxBuffers hstep).1
  | makePending w =>
      simp only [WakeRun.step] at hstep
      split at hstep
      · rename_i hw
        split at hstep
        · rename_i call hcall
          cases hstep
          obtain ⟨hcluster, hinflight, -, -⟩ :=
            enqueue_eq r.side w call.conn (r.pending call.conn)
          exact h.of_phase hw rfl rfl (by rw [hcall]; rfl) hcluster hinflight rfl rfl rfl
        · cases hstep
      · cases hstep
  | post w ok left => exact h.post hstep
  | makePendingAgain w =>
      simp only [WakeRun.step] at hstep
      split at hstep <;> cases hstep
      rename_i hguard
      obtain ⟨hcluster, hinflight, -, -⟩ := makePendingWorker_eq r.side w
      exact h.of_phase hguard.1 rfl rfl (by rw [hguard.2]; rfl) hcluster hinflight rfl rfl rfl
  | notifyNext w =>
      simp only [WakeRun.step] at hstep
      split at hstep <;> cases hstep
      rename_i hguard
      exact h.of_phase hguard.1 rfl rfl (by rw [hguard.2]; rfl)
        (notifyPendingWorkers_cluster _) (notifyPendingWorkers_inflight _) rfl rfl rfl
  | returnTx chunks => exact h.returnTx hstep
  | notify =>
      simp only [WakeRun.step] at hstep
      split at hstep <;> cases hstep
      exact h.of_same (notifyPendingWorkers_cluster _) (notifyPendingWorkers_inflight _) rfl rfl

/-! ## Who waits, and who is on the lists -/

/-- Every socket is on the list of its own worker, and a flagged one is on it or being
handled; every worker with pending connections is on the dispatcher's list, woken,
or in its handler. -/
structure ListsKept (r : WakeRun) : Prop where
  home : ∀ w call, r.phase w = .submitting call ∨ r.phase w = .registering call →
    r.home call.conn = w
  member : ∀ w, ∀ o ∈ r.side.pendingSentConns w, r.home o = w
  flagged : ∀ o, r.pending o = true →
    o ∈ r.side.pendingSentConns (r.home o) ∨ (r.phase (r.home o)).handled = some o
  returning : ∀ w, r.phase w = .returning → r.side.pendingSentConns w ≠ []
  ending : ∀ w, r.phase w = .ending → r.side.pendingSentConns w = []
  listed : ∀ w, r.side.pendingSentConns w ≠ [] →
    w ∈ r.side.pendingWorkers ∨ w ∈ r.queued ∨ (r.phase w).handling = true

/-- A wake-up is still to come. -/
def wakeup (r : WakeRun) : Prop :=
  r.side.inflight ≠ 0 ∨ r.owes = true ∨
    (∃ w < r.workers, (r.phase w).active = true) ∨
    ∃ w < r.workers, w ∈ r.queued ∧ r.waits w

/-- As long as a worker waits, a wake-up is still to come. -/
def Token (r : WakeRun) : Prop := ∀ w < r.workers, r.waits w → r.wakeup

/-- Only the worker `w` moved. -/
structure Moved (r t : WakeRun) (w : ℕ) : Prop where
  workers : t.workers = r.workers
  home : t.home = r.home
  phase : ∀ v, v ≠ w → t.phase v = r.phase v
  conns : ∀ v, v ≠ w → t.side.pendingSentConns v = r.side.pendingSentConns v

theorem Moved.waits_iff {w v : ℕ} (hmoved : Moved r t w) (hv : v ≠ w) :
    t.waits v ↔ r.waits v := by
  rw [waits, waits, hmoved.phase v hv, hmoved.conns v hv]

/-- While a worker handles no socket, those of its sockets that are flagged are on its list. -/
theorem ListsKept.mem_of_flagged (h : r.ListsKept) {w o : ℕ} (hnone : (r.phase w).handled = none)
    (ho : r.pending o = true) (hhome : r.home o = w) : o ∈ r.side.pendingSentConns w := by
  have hflagged := h.flagged o ho
  rw [hhome, hnone] at hflagged
  rcases hflagged with hmem | hhandled
  · exact hmem
  · cases hhandled

/-- The step of one worker keeps the lists, if it does so at this worker. -/
theorem ListsKept.of_moved (h : r.ListsKept) {w : ℕ} (hmoved : Moved r t w)
    (hhome : ∀ call, t.phase w = .submitting call ∨ t.phase w = .registering call →
      r.home call.conn = w)
    (hmember : ∀ o ∈ t.side.pendingSentConns w, r.home o = w)
    (hflagged : ∀ o, t.pending o = true → r.home o = w →
      o ∈ t.side.pendingSentConns w ∨ (t.phase w).handled = some o)
    (hflags : ∀ o, t.pending o = true → r.home o ≠ w → r.pending o = true)
    (hreturning : t.phase w = .returning → t.side.pendingSentConns w ≠ [])
    (hending : t.phase w = .ending → t.side.pendingSentConns w = [])
    (hlisted : t.side.pendingSentConns w ≠ [] →
      w ∈ t.side.pendingWorkers ∨ w ∈ t.queued ∨ (t.phase w).handling = true)
    (hothers : ∀ v, v ≠ w → v ∈ r.side.pendingWorkers ∨ v ∈ r.queued →
      v ∈ t.side.pendingWorkers ∨ v ∈ t.queued) : t.ListsKept where
  home := fun v call hcall => by
    rw [hmoved.home]
    by_cases hv : v = w
    · subst hv
      exact hhome call hcall
    · rw [hmoved.phase v hv] at hcall
      exact h.home v call hcall
  member := fun v o ho => by
    rw [hmoved.home]
    by_cases hv : v = w
    · subst hv
      exact hmember o ho
    · rw [hmoved.conns v hv] at ho
      exact h.member v o ho
  flagged := fun o ho => by
    rw [hmoved.home]
    by_cases hv : r.home o = w
    · rw [hv]
      exact hflagged o ho hv
    · rw [hmoved.conns _ hv, hmoved.phase _ hv]
      exact h.flagged o (hflags o ho hv)
  returning := fun v hphase => by
    by_cases hv : v = w
    · subst hv
      exact hreturning hphase
    · rw [hmoved.conns v hv]
      exact h.returning v (by rwa [hmoved.phase v hv] at hphase)
  ending := fun v hphase => by
    by_cases hv : v = w
    · subst hv
      exact hending hphase
    · rw [hmoved.conns v hv]
      exact h.ending v (by rwa [hmoved.phase v hv] at hphase)
  listed := fun v hne => by
    by_cases hv : v = w
    · subst hv
      exact hlisted hne
    · rw [hmoved.conns v hv] at hne
      rw [hmoved.phase v hv]
      rcases h.listed v hne with hlist | hqueue | hhandling
      · exact or_assoc.mp (.inl (hothers v hv (.inl hlist)))
      · exact or_assoc.mp (.inl (hothers v hv (.inr hqueue)))
      · exact .inr (.inr hhandling)

/-- The step of one worker keeps the wake-up, if the worker goes on waiting when it
did. -/
theorem Token.of_moved (h : r.Token) {w : ℕ} (hmoved : Moved r t w)
    (hinflight : t.side.inflight = r.side.inflight) (howes : t.owes = r.owes)
    (hqueued : t.queued = r.queued)
    (hactive : (r.phase w).active = true → (t.phase w).active = true)
    (hwaits : t.waits w ↔ r.waits w) : t.Token := by
  have hiff : ∀ v, t.waits v ↔ r.waits v := by
    intro v
    by_cases hv : v = w
    · rw [hv]
      exact hwaits
    · exact hmoved.waits_iff hv
  intro u hu huwaits
  rw [hmoved.workers] at hu
  rcases h u hu ((hiff u).mp huwaits) with hin | hnotify | ⟨v, hv, hvactive⟩ | ⟨v, hv, hq, hvwaits⟩
  · exact .inl (by rwa [hinflight])
  · exact .inr (.inl (by rwa [howes]))
  · refine .inr (.inr (.inl ⟨v, by rwa [hmoved.workers], ?_⟩))
    by_cases hvw : v = w
    · rw [hvw] at hvactive ⊢
      exact hactive hvactive
    · rwa [hmoved.phase v hvw]
  · exact .inr (.inr (.inr ⟨v, by rwa [hmoved.workers], by rwa [hqueued], (hiff v).mpr hvwaits⟩))

/-- A worker in its handler will wake the next one. -/
theorem Token.of_active {w : ℕ} (hw : w < t.workers) (hactive : (t.phase w).active = true) :
    t.Token := fun _ _ _ => .inr (.inr (.inl ⟨w, hw, hactive⟩))

/-- What `notify_pending_workers` does to the lists. -/
theorem notifyWorkers_lists (r : WakeRun) :
    (∀ v ∈ r.queued, v ∈ r.notifyWorkers.queued) ∧
      (∀ v, v ∈ r.side.pendingWorkers ∨ v ∈ r.queued →
        v ∈ r.notifyWorkers.side.pendingWorkers ∨ v ∈ r.notifyWorkers.queued) ∧
      (∀ f rest, r.side.pendingWorkers = f :: rest → f ∈ r.notifyWorkers.queued) := by
  unfold notifyWorkers TxSide.notifyPendingWorkers
  cases hlist : r.side.pendingWorkers with
  | nil => simp [hlist]
  | cons f rest =>
      refine ⟨fun v hv => List.mem_append_left _ hv, fun v hv => ?_, fun f' rest' heq => ?_⟩
      · rcases hv with hv | hv
        · rcases List.mem_cons.mp hv with rfl | hv
          · exact .inr (List.mem_append_right _ (List.mem_singleton_self _))
          · exact .inl hv
        · exact .inr (List.mem_append_left _ hv)
      · obtain ⟨rfl, -⟩ := List.cons.inj heq
        exact List.mem_append_right _ (List.mem_singleton_self _)

/-- The last call of `notify_pending_workers` passes the wake-up on. -/
theorem Token.notify (hlists : r.ListsKept) {caller : Option ℕ}
    (hfinds : r.findsWaiting caller) (hside : t.side = r.notifyWorkers.side)
    (hqueued : t.queued = r.notifyWorkers.queued) (hworkers : t.workers = r.workers)
    (hphase : ∀ v, some v ≠ caller → t.phase v = r.phase v)
    (hcaller : ∀ w, caller = some w → r.phase w = .ending ∧ t.phase w = .outside)
    (howes : caller ≠ none → t.owes = r.owes) : t.Token := by
  obtain ⟨hkept, -, hfront⟩ := r.notifyWorkers_lists
  have hconns : t.side.pendingSentConns = r.side.pendingSentConns := by
    rw [hside]
    exact notifyPendingWorkers_pendingSentConns r.side
  have hinflight : t.side.inflight = r.side.inflight := by
    rw [hside]
    exact notifyPendingWorkers_inflight r.side
  -- the caller itself waits neither before nor after
  have hiff : ∀ v, t.waits v ↔ r.waits v := by
    intro v
    by_cases hv : some v = caller
    · obtain ⟨hending, houtside⟩ := hcaller v hv.symm
      rw [waits, waits, hconns, hending, houtside]
      exact Iff.rfl
    · rw [waits, waits, hconns, hphase v hv]
  have hqueue : ∀ v < r.workers, v ∈ r.notifyWorkers.queued → r.waits v → t.wakeup :=
    fun v hv hq hwaits =>
      .inr (.inr (.inr ⟨v, by rwa [hworkers], by rwa [hqueued], (hiff v).mpr hwaits⟩))
  have hactive : ∀ v < r.workers, some v ≠ caller → (r.phase v).active = true → t.wakeup :=
    fun v hv hne hactive =>
      .inr (.inr (.inl ⟨v, by rwa [hworkers], by rwa [hphase v hne]⟩))
  intro u hu huwaits
  rw [hworkers] at hu
  rw [hiff] at huwaits
  rcases hfinds with hother | hfinds
  · rcases hother with hin | ⟨hne, hnotify⟩ | ⟨v, hv, hne, hvactive⟩ | ⟨v, hv, hq, hvwaits⟩
    · exact .inl (by rwa [hinflight])
    · exact .inr (.inl (by rwa [howes hne]))
    · exact hactive v hv hne hvactive
    · exact hqueue v hv (hkept v hq) hvwaits
  · split at hfinds
    · rename_i hempty
      -- nobody is about to register, so whoever waits is on a list already
      have hwindow := hfinds u hu
      have hpending : r.side.pendingSentConns u ≠ [] := by
        rcases huwaits with hne | hwin
        · exact hne
        · rw [hwindow] at hwin
          cases hwin
      rcases hlists.listed u hpending with hlist | hq | hhandling
      · rw [hempty] at hlist
        cases hlist
      · exact hqueue u hu (hkept u hq) huwaits
      · refine hactive u hu (fun hself => ?_) (by simp [WorkerPhase.active, hhandling, hwindow])
        exact hpending (hlists.ending u (hcaller u hself.symm).1)
    · rename_i f rest hlist
      rcases hfinds with ⟨hf, hfwaits⟩ | hnone
      · exact hqueue f hf (hfront f rest hlist) hfwaits
      · exact absurd huwaits (hnone u hu)

/-! ## Steps -/

/-- What every run maintains as long as the last wake-up is not missed. -/
structure Sound (r : WakeRun) : Prop where
  pool : r.PoolKept
  lists : r.ListsKept
  token : r.Token

theorem Fresh.sound (h : r.Fresh) : r.Sound where
  pool :=
    { bufferSize_pos := h.bufferSize_pos
      total_pos := h.total_pos
      total_lt := h.total_lt
      free_add := by rw [h.free, h.inflight, Nat.add_zero]
      inflight_eq := by
        have hheld : r.heldCount = 0 :=
          Finset.sum_eq_zero fun w _ => by rw [h.phase w]; rfl
        rw [h.inflight, hheld, h.leaked, h.posted, List.length_nil] }
  lists :=
    { home := fun w call hcall => by simp [h.phase] at hcall
      member := fun w o ho => by simp [h.pendingSentConns] at ho
      flagged := fun o ho => by simp [h.pending] at ho
      returning := fun w hphase => by simp [h.phase] at hphase
      ending := fun w _ => h.pendingSentConns w
      listed := fun w hne => absurd (h.pendingSentConns w) hne }
  token := fun w _ hwaits => by
    rcases hwaits with hne | hwindow
    · exact absurd (h.pendingSentConns w) hne
    · simp [h.phase, WorkerPhase.window] at hwindow

theorem moved_setPhase (r : WakeRun) (w : ℕ) (p : WorkerPhase) : Moved r (r.setPhase w p) w :=
  ⟨rfl, rfl, fun _ hv => Function.update_of_ne hv _ _, fun _ _ => rfl⟩

@[simp]
theorem setPhase_phase_self (r : WakeRun) (w : ℕ) (p : WorkerPhase) :
    (r.setPhase w p).phase w = p := Function.update_self _ _ _

/-- `send` enters `submit`. -/
theorem Sound.submit {o : ℕ} (h : r.Sound) (hstep : r.step (.submit o) = some t) :
    t.ListsKept ∧ t.Token := by
  simp only [step] at hstep
  split at hstep <;> cases hstep
  rename_i hguard
  obtain ⟨-, houtside⟩ := hguard
  have hmoved := r.moved_setPhase (r.home o) (.submitting ⟨o, false, [], false⟩)
  refine ⟨h.lists.of_moved hmoved ?_ (h.lists.member _) ?_ (fun _ ho _ => ho) ?_ ?_ ?_
    (fun _ _ hv => hv), h.token.of_moved hmoved rfl rfl rfl ?_ ?_⟩
  · intro call hcall
    simp only [setPhase_phase_self, WorkerPhase.submitting.injEq, reduceCtorEq,
      or_false] at hcall
    rw [← hcall]
  · intro o' ho' hhome
    exact .inl (h.lists.mem_of_flagged (by rw [houtside]; rfl) ho' hhome)
  · simp
  · simp
  · intro hne
    have hlisted := h.lists.listed _ hne
    rw [houtside] at hlisted
    rcases hlisted with hlist | hq | hhandling
    · exact .inl hlist
    · exact .inr (.inl hq)
    · cases hhandling
  · rw [houtside]
    exact fun hactive => absurd hactive (by decide)
  · rw [waits, waits, houtside, setPhase_phase_self]
    exact Iff.rfl

/-- The `tx_handler` event is handled. -/
theorem Sound.handle {w : ℕ} (h : r.Sound) (hstep : r.step (.handle w) = some t) :
    t.ListsKept ∧ t.Token := by
  simp only [step] at hstep
  split at hstep <;> cases hstep
  rename_i hguard
  obtain ⟨hw, houtside, -⟩ := hguard
  have hmoved : Moved r { r.setPhase w .looping with queued := r.queued.erase w } w :=
    ⟨rfl, rfl, fun _ hv => Function.update_of_ne hv _ _, fun _ _ => rfl⟩
  have hphase : ({ r.setPhase w .looping with queued := r.queued.erase w } : WakeRun).phase w =
      .looping := r.setPhase_phase_self w .looping
  refine ⟨h.lists.of_moved hmoved ?_ (h.lists.member _) ?_ (fun _ ho _ => ho) ?_ ?_ ?_ ?_,
    Token.of_active hw (by rw [hphase]; rfl)⟩
  · rw [hphase]
    simp
  · intro o' ho' hhome
    exact .inl (h.lists.mem_of_flagged (by rw [houtside]; rfl) ho' hhome)
  · rw [hphase]
    simp
  · rw [hphase]
    simp
  · intro _
    rw [hphase]
    exact .inr (.inr rfl)
  · rintro v hv (hlist | hq)
    · exact .inl hlist
    · exact .inr ((List.mem_erase_of_ne hv).mpr hq)

theorem next_spec {w : ℕ} {sends : Bool} (hstep : r.step (.next w sends) = some t) :
    w < r.workers ∧ r.phase w = .looping ∧ Moved r t w ∧ t.queued = r.queued ∧
      t.side.pendingWorkers = r.side.pendingWorkers ∧
      ((r.side.pendingSentConns w = [] ∧ t.phase w = .ending ∧
          t.side.pendingSentConns w = [] ∧ t.pending = r.pending) ∨
        ∃ o rest, r.side.pendingSentConns w = o :: rest ∧ t.side.pendingSentConns w = rest ∧
          ((t.phase w = .submitting ⟨o, true, [], false⟩ ∧ t.pending = r.pending) ∨
            (t.phase w = .looping ∧ t.pending = Function.update r.pending o false))) := by
  simp only [step] at hstep
  split at hstep
  · rename_i hguard
    obtain ⟨hw, hlooping⟩ := hguard
    split at hstep
    · rename_i hempty
      cases hstep
      exact ⟨hw, hlooping, r.moved_setPhase w .ending, rfl, rfl,
        .inl ⟨hempty, Function.update_self _ _ _, hempty, rfl⟩⟩
    · rename_i o rest hcons
      split at hstep <;> cases hstep
      · refine ⟨hw, hlooping, ⟨rfl, rfl, fun _ hv => Function.update_of_ne hv _ _,
          fun _ hv => Function.update_of_ne hv _ _⟩, rfl, rfl, .inr ⟨o, rest, hcons,
          Function.update_self _ _ _, .inl ⟨Function.update_self _ _ _, rfl⟩⟩⟩
      · exact ⟨hw, hlooping, ⟨rfl, rfl, fun _ _ => rfl,
          fun _ hv => Function.update_of_ne hv _ _⟩, rfl, rfl, .inr ⟨o, rest, hcons,
          Function.update_self _ _ _, .inr ⟨hlooping, rfl⟩⟩⟩
  · cases hstep

/-- `handle_pending_message` takes the next socket from its list, or leaves its
loop. -/
theorem Sound.next {w : ℕ} {sends : Bool} (h : r.Sound)
    (hstep : r.step (.next w sends) = some t) : t.ListsKept ∧ t.Token := by
  obtain ⟨hw, hlooping, hmoved, hqueued, hworkers, hcases⟩ := next_spec hstep
  have hothers : ∀ v, v ≠ w → v ∈ r.side.pendingWorkers ∨ v ∈ r.queued →
      v ∈ t.side.pendingWorkers ∨ v ∈ t.queued := by
    rw [hqueued, hworkers]
    exact fun _ _ hv => hv
  have hw' : w < t.workers := by rwa [hmoved.workers]
  have hflagged : ∀ o, r.pending o = true → r.home o = w → o ∈ r.side.pendingSentConns w :=
    fun o ho hhome => h.lists.mem_of_flagged (by rw [hlooping]; rfl) ho hhome
  rcases hcases with
    ⟨hempty, hphase, hconns, hpending⟩ | ⟨o, rest, hcons, hconns, hsubmits⟩
  · refine ⟨h.lists.of_moved hmoved (by simp [hphase]) (by simp [hconns]) ?_ (fun o ho _ => ?_)
      (by simp [hphase]) (fun _ => hconns) (fun hne => absurd hconns hne) hothers,
      Token.of_active hw' (by rw [hphase]; rfl)⟩
    · intro o ho hhome
      rw [hpending] at ho
      have hmem := hflagged o ho hhome
      rw [hempty] at hmem
      cases hmem
    · rwa [hpending] at ho
  · have hmember : ∀ o' ∈ rest, r.home o' = w := fun o' ho' =>
      h.lists.member w o' (by rw [hcons]; exact List.mem_cons_of_mem _ ho')
    have ho : r.home o = w := h.lists.member w o (by rw [hcons]; exact List.mem_cons_self)
    rcases hsubmits with ⟨hphase, hpending⟩ | ⟨hphase, hpending⟩
    · refine ⟨h.lists.of_moved hmoved ?_ (by rwa [hconns]) ?_ (fun o' ho' _ => ?_)
        (by simp [hphase]) (by simp [hphase]) (fun _ => .inr (.inr (by rw [hphase]; rfl)))
        hothers, Token.of_active hw' (by rw [hphase]; rfl)⟩
      · intro call hcall
        simp only [hphase, WorkerPhase.submitting.injEq, reduceCtorEq, or_false] at hcall
        rw [← hcall]
        exact ho
      · intro o' ho' hhome
        rw [hpending] at ho'
        have hmem := hflagged o' ho' hhome
        rw [hcons] at hmem
        rcases List.mem_cons.mp hmem with rfl | hmem
        · exact .inr (by rw [hphase]; rfl)
        · exact .inl (by rwa [hconns])
      · rwa [hpending] at ho'
    · refine ⟨h.lists.of_moved hmoved (by simp [hphase]) (by rwa [hconns]) ?_
        (fun o' ho' _ => ?_) (by simp [hphase]) (by simp [hphase])
        (fun _ => .inr (.inr (by rw [hphase]; rfl))) hothers,
        Token.of_active hw' (by rw [hphase]; rfl)⟩
      · intro o' ho' hhome
        rw [hpending] at ho'
        by_cases heq : o' = o
        · rw [heq, Function.update_self] at ho'
          cases ho'
        · rw [Function.update_of_ne heq] at ho'
          have hmem := hflagged o' ho' hhome
          rw [hcons] at hmem
          exact .inl (by rw [hconns]; exact (List.mem_cons.mp hmem).resolve_left heq)
      · rw [hpending] at ho'
        by_cases heq : o' = o
        · rw [heq, Function.update_self] at ho'
          cases ho'
        · rwa [Function.update_of_ne heq] at ho'

theorem getTxBuffers_spec {w bytes : ℕ} (hstep : r.step (.getTxBuffers w bytes) = some t) :
    Moved r t w ∧ t.queued = r.queued ∧ t.side.pendingWorkers = r.side.pendingWorkers ∧
      t.side.pendingSentConns = r.side.pendingSentConns ∧ t.pending = r.pending ∧
      ∃ call call', r.phase w = .submitting call ∧ call'.conn = call.conn ∧
        call'.handling = call.handling ∧
        (t.phase w = .submitting call' ∨ t.phase w = .registering call') := by
  simp only [step] at hstep
  split at hstep
  · split at hstep
    · rename_i call hcall
      split at hstep
      · cases hstep
      · cases hstep
        refine ⟨⟨rfl, rfl, fun _ hv => Function.update_of_ne hv _ _, fun _ _ => rfl⟩,
          rfl, rfl, rfl, rfl, call,
          { call with held := call.held ++ (r.side.reserve bytes).1 }, hcall, rfl, rfl, ?_⟩
        simp only [setPhase_phase_self]
        split
        · exact .inl rfl
        · exact .inr rfl
    · cases hstep
  · cases hstep

/-- `get_tx_buffers`: afterwards something is in flight. -/
theorem Sound.getTxBuffers {w bytes : ℕ} (h : r.Sound)
    (hstep : r.step (.getTxBuffers w bytes) = some t) : t.ListsKept ∧ t.Token := by
  obtain ⟨hmoved, hqueued, hworkers, hconns, hpending, call, call', hcall, hconn, hhandling,
    hphase⟩ := getTxBuffers_spec hstep
  have hhandled : (t.phase w).handled = (r.phase w).handled := by
    rcases hphase with hphase | hphase <;>
      simp [hphase, hcall, WorkerPhase.handled, hconn, hhandling]
  have hsame : (t.phase w).handling = (r.phase w).handling := by
    rcases hphase with hphase | hphase <;>
      simp [hphase, hcall, WorkerPhase.handling, hhandling]
  refine ⟨h.lists.of_moved hmoved ?_ ?_ ?_ (fun o ho _ => ?_) ?_ ?_ ?_ ?_, fun _ _ _ => .inl ?_⟩
  · intro call₁ hcall₁
    have heq : call₁ = call' := by
      rcases hphase with hphase | hphase <;> simp only [hphase, WorkerPhase.submitting.injEq,
        WorkerPhase.registering.injEq, reduceCtorEq, or_false, false_or] at hcall₁ <;>
        exact hcall₁.symm
    rw [heq, hconn]
    exact h.lists.home w call (.inl hcall)
  · rw [hconns]
    exact h.lists.member w
  · intro o ho hhome
    rw [hpending] at ho
    have hflagged := h.lists.flagged o ho
    rwa [hhome, ← hconns, ← hhandled] at hflagged
  · rwa [hpending] at ho
  · rcases hphase with hphase | hphase <;> simp [hphase]
  · rcases hphase with hphase | hphase <;> simp [hphase]
  · rw [hconns, hworkers, hqueued, hsame]
    exact h.lists.listed w
  · rw [hworkers, hqueued]
    exact fun _ _ hv => hv
  · exact (h.pool.getTxBuffers hstep).2

theorem makePending_spec {w : ℕ} (hstep : r.step (.makePending w) = some t) :
    ∃ call, r.phase w = .registering call ∧ w < r.workers ∧ Moved r t w ∧
      t.phase w = .submitting { call with short := true } ∧ t.queued = r.queued ∧
      t.owes = r.owes ∧ t.side.inflight = r.side.inflight ∧
      (∀ v, v ∈ t.side.pendingWorkers ↔ v ∈ r.side.pendingWorkers ∨ v = w) ∧
      t.side.pendingSentConns w =
        (if r.pending call.conn then r.side.pendingSentConns w
          else r.side.pendingSentConns w ++ [call.conn]) ∧
      t.pending = Function.update r.pending call.conn true := by
  simp only [step] at hstep
  split at hstep
  · rename_i hw
    split at hstep
    · rename_i call hcall
      cases hstep
      obtain ⟨-, hinflight, hworkers, hconns⟩ :=
        enqueue_eq r.side w call.conn (r.pending call.conn)
      refine ⟨call, hcall, hw, ⟨rfl, rfl, fun _ hv => Function.update_of_ne hv _ _,
        fun v hv => ?_⟩, Function.update_self _ _ _, rfl, rfl, hinflight, hworkers, ?_, rfl⟩
      · rw [hconns]
        split
        · rfl
        · exact Function.update_of_ne hv _ _
      · dsimp only
        rw [hconns]
        split
        · rfl
        · exact Function.update_self _ _ _
    · cases hstep
  · cases hstep

/-- The second critical section of `get_reged_mem`. -/
theorem Sound.makePending {w : ℕ} (h : r.Sound) (hstep : r.step (.makePending w) = some t) :
    t.ListsKept ∧ t.Token := by
  obtain ⟨call, hcall, hw, hmoved, hphase, hqueued, howes, hinflight, hworkers, hconns,
    hpending⟩ := makePending_spec hstep
  have hhome : r.home call.conn = w := h.lists.home w call (.inr hcall)
  -- a socket that was flagged is on the list already, or is the one being handled
  have hcalled : call.handling = true ∨ call.conn ∈ t.side.pendingSentConns w := by
    rw [hconns]
    split
    · rename_i hflag
      have hflagged := h.lists.flagged call.conn hflag
      rw [hhome, hcall] at hflagged
      rcases hflagged with hmem | hhandled
      · exact .inr hmem
      · left
        by_contra hnot
        simp [WorkerPhase.handled, hnot] at hhandled
    · exact .inr (List.mem_append_right _ (List.mem_singleton_self _))
  have hkept : ∀ o ∈ r.side.pendingSentConns w, o ∈ t.side.pendingSentConns w := by
    intro o ho
    rw [hconns]
    split
    · exact ho
    · exact List.mem_append_left _ ho
  refine ⟨h.lists.of_moved hmoved ?_ ?_ ?_ ?_ (by simp [hphase]) (by simp [hphase])
    (fun _ => .inl ((hworkers w).mpr (.inr rfl))) ?_,
    h.token.of_moved hmoved hinflight howes hqueued ?_ ?_⟩
  · intro call' hcall'
    simp only [hphase, WorkerPhase.submitting.injEq, reduceCtorEq, or_false] at hcall'
    rw [← hcall']
    exact hhome
  · rw [hconns]
    split
    · exact h.lists.member w
    · intro o ho
      rcases List.mem_append.mp ho with ho | ho
      · exact h.lists.member w o ho
      · rw [List.mem_singleton.mp ho, hhome]
  · intro o ho hhome'
    by_cases heq : o = call.conn
    · rw [heq]
      rcases hcalled with hhandling | hmem
      · exact .inr (by simp [hphase, WorkerPhase.handled, hhandling])
      · exact .inl hmem
    · rw [hpending, Function.update_of_ne heq] at ho
      have hflagged := h.lists.flagged o ho
      rw [hhome', hcall] at hflagged
      rcases hflagged with hmem | hhandled
      · exact .inl (hkept o hmem)
      · exact .inr (by rw [hphase]; exact hhandled)
  · intro o ho hne
    rw [hpending, Function.update_of_ne (fun heq => hne (by rw [heq, hhome]))] at ho
    exact ho
  · intro v _ hv
    rw [hqueued]
    exact hv.imp_left fun hlist => (hworkers v).mpr (.inl hlist)
  · rw [hcall]
    exact fun hactive => by simp [WorkerPhase.active, WorkerPhase.window] at hactive
  · -- the worker waits before and after
    have hbefore : r.waits w := .inr (by rw [hcall]; rfl)
    have hafter : t.waits w := by
      rcases hcalled with hhandling | hmem
      · exact .inr (by simp [hphase, WorkerPhase.window, hhandling])
      · exact .inl (List.ne_nil_of_mem hmem)
    exact iff_of_true hafter hbefore

theorem finish_cases (r : WakeRun) (w : ℕ) (call : SubmitCall) (again : Bool) :
    Moved r (r.finish w call again) w ∧
      ((call.handling = false ∧ (r.finish w call again).phase w = .outside ∧
          (r.finish w call again).side.pendingSentConns w = r.side.pendingSentConns w ∧
          (r.finish w call again).pending = r.pending) ∨
        (call.handling = true ∧ again = true ∧
          (r.finish w call again).phase w = .returning ∧
          (r.finish w call again).side.pendingSentConns w =
            r.side.pendingSentConns w ++ [call.conn] ∧
          (r.finish w call again).pending = r.pending) ∨
        (call.handling = true ∧ (r.finish w call again).phase w = .looping ∧
          (r.finish w call again).side.pendingSentConns w = r.side.pendingSentConns w ∧
          (r.finish w call again).pending =
            Function.update r.pending call.conn false)) := by
  unfold finish
  cases hhandling : call.handling with
  | false => exact ⟨r.moved_setPhase w .outside, .inl ⟨rfl, r.setPhase_phase_self _ _, rfl, rfl⟩⟩
  | true =>
      cases again with
      | true =>
          exact ⟨⟨rfl, rfl, fun _ hv => Function.update_of_ne hv _ _,
            fun _ hv => Function.update_of_ne hv _ _⟩, .inr (.inl ⟨rfl, rfl,
            r.setPhase_phase_self _ _, Function.update_self _ _ _, rfl⟩)⟩
      | false =>
          exact ⟨⟨rfl, rfl, fun _ hv => Function.update_of_ne hv _ _, fun _ _ => rfl⟩,
            .inr (.inr ⟨rfl, r.setPhase_phase_self _ _, rfl, rfl⟩)⟩

/-- What `post_work_request` leaves: the call is over, and it ran short if
`handle_pending_message` is to try again. -/
theorem post_spec {w : ℕ} {ok left : Bool} (hstep : r.step (.post w ok left) = some t) :
    ∃ call again, r.phase w = .submitting call ∧ w < r.workers ∧
      (again = true → call.short = true) ∧
      t.workers = (r.finish w call again).workers ∧ t.home = (r.finish w call again).home ∧
      t.side = (r.finish w call again).side ∧ t.pending = (r.finish w call again).pending ∧
      t.phase = (r.finish w call again).phase ∧ t.owes = (r.finish w call again).owes ∧
      t.queued = (r.finish w call again).queued := by
  simp only [step] at hstep
  split at hstep
  · rename_i hw
    split at hstep
    · rename_i call hcall
      split at hstep
      · cases hstep
      · rename_i hshort
        have hleft : left = true ∨ call.held = [] → call.short = true := by
          intro hwhy
          by_contra hnot
          have hfalse : call.short = false := by simpa using hnot
          apply hshort
          rcases hwhy with rfl | hnil
          · simp [hfalse]
          · simp [hfalse, hnil]
        split at hstep
        · rename_i hnil
          cases hstep
          exact ⟨call, true, hcall, hw, fun _ => hleft (.inr hnil), rfl, rfl, rfl, rfl, rfl,
            rfl, rfl⟩
        · split at hstep <;> cases hstep
          · exact ⟨call, left, hcall, hw, fun h => hleft (.inl h), rfl, rfl, rfl, rfl, rfl,
              rfl, rfl⟩
          · exact ⟨call, false, hcall, hw, by simp, rfl, rfl, rfl, rfl, rfl, rfl, rfl⟩
    · cases hstep
  · cases hstep

/-- The end of a `submit`. -/
theorem Sound.post {w : ℕ} {ok left : Bool} (h : r.Sound)
    (hstep : r.step (.post w ok left) = some t) : t.ListsKept ∧ t.Token := by
  obtain ⟨call, again, hcall, hw, hshort, hworkers, hhome, hside, hpending, hphase, howes,
    hqueued⟩ := post_spec hstep
  obtain ⟨-, hinflight, hlist, -, -, -, -, -, howes', hqueued', -⟩ := finish_eq r w call again
  obtain ⟨hmoved', hcases⟩ := r.finish_cases w call again
  have hmoved : Moved r t w :=
    ⟨hworkers.trans hmoved'.workers, hhome.trans hmoved'.home,
      by rw [hphase]; exact hmoved'.phase, by rw [hside]; exact hmoved'.conns⟩
  rw [← hphase, ← hside, ← hpending] at hcases
  rw [← hside] at hinflight hlist
  rw [← howes] at howes'
  rw [← hqueued] at hqueued'
  have hw' : w < t.workers := by rwa [hmoved.workers]
  have hconn : r.home call.conn = w := h.lists.home w call (.inl hcall)
  have hothers : ∀ v, v ≠ w → v ∈ r.side.pendingWorkers ∨ v ∈ r.queued →
      v ∈ t.side.pendingWorkers ∨ v ∈ t.queued := by
    rw [hqueued', hlist]
    exact fun _ _ hv => hv
  have hflagged : ∀ o, r.pending o = true → r.home o = w →
      o ∈ r.side.pendingSentConns w ∨ (call.handling = true ∧ o = call.conn) := by
    intro o ho hhome
    have hflagged := h.lists.flagged o ho
    rw [hhome, hcall] at hflagged
    refine hflagged.imp_right fun hhandled => ?_
    simp only [WorkerPhase.handled] at hhandled
    split at hhandled
    · exact ⟨‹_›, (Option.some.inj hhandled).symm⟩
    · cases hhandled
  rcases hcases with ⟨hhandling, hphase, hconns, hflags⟩ |
    ⟨hhandling, hagain, hphase, hconns, hflags⟩ | ⟨hhandling, hphase, hconns, hflags⟩
  · refine ⟨h.lists.of_moved hmoved (by simp [hphase]) (by rw [hconns]; exact h.lists.member w)
      ?_ (fun o ho _ => by rwa [hflags] at ho) (by simp [hphase]) (by simp [hphase]) ?_ hothers,
      h.token.of_moved hmoved hinflight howes' hqueued' ?_ ?_⟩
    · intro o ho hhome
      rw [hflags] at ho
      rcases hflagged o ho hhome with hmem | ⟨htrue, -⟩
      · exact .inl (by rwa [hconns])
      · rw [hhandling] at htrue
        cases htrue
    · intro hne
      rw [hconns] at hne
      have hlisted := h.lists.listed w hne
      rw [hcall] at hlisted
      rw [hlist, hqueued', hphase]
      refine hlisted.imp_right fun hq => hq.imp_right fun htrue => ?_
      simp [WorkerPhase.handling, hhandling] at htrue
    · rw [hcall]
      exact fun hactive => by simp [WorkerPhase.active, WorkerPhase.handling, hhandling] at hactive
    · simp [waits, hconns, hphase, hcall, WorkerPhase.window, hhandling]
  · have hshort := hshort hagain
    refine ⟨h.lists.of_moved hmoved (by simp [hphase]) ?_ ?_
      (fun o ho _ => by rwa [hflags] at ho) (fun _ => by rw [hconns]; simp) (by simp [hphase])
      (fun _ => .inr (.inr (by rw [hphase]; rfl))) hothers,
      h.token.of_moved hmoved hinflight howes' hqueued' ?_ ?_⟩
    · rw [hconns]
      intro o ho
      rcases List.mem_append.mp ho with ho | ho
      · exact h.lists.member w o ho
      · rw [List.mem_singleton.mp ho, hconn]
    · intro o ho hhome
      rw [hflags] at ho
      rw [hconns]
      rcases hflagged o ho hhome with hmem | ⟨-, rfl⟩
      · exact .inl (List.mem_append_left _ hmem)
      · exact .inl (List.mem_append_right _ (List.mem_singleton_self _))
    · rw [hcall]
      exact fun hactive => by
        simp [WorkerPhase.active, WorkerPhase.window, hhandling, hshort] at hactive
    · simp [waits, hconns, hphase, hcall, WorkerPhase.window, hhandling, hshort]
  · refine ⟨h.lists.of_moved hmoved (by simp [hphase]) (by rw [hconns]; exact h.lists.member w)
      ?_ ?_ (by simp [hphase]) (by simp [hphase])
      (fun _ => .inr (.inr (by rw [hphase]; rfl))) hothers,
      Token.of_active hw' (by rw [hphase]; rfl)⟩
    · intro o ho hhome
      rw [hflags] at ho
      by_cases heq : o = call.conn
      · rw [heq, Function.update_self] at ho
        cases ho
      · rw [Function.update_of_ne heq] at ho
        rw [hconns]
        exact .inl ((hflagged o ho hhome).resolve_right fun hwas => heq hwas.2)
    · intro o ho hne
      rw [hflags, Function.update_of_ne (fun heq => hne (by rw [heq, hconn]))] at ho
      exact ho

/-- `make_pending_worker` on the early return of `handle_pending_message`. -/
theorem Sound.makePendingAgain {w : ℕ} (h : r.Sound)
    (hstep : r.step (.makePendingAgain w) = some t) : t.ListsKept ∧ t.Token := by
  simp only [step] at hstep
  split at hstep <;> cases hstep
  rename_i hguard
  obtain ⟨-, hreturning⟩ := hguard
  obtain ⟨-, hinflight, hconns, hworkers⟩ := makePendingWorker_eq r.side w
  have hpending := h.lists.returning w hreturning
  have hmoved : Moved r { r.setPhase w .outside with side := r.side.makePendingWorker w } w :=
    ⟨rfl, rfl, fun _ hv => Function.update_of_ne hv _ _, fun v _ => by rw [hconns]⟩
  refine ⟨h.lists.of_moved hmoved (by simp) ?_ ?_ (fun _ ho _ => ho)
    (by simp) (by simp) (fun _ => .inl ((hworkers w).mpr (.inr rfl))) ?_,
    h.token.of_moved hmoved hinflight rfl rfl ?_ ?_⟩
  · dsimp only
    rw [hconns]
    exact h.lists.member w
  · intro o ho hhome
    have hmem := h.lists.mem_of_flagged (by rw [hreturning]; rfl) ho hhome
    exact .inl (by rwa [← hconns] at hmem)
  · intro v _ hv
    exact hv.imp_left fun hlist => (hworkers v).mpr (.inl hlist)
  · rw [hreturning]
    exact fun hactive => absurd hactive (by decide)
  · refine iff_of_true (.inl ?_) (.inl hpending)
    dsimp only
    rwa [hconns]

/-- The end of `handle_pending_message`. -/
theorem Sound.notifyNext {w : ℕ} (h : r.Sound) (hok : r.findsWaiting (some w))
    (hstep : r.step (.notifyNext w) = some t) : t.ListsKept ∧ t.Token := by
  simp only [step] at hstep
  split at hstep <;> cases hstep
  rename_i hguard
  obtain ⟨-, hending⟩ := hguard
  obtain ⟨-, hlists, -⟩ := r.notifyWorkers_lists
  have hconns : (r.notifyWorkers.setPhase w .outside).side.pendingSentConns =
      r.side.pendingSentConns := notifyPendingWorkers_pendingSentConns r.side
  have hempty := h.lists.ending w hending
  have hmoved : Moved r (r.notifyWorkers.setPhase w .outside) w :=
    ⟨rfl, rfl, fun _ hv => Function.update_of_ne hv _ _, fun v _ => by rw [hconns]⟩
  refine ⟨h.lists.of_moved hmoved (by simp) ?_ ?_ (fun _ ho _ => ho) (by simp) (by simp) ?_
    (fun v _ hv => hlists v hv), Token.notify h.lists hok rfl rfl rfl ?_ ?_ (fun _ => rfl)⟩
  · rw [hconns]
    exact h.lists.member w
  · intro o ho hhome
    have hmem := h.lists.mem_of_flagged (by rw [hending]; rfl) ho hhome
    rw [hempty] at hmem
    cases hmem
  · intro hne
    rw [hconns] at hne
    exact absurd hempty hne
  · intro v hv
    exact Function.update_of_ne (fun heq => hv (by rw [heq])) _ _
  · rintro v hv
    obtain rfl := Option.some.inj hv
    exact ⟨hending, setPhase_phase_self _ _ _⟩

/-- The step lemma. -/
theorem Sound.step {a : WakeAction} (h : r.Sound) (hok : r.wakesInTime a)
    (hstep : r.step a = some t) : t.Sound := by
  have hpool := h.pool.step hstep
  have hrest : t.ListsKept ∧ t.Token := by
    cases a with
    | submit o => exact h.submit hstep
    | handle w => exact h.handle hstep
    | next w sends => exact h.next hstep
    | getTxBuffers w bytes => exact h.getTxBuffers hstep
    | makePending w => exact h.makePending hstep
    | post w ok left => exact h.post hstep
    | makePendingAgain w => exact h.makePendingAgain hstep
    | notifyNext w => exact h.notifyNext hok hstep
    | returnTx chunks =>
        simp only [WakeRun.step] at hstep
        split at hstep <;> cases hstep
        exact ⟨⟨h.lists.home, h.lists.member, h.lists.flagged, h.lists.returning,
          h.lists.ending, h.lists.listed⟩, fun _ _ _ => .inr (.inl rfl)⟩
    | notify =>
        simp only [WakeRun.step] at hstep
        split at hstep <;> cases hstep
        obtain ⟨-, hlists, -⟩ := r.notifyWorkers_lists
        have hconns : r.notifyWorkers.side.pendingSentConns = r.side.pendingSentConns :=
          notifyPendingWorkers_pendingSentConns r.side
        refine ⟨⟨h.lists.home, ?_, ?_, ?_, ?_, ?_⟩, Token.notify h.lists hok rfl rfl rfl
          (fun _ _ => rfl) (fun _ hnone => by cases hnone) (fun hne => absurd rfl hne)⟩
        · dsimp only
          rw [hconns]
          exact h.lists.member
        · dsimp only
          rw [hconns]
          exact h.lists.flagged
        · dsimp only
          rw [hconns]
          exact h.lists.returning
        · dsimp only
          rw [hconns]
          exact h.lists.ending
        · dsimp only
          rw [hconns]
          intro w hne
          rcases h.lists.listed w hne with hlist | hq | hhandling
          · exact or_assoc.mp (.inl (hlists w (.inl hlist)))
          · exact or_assoc.mp (.inl (hlists w (.inr hq)))
          · exact .inr (.inr hhandling)
  exact ⟨hpool, hrest.1, hrest.2⟩

/-- At rest only pending connections make a worker wait, and only a queued event is a
wake-up. -/
theorem Token.sendersWoken (h : r.Token) : r.SendersWoken := by
  rintro ⟨howes, hresting⟩ hinflight ⟨w, hw, hpending⟩
  rcases h w hw (.inl hpending) with hin | hnotify | ⟨v, hv, hactive⟩ | ⟨v, hv, hq, hwaits⟩
  · exact absurd hinflight hin
  · rw [howes] at hnotify
    cases hnotify
  · have hrest := hresting v hv
    simp only [WorkerPhase.active, WorkerPhase.resting, Bool.and_eq_true] at hactive hrest
    simp [hactive.1] at hrest
  · have hrest := hresting v hv
    simp only [WorkerPhase.resting, Bool.and_eq_true, Bool.not_eq_true'] at hrest
    rcases hwaits with hne | hwindow
    · exact ⟨v, hv, hq, hne⟩
    · rw [hrest.2] at hwindow
      cases hwindow

/-- **No sender is left waiting** in every run in which the last wake-up finds whoever
waits. -/
theorem sendersWoken_of_wakesInTime {r : WakeRun}
    (hreached : wakeMachine.ReachedUnder wakesInTime r) : r.SendersWoken := by
  have hsound : r.Sound :=
    hreached.invariant Sound (fun _ (h : Fresh _) => h.sound)
      fun _ _ _ h hok hstep => h.step hok hstep
  exact hsound.token.sendersWoken

/-- One worker, and a pool of one chunk. -/
def oneChunkPool : WakeRun where
  workers := 1
  home := fun _ => 0
  total := 1
  side := ⟨⟨4, [.empty 100 4]⟩, 0, [], fun _ => []⟩
  posted := []
  leaked := 0
  pending := fun _ => false
  phase := fun _ => .outside
  owes := false
  queued := []

theorem fresh_oneChunkPool : oneChunkPool.Fresh :=
  ⟨by decide, rfl, by decide, by decide, rfl, rfl, fun _ => rfl, rfl, rfl, fun _ => rfl,
    fun _ => rfl, rfl, rfl⟩

/-- Socket 0 sends with the one chunk, and socket 1 gets none. -/
def secondRunsShort : List WakeAction :=
  [.submit 0, .getTxBuffers 0 4, .post 0 true false, .submit 1, .getTxBuffers 0 4]

/-- The chunk comes back, and the dispatcher notifies. -/
def chunkReturns : List WakeAction :=
  [.returnTx [.empty 100 4], .notify]

/-- The worker enters the lists, and `submit` returns `-EAGAIN`. -/
def workerRegisters : List WakeAction := [.makePending 0, .post 0 true false]

/-- The chunk comes back after the worker has registered: its event is queued. -/
theorem sendersWoken_of_wakesInTime_registered :
    ∃ r : WakeRun, r.side.pendingSentConns 0 = [1] ∧ r.side.inflight = 0 ∧ r.queued = [0] ∧
      r.SendersWoken := by
  have hrun : (wakeMachine.replay wakesInTime oneChunkPool
      (secondRunsShort ++ workerRegisters ++ chunkReturns)).any
      (fun r => decide (r.side.pendingSentConns 0 = [1] ∧ r.side.inflight = 0 ∧
        r.queued = [0])) = true := by
    decide +kernel
  obtain ⟨r, hreplay, hr⟩ := (Option.any_eq_true _ _).mp hrun
  obtain ⟨hconns, hinflight, hqueued⟩ := of_decide_eq_true hr
  exact ⟨r, hconns, hinflight, hqueued,
    sendersWoken_of_wakesInTime (.of_replay (.start fresh_oneChunkPool) hreplay)⟩

/-- The chunk comes back while the worker is between its short `get_tx_buffers` and
`make_pending_worker`: socket 1 waits although the chunk is free, and nobody will
wake its worker. -/
theorem not_sendersWoken_registering :
    ∃ r : WakeRun, wakeMachine.Reached r ∧ r.AtRest ∧ r.side.inflight = 0 ∧
      r.side.pendingSentConns 0 = [1] ∧ r.side.cluster.freeChunks.length = 1 ∧
      r.queued = [] ∧ ¬ r.SendersWoken := by
  have hrun : (wakeMachine.replay (fun _ _ => True) oneChunkPool
      (secondRunsShort ++ chunkReturns ++ workerRegisters)).any
      (fun r => decide ((r.owes = false ∧ ∀ w < r.workers, (r.phase w).resting = true) ∧
        r.side.inflight = 0 ∧ r.side.pendingSentConns 0 = [1] ∧
        r.side.cluster.freeChunks.length = 1 ∧ r.queued = [] ∧ 0 < r.workers)) = true := by
    decide +kernel
  obtain ⟨r, hreplay, hr⟩ := (Option.any_eq_true _ _).mp hrun
  obtain ⟨hrest, hinflight, hconns, hfree, hqueued, hworkers⟩ := of_decide_eq_true hr
  refine ⟨r, .of_replay (.start fresh_oneChunkPool) hreplay, hrest, hinflight, hconns, hfree,
    hqueued, fun hwoken => ?_⟩
  obtain ⟨w, -, hmem, -⟩ := hwoken hrest hinflight ⟨0, hworkers, by rw [hconns]; simp⟩
  rw [hqueued] at hmem
  cases hmem

end WakeRun

end HwAsync.Rdma
