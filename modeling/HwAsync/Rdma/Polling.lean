/-
# The dispatcher: queue pairs, their sockets and the polling thread

A socket registers its queue pair under the queue pair's number.  The entry goes
to `dead_queue_pairs` when the socket is destroyed or when the adapter reports the
last work request of the queue pair, and the polling thread deletes the dead queue
pairs in an iteration whose two polls came back empty.

Sockets post, the adapter completes, and the polling thread polls, in any order.
What a completion does to the tx chunk it names is the business of the tx side;
here it only counts that it was polled.
-/

import HwAsync.Lib.Run
import HwAsync.Rdma.Submit

namespace HwAsync.Rdma

open HwAsync.Lib HwAsync.Infiniband

/-- A `QueuePair` object: the socket that created it, the number the adapter gave
it, and whether `to_dead` was called. -/
structure QpObject where
  creator : ℕ
  number : UInt32
  dead : Bool
  deriving DecidableEq

/-- A value of `qp_conns`. -/
structure Registered where
  qp : QpObject
  conn : ℕ
  deriving DecidableEq

/-- `RDMADispatcher`, as far as it keeps queue pairs. -/
structure Dispatcher where
  qpConns : UInt32 → Option Registered
  numQpConn : ℕ
  deadQueuePairs : List QpObject
  numDeadQueuePair : ℕ

namespace Dispatcher

/-- `register_qp`; `none` where the assertion fails. -/
def registerQp (d : Dispatcher) (qp : QpObject) (csi : ℕ) : Option Dispatcher :=
  if d.qpConns qp.number = none then
    some { d with
      qpConns := Function.update d.qpConns qp.number (some ⟨qp, csi⟩)
      numQpConn := d.numQpConn + 1 }
  else none

/-- `get_conn_lockless`. -/
def getConnLockless (d : Dispatcher) (qp : UInt32) : Option ℕ :=
  match d.qpConns qp with
  | none => none
  | some it => if it.qp.dead then none else some it.conn

/-- `erase_qpn_lockless`. -/
def eraseQpnLockless (d : Dispatcher) (qpn : UInt32) : Dispatcher :=
  match d.qpConns qpn with
  | none => d
  | some it =>
      { qpConns := Function.update d.qpConns qpn none
        numQpConn := d.numQpConn - 1
        deadQueuePairs := d.deadQueuePairs ++ [it.qp]
        numDeadQueuePair := d.numDeadQueuePair + 1 }

/-- The queue pairs that the idle branch of `polling` deletes. -/
def doomed (d : Dispatcher) : List QpObject :=
  if d.numDeadQueuePair = 0 then [] else d.deadQueuePairs

/-- The dispatcher after the idle branch of `polling`. -/
def deleteDead (d : Dispatcher) : Dispatcher :=
  if d.numDeadQueuePair = 0 then d
  else
    { d with
      deadQueuePairs := []
      numDeadQueuePair := d.numDeadQueuePair - d.deadQueuePairs.length }

/-- A queue pair number is taken as long as a queue pair with it exists. -/
def taken (d : Dispatcher) (n : UInt32) : Prop :=
  d.qpConns n ≠ none ∨ ∃ q ∈ d.deadQueuePairs, q.number = n

instance (d : Dispatcher) (n : UInt32) : Decidable (d.taken n) :=
  inferInstanceAs (Decidable (_ ∨ _))

theorem registerQp_eq {d d' : Dispatcher} {qp : QpObject} {csi : ℕ}
    (hregister : d.registerQp qp csi = some d') :
    d.qpConns qp.number = none ∧
      d'.qpConns = Function.update d.qpConns qp.number (some ⟨qp, csi⟩) ∧
      d'.deadQueuePairs = d.deadQueuePairs ∧ d'.numDeadQueuePair = d.numDeadQueuePair := by
  unfold registerQp at hregister
  split at hregister
  · cases hregister
    exact ⟨‹_›, rfl, rfl, rfl⟩
  · cases hregister

/-- Retiring a number does nothing, or moves the queue pair that is registered
under it. -/
theorem eraseQpnLockless_cases (d : Dispatcher) (n : UInt32) :
    (d.qpConns n = none ∧ d.eraseQpnLockless n = d) ∨
      (∃ it, d.qpConns n = some it ∧
        (d.eraseQpnLockless n).qpConns = Function.update d.qpConns n none ∧
        (d.eraseQpnLockless n).deadQueuePairs = d.deadQueuePairs ++ [it.qp] ∧
        (d.eraseQpnLockless n).numDeadQueuePair = d.numDeadQueuePair + 1) := by
  unfold eraseQpnLockless
  cases hentry : d.qpConns n with
  | none => exact .inl ⟨rfl, rfl⟩
  | some it => exact .inr ⟨it, rfl, rfl, rfl, rfl⟩

theorem doomed_subset (d : Dispatcher) : d.doomed ⊆ d.deadQueuePairs := by
  unfold doomed
  split
  · exact List.nil_subset _
  · exact List.Subset.refl _

/-- The counter of dead queue pairs is right. -/
def Counted (d : Dispatcher) : Prop := d.numDeadQueuePair = d.deadQueuePairs.length

theorem Counted.registerQp {d d' : Dispatcher} {qp : QpObject} {csi : ℕ}
    (hcounted : d.Counted) (hregister : d.registerQp qp csi = some d') : d'.Counted := by
  obtain ⟨-, -, hdead, hnum⟩ := registerQp_eq hregister
  rw [Counted, hnum, hdead]
  exact hcounted

theorem Counted.eraseQpnLockless {d : Dispatcher} (hcounted : d.Counted) (n : UInt32) :
    (d.eraseQpnLockless n).Counted := by
  rcases d.eraseQpnLockless_cases n with ⟨-, h⟩ | ⟨it, -, -, hdead, hnum⟩
  · rwa [h]
  · rw [Counted, hnum, hdead, hcounted, List.length_append, List.length_singleton]

/-- With the right counter the idle branch deletes every dead queue pair. -/
theorem Counted.doomed_eq {d : Dispatcher} (hcounted : d.Counted) :
    d.doomed = d.deadQueuePairs := by
  unfold doomed
  split
  · rename_i hzero
    exact (List.length_eq_zero_iff.mp (hcounted.symm.trans hzero)).symm
  · rfl

theorem Counted.deleteDead {d : Dispatcher} (hcounted : d.Counted) :
    d.deleteDead.Counted ∧ d.deleteDead.deadQueuePairs = [] := by
  unfold Dispatcher.deleteDead
  split
  · rename_i hzero
    exact ⟨hcounted, List.length_eq_zero_iff.mp (hcounted.symm.trans hzero)⟩
  · exact ⟨by simp [Counted, hcounted.le, Nat.sub_eq_zero_of_le], rfl⟩

end Dispatcher

/-- A live socket: the queue pair it created, whether its worker is inside `submit`
past the check of `error`, and whether a `LAST_WQE_REACHED` event faulted it. -/
structure Conn where
  socket : Socket
  qp : QpObject
  submitting : Bool
  lastWqe : Bool
  deriving DecidableEq

/-- A work request on the send queue of a queue pair. -/
structure WorkRequest where
  qp : QpObject
  wr : TxWr
  deriving DecidableEq

namespace WorkRequest

/-- It carries a tx chunk, and is no disconnect message. -/
def isChunk (w : WorkRequest) : Bool :=
  match w.wr with
  | .chunk _ => true
  | .fin _ => false

/-- The completion of a work request. -/
def completion (w : WorkRequest) (success : Bool) : TxCompletion :=
  ⟨w.wr, success, w.qp.number.toNat⟩

end WorkRequest

structure RxCompletion where
  qpNum : UInt32
  wc : IbvWc
  deriving DecidableEq

/-- Where the polling thread is: before the tx poll, between the two polls, knowing
whether the first came back empty, or in the idle branch. -/
inductive PollPhase
  | top
  | txPolled (empty : Bool)
  | idle
  deriving DecidableEq, Repr

/-- `MAX_COMPLETIONS`. -/
def maxCompletions : ℕ := 32

/-- The dispatcher with the live sockets, the adapter and the polling thread.  The
last four fields are records: the queue pairs deleted, the work requests whose
completion was not polled when their queue pair was deleted, the sockets whose
queue pair another socket's destructor retired, and those whose queue pair was
deleted under them. -/
structure PollRun where
  dispatcher : Dispatcher
  sockets : ℕ → Option Conn
  created : ℕ
  sendQueue : List WorkRequest
  txCq : List (WorkRequest × Bool)
  rxCq : List RxCompletion
  phase : PollPhase
  deleted : List QpObject
  lost : List WorkRequest
  stolen : List (ℕ × ℕ)
  orphaned : List ℕ

inductive PollAction
  | construct (s : Socket)
  | establish (o : ℕ)
  | beginSubmit (o : ℕ)
  | post (o : ℕ) (txBuffers : List Chunk)
  | close (o : ℕ) (posted : Bool)
  | destroy (o : ℕ)
  | lastWqe (qpn : UInt32)
  | complete (i : ℕ) (success : Bool)
  | receive (c : RxCompletion)
  | pollTx (ok : Bool)
  | pollRx (ok : Bool)
  | idle

namespace PollRun

/-- The work requests whose completion has not been polled. -/
def outstanding (r : PollRun) : List WorkRequest := r.sendQueue ++ r.txCq.map Prod.fst

/-- Change one socket. -/
def setConn (r : PollRun) (o : ℕ) (c : Option Conn) : PollRun :=
  { r with sockets := Function.update r.sockets o c }

/-- `fault` of one socket. -/
def faultConn (sockets : ℕ → Option Conn) (o : ℕ) : ℕ → Option Conn :=
  Function.update sockets o
    ((sockets o).map fun c => { c with socket := c.socket.fault })

/-- `is_connected`. -/
def isConnected (r : PollRun) (o : ℕ) : Bool :=
  match r.sockets o with
  | none => false
  | some c => c.socket.connected

/-- `handle_tx_event`: the sockets afterwards. -/
def handleTxEvent (r : PollRun) (batch : List (WorkRequest × Bool)) : ℕ → Option Conn :=
  let cqe := batch.map fun response => response.1.completion response.2
  (faultedConns (fun n => r.dispatcher.getConnLockless (UInt32.ofNat n)) r.isConnected
    cqe).foldl faultConn r.sockets

/-- The sockets that failed receive completions fault. -/
def rxFaulted (r : PollRun) (batch : List RxCompletion) : List ℕ :=
  batch.filterMap fun response =>
    if response.wc.success then none
    else (r.dispatcher.getConnLockless response.qpNum).filter r.isConnected

/-- The completions that `polled` holds for one socket. -/
def polled (r : PollRun) (batch : List RxCompletion) (o : ℕ) : List IbvWc :=
  batch.filterMap fun response =>
    if response.wc.success ∧ r.dispatcher.getConnLockless response.qpNum = some o then
      some response.wc
    else none

/-- The receive completions of one poll: the sockets afterwards. -/
def handleRxEvent (r : PollRun) (batch : List RxCompletion) (o : ℕ) : Option Conn :=
  ((r.rxFaulted batch).foldl faultConn r.sockets o).map fun c =>
    if r.polled batch o = [] then c
    else { c with socket := c.socket.passWc (r.polled batch o) }

/-- The other live socket whose queue pair is registered under the number that the
destructor of `o` retires. -/
def robbed (r : PollRun) (o : ℕ) (c : Conn) : List (ℕ × ℕ) :=
  match r.dispatcher.qpConns c.socket.myMsg.qpn with
  | none => []
  | some it =>
      if it.qp.creator ≠ o ∧ (r.sockets it.qp.creator).isSome then [(o, it.qp.creator)]
      else []

/-- The socket of a queue pair is alive, and no `LAST_WQE_REACHED` faulted it. -/
def inUse (r : PollRun) (q : QpObject) : Bool :=
  match r.sockets q.creator with
  | none => false
  | some c => !c.lastWqe

/-- One step of a worker, the adapter or the polling thread. -/
def step (r : PollRun) : PollAction → Option PollRun
  | .construct s =>
      -- the adapter gives a number that no existing queue pair has
      if s.error ≠ 0 ∨ r.dispatcher.taken s.myMsg.qpn then none
      else
        let qp : QpObject := ⟨r.created, s.myMsg.qpn, false⟩
        match r.dispatcher.registerQp qp r.created with
        | none => none
        | some dispatcher =>
            some { r.setConn r.created (some ⟨s, qp, false, false⟩) with
              dispatcher := dispatcher
              created := r.created + 1 }
  | .establish o =>
      match r.sockets o with
      | none => none
      | some c =>
          some (r.setConn o
            (some { c with socket := { c.socket with connected := true, active := true } }))
  | .beginSubmit o =>
      match r.sockets o with
      | none => none
      | some c =>
          if c.socket.error ≠ 0 then none
          else some (r.setConn o (some { c with submitting := true }))
  | .post o txBuffers =>
      match r.sockets o with
      | none => none
      | some c =>
          -- posting on a deleted queue pair is undefined
          if c.submitting ∧ c.qp ∉ r.deleted then
            some { r.setConn o (some { c with submitting := false }) with
              sendQueue := r.sendQueue ++ txBuffers.map fun chunk => ⟨c.qp, .chunk chunk⟩ }
          else none
  | .close o posted =>
      match r.sockets o with
      | none => none
      | some c =>
          let fin : List WorkRequest := [⟨c.qp, .fin c.qp.number.toNat⟩]
          some { r.setConn o
              (some { c with socket := { c.socket with error := econnreset, active := false } })
            with
              sendQueue := r.sendQueue ++ (if c.socket.error = 0 ∧ posted then fin else []) }
  | .destroy o =>
      match r.sockets o with
      | none => none
      | some c =>
          if c.submitting then none
          else
            some { r.setConn o none with
              dispatcher := r.dispatcher.eraseQpnLockless c.socket.myMsg.qpn
              stolen := r.stolen ++ r.robbed o c }
  | .lastWqe qpn =>
      match r.dispatcher.getConnLockless qpn with
      | none => some r
      | some o =>
          some { r with
            sockets := Function.update r.sockets o ((r.sockets o).map fun c =>
              { c with socket := c.socket.fault, lastWqe := true })
            dispatcher := r.dispatcher.eraseQpnLockless qpn }
  | .complete i success =>
      match r.sendQueue[i]? with
      | none => none
      | some w =>
          some { r with
            sendQueue := r.sendQueue.eraseIdx i
            txCq := r.txCq ++ [(w, success)] }
  | .receive c => some { r with rxCq := r.rxCq ++ [c] }
  | .pollTx ok =>
      if r.phase = .top then
        if ok then
          let batch := r.txCq.take maxCompletions
          some { r with
            sockets := r.handleTxEvent batch
            txCq := r.txCq.drop maxCompletions
            phase := .txPolled batch.isEmpty }
        else some { r with phase := .txPolled false }
      else none
  | .pollRx ok =>
      match r.phase with
      | .txPolled empty =>
          if ok then
            let batch := r.rxCq.take maxCompletions
            some { r with
              sockets := r.handleRxEvent batch
              rxCq := r.rxCq.drop maxCompletions
              phase := if empty && batch.isEmpty then .idle else .top }
          else some { r with phase := .top }
      | _ => none
  | .idle =>
      if r.phase = .idle then
        let doomed := r.dispatcher.doomed
        some { r with
          dispatcher := r.dispatcher.deleteDead
          sendQueue := r.sendQueue.filter fun w => w.qp ∉ doomed
          txCq := r.txCq.filter fun response => response.1.qp ∉ doomed
          phase := .top
          deleted := r.deleted ++ doomed
          lost := r.lost ++ r.outstanding.filter fun w => w.qp ∈ doomed ∧ w.isChunk
          orphaned := r.orphaned ++ (doomed.filter r.inUse).map QpObject.creator }
      else none

/-! ## What completions leave alone -/

/-- What a live socket holds in the dispatcher: the number in its `my_msg`, its queue
pair, and whether `LAST_WQE_REACHED` faulted it. -/
structure Holding where
  number : UInt32
  qp : QpObject
  lastWqe : Bool
  deriving DecidableEq

def holding (c : Conn) : Holding := ⟨c.socket.myMsg.qpn, c.qp, c.lastWqe⟩

/-- The same sockets are live, and hold the same. -/
def SameHolders (sockets sockets' : ℕ → Option Conn) : Prop :=
  ∀ o, (sockets' o).map holding = (sockets o).map holding

theorem sameHolders_update {sockets : ℕ → Option Conn} {o : ℕ} {c : Option Conn}
    (hholding : c.map holding = (sockets o).map holding) :
    SameHolders sockets (Function.update sockets o c) := by
  intro o'
  by_cases h : o' = o
  · rw [h, Function.update_self, hholding]
  · rw [Function.update_of_ne h]

theorem sameHolders_foldl_faultConn (sockets : ℕ → Option Conn) (faulted : List ℕ) :
    SameHolders sockets (faulted.foldl faultConn sockets) := by
  induction faulted generalizing sockets with
  | nil => exact fun _ => rfl
  | cons o faulted ih =>
      intro o'
      have hone : SameHolders sockets (faultConn sockets o) := by
        apply sameHolders_update
        cases sockets o <;> rfl
      exact (ih (faultConn sockets o) o').trans (hone o')

theorem sameHolders_handleTxEvent (r : PollRun) (batch : List (WorkRequest × Bool)) :
    SameHolders r.sockets (r.handleTxEvent batch) :=
  sameHolders_foldl_faultConn _ _

theorem sameHolders_handleRxEvent (r : PollRun) (batch : List RxCompletion) :
    SameHolders r.sockets (r.handleRxEvent batch) := by
  intro o
  rw [← sameHolders_foldl_faultConn r.sockets (r.rxFaulted batch) o]
  unfold handleRxEvent
  cases (r.rxFaulted batch).foldl faultConn r.sockets o with
  | none => rfl
  | some c =>
      by_cases h : r.polled batch o = []
      · simp [h]
      · simp [h, holding]

/-- What a step leaves alone that neither constructs nor retires a socket and deletes no
queue pair. -/
structure Untouched (r t : PollRun) : Prop where
  sockets : SameHolders r.sockets t.sockets
  dispatcher : t.dispatcher = r.dispatcher
  created : t.created = r.created
  stolen : t.stolen = r.stolen
  orphaned : t.orphaned = r.orphaned

/-- Whether an action changes what the dispatcher holds. -/
def registers : PollAction → Bool
  | .construct _ | .destroy _ | .lastWqe _ | .idle => true
  | _ => false

theorem untouched_step {r t : PollRun} {a : PollAction} (ha : registers a = false)
    (hstep : r.step a = some t) : Untouched r t := by
  cases a with
  | construct s => cases ha
  | destroy o => cases ha
  | lastWqe qpn => cases ha
  | idle => cases ha
  | establish o =>
      simp only [step] at hstep
      split at hstep
      · cases hstep
      · rename_i c hc
        cases hstep
        exact ⟨sameHolders_update (by rw [hc]; rfl), rfl, rfl, rfl, rfl⟩
  | beginSubmit o =>
      simp only [step] at hstep
      split at hstep
      · cases hstep
      · rename_i c hc
        split at hstep <;> cases hstep
        exact ⟨sameHolders_update (by rw [hc]; rfl), rfl, rfl, rfl, rfl⟩
  | post o txBuffers =>
      simp only [step] at hstep
      split at hstep
      · cases hstep
      · rename_i c hc
        split at hstep <;> cases hstep
        exact ⟨sameHolders_update (by rw [hc]; rfl), rfl, rfl, rfl, rfl⟩
  | close o posted =>
      simp only [step] at hstep
      split at hstep
      · cases hstep
      · rename_i c hc
        cases hstep
        exact ⟨sameHolders_update (by rw [hc]; rfl), rfl, rfl, rfl, rfl⟩
  | complete i success =>
      simp only [step] at hstep
      split at hstep <;> cases hstep
      exact ⟨fun _ => rfl, rfl, rfl, rfl, rfl⟩
  | receive c =>
      cases hstep
      exact ⟨fun _ => rfl, rfl, rfl, rfl, rfl⟩
  | pollTx ok =>
      simp only [step] at hstep
      split at hstep
      · split at hstep <;> cases hstep
        · exact ⟨r.sameHolders_handleTxEvent _, rfl, rfl, rfl, rfl⟩
        · exact ⟨fun _ => rfl, rfl, rfl, rfl, rfl⟩
      · cases hstep
  | pollRx ok =>
      simp only [step] at hstep
      split at hstep
      · split at hstep <;> cases hstep
        · exact ⟨r.sameHolders_handleRxEvent _, rfl, rfl, rfl, rfl⟩
        · exact ⟨fun _ => rfl, rfl, rfl, rfl, rfl⟩
      · cases hstep

/-- A dispatcher that has seen no socket yet. -/
structure Fresh (r : PollRun) : Prop where
  qpConns : ∀ n, r.dispatcher.qpConns n = none
  dead : r.dispatcher.deadQueuePairs = []
  counted : r.dispatcher.Counted
  sockets : ∀ o, r.sockets o = none
  sendQueue : r.sendQueue = []
  txCq : r.txCq = []
  phase : r.phase = .top
  deleted : r.deleted = []
  lost : r.lost = []
  stolen : r.stolen = []
  orphaned : r.orphaned = []

end PollRun

/-- The dispatcher under every order of the steps. -/
def pollMachine : Machine PollRun PollAction where
  start := PollRun.Fresh
  step := PollRun.step

namespace PollRun

/-- The counter of dead queue pairs is right in every state, so that the idle branch
always deletes all of them. -/
theorem counted_of_reached {r : PollRun} (hreached : pollMachine.Reached r) :
    r.dispatcher.Counted := by
  apply hreached.invariant fun r => r.dispatcher.Counted
  · intro s (hfresh : s.Fresh)
    exact hfresh.counted
  · intro s a t hcounted _ hstep
    simp only [pollMachine] at hstep
    cases ha : registers a with
    | false => exact (untouched_step ha hstep).dispatcher ▸ hcounted
    | true =>
        cases a with
        | construct s =>
            simp only [step] at hstep
            split at hstep
            · cases hstep
            · split at hstep
              · cases hstep
              · cases hstep
                exact hcounted.registerQp ‹_›
        | destroy o =>
            simp only [step] at hstep
            split at hstep
            · cases hstep
            · split at hstep <;> cases hstep
              exact hcounted.eraseQpnLockless _
        | lastWqe qpn =>
            simp only [step] at hstep
            split at hstep <;> cases hstep
            · exact hcounted
            · exact hcounted.eraseQpnLockless _
        | idle =>
            simp only [step] at hstep
            split at hstep <;> cases hstep
            exact hcounted.deleteDead.1
        | _ => cases ha

/-- No socket yet. -/
def freshRun : PollRun where
  dispatcher := ⟨fun _ => none, 0, [], 0⟩
  sockets := fun _ => none
  created := 0
  sendQueue := []
  txCq := []
  rxCq := []
  phase := .top
  deleted := []
  lost := []
  stolen := []
  orphaned := []

theorem fresh_freshRun : freshRun.Fresh :=
  ⟨fun _ => rfl, rfl, rfl, fun _ => rfl, rfl, rfl, rfl, rfl, rfl, rfl, rfl⟩

/-- A constructed socket whose queue pair has number `n`. -/
def newSocket (n : UInt32) : Socket :=
  { quietSocket with
    myMsg := { quietSocket.myMsg with qpn := n }
    connected := false
    active := false }

end PollRun

end HwAsync.Rdma
