/-
# Who sends an outgoing message

`send_message` may be called by any thread.  It puts the message into `out_q` under `write_lock`
and asks the center for `handle_write`.  Everything else is done by the thread of the center:
`handle_write` takes one message after the other and drops `write_lock` around each, `fault` takes
back what was sent and decides whether to connect again, and the last step of the handshake looks
whether something is queued.  None of them sees what is put into `out_q` behind its back, so that
the question is whether somebody is always left to send it.

The connection and its events are those of `World`; on top of them stand the queues of an
`Endpoint`, `outcoming_bl`, the callbacks that the center has still to run, and how far the thread
of the center is in `handle_write` and `fault`.  Both are cut where a lock is dropped.

A run here has no `_stop`, no replacing and no reset of the session.  The field `state` of the
`Endpoint` plays no part: the state is that of the connection.
-/

import HwAsync.Connection.Endpoint
import HwAsync.Event.Connection

namespace HwAsync.Event

open HwAsync.Lib
open HwAsync.Connect (RCState WriteStatus Policy Sent Aftermath)
open HwAsync.Connection (Endpoint Priority Message highest)

namespace World

/-- `fault` up to where it drops `write_lock`. -/
def faultLocked (branch : Aftermath) (w : World) : Option World :=
  let tearDown : Option World :=
    (w.onConn fun c => { c with canWrite := .nowrite }).shutdownSocket.map
      (onConn fun c => { c with openWrite := false })
  match branch with
  | .ignored | .failed => some w
  | .dropped => tearDown
  | .standby => tearDown.map (onConn fun c => { c with replacing := false, state := .standby })
  | .reconnects | .backsOff => tearDown.map (onConn fun c => { c with replacing := false })

/-- The rest of `fault`. -/
def settle (branch : Aftermath) (expire : ℕ) (w : World) : World :=
  match branch with
  | .ignored | .standby => w
  | .failed | .dropped => w.stop
  | .reconnects => w.onConn fun c => { c with state := c.state.after c.policy .reconnects }
  | .backsOff => (w.onConn fun c => { c with state := .connecting }).arm expire

/-- The two parts make up `fault`. -/
theorem fault_eq (queued : Bool) (expire : ℕ) (w : World) :
    w.fault queued expire =
      (w.faultLocked (w.branch queued)).map (settle (w.branch queued) expire) := by
  simp only [fault, faultLocked]
  cases w.branch queued <;> simp only [Option.map_map, Option.map_some] <;> rfl

/-! ## The socket while it is registered for writing -/

/-- `EVENT_WRITABLE` is registered for the socket. -/
def Registered (w : World) : Prop :=
  ∃ fd, w.conn.cs = some fd ∧ ((w.centers w.conn.center).fileEvents fd).mask.writable

/-- `open_write` says so. -/
def Registers (w : World) : Prop := w.conn.openWrite → w.Registered

namespace Registers

variable {w : World}

theorem of_closed (h : w.conn.openWrite = false) : w.Registers := by
  intro hopen
  exact absurd (h.symm.trans hopen) Bool.false_ne_true

theorem onConn (h : w.Registers) (f : Conn → Conn) (hcs : (f w.conn).cs = w.conn.cs)
    (hcenter : (f w.conn).center = w.conn.center)
    (hopen : (f w.conn).openWrite → w.conn.openWrite) : (w.onConn f).Registers := by
  intro hopen'
  obtain ⟨fd, hfd, hmask⟩ := h (hopen hopen')
  refine ⟨fd, hcs.trans hfd, ?_⟩
  show ((w.centers (f w.conn).center).fileEvents fd).mask.writable
  rw [hcenter]
  exact hmask

/-- A change of a center that leaves the socket registered. -/
theorem onCenter (h : w.Registers) (c : ℕ) (f : Center → Center)
    (hkeeps : ∀ fd, w.conn.cs = some fd → c = w.conn.center →
      ((w.centers c).fileEvents fd).mask.writable →
      ((f (w.centers c)).fileEvents fd).mask.writable) :
    (w.onCenter c f).Registers := by
  intro hopen
  obtain ⟨fd, hfd, hmask⟩ := h hopen
  refine ⟨fd, hfd, ?_⟩
  show ((Function.update w.centers c (f (w.centers c)) w.conn.center).fileEvents fd).mask.writable
  by_cases hc : w.conn.center = c
  · subst hc
    rw [Function.update_self]
    exact hkeeps fd hfd rfl hmask
  · rw [Function.update_of_ne hc]
    exact hmask

theorem onTimers (h : w.Registers) (c : ℕ) (f : Timers → Timers) :
    (w.onCenter c (Center.onTimers f)).Registers :=
  h.onCenter c _ fun _ _ _ hmask => hmask

theorem createFile (h : w.Registers) (c fd : ℕ) (mask : Mask) (ctxt : Callback) :
    (w.onCenter c (Center.createFileEvent fd mask ctxt)).Registers := by
  apply h.onCenter
  intro fd' _ _ hmask
  show (Function.update (w.centers c).fileEvents fd _ fd').mask.writable
  by_cases hfd : fd' = fd
  · subst hfd
    rw [Function.update_self, FileEvent.create]
    split
    · exact hmask
    · simp only [Mask.or, hmask, Bool.true_or]
  · rw [Function.update_of_ne hfd]
    exact hmask

theorem deleteFile (h : w.Registers) {c fd : ℕ} (mask : Mask)
    (hother : ¬ (c = w.conn.center ∧ w.conn.cs = some fd)) :
    (w.onCenter c (Center.deleteFileEvent fd mask)).Registers := by
  apply h.onCenter
  intro fd' hfd' hc hmask
  show (Function.update (w.centers c).fileEvents fd _ fd').mask.writable
  have hne : fd' ≠ fd := by
    rintro rfl
    exact hother ⟨hc, hfd'⟩
  rw [Function.update_of_ne hne]
  exact hmask

theorem arm (h : w.Registers) (expire : ℕ) : (w.arm expire).Registers :=
  (h.onTimers w.conn.center _).onConn _ rfl rfl id

theorem createTick (h : w.Registers) (expire : ℕ) : (w.createTick expire).Registers :=
  (h.onTimers w.conn.center _).onConn _ rfl rfl id

theorem dropTick (h : w.Registers) : w.dropTick.Registers := by
  unfold World.dropTick
  split
  · exact h
  · exact h.onTimers w.conn.center _

theorem trySend (h : w.Registers) {fd : ℕ} (hfd : w.conn.cs = some fd) (sent : Sent)
    (queued : Bool) : (w.trySend fd sent queued).Registers := by
  simp only [World.trySend]
  split
  · exact h
  split
  · split
    · exact h
    · intro _
      refine ⟨fd, hfd, ?_⟩
      show ((Function.update w.centers w.conn.center _ w.conn.center).fileEvents fd).mask.writable
      rw [Function.update_self]
      show (Function.update (w.centers w.conn.center).fileEvents fd _ fd).mask.writable
      rw [Function.update_self, FileEvent.create]
      split
      · rename_i hmask
        rw [hmask]
        rfl
      · simp [Mask.or, Mask.write]
  · split
    · exact of_closed rfl
    · exact h

theorem afterSend (h : w.Registers) (sent : Sent) (next : RCState) :
    (w.afterSend sent next).Registers := by
  cases sent with
  | failed => exact h
  | all => exact h.onConn _ rfl rfl id
  | part => exact h.onConn _ rfl rfl id

end Registers

/-! ## What a connection is left with -/

theorem trySend_conn (fd : ℕ) (sent : Sent) (queued : Bool) (w : World) :
    (w.trySend fd sent queued).conn =
      { w.conn with
        openWrite := if sent = .failed then w.conn.openWrite else queued || sent = .part } := by
  simp only [trySend]
  split
  · rfl
  split
  · rename_i hqueued
    rw [hqueued]
    split
    · rename_i hopen
      rw [← hopen]
    · rfl
  · rename_i hnone
    rw [Bool.not_eq_true] at hnone
    rw [hnone]
    split
    · rfl
    · rename_i hopen
      rw [Bool.not_eq_true] at hopen
      rw [← hopen]

theorem afterSend_conn (sent : Sent) (next : RCState) (w : World) :
    (w.afterSend sent next).conn =
      { w.conn with
        state :=
          if sent = .failed then w.conn.state else if sent = .all then next else .waitSend } := by
  cases sent with
  | failed => rfl
  | all => rfl
  | part => rfl

theorem ready_conn (expire : ℕ) (w : World) :
    (w.ready expire).conn.state = .opened ∧ (w.ready expire).conn.canWrite = .canwrite ∧
      (w.ready expire).conn.policy = w.conn.policy ∧
        (w.ready expire).conn.openWrite = w.conn.openWrite := by
  have hdrop : w.dropTick.conn = w.conn := by
    unfold dropTick
    split <;> rfl
  constructor
  · rfl
  constructor
  · rfl
  constructor
  · show w.dropTick.conn.policy = _
    rw [hdrop]
  · show w.dropTick.conn.openWrite = _
    rw [hdrop]

theorem connecting_conn (result : Option ℕ) (w : World) :
    (w.connecting result).conn.policy = w.conn.policy ∧
      (w.connecting result).conn.canWrite = w.conn.canWrite ∧
        (w.connecting result).conn.openWrite = w.conn.openWrite ∧
          ((w.connecting result).conn.state = w.conn.state ∨
            (w.connecting result).conn.state = .connectingRe) := by
  unfold connecting
  cases hcs : w.conn.cs with
  | none =>
    cases result with
    | none => exact ⟨rfl, rfl, rfl, .inl rfl⟩
    | some fd => exact ⟨rfl, rfl, rfl, .inr rfl⟩
  | some old =>
    cases result with
    | none => exact ⟨rfl, rfl, rfl, .inl rfl⟩
    | some fd => exact ⟨rfl, rfl, rfl, .inr rfl⟩

theorem shutdownSocket_conn {w t : World} (h : w.shutdownSocket = some t) :
    t.conn.state = w.conn.state ∧ t.conn.policy = w.conn.policy ∧
      t.conn.canWrite = w.conn.canWrite := by
  simp only [shutdownSocket] at h
  split at h
  · rw [← Option.some.inj h]
    exact ⟨rfl, rfl, rfl⟩
  · split at h
    · cases h
    · rw [← Option.some.inj h]
      exact ⟨rfl, rfl, rfl⟩

/-- What a branch that goes on leaves before it drops `write_lock`. -/
theorem faultLocked_conn {branch : Aftermath} {w t : World}
    (hbranch : branch = .standby ∨ branch = .reconnects ∨ branch = .backsOff)
    (h : w.faultLocked branch = some t) :
    t.conn.state = (if branch = .standby then .standby else w.conn.state) ∧
      t.conn.policy = w.conn.policy ∧ t.conn.canWrite = .nowrite ∧ t.conn.openWrite = false := by
  have htorn {f : World → World}
      (hf : ((w.onConn fun c => { c with canWrite := .nowrite }).shutdownSocket.map
        (World.onConn fun c => { c with openWrite := false })).map f = some t) :
      ∃ u : World, t = f u ∧ u.conn.state = w.conn.state ∧ u.conn.policy = w.conn.policy ∧
        u.conn.canWrite = .nowrite ∧ u.conn.openWrite = false := by
    rw [Option.map_map, Option.map_eq_some_iff] at hf
    obtain ⟨v, hv, rfl⟩ := hf
    obtain ⟨hstate, hpolicy, hcanWrite⟩ := shutdownSocket_conn hv
    exact ⟨_, rfl, hstate, hpolicy, hcanWrite, rfl⟩
  rcases hbranch with rfl | rfl | rfl
  · obtain ⟨u, rfl, -, hpolicy, hcanWrite, hopen⟩ := htorn h
    exact ⟨rfl, hpolicy, hcanWrite, hopen⟩
  · obtain ⟨u, rfl, hkept⟩ := htorn h
    exact hkept
  · obtain ⟨u, rfl, hkept⟩ := htorn h
    exact hkept

/-- A callback of a time event that does not fail the connection. -/
theorem calledBack_conn {c expire : ℕ} {e : TimeEvent} {queued : Bool} {w t : World}
    (h : w.calledBack c e false queued expire = some t) (hregisters : w.Registers) :
    t.conn.state = w.conn.state ∧ t.conn.policy = w.conn.policy ∧
      t.conn.canWrite = w.conn.canWrite ∧ t.conn.openWrite = w.conn.openWrite ∧ t.Registers := by
  cases hcb : e.timeCb with
  | wakeupHandler =>
    simp only [calledBack, hcb, Option.some.injEq] at h
    rw [← h]
    exact ⟨rfl, rfl, rfl, rfl, hregisters.onConn _ rfl rfl id⟩
  | tickHandler =>
    have hzero : (w.onConn fun c => { c with lastTickId := 0 }).Registers :=
      hregisters.onConn _ rfl rfl id
    simp only [calledBack, hcb, tick, Bool.false_eq_true, if_false] at h
    split at h
    · split at h
      · rw [← Option.some.inj h]
        exact ⟨rfl, rfl, rfl, rfl, hzero.createTick expire⟩
      · cases h
    · rw [← Option.some.inj h]
      exact ⟨rfl, rfl, rfl, rfl, hzero⟩
  | readHandler | writeHandler | other =>
    simp only [calledBack, hcb, Option.some.injEq] at h
    rw [← h]
    exact ⟨rfl, rfl, rfl, rfl, hregisters⟩

end World

/-- How far the thread of the center is.  In `handle_write` it has taken a message and dropped
`write_lock`, or sent it with or without a rest, or left the loop; or it must not write, and has
yet to take both locks; or sending has failed.  In `fault`, which `handle_write` or anything else
has called, it has dropped `write_lock`. -/
inductive Position
  | idle
  | writing
  | written (rest : Bool)
  | flushing
  | blocked
  | failed
  | faulting (inWrite : Bool) (branch : Aftermath)
  deriving DecidableEq, Repr

/-- A connection with everything that it has to send. -/
structure Outbound where
  world : World
  queues : Endpoint
  /-- `outcoming_bl.length()`. -/
  outcoming : ℕ
  keepalive : Bool
  stateAfterSend : RCState
  /-- What was dispatched to the center and has not been run. -/
  external : List Callback
  position : Position

namespace Outbound

/-- `_has_next_outgoing`. -/
def hasNextOutgoing (s : Outbound) : Bool := s.queues.outQ.buckets ≠ []

/-- `is_queued`. -/
def isQueued (s : Outbound) : Bool := s.hasNextOutgoing || 0 < s.outcoming

def onWorld (f : World → World) (s : Outbound) : Outbound := { s with world := f s.world }

/-- `dispatch_event_external`. -/
def dispatch (cb : Callback) (s : Outbound) : Outbound := { s with external := s.external ++ [cb] }

/-- `outcoming_bl.append`. -/
def append (bytes : ℕ) (s : Outbound) : Outbound := { s with outcoming := s.outcoming + bytes }

/-- `send_message`. -/
def sendMessage (id : ℕ) (priority : Priority) (s : Outbound) : Outbound :=
  if s.world.conn.canWrite = .closed then s
  else
    let s := { s with queues := s.queues.sendMessage id priority }
    if s.world.conn.canWrite = .replacing then s else s.dispatch .writeHandler

/-- `send_keepalive`. -/
def sendKeepalive (s : Outbound) : Outbound :=
  if s.world.conn.canWrite = .closed then s
  else ({ s with keepalive := true }).dispatch .writeHandler

/-- `_try_send`; `n` is the number of bytes that `cs.send` takes, if it does not fail. -/
def trySend (fd : ℕ) (n : Option ℕ) (s : Outbound) : Outbound × Sent :=
  match n with
  | none => (s, .failed)
  | some n =>
      let openWrite := s.world.conn.openWrite
      let s := { s with outcoming := s.outcoming - n }
      let sent : Sent := if s.outcoming = 0 then .all else .part
      let s := s.onWorld (World.trySend fd sent s.hasNextOutgoing)
      if openWrite ∧ ¬ s.isQueued ∧ s.stateAfterSend ≠ .none then (s.dispatch .readHandler, sent)
      else (s, sent)

/-- The state behind `try_send` in an arm of the handshake. -/
def afterSend (next : RCState) (r : Outbound × Sent) : Outbound :=
  { r.1 with
    world := r.1.world.afterSend r.2 next
    stateAfterSend := if r.2 = .part then next else r.1.stateAfterSend }

/-- The branch that `fault` takes; `outcoming_bl` is empty by then. -/
def branch (s : Outbound) : Aftermath :=
  s.world.branch (decide (s.queues.requeueSent.outQ.buckets ≠ []))

/-- `fault` up to where it drops `write_lock`; none if it ends in `_stop`. -/
def fault (inWrite : Bool) (s : Outbound) : Option Outbound :=
  let torn (position : Position) : Option Outbound :=
    (s.world.faultLocked s.branch).map fun w =>
      { s with world := w, queues := s.queues.requeueSent, outcoming := 0, position := position }
  match s.branch with
  | .ignored => some { s with position := .idle }
  | .failed | .dropped => none
  | .standby => torn .idle
  | .reconnects | .backsOff => torn (.faulting inWrite s.branch)

/-- The rest of `fault`. -/
def settle (branch : Aftermath) (expire : ℕ) (s : Outbound) : Outbound :=
  let s := { s.onWorld (World.settle branch expire) with position := .idle }
  if branch = .reconnects then s.dispatch .readHandler else s

/-- `STATE_CONNECTING_RE`. -/
def connectingRe (needWritableEvent : Bool) (fd : ℕ) (isConnected : ℤ) (banner : ℕ)
    (n : Option ℕ) (s : Outbound) : Outbound :=
  if isConnected < 0 then s
  else if isConnected = 0 then
    if needWritableEvent then s.onWorld (World.createFileEvent fd .write .readHandler) else s
  else
    afterSend .connectingWaitBannerAndIdentify
      (((s.onWorld (World.deleteFileEvent fd .write)).append banner).trySend fd n)

/-- `STATE_ACCEPTING`. -/
def accepting (fd banner : ℕ) (n : Option ℕ) (s : Outbound) : Outbound :=
  afterSend .acceptingWaitBannerAddr
    (((s.onWorld (World.createFileEvent fd .read .readHandler)).append banner).trySend fd n)

/-- The end of `STATE_CONNECTING_READY` and `STATE_ACCEPTING_READY`. -/
def ready (expire : ℕ) (s : Outbound) : Outbound :=
  let s := s.onWorld (World.ready expire)
  if s.isQueued then s.dispatch .writeHandler else s

/-- The top of the loop of `handle_write`, up to where it drops `write_lock`. -/
def next (s : Outbound) : Outbound :=
  match s.queues.writeNext with
  | none => { s with position := .flushing }
  | some (queues, _) => { s with queues := queues, position := .writing }

/-- `handle_write`, up to where it drops `write_lock`; `bytes` is the length of a keepalive. -/
def handleWrite (bytes : ℕ) (s : Outbound) : Outbound :=
  if s.world.conn.canWrite = .canwrite then
    (if s.keepalive then { s.append bytes with keepalive := false } else s).next
  else { s with position := .blocked }

/-- `write_message`, with the length of the message. -/
def writeMessage (bytes : ℕ) (fd : ℕ) (n : Option ℕ) (s : Outbound) : Outbound :=
  let (s, sent) := (s.append bytes).trySend fd n
  match sent with
  | .failed => { s with position := .failed }
  | .all => { s with position := .written false }
  | .part => { s with position := .written true }

/-- The end of a round of the loop. -/
def relock (rest : Bool) (s : Outbound) : Outbound :=
  if rest ∨ s.world.conn.canWrite ≠ .canwrite then { s with position := .flushing } else s.next

/-- What follows a `_try_send` in `handle_write`. -/
def written (r : Outbound × Sent) : Outbound :=
  { r.1 with position := if r.2 = .failed then .failed else .idle }

/-- `handle_write` behind the loop; `bytes` is the length of an acknowledgement. -/
def flush (bytes : ℕ) (n : Option ℕ) (s : Outbound) : Option Outbound :=
  match s.queues.writeAck with
  | some (queues, _) =>
      s.world.conn.cs.map fun fd =>
        written (({ s with queues := queues }.append bytes).trySend fd n)
  | none =>
      if s.isQueued then s.world.conn.cs.map fun fd => written (s.trySend fd n)
      else some { s with position := .idle }

/-- `handle_write` with both locks. -/
def retry (n : Option ℕ) (s : Outbound) : Outbound :=
  if s.world.conn.state = .standby ∧ ¬ s.world.conn.policy.server ∧ s.isQueued then
    ({ s with position := .idle }.onWorld (World.onConn fun c =>
      { c with state := .connecting })).dispatch .readHandler
  else
    match s.world.conn.cs with
    | some fd =>
        if s.world.conn.state = .none ∨ s.world.conn.state = .connecting ∨
            s.world.conn.state = .connectingRe ∨ s.world.conn.state = .closed then
          { s with position := .idle }
        else written (s.trySend fd n)
    | none => { s with position := .idle }

end Outbound

/-- A state of the handshake in which something other than a banner is sent or awaited. -/
def Shaking (s : RCState) : Prop :=
  RCState.connectingWaitBannerAndIdentify.ctorIdx ≤ s.ctorIdx ∧
    s.ctorIdx ≤ RCState.connectingReady.ctorIdx ∨
  RCState.acceptingWaitBannerAddr.ctorIdx ≤ s.ctorIdx ∧
    s.ctorIdx ≤ RCState.acceptingReady.ctorIdx

instance (s : RCState) : Decidable (Shaking s) := inferInstanceAs (Decidable (_ ∨ _))

/-- An open connection. -/
def Opened (s : RCState) : Prop :=
  RCState.opened.ctorIdx ≤ s.ctorIdx ∧ s.ctorIdx ≤ RCState.openTagClose.ctorIdx

instance (s : RCState) : Decidable (Opened s) := inferInstanceAs (Decidable (_ ∧ _))

/-- What happens next.  The first three are done by any thread; `dispatch` also stands for what
`process` dispatches when it returns.  The others are done by the thread of the center: first the
arms of `process` and the callbacks of time events, then what is called back, and last the parts of
`handle_write` and `fault`. -/
inductive OutboundAction
  | send (id : ℕ) (priority : Priority)
  | sendKeepalive
  | dispatch (cb : Callback)
  | elsewhere (a : Action)
  | accept (fd : ℕ)
  | connect
  | connecting (result : Option ℕ)
  | connectingRe (isConnected : ℤ) (banner : ℕ) (n : Option ℕ)
  | accepting (banner : ℕ) (n : Option ℕ)
  | getPolicy (policy : Policy)
  | shake (bytes : ℕ) (n : Option ℕ) (next : RCState)
  | waitSend
  | advance (state : RCState) (onceReady replacing : Bool)
  | discard (seq : ℕ)
  | ready (expire : ℕ)
  | throttle (expire : ℕ)
  | receive (m : Message)
  | keepaliveAck (bytes : ℕ)
  | handleAck (seq : ℕ)
  | fault
  | fire (now : ℕ) (idle : Bool) (expire : ℕ)
  | run (bytes : ℕ)
  | writable (bytes : ℕ)
  | write (bytes : ℕ) (n : Option ℕ)
  | relock
  | flush (bytes : ℕ) (n : Option ℕ)
  | retry (n : Option ℕ)
  | fail
  | settle (expire : ℕ)

namespace Outbound

/-- A callback of a time event of the center. -/
def fire (now : ℕ) (idle : Bool) (expire : ℕ) (s : Outbound) : Option Outbound :=
  let center := s.world.conn.center
  match (s.world.centers center).takeDue now with
  | none => none
  | some (e, ts) =>
      let world := s.world.onCenter center (Center.onTimers fun _ => ts)
      if e.timeCb = .tickHandler ∧ idle then
        ({ s with world := world.onConn fun c => { c with lastTickId := 0 } }).fault false
      else
        (world.calledBack center e false false expire).map fun w => { s with world := w }

/-- A step that the thread of the center takes while it is neither in `handle_write` nor in
`fault`. -/
def center (needWritableEvent : Bool) (s : Outbound) : OutboundAction → Option Outbound
  | .elsewhere a =>
      match a with
      | .otherCreate .. | .otherDelete .. | .otherCreateFile .. | .otherDeleteFile .. =>
          (s.world.step needWritableEvent a).map fun w => { s with world := w }
      | _ => none
  | .accept fd =>
      (s.world.step needWritableEvent (.accept fd)).map fun w =>
        ({ s with world := w }).dispatch .readHandler
  | .connect =>
      if s.world.conn.state = .none then
        (s.world.step needWritableEvent .connect).map fun w =>
          ({ s with world := w }).dispatch .readHandler
      else none
  | .connecting result =>
      (s.world.step needWritableEvent (.connecting result)).map fun w => { s with world := w }
  | .connectingRe isConnected banner n =>
      match s.world.conn.cs with
      | some fd =>
          if s.world.conn.state = .connectingRe then
            some (s.connectingRe needWritableEvent fd isConnected banner n)
          else none
      | none => none
  | .accepting banner n =>
      match s.world.conn.cs with
      | some fd => if s.world.conn.state = .accepting then some (s.accepting fd banner n) else none
      | none => none
  | .getPolicy policy =>
      if s.world.conn.state = .acceptingWaitConnectMsgAuth ∧ ¬ policy.lossy ∧ ¬ policy.server then
        some (s.onWorld (World.onConn fun c => { c with policy := policy }))
      else none
  | .shake bytes n next =>
      match s.world.conn.cs with
      | some fd =>
          if Shaking s.world.conn.state ∧ Shaking next then
            some (afterSend next ((s.append bytes).trySend fd n))
          else none
      | none => none
  | .waitSend =>
      if s.world.conn.state = .waitSend ∧ s.stateAfterSend ≠ .none then
        if s.outcoming = 0 then
          some { s.onWorld (World.onConn fun c => { c with state := s.stateAfterSend }) with
            stateAfterSend := .none }
        else some s
      else none
  | .advance state onceReady replacing =>
      if s.world.conn.state = .waitSend ∨ state = .waitSend then none
      else
        (s.world.step needWritableEvent (.advance state onceReady replacing)).map fun w =>
          { s with world := w }
  | .discard seq =>
      if s.world.conn.state = .connectingWaitAckSeq ∨ s.world.conn.state = .acceptingWaitSeq then
        some { s with queues := s.queues.discardRequeuedUpTo seq }
      else none
  | .ready expire =>
      if s.world.conn.state = .connectingReady ∨ s.world.conn.state = .acceptingReady then
        some (s.ready expire)
      else none
  | .throttle expire =>
      (s.world.step needWritableEvent (.throttle expire)).map fun w => { s with world := w }
  | .receive m =>
      if s.world.conn.state = .openMessageReadFooterAndDispatch then
        some { s with queues := s.queues.receive m }
      else none
  | .keepaliveAck bytes =>
      if s.world.conn.state = .openKeepalive2 then some (s.append bytes) else none
  | .handleAck seq =>
      if s.world.conn.state = .openTagAck then
        some { s with queues := s.queues.handleAck seq }
      else none
  | .fault => s.fault false
  | .fire now idle expire => s.fire now idle expire
  | .run bytes =>
      match s.external with
      | [] => none
      | cb :: rest =>
          let s := { s with external := rest }
          some (if cb = .writeHandler then s.handleWrite bytes else s)
  | .writable bytes =>
      match s.world.conn.cs with
      | some fd =>
          if ((s.world.centers s.world.conn.center).fileEvents fd).writeCb = some .writeHandler then
            some (s.handleWrite bytes)
          else none
      | none => none
  | _ => none

/-- One step; none if it is not enabled, or ends in an empty socket or a failed assertion. -/
def step (needWritableEvent : Bool) (s : Outbound) : OutboundAction → Option Outbound
  | .send id priority => some (s.sendMessage id priority)
  | .sendKeepalive => some s.sendKeepalive
  | .dispatch cb => some (s.dispatch cb)
  | .write bytes n =>
      if s.position = .writing then s.world.conn.cs.map fun fd => s.writeMessage bytes fd n
      else none
  | .relock =>
      match s.position with
      | .written rest => some (s.relock rest)
      | _ => none
  | .flush bytes n => if s.position = .flushing then s.flush bytes n else none
  | .retry n => if s.position = .blocked then some (s.retry n) else none
  | .fail => if s.position = .failed then s.fault true else none
  | .settle expire =>
      match s.position with
      | .faulting _ branch => some (s.settle branch expire)
      | _ => none
  | a => if s.position = .idle then s.center needWritableEvent a else none

/-- A lossless connection as it is constructed, with nothing to send. -/
structure Fresh (s : Outbound) : Prop where
  world : s.world.Fresh
  lossless : s.world.conn.policy.lossy = false
  notServer : s.world.conn.policy.server = false
  canWrite : s.world.conn.canWrite = .nowrite
  outQ : s.queues.outQ = .empty
  sent : s.queues.sent = []
  outcoming : s.outcoming = 0
  stateAfterSend : s.stateAfterSend = .none
  position : s.position = .idle

def machine (needWritableEvent : Bool) : Machine Outbound OutboundAction :=
  ⟨Fresh, step needWritableEvent⟩

/-- The thread of the center is not in `handle_write`. -/
def Outside : Position → Prop
  | .idle => True
  | .faulting inWrite _ => inWrite = false
  | _ => False

/-- **No outgoing message is stranded.**  Where something is in `out_q`, a connection in standby
has its `write_handler` queued, and one that may write has it queued or waits until the socket is
writable. -/
structure Unstranded (s : Outbound) : Prop where
  standby : s.world.conn.state = .standby → s.hasNextOutgoing → .writeHandler ∈ s.external
  canWrite : s.world.conn.canWrite = .canwrite → s.hasNextOutgoing →
    .writeHandler ∈ s.external ∨ s.world.conn.openWrite ∧ s.world.Registered

/-! ## The invariant -/

/-- The states in which nothing is sent. -/
def Quiet (s : RCState) : Prop := s = .none ∨ s = .connecting ∨ s = .connectingRe ∨ s = .standby

/-- What a state may become without a look at the queues. -/
def Follows (s t : RCState) : Prop :=
  t = s ∨ t ≠ .standby ∧ (Quiet t → Quiet s) ∧ (Opened s → Opened t)

theorem not_quiet_of_shaking {s : RCState} (h : Shaking s) : ¬ Quiet s := by
  rintro (rfl | rfl | rfl | rfl) <;> simp [Shaking, RCState.ctorIdx] at h

theorem not_opened_of_shaking {s : RCState} (h : Shaking s) : ¬ Opened s ∧ s ≠ .standby := by
  constructor
  · intro hopened
    rcases h with hconnecting | haccepting
    · exact absurd (hconnecting.1.trans hopened.2) (by decide)
    · exact absurd (haccepting.1.trans hopened.2) (by decide)
  · rintro rfl
    exact not_quiet_of_shaking h (.inr (.inr (.inr rfl)))

/-- A connection that was just constructed has nothing to lose. -/
theorem follows_none {t : RCState} (ht : t ≠ .standby) : Follows .none t :=
  .inr ⟨ht, fun _ => .inl rfl, fun h => absurd h (by decide)⟩

theorem follows_of_advances {s t : RCState} (h : Advances s t) : Follows s t := by
  have hquiet : ¬ Quiet t := by
    rintro (rfl | rfl | rfl | rfl) <;> simp [Advances, RCState.ctorIdx] at h
  refine .inr ⟨?_, fun h => absurd h hquiet, ?_⟩
  · rintro rfl
    exact hquiet (.inr (.inr (.inr rfl)))
  · intro hs
    rcases h with ⟨-, ht⟩ | ⟨hs', -⟩ | ⟨hs', -⟩
    · exact ht
    · rcases hs' with rfl | hs'
      · exact absurd hs (by decide)
      · exact absurd (hs'.1.trans hs.2) (by decide)
    · rcases hs' with rfl | hs'
      · exact absurd hs (by decide)
      · exact absurd (hs'.1.trans hs.2) (by decide)

/-- What is known where the thread of the center is. -/
def Holds (s : Outbound) : Position → Prop
  | .idle | .failed => True
  | .writing | .flushing => s.world.conn.canWrite = .canwrite
  | .written rest => s.world.conn.canWrite = .canwrite ∧ (rest → s.world.conn.openWrite)
  | .blocked => s.world.conn.canWrite = .nowrite
  | .faulting _ branch => s.world.conn.canWrite = .nowrite ∧ s.world.conn.openWrite = false ∧
      (branch = .reconnects ∨ branch = .backsOff)

/-- The positions in which somebody else is left to send. -/
def Leaves : Position → Prop
  | .idle | .flushing => True
  | _ => False

/-- What holds wherever the thread of the center is. -/
structure Steady (s : Outbound) : Prop where
  lossless : s.world.conn.policy.lossy = false
  notServer : s.world.conn.policy.server = false
  stateAfterSend : s.stateAfterSend = .none ∨ Shaking s.stateAfterSend
  registers : s.world.Registers
  quiet : Quiet s.world.conn.state → s.world.conn.openWrite = false
  writes : s.world.conn.canWrite = .nowrite ∨
    s.world.conn.canWrite = .canwrite ∧ Opened s.world.conn.state
  rested : s.world.conn.state = .standby → s.queues.sent = []

/-- The invariant. -/
structure Kept (s : Outbound) : Prop extends s.Steady where
  standby : Outside s.position → s.world.conn.state = .standby → s.hasNextOutgoing →
    .writeHandler ∈ s.external
  covered : Leaves s.position → s.world.conn.canWrite = .canwrite → s.hasNextOutgoing →
    .writeHandler ∈ s.external ∨ s.world.conn.openWrite
  position : s.Holds s.position

theorem Steady.of_eq {s t : Outbound} (h : s.Steady) (hworld : t.world = s.world)
    (hafter : t.stateAfterSend = s.stateAfterSend) (hsent : t.queues.sent = s.queues.sent) :
    t.Steady where
  lossless := hworld ▸ h.lossless
  notServer := hworld ▸ h.notServer
  stateAfterSend := hafter ▸ h.stateAfterSend
  registers := hworld ▸ h.registers
  quiet := hworld ▸ h.quiet
  writes := hworld ▸ h.writes
  rested hstandby := hsent.trans (h.rested (hworld ▸ hstandby))

namespace Kept

variable {s : Outbound}

/-- In the middle of `handle_write` nobody else has to send. -/
theorem of_inside (h : s.Steady) (hout : ¬ Outside s.position) (hleaves : ¬ Leaves s.position)
    (hheld : s.Holds s.position) : s.Kept :=
  ⟨h, fun hout' => absurd hout' hout, fun hleaves' => absurd hleaves' hleaves, hheld⟩

/-- A connection that may not write and is not in standby needs nobody. -/
theorem of_nowrite
    (hpolicy : s.world.conn.policy.lossy = false ∧ s.world.conn.policy.server = false)
    (hafter : s.stateAfterSend = .none ∨ Shaking s.stateAfterSend)
    (hregisters : s.world.Registers)
    (hquiet : Quiet s.world.conn.state → s.world.conn.openWrite = false)
    (hno : s.world.conn.canWrite = .nowrite) (hstate : s.world.conn.state ≠ .standby)
    (hidle : s.position = .idle) : s.Kept where
  lossless := hpolicy.1
  notServer := hpolicy.2
  stateAfterSend := hafter
  registers := hregisters
  quiet := hquiet
  writes := .inl hno
  rested hstandby := absurd hstandby hstate
  standby _ hstandby := absurd hstandby hstate
  covered _ hcan := absurd (hno.symm.trans hcan) WriteStatus.noConfusion
  position := by
    rw [hidle]
    trivial

theorem unstranded (h : s.Kept) (hposition : Outside s.position) : s.Unstranded where
  standby := h.standby hposition
  canWrite hcanWrite hnext := by
    have hidle : s.position = .idle := by
      cases hp : s.position with
      | idle => rfl
      | faulting inWrite branch =>
        have hheld := h.position
        rw [hp] at hheld
        exact absurd (hheld.1.symm.trans hcanWrite) WriteStatus.noConfusion
      | _ =>
        rw [hp] at hposition
        exact hposition.elim
    have hleaves : Leaves s.position := by
      rw [hidle]
      trivial
    rcases h.covered hleaves hcanWrite hnext with hqueued | hopen
    · exact .inl hqueued
    · exact .inr ⟨hopen, h.registers hopen⟩

theorem of_fresh (h : s.Fresh) : s.Kept where
  lossless := h.lossless
  notServer := h.notServer
  stateAfterSend := .inl h.stateAfterSend
  registers := .of_closed h.world.openWrite
  quiet _ := h.world.openWrite
  writes := .inl h.canWrite
  rested _ := h.sent
  standby _ hstate := by
    rw [h.world.state] at hstate
    cases hstate
  covered _ hcanWrite := by
    rw [h.canWrite] at hcanWrite
    cases hcanWrite
  position := by
    rw [h.position]
    trivial

/-- A step of the connection while the thread of the center is idle. -/
theorem onWorld (h : s.Kept) {w : World} (hregisters : w.Registers)
    (hpolicy : w.conn.policy.lossy = false ∧ w.conn.policy.server = false)
    (hcanWrite : w.conn.canWrite = s.world.conn.canWrite)
    (hopen : w.conn.openWrite = s.world.conn.openWrite)
    (hstate : Follows s.world.conn.state w.conn.state) (hidle : s.position = .idle) :
    ({ s with world := w }).Kept where
  lossless := hpolicy.1
  notServer := hpolicy.2
  stateAfterSend := h.stateAfterSend
  registers := hregisters
  quiet hquiet := by
    show w.conn.openWrite = false
    rw [hopen]
    apply h.quiet
    rcases hstate with hsame | ⟨-, hback, -⟩
    · exact hsame ▸ hquiet
    · exact hback hquiet
  writes := by
    show w.conn.canWrite = _ ∨ w.conn.canWrite = _ ∧ Opened w.conn.state
    rw [hcanWrite]
    rcases h.writes with hno | ⟨hcan, hopened⟩
    · exact .inl hno
    · rcases hstate with hsame | ⟨-, -, hforth⟩
      · exact .inr ⟨hcan, hsame ▸ hopened⟩
      · exact .inr ⟨hcan, hforth hopened⟩
  rested hstandby := by
    rcases hstate with hsame | ⟨hne, -⟩
    · exact h.rested (hsame ▸ hstandby)
    · exact absurd hstandby hne
  standby hout hstandby hnext := by
    rcases hstate with hsame | ⟨hne, -⟩
    · exact h.standby hout (hsame ▸ hstandby) hnext
    · exact absurd hstandby hne
  covered hleaves hcan hnext := by
    have hcovered := h.covered hleaves (hcanWrite ▸ hcan) hnext
    rwa [← hopen] at hcovered
  position := by
    show Holds _ s.position
    rw [hidle]
    trivial

/-! ### Other threads, and the queues -/

/-- Something is queued for another run of `handle_write`. -/
theorem asks (h : s.Kept) (queues : Endpoint) (keepalive : Bool)
    (hsent : queues.sent = s.queues.sent) :
    ({ s with queues := queues, keepalive := keepalive }.dispatch .writeHandler).Kept where
  toSteady := h.toSteady.of_eq rfl rfl hsent
  standby _ _ _ := List.mem_append_right _ (List.mem_singleton_self _)
  covered _ _ _ := .inl (List.mem_append_right _ (List.mem_singleton_self _))
  position := by
    have hheld := h.position
    show Holds _ s.position
    cases hp : s.position <;> rw [hp] at hheld <;> exact hheld

theorem dispatch (h : s.Kept) (cb : Callback) : (s.dispatch cb).Kept where
  toSteady := h.toSteady.of_eq rfl rfl rfl
  standby hout hstandby hnext := List.mem_append_left _ (h.standby hout hstandby hnext)
  covered hleaves hcan hnext :=
    (h.covered hleaves hcan hnext).imp (List.mem_append_left _) id
  position := by
    have hheld := h.position
    show Holds _ s.position
    cases hp : s.position <;> rw [hp] at hheld <;> exact hheld

theorem sendMessage (h : s.Kept) (id : ℕ) (priority : Priority) :
    (s.sendMessage id priority).Kept := by
  have hopen : s.world.conn.canWrite ≠ .closed ∧ s.world.conn.canWrite ≠ .replacing := by
    rcases h.writes with hno | ⟨hcan, -⟩
    · rw [hno]
      decide
    · rw [hcan]
      decide
  rw [Outbound.sendMessage, if_neg hopen.1]
  simp only
  rw [if_neg hopen.2]
  exact h.asks _ s.keepalive rfl

theorem sendKeepalive (h : s.Kept) : s.sendKeepalive.Kept := by
  unfold Outbound.sendKeepalive
  split
  · exact h
  · exact h.asks s.queues true rfl

/-- A callback that is not the `write_handler` is run. -/
theorem drop (h : s.Kept) {cb : Callback} {rest : List Callback}
    (hexternal : s.external = cb :: rest) (hcb : cb ≠ .writeHandler) :
    ({ s with external := rest }).Kept := by
  have hmem (hqueued : .writeHandler ∈ s.external) : .writeHandler ∈ rest := by
    rw [hexternal] at hqueued
    exact (List.mem_cons.mp hqueued).resolve_left hcb.symm
  constructor
  · exact h.toSteady.of_eq rfl rfl rfl
  · exact fun hout hstandby hnext => hmem (h.standby hout hstandby hnext)
  · exact fun hleaves hcan hnext => (h.covered hleaves hcan hnext).imp hmem id
  · have hheld := h.position
    show Holds _ s.position
    cases hp : s.position <;> rw [hp] at hheld <;> exact hheld

/-- The queues get shorter. -/
theorem onQueues (h : s.Kept) {queues : Endpoint} (hsent : s.queues.sent = [] → queues.sent = [])
    (houtQ : queues.outQ.buckets ≠ [] → s.queues.outQ.buckets ≠ []) (outcoming : ℕ)
    (hidle : s.position = .idle) :
    ({ s with queues := queues, outcoming := outcoming }).Kept := by
  have hnext : ({ s with queues := queues, outcoming := outcoming }).hasNextOutgoing →
      s.hasNextOutgoing := by
    simp only [hasNextOutgoing, decide_eq_true_eq]
    exact houtQ
  constructor
  · exact ⟨h.lossless, h.notServer, h.stateAfterSend, h.registers, h.quiet, h.writes,
      fun hstandby => hsent (h.rested hstandby)⟩
  · exact fun hout hstandby hsome => h.standby hout hstandby (hnext hsome)
  · exact fun hleaves hcan hsome => h.covered hleaves hcan (hnext hsome)
  · show Holds _ s.position
    rw [hidle]
    trivial

end Kept

/-- `requeue_sent` empties `sent`, and does nothing to the queue if it is empty. -/
theorem requeueSent_sent (e : Endpoint) :
    e.requeueSent.sent = [] ∧ (e.sent = [] → e.requeueSent.outQ = e.outQ) := by
  unfold Endpoint.requeueSent
  split
  · rename_i hempty
    exact ⟨hempty, fun _ => rfl⟩
  · rename_i hsome
    exact ⟨rfl, fun hempty => absurd hempty hsome⟩

/-! ### Sending -/

/-- What `_try_send` leaves. -/
structure Tried (s : Outbound) (fd : ℕ) (r : Outbound × Sent) : Prop where
  world : r.1.world = s.world.trySend fd r.2 s.hasNextOutgoing
  queues : r.1.queues = s.queues
  stateAfterSend : r.1.stateAfterSend = s.stateAfterSend
  position : r.1.position = s.position
  rest : r.2 = .part → 0 < s.outcoming

theorem tried (s : Outbound) (fd : ℕ) (n : Option ℕ) : Tried s fd (s.trySend fd n) := by
  cases n with
  | none => exact ⟨rfl, rfl, rfl, rfl, Sent.noConfusion⟩
  | some n =>
    have hrest : (if s.outcoming - n = 0 then Sent.all else .part) = .part → 0 < s.outcoming := by
      intro hpart
      split at hpart
      · cases hpart
      · omega
    simp only [trySend]
    generalize (if s.outcoming - n = 0 then Sent.all else .part) = sent at hrest ⊢
    split
    · exact ⟨rfl, rfl, rfl, rfl, hrest⟩
    · exact ⟨rfl, rfl, rfl, rfl, hrest⟩

namespace Tried

variable {s : Outbound} {fd : ℕ} {r : Outbound × Sent}

theorem hasNextOutgoing (h : Tried s fd r) : r.1.hasNextOutgoing = s.hasNextOutgoing := by
  simp only [Outbound.hasNextOutgoing, h.queues]

theorem conn (h : Tried s fd r) :
    r.1.world.conn = { s.world.conn with
      openWrite :=
        if r.2 = .failed then s.world.conn.openWrite
        else s.hasNextOutgoing || r.2 = .part } := by
  rw [h.world, World.trySend_conn]

/-- `open_write` is set as long as something is left, unless sending fails. -/
theorem openWrite_of_next (h : Tried s fd r) (hsent : r.2 ≠ .failed) (hnext : s.hasNextOutgoing) :
    r.1.world.conn.openWrite := by
  rw [h.conn]
  simp only [if_neg hsent, hnext, Bool.true_or]

theorem openWrite_of_part (h : Tried s fd r) (hsent : r.2 = .part) :
    r.1.world.conn.openWrite := by
  rw [h.conn, hsent]
  simp

theorem steady (h : Tried s fd r) (hs : s.Steady) (hfd : s.world.conn.cs = some fd)
    (hquiet : Quiet s.world.conn.state → s.isQueued = false) : r.1.Steady := by
  have hconn := h.conn
  constructor
  · rw [hconn]
    exact hs.lossless
  · rw [hconn]
    exact hs.notServer
  · rw [h.stateAfterSend]
    exact hs.stateAfterSend
  · rw [h.world]
    exact hs.registers.trySend hfd _ _
  · intro hstate
    rw [hconn] at hstate ⊢
    have hnone := hquiet hstate
    rw [isQueued, Bool.or_eq_false_iff, decide_eq_false_iff_not] at hnone
    have hpart : r.2 ≠ .part := fun hpart => hnone.2 (h.rest hpart)
    simp [hnone.1, hpart, hs.quiet hstate]
  · rw [hconn]
    exact hs.writes
  · intro hstandby
    rw [hconn] at hstandby
    rw [h.queues]
    exact hs.rested hstandby

end Tried

namespace Steady

variable {s : Outbound}

theorem opened (h : s.Steady) (hcan : s.world.conn.canWrite = .canwrite) :
    Opened s.world.conn.state :=
  (h.writes.resolve_left fun hno => WriteStatus.noConfusion (hno.symm.trans hcan)).2

theorem not_quiet (h : s.Steady) (hcan : s.world.conn.canWrite = .canwrite) :
    ¬ Quiet s.world.conn.state := by
  have hopened := h.opened hcan
  rintro (hstate | hstate | hstate | hstate) <;> rw [hstate] at hopened <;>
    exact absurd hopened (by decide)

/-- Where nothing is queued, nothing has to be sent. -/
theorem of_not_queued (h : s.Steady) (hnone : s.isQueued = false) (hheld : s.Holds s.position) :
    s.Kept := by
  rw [isQueued, Bool.or_eq_false_iff] at hnone
  have hnext : ¬ s.hasNextOutgoing := by
    rw [hnone.1]
    exact Bool.false_ne_true
  exact ⟨h, fun _ _ hsome => absurd hsome hnext, fun _ _ hsome => absurd hsome hnext, hheld⟩

/-- `_try_send` at the end of `handle_write`. -/
theorem written (h : s.Steady) {fd : ℕ} {r : Outbound × Sent} (htried : Tried s fd r)
    (hfd : s.world.conn.cs = some fd) (hquiet : Quiet s.world.conn.state → s.isQueued = false) :
    (Outbound.written r).Kept where
  toSteady := (htried.steady h hfd hquiet).of_eq rfl rfl rfl
  standby _ hstandby hnext := by
    have hstate : s.world.conn.state = .standby :=
      (congrArg Conn.state htried.conn).symm.trans hstandby
    have hnone := hquiet (.inr (.inr (.inr hstate)))
    rw [isQueued, Bool.or_eq_false_iff] at hnone
    have hsome : s.hasNextOutgoing := htried.hasNextOutgoing ▸ hnext
    exact absurd (hnone.1.symm.trans hsome) Bool.false_ne_true
  covered hleaves _ hnext := by
    have hsent : r.2 ≠ .failed := by
      intro hfailed
      simp only [Outbound.written, hfailed, if_true, Leaves] at hleaves
    have hsome : s.hasNextOutgoing := htried.hasNextOutgoing ▸ hnext
    exact .inr (htried.openWrite_of_next hsent hsome)
  position := by
    show Holds _ (if r.2 = .failed then .failed else .idle)
    split <;> trivial

/-! ### `handle_write` -/

theorem next (h : s.Steady) (hcan : s.world.conn.canWrite = .canwrite) : s.next.Kept := by
  simp only [Outbound.next, Endpoint.writeNext]
  cases hpop : s.queues.outQ.pop with
  | none =>
    have hnone : ¬ s.hasNextOutgoing := by
      simp [hasNextOutgoing, PrioQueue.buckets_of_pop_eq_none hpop]
    exact ⟨h.of_eq rfl rfl rfl, fun _ _ hnext => absurd hnext hnone,
      fun _ _ hnext => absurd hnext hnone, hcan⟩
  | some taken =>
    have hsteady : (Outbound.Steady { s with
        queues := { s.queues with
          outQ := taken.2
          sent := s.queues.sent ++ [{ taken.1 with seq := s.queues.outSeq + 1 }]
          outSeq := s.queues.outSeq + 1 }
        position := .writing }) := by
      refine ⟨h.lossless, h.notServer, h.stateAfterSend, h.registers, h.quiet, h.writes, ?_⟩
      intro hstandby
      exact absurd (.inr (.inr (.inr hstandby))) (h.not_quiet hcan)
    exact .of_inside hsteady id id hcan

theorem handleWrite (h : s.Steady) (bytes : ℕ) : (s.handleWrite bytes).Kept := by
  unfold Outbound.handleWrite
  split
  · rename_i hcan
    apply next
    · split
      · exact h.of_eq rfl rfl rfl
      · exact h
    · split <;> exact hcan
  · rename_i hcannot
    have hno := h.writes.resolve_right fun hcan => hcannot hcan.1
    exact .of_inside (h.of_eq rfl rfl rfl) id id hno

theorem append (h : s.Steady) (bytes : ℕ) : (s.append bytes).Steady := h.of_eq rfl rfl rfl

theorem writeMessage (h : s.Steady) (hcan : s.world.conn.canWrite = .canwrite) {fd : ℕ}
    (hfd : s.world.conn.cs = some fd) (bytes : ℕ) (n : Option ℕ) :
    (s.writeMessage bytes fd n).Kept := by
  have htried := tried (s.append bytes) fd n
  have hnotQuiet : ¬ Quiet (s.append bytes).world.conn.state := h.not_quiet hcan
  have hr := htried.steady (h.append bytes) hfd fun hquiet => absurd hquiet hnotQuiet
  have hcan' : ((s.append bytes).trySend fd n).1.world.conn.canWrite = .canwrite := by
    rw [htried.conn]
    exact hcan
  unfold Outbound.writeMessage
  generalize (s.append bytes).trySend fd n = r at htried hr hcan'
  obtain ⟨t, sent⟩ := r
  cases sent with
  | failed => exact .of_inside (hr.of_eq rfl rfl rfl) id id trivial
  | all =>
    exact .of_inside (hr.of_eq rfl rfl rfl) id id
      ⟨hcan', fun hrest => absurd hrest Bool.false_ne_true⟩
  | part =>
    exact .of_inside (hr.of_eq rfl rfl rfl) id id
      ⟨hcan', fun _ => htried.openWrite_of_part rfl⟩

theorem relock (h : s.Steady) {rest : Bool} (hcan : s.world.conn.canWrite = .canwrite)
    (hrest : rest → s.world.conn.openWrite) : (s.relock rest).Kept := by
  unfold Outbound.relock
  split
  · rename_i hleaves
    have hopen := hrest (hleaves.resolve_right fun hcannot => hcannot hcan)
    exact ⟨h.of_eq rfl rfl rfl, fun hout => hout.elim, fun _ _ _ => .inr hopen, hcan⟩
  · exact h.next hcan

theorem flush (h : s.Steady) (hcan : s.world.conn.canWrite = .canwrite) {bytes : ℕ} {n : Option ℕ}
    {t : Outbound} (hflush : s.flush bytes n = some t) : t.Kept := by
  have hnotQuiet := h.not_quiet hcan
  simp only [Outbound.flush] at hflush
  split at hflush
  · rename_i queues ack hack
    rw [Option.map_eq_some_iff] at hflush
    obtain ⟨fd, hfd, rfl⟩ := hflush
    have hsent := (Endpoint.writeAck_spec hack).2.2.1.sent
    have hs : (({ s with queues := queues } : Outbound).append bytes).Steady :=
      h.of_eq rfl rfl hsent
    exact hs.written (tried _ fd n) hfd fun hquiet => absurd hquiet hnotQuiet
  · split at hflush
    · rw [Option.map_eq_some_iff] at hflush
      obtain ⟨fd, hfd, rfl⟩ := hflush
      exact h.written (tried s fd n) hfd fun hquiet => absurd hquiet hnotQuiet
    · rename_i hnone
      rw [← Option.some.inj hflush]
      have hidle : ({ s with position := .idle } : Outbound).Steady := h.of_eq rfl rfl rfl
      exact hidle.of_not_queued (Bool.eq_false_of_not_eq_true hnone) trivial

theorem retry (h : s.Steady) (hno : s.world.conn.canWrite = .nowrite) (n : Option ℕ) :
    (s.retry n).Kept := by
  have hcannot : s.world.conn.canWrite ≠ .canwrite := by
    rw [hno]
    exact WriteStatus.noConfusion
  unfold Outbound.retry
  split
  · rename_i hconnects
    have hopen := h.quiet (.inr (.inr (.inr hconnects.1)))
    exact .of_nowrite ⟨h.lossless, h.notServer⟩ h.stateAfterSend (.of_closed hopen)
      (fun _ => hopen) hno RCState.noConfusion rfl
  · rename_i hrests
    have hempty : s.world.conn.state = .standby → s.isQueued = false := by
      intro hstandby
      rw [← Bool.not_eq_true]
      exact fun hqueued => hrests ⟨hstandby, by simp [h.notServer], hqueued⟩
    have hrest : ({ s with position := .idle } : Outbound).Kept := by
      constructor
      · exact h.of_eq rfl rfl rfl
      · intro _ hstandby hnext
        have hnone := hempty hstandby
        rw [isQueued, Bool.or_eq_false_iff] at hnone
        exact absurd (hnone.1.symm.trans hnext) Bool.false_ne_true
      · exact fun _ hcan => absurd hcan hcannot
      · trivial
    split
    · rename_i fd hfd
      split
      · exact hrest
      · rename_i hsends
        simp only [not_or] at hsends
        apply h.written (tried s fd n) hfd
        rintro (hstate | hstate | hstate | hstate)
        · exact absurd hstate hsends.1
        · exact absurd hstate hsends.2.1
        · exact absurd hstate hsends.2.2.1
        · exact hempty hstate
    · exact hrest

/-! ### `fault` -/

/-- `fault` has dropped `write_lock` and will connect again. -/
theorem torn (h : s.Steady) {inWrite : Bool}
    (hstandby : inWrite = false → s.world.conn.state = .standby → s.hasNextOutgoing →
      .writeHandler ∈ s.external)
    {t : Outbound} (hbranch : s.branch = .reconnects ∨ s.branch = .backsOff)
    (hfault : (s.world.faultLocked s.branch).map (fun w =>
      { s with
        world := w, queues := s.queues.requeueSent, outcoming := 0,
        position := .faulting inWrite s.branch }) = some t) : t.Kept := by
  obtain ⟨hempty, hkept⟩ := requeueSent_sent s.queues
  rw [Option.map_eq_some_iff] at hfault
  obtain ⟨w, hw, rfl⟩ := hfault
  obtain ⟨hstate, hpolicy, hcanWrite, hopen⟩ := World.faultLocked_conn (.inr hbranch) hw
  have hsame : w.conn.state = s.world.conn.state := by
    rw [hstate, if_neg]
    rcases hbranch with hbranch | hbranch <;> rw [hbranch] <;> exact Aftermath.noConfusion
  constructor
  · exact ⟨(congrArg Policy.lossy hpolicy).trans h.lossless,
      (congrArg Policy.server hpolicy).trans h.notServer, h.stateAfterSend, .of_closed hopen,
      fun _ => hopen, .inl hcanWrite, fun _ => hempty⟩
  · intro hout hrests hnext
    have hrested := hsame.symm.trans hrests
    apply hstandby hout hrested
    rw [hasNextOutgoing, ← hkept (h.rested hrested)]
    exact hnext
  · exact fun hleaves => hleaves.elim
  · exact ⟨hcanWrite, hopen, hbranch⟩

/-- A `fault` called by `handle_write`, or where the standby is already covered. -/
theorem fault (h : s.Steady) {inWrite : Bool}
    (hstandby : inWrite = false → s.world.conn.state = .standby → s.hasNextOutgoing →
      .writeHandler ∈ s.external)
    {t : Outbound} (hfault : s.fault inWrite = some t) : t.Kept := by
  obtain ⟨hempty, hkept⟩ := requeueSent_sent s.queues
  simp only [Outbound.fault] at hfault
  split at hfault
  · rename_i hbranch
    rw [← Option.some.inj hfault]
    have hclosed := RCState.of_aftermath_ignored hbranch
    constructor
    · exact h.of_eq rfl rfl rfl
    · intro _ hstate
      rcases hclosed with hstate' | hstate' <;> exact absurd (hstate.symm.trans hstate')
        RCState.noConfusion
    · intro _ hcan
      have hopened := h.opened hcan
      rcases hclosed with hstate' | hstate' <;> rw [hstate'] at hopened <;>
        exact absurd hopened (by decide)
    · trivial
  · cases hfault
  · cases hfault
  · rename_i hbranch
    rw [hbranch, Option.map_eq_some_iff] at hfault
    obtain ⟨w, hw, rfl⟩ := hfault
    obtain ⟨-, hpolicy, hcanWrite, hopen⟩ := World.faultLocked_conn (.inl rfl) hw
    have hnone : ¬ s.queues.requeueSent.outQ.buckets ≠ [] := by
      have hqueued := RCState.of_aftermath_standby hbranch
      rwa [decide_eq_false_iff_not] at hqueued
    constructor
    · exact ⟨(congrArg Policy.lossy hpolicy).trans h.lossless,
        (congrArg Policy.server hpolicy).trans h.notServer, h.stateAfterSend, .of_closed hopen,
        fun _ => hopen, .inl hcanWrite, fun _ => hempty⟩
    · exact fun _ _ hnext => absurd (of_decide_eq_true hnext) hnone
    · exact fun _ hcan => absurd (hcanWrite.symm.trans hcan) WriteStatus.noConfusion
    · trivial
  · rename_i hbranch
    exact h.torn hstandby (.inl hbranch) hfault
  · rename_i hbranch
    exact h.torn hstandby (.inr hbranch) hfault

theorem settle (h : s.Steady) (hno : s.world.conn.canWrite = .nowrite)
    (hopen : s.world.conn.openWrite = false) {branch : Aftermath}
    (hbranch : branch = .reconnects ∨ branch = .backsOff) (expire : ℕ) :
    (s.settle branch expire).Kept := by
  -- both branches leave a connection that connects
  have hconnects {w : World} (hpolicy : w.conn.policy = s.world.conn.policy)
      (hcanWrite : w.conn.canWrite = s.world.conn.canWrite)
      (hopenWrite : w.conn.openWrite = s.world.conn.openWrite)
      (hstate : w.conn.state = .connecting) :
      ({ s with world := w, position := .idle } : Outbound).Kept := by
    have hclosed : w.conn.openWrite = false := hopenWrite.trans hopen
    apply Kept.of_nowrite
    · exact ⟨(congrArg Policy.lossy hpolicy).trans h.lossless,
        (congrArg Policy.server hpolicy).trans h.notServer⟩
    · exact h.stateAfterSend
    · exact .of_closed hclosed
    · exact fun _ => hclosed
    · exact hcanWrite.trans hno
    · exact fun hstandby => RCState.noConfusion (hstate.symm.trans hstandby)
    · rfl
  rcases hbranch with rfl | rfl
  · have hserver : s.world.conn.policy.server = false := h.notServer
    have hstate : RCState.after s.world.conn.state s.world.conn.policy .reconnects =
        .connecting := by
      simp [RCState.after, hserver]
    exact (hconnects (w := s.world.settle .reconnects expire) rfl rfl rfl hstate).dispatch _
  · exact hconnects (w := s.world.settle .backsOff expire) rfl rfl rfl rfl

end Steady

/-! ### The arms of `process` -/

namespace Kept

variable {s : Outbound}

theorem append (h : s.Kept) (hidle : s.position = .idle) (bytes : ℕ) : (s.append bytes).Kept :=
  h.onQueues id id _ hidle

/-- An arm of the handshake that sends. -/
theorem afterSend (h : s.Kept) (hidle : s.position = .idle) {fd : ℕ}
    (hfd : s.world.conn.cs = some fd) (hno : s.world.conn.canWrite = .nowrite)
    (hstate : s.world.conn.state ≠ .standby) {next : RCState} (hnext : Shaking next)
    {r : Outbound × Sent} (htried : Tried s fd r) : (Outbound.afterSend next r).Kept := by
  have hconn : (Outbound.afterSend next r).world.conn = { s.world.conn with
      state := if r.2 = .failed then s.world.conn.state else if r.2 = .all then next else .waitSend
      openWrite :=
        if r.2 = .failed then s.world.conn.openWrite
        else s.hasNextOutgoing || r.2 = .part } := by
    rw [Outbound.afterSend, World.afterSend_conn, htried.conn]
  have hmoved : ¬ Quiet next ∧ ¬ Quiet .waitSend := by
    constructor
    · exact not_quiet_of_shaking hnext
    · rintro (h | h | h | h) <;> cases h
  apply of_nowrite
  · rw [hconn]
    exact ⟨h.lossless, h.notServer⟩
  · simp only [Outbound.afterSend]
    split
    · exact .inr hnext
    · rw [htried.stateAfterSend]
      exact h.stateAfterSend
  · apply World.Registers.afterSend
    rw [htried.world]
    exact h.registers.trySend hfd _ _
  · rw [hconn]
    dsimp only
    split
    · exact h.quiet
    · split
      · exact fun hquiet => absurd hquiet hmoved.1
      · exact fun hquiet => absurd hquiet hmoved.2
  · rw [hconn]
    exact hno
  · rw [hconn]
    dsimp only
    split
    · exact hstate
    · split
      · exact fun hstandby => hmoved.1 (.inr (.inr (.inr hstandby)))
      · exact RCState.noConfusion
  · exact htried.position.trans hidle

/-- Only an open connection may write. -/
theorem nowrite (h : s.Kept) (hstate : ¬ Opened s.world.conn.state) :
    s.world.conn.canWrite = .nowrite :=
  h.writes.resolve_right fun hcan => hstate hcan.2

theorem connectingRe (h : s.Kept) (hidle : s.position = .idle) {fd : ℕ}
    (hfd : s.world.conn.cs = some fd) (hstate : s.world.conn.state = .connectingRe)
    (needWritableEvent : Bool) (isConnected : ℤ) (banner : ℕ) (n : Option ℕ) :
    (s.connectingRe needWritableEvent fd isConnected banner n).Kept := by
  have hclosed := h.quiet (.inr (.inr (.inl hstate)))
  have hno : s.world.conn.canWrite = .nowrite := by
    apply h.nowrite
    rw [hstate]
    decide
  have hfile {w : World} (hconn : w.conn = s.world.conn) : ({ s with world := w }).Kept := by
    have hw : w.conn.openWrite = false := hconn ▸ hclosed
    apply h.onWorld (.of_closed hw) _ (congrArg Conn.canWrite hconn) (congrArg Conn.openWrite hconn)
      (.inl (congrArg Conn.state hconn)) hidle
    rw [hconn]
    exact ⟨h.lossless, h.notServer⟩
  unfold Outbound.connectingRe
  split
  · exact h
  split
  · split
    · exact hfile (w := s.world.createFileEvent fd .write .readHandler) rfl
    · exact h
  · have hdeleted := (hfile (w := s.world.deleteFileEvent fd .write) rfl).append hidle banner
    apply hdeleted.afterSend hidle hfd hno _ (by decide) (tried _ fd n)
    show s.world.conn.state ≠ .standby
    rw [hstate]
    exact RCState.noConfusion

theorem accepting (h : s.Kept) (hidle : s.position = .idle) {fd : ℕ}
    (hfd : s.world.conn.cs = some fd) (hstate : s.world.conn.state = .accepting) (banner : ℕ)
    (n : Option ℕ) : (s.accepting fd banner n).Kept := by
  have hno : s.world.conn.canWrite = .nowrite := by
    apply h.nowrite
    rw [hstate]
    decide
  have hcreated : (s.onWorld (World.createFileEvent fd .read .readHandler)).Kept :=
    h.onWorld (h.registers.createFile _ fd _ _) ⟨h.lossless, h.notServer⟩ rfl rfl (.inl rfl) hidle
  apply (hcreated.append hidle banner).afterSend hidle hfd hno _ (by decide) (tried _ fd n)
  show s.world.conn.state ≠ .standby
  rw [hstate]
  exact RCState.noConfusion

/-- The end of the handshake looks whether something is queued. -/
theorem ready (h : s.Kept) (hidle : s.position = .idle) (expire : ℕ) : (s.ready expire).Kept := by
  obtain ⟨hstate, hcan, hpolicy, hopen⟩ := World.ready_conn expire s.world
  have hsteady : (s.onWorld (World.ready expire)).Steady := by
    constructor
    · exact (congrArg Policy.lossy hpolicy).trans h.lossless
    · exact (congrArg Policy.server hpolicy).trans h.notServer
    · exact h.stateAfterSend
    · exact ((h.registers.dropTick).createTick expire).onConn _ rfl rfl id
    · exact fun hquiet => absurd (hstate ▸ hquiet) (by rintro (h | h | h | h) <;> cases h)
    · exact .inr ⟨hcan, hstate ▸ by decide⟩
    · exact fun hstandby => RCState.noConfusion (hstate.symm.trans hstandby)
  have hheld : (s.onWorld (World.ready expire)).Holds s.position := by
    rw [hidle]
    trivial
  simp only [Outbound.ready]
  split
  · constructor
    · exact hsteady.of_eq rfl rfl rfl
    · exact fun _ _ _ => List.mem_append_right _ (List.mem_singleton_self _)
    · exact fun _ _ _ => .inl (List.mem_append_right _ (List.mem_singleton_self _))
    · show Holds _ s.position
      rw [hidle]
      trivial
  · rename_i hnone
    exact hsteady.of_not_queued (Bool.eq_false_of_not_eq_true hnone) hheld

/-- `process_time_events` calls back. -/
theorem fire (h : s.Kept) (hidle : s.position = .idle) {now : ℕ} {idle : Bool} {expire : ℕ}
    {t : Outbound} (hfire : s.fire now idle expire = some t) : t.Kept := by
  simp only [Outbound.fire] at hfire
  split at hfire
  · cases hfire
  · rename_i e ts hdue
    have htaken := h.registers.onTimers s.world.conn.center fun _ => ts
    split at hfire
    · let w := (s.world.onCenter s.world.conn.center (Center.onTimers fun _ => ts)).onConn fun c =>
        { c with lastTickId := 0 }
      have hw : ({ s with world := w }).Kept :=
        h.onWorld (htaken.onConn _ rfl rfl id) ⟨h.lossless, h.notServer⟩ rfl rfl (.inl rfl) hidle
      apply hw.toSteady.fault _ hfire
      intro _
      apply hw.standby
      rw [hidle]
      trivial
    · rw [Option.map_eq_some_iff] at hfire
      obtain ⟨w, hw, rfl⟩ := hfire
      obtain ⟨hstate, hpolicy, hcan, hopen, hregisters⟩ := World.calledBack_conn hw htaken
      apply h.onWorld hregisters _ hcan hopen (.inl hstate) hidle
      rw [hpolicy]
      exact ⟨h.lossless, h.notServer⟩

/-- A new socket, or none. -/
theorem connecting (h : s.Kept) (hidle : s.position = .idle)
    (hstate : s.world.conn.state = .connecting) (result : Option ℕ) :
    ({ s with world := s.world.connecting result }).Kept := by
  obtain ⟨hpolicy, hcan, hopen, hmoves⟩ := World.connecting_conn result s.world
  have hquiet : Quiet s.world.conn.state := .inr (.inl hstate)
  have hclosed := hopen.trans (h.quiet hquiet)
  apply h.onWorld (.of_closed hclosed) _ hcan hopen _ hidle
  · rw [hpolicy]
    exact ⟨h.lossless, h.notServer⟩
  · rcases hmoves with hsame | hnew
    · exact .inl hsame
    · refine .inr ⟨?_, fun _ => hquiet, ?_⟩
      · rw [hnew]
        exact RCState.noConfusion
      · intro hopened
        rw [hstate] at hopened
        exact absurd hopened (by decide)

/-- Other events of the center. -/
theorem elsewhere (h : s.Kept) (hidle : s.position = .idle) {w : World}
    (hregisters : w.Registers) (hconn : w.conn = s.world.conn) : ({ s with world := w }).Kept := by
  apply h.onWorld hregisters _ (congrArg Conn.canWrite hconn) (congrArg Conn.openWrite hconn)
    (.inl (congrArg Conn.state hconn)) hidle
  rw [hconn]
  exact ⟨h.lossless, h.notServer⟩

/-- A step of the thread of the center that is idle. -/
theorem center (h : s.Kept) (hidle : s.position = .idle) {needWritableEvent : Bool}
    {a : OutboundAction} {t : Outbound} (hstep : s.center needWritableEvent a = some t) :
    t.Kept := by
  cases a with
  | elsewhere a =>
    cases a with
    | otherCreate c expire =>
      rw [← Option.some.inj hstep]
      exact h.elsewhere hidle (h.registers.onTimers c _) rfl
    | otherDelete c id =>
      rw [← Option.some.inj hstep]
      exact h.elsewhere hidle (h.registers.onTimers c _) rfl
    | otherCreateFile c fd mask =>
      simp only [Outbound.center, World.step] at hstep
      split at hstep
      · cases hstep
      · rw [← Option.some.inj hstep]
        exact h.elsewhere hidle (h.registers.createFile c fd mask .other) rfl
    | otherDeleteFile c fd mask =>
      simp only [Outbound.center, World.step] at hstep
      split at hstep
      · cases hstep
      · rename_i hother
        rw [← Option.some.inj hstep]
        exact h.elsewhere hidle (h.registers.deleteFile mask hother) rfl
    | _ => cases hstep
  | accept fd =>
    simp only [Outbound.center, World.step] at hstep
    split at hstep
    · rename_i haccepts
      rw [← Option.some.inj hstep]
      have hclosed := h.quiet (.inl haccepts.1)
      apply Kept.dispatch
      exact h.onWorld (.of_closed hclosed) ⟨h.lossless, h.notServer⟩ rfl rfl
        (haccepts.1 ▸ follows_none RCState.noConfusion) hidle
    · cases hstep
  | connect =>
    simp only [Outbound.center, World.step] at hstep
    split at hstep
    · rename_i hnone
      have hclosed := h.quiet (.inl hnone)
      split at hstep
      · rw [← Option.some.inj hstep]
        apply Kept.dispatch
        exact h.onWorld (.of_closed hclosed) ⟨h.lossless, h.notServer⟩ rfl rfl
          (hnone ▸ follows_none RCState.noConfusion) hidle
      · cases hstep
    · cases hstep
  | connecting result =>
    simp only [Outbound.center, World.step] at hstep
    split at hstep
    · rename_i hstate
      rw [← Option.some.inj hstep]
      exact h.connecting hidle hstate result
    · cases hstep
  | connectingRe isConnected banner n =>
    simp only [Outbound.center] at hstep
    split at hstep
    · rename_i fd hfd
      split at hstep
      · rename_i hstate
        rw [← Option.some.inj hstep]
        exact h.connectingRe hidle hfd hstate needWritableEvent isConnected banner n
      · cases hstep
    · cases hstep
  | accepting banner n =>
    simp only [Outbound.center] at hstep
    split at hstep
    · rename_i fd hfd
      split at hstep
      · rename_i hstate
        rw [← Option.some.inj hstep]
        exact h.accepting hidle hfd hstate banner n
      · cases hstep
    · cases hstep
  | getPolicy policy =>
    simp only [Outbound.center] at hstep
    split at hstep
    · rename_i hpolicy
      rw [← Option.some.inj hstep]
      simp only [Bool.not_eq_true] at hpolicy
      exact h.onWorld (h.registers.onConn _ rfl rfl id) hpolicy.2 rfl rfl (.inl rfl) hidle
    · cases hstep
  | shake bytes n next =>
    simp only [Outbound.center] at hstep
    split at hstep
    · rename_i fd hfd
      split at hstep
      · rename_i hshaking
        rw [← Option.some.inj hstep]
        obtain ⟨hno, hmoves⟩ := not_opened_of_shaking hshaking.1
        exact (h.append hidle bytes).afterSend hidle hfd (h.nowrite hno) hmoves hshaking.2
          (tried _ fd n)
      · cases hstep
    · cases hstep
  | waitSend =>
    simp only [Outbound.center] at hstep
    split at hstep
    · rename_i hwaits
      split at hstep
      · rw [← Option.some.inj hstep]
        have hnext := h.stateAfterSend.resolve_left hwaits.2
        have hno : s.world.conn.canWrite = .nowrite := by
          apply h.nowrite
          rw [hwaits.1]
          decide
        have hmoved : ¬ Quiet s.stateAfterSend := not_quiet_of_shaking hnext
        apply of_nowrite
        · exact ⟨h.lossless, h.notServer⟩
        · exact .inl rfl
        · exact h.registers.onConn _ rfl rfl id
        · exact fun hquiet => absurd hquiet hmoved
        · exact hno
        · exact fun hstandby => hmoved (.inr (.inr (.inr hstandby)))
        · exact hidle
      · rw [← Option.some.inj hstep]
        exact h
    · cases hstep
  | advance state onceReady replacing =>
    simp only [Outbound.center, World.step] at hstep
    split at hstep
    · cases hstep
    split at hstep
    · rename_i hadvances
      rw [← Option.some.inj hstep]
      exact h.onWorld (h.registers.onConn _ rfl rfl id) ⟨h.lossless, h.notServer⟩ rfl rfl
        (follows_of_advances hadvances) hidle
    · cases hstep
  | discard seq =>
    simp only [Outbound.center] at hstep
    split at hstep
    · rw [← Option.some.inj hstep]
      apply h.onQueues _ _ _ hidle
      · exact id
      intro hsome hnone
      apply hsome
      simp [Endpoint.discardRequeuedUpTo, PrioQueue.get, PrioQueue.put, hnone, PrioQueue.getIn,
        Endpoint.discardLoop, PrioQueue.putIn, PrioQueue.entry]
    · cases hstep
  | ready expire =>
    simp only [Outbound.center] at hstep
    split at hstep
    · rw [← Option.some.inj hstep]
      exact h.ready hidle expire
    · cases hstep
  | throttle expire =>
    simp only [Outbound.center, World.step] at hstep
    split at hstep
    · rw [← Option.some.inj hstep]
      show ({ s with world := s.world.throttle expire }).Kept
      unfold World.throttle
      split
      · exact h.onWorld (h.registers.arm expire) ⟨h.lossless, h.notServer⟩ rfl rfl (.inl rfl) hidle
      · exact h
    · cases hstep
  | receive m =>
    simp only [Outbound.center] at hstep
    split at hstep
    · rw [← Option.some.inj hstep]
      have hsame := (Endpoint.sameQueues_receive s.queues m).2
      apply h.onQueues _ _ _ hidle
      · rw [hsame.sent]
        exact id
      · rw [hsame.outQ]
        exact id
    · cases hstep
  | keepaliveAck bytes =>
    simp only [Outbound.center] at hstep
    split at hstep
    · rw [← Option.some.inj hstep]
      exact h.append hidle bytes
    · cases hstep
  | handleAck seq =>
    simp only [Outbound.center] at hstep
    split at hstep
    · rw [← Option.some.inj hstep]
      apply h.onQueues _ _ _ hidle
      · intro hempty
        simp only [Endpoint.handleAck, hempty, List.dropWhile_nil]
      · exact id
    · cases hstep
  | fault =>
    apply h.toSteady.fault _ hstep
    intro _
    apply h.standby
    rw [hidle]
    trivial
  | fire now idle expire => exact h.fire hidle hstep
  | run bytes =>
    simp only [Outbound.center] at hstep
    split at hstep
    · cases hstep
    · rename_i cb rest hexternal
      rw [← Option.some.inj hstep]
      split
      · have hs : ({ s with external := rest } : Outbound).Steady := h.toSteady.of_eq rfl rfl rfl
        exact hs.handleWrite bytes
      · rename_i hcb
        exact h.drop hexternal hcb
  | writable bytes =>
    simp only [Outbound.center] at hstep
    split at hstep
    · split at hstep
      · rw [← Option.some.inj hstep]
        exact h.toSteady.handleWrite bytes
      · cases hstep
    · cases hstep
  | _ => cases hstep

/-- **The step lemma.** -/
theorem step (h : s.Kept) {needWritableEvent : Bool} {a : OutboundAction} {t : Outbound}
    (hstep : s.step needWritableEvent a = some t) : t.Kept := by
  have hheld := h.position
  cases a with
  | send id priority => exact Option.some.inj hstep ▸ h.sendMessage id priority
  | sendKeepalive => exact Option.some.inj hstep ▸ h.sendKeepalive
  | dispatch cb => exact Option.some.inj hstep ▸ h.dispatch cb
  | write bytes n =>
    simp only [Outbound.step] at hstep
    split at hstep
    · rename_i hwriting
      rw [hwriting] at hheld
      rw [Option.map_eq_some_iff] at hstep
      obtain ⟨fd, hfd, rfl⟩ := hstep
      exact h.toSteady.writeMessage hheld hfd bytes n
    · cases hstep
  | relock =>
    simp only [Outbound.step] at hstep
    split at hstep
    · rename_i rest hwritten
      rw [hwritten] at hheld
      rw [← Option.some.inj hstep]
      exact h.toSteady.relock hheld.1 hheld.2
    · cases hstep
  | flush bytes n =>
    simp only [Outbound.step] at hstep
    split at hstep
    · rename_i hflushing
      rw [hflushing] at hheld
      exact h.toSteady.flush hheld hstep
    · cases hstep
  | retry n =>
    simp only [Outbound.step] at hstep
    split at hstep
    · rename_i hblocked
      rw [hblocked] at hheld
      rw [← Option.some.inj hstep]
      exact h.toSteady.retry hheld n
    · cases hstep
  | fail =>
    simp only [Outbound.step] at hstep
    split at hstep
    · exact h.toSteady.fault Bool.noConfusion hstep
    · cases hstep
  | settle expire =>
    simp only [Outbound.step] at hstep
    split at hstep
    · rename_i inWrite branch hfaulting
      rw [hfaulting] at hheld
      rw [← Option.some.inj hstep]
      exact h.toSteady.settle hheld.1 hheld.2.1 hheld.2.2 expire
    · cases hstep
  | _ =>
    simp only [Outbound.step] at hstep
    split at hstep
    · rename_i hidle
      exact h.center hidle hstep
    · cases hstep

end Kept

theorem kept_of_reached {needWritableEvent : Bool} {s : Outbound}
    (hreached : (machine needWritableEvent).Reached s) : s.Kept :=
  hreached.invariant Kept (fun _ hfresh => .of_fresh hfresh) fun _ _ _ h _ hstep => h.step hstep

/-- **No outgoing message is stranded.** -/
theorem unstranded_of_reached {needWritableEvent : Bool} {s : Outbound}
    (hreached : (machine needWritableEvent).Reached s) (hposition : Outside s.position) :
    s.Unstranded :=
  (kept_of_reached hreached).unstranded hposition

/-- A connection with nothing to send. -/
def created (policy : Policy) : Outbound where
  world := .created policy 1
  queues := ⟨.down, .empty, [], 0, 0, 0, highest, [], []⟩
  outcoming := 0
  keepalive := false
  stateAfterSend := .none
  external := []
  position := .idle

theorem fresh_created (policy : Policy) (hlossless : policy.lossy = false)
    (hserver : policy.server = false) : (created policy).Fresh where
  world := World.fresh_created policy Nat.one_pos
  lossless := hlossless
  notServer := hserver
  canWrite := rfl
  outQ := rfl
  sent := rfl
  outcoming := rfl
  stateAfterSend := rfl
  position := rfl

/-- Of two messages the first is sent in part, and the second waits until the socket is writable.
Then the connection is idle for too long: it is closed with both messages, and connects again. -/
theorem unstranded_of_reached_partly :
    ∃ s t : Outbound, s.world.conn.canWrite = .canwrite ∧ s.hasNextOutgoing ∧ s.external = [] ∧
      s.Unstranded ∧ t.world.conn.state = .connecting ∧ t.queues.outQ.buckets ≠ [] ∧
        t.Unstranded := by
  obtain ⟨s, t, hreplay, hfails, hidle, hidle', hcan, hnext, hnone, hstate, houtQ⟩ : ∃ s t,
      (machine false).replay (fun _ _ => True) (created .plain)
        [.connect, .run 0, .connecting (some 5), .connectingRe 1 8 (some 8),
          .shake 20 (some 20) .connectingReady, .send 1 highest, .run 0, .retry (some 0),
          .send 2 highest, .run 0, .retry (some 0), .ready 900, .run 0, .write 10 (some 3), .relock,
          .flush 0 (some 0)] = some s ∧
      (machine false).replay (fun _ _ => True) s [.fire 950 true 0, .settle 0] = some t ∧
      s.position = .idle ∧ t.position = .idle ∧ s.world.conn.canWrite = .canwrite ∧
        s.hasNextOutgoing ∧ s.external = [] ∧ t.world.conn.state = .connecting ∧
          t.queues.outQ.buckets ≠ [] := by
    refine ⟨_, _, rfl, rfl, rfl, rfl, rfl, rfl, rfl, rfl, ?_⟩
    exact List.cons_ne_nil _ _
  have hs : (machine false).Reached s :=
    .of_replay (.start (fresh_created .plain rfl rfl)) hreplay
  have hout : Outside s.position := by
    rw [hidle]
    trivial
  have hout' : Outside t.position := by
    rw [hidle']
    trivial
  exact ⟨s, t, hcan, hnext, hnone, unstranded_of_reached hs hout, hstate, houtQ,
    unstranded_of_reached (.of_replay hs hfails) hout'⟩

end Outbound

end HwAsync.Event
