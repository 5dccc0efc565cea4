/-
# A connection and its events

An `RDMAReliableConnected` registers its socket with the center for reading when it connects or
is accepted, and for writing while something is left to send.  It creates a wait timer when a
throttle refuses or when it backs off, and a tick timer when it becomes ready.
`shutdown_socket` is to take all of this back, before the connection goes on without its socket or
its handlers are deleted.

The steps are the parts of the connection that run under its lock.  A branch that goes to `fail`
is followed by `fault`, which is a step of its own.  Delayed delivery has events of its own and is
left out.
-/

import HwAsync.Connect.Fault
import HwAsync.Event.Timing

namespace HwAsync.Event

open HwAsync.Lib
open HwAsync.Connect (RCState WriteStatus Policy Sent Aftermath)

/-- How far a hand-over of another connection's socket has come: it is submitted to the center of
this connection, or the connection has moved. -/
inductive Takeover
  | idle
  | submitted
  | moved
  deriving DecidableEq, Repr

/-- The part of an `RDMAReliableConnected` that its events depend on. -/
structure Conn where
  state : RCState
  policy : Policy
  onceReady : Bool
  replacing : Bool
  canWrite : WriteStatus
  openWrite : Bool
  /-- The descriptor of `cs`, if there is a socket. -/
  cs : Option ℕ
  registerTimeEvents : List ℕ
  lastTickId : ℕ
  center : ℕ
  takeover : Takeover
  /-- `cleanup` has deleted the handlers. -/
  handlersDeleted : Bool

/-- The connection with all centers of the stack. -/
structure World where
  centers : ℕ → Center
  conn : Conn

/-- What happens next.  The first four are calls of anything else in the process; `advance` stands
for the arms that touch no event, with what they leave in the two flags, `fire` for a round of
`process_time_events`, and `handOver` for the end of a connection whose socket another one takes.
`queued` is whether `out_q` holds a message. -/
inductive Action
  | otherCreate (c expire : ℕ)
  | otherDelete (c id : ℕ)
  | otherCreateFile (c fd : ℕ) (mask : Mask)
  | otherDeleteFile (c fd : ℕ) (mask : Mask)
  | accept (fd : ℕ)
  | connect
  | connecting (result : Option ℕ)
  | connectingRe (isConnected : ℤ) (sent : Sent) (queued : Bool)
  | accepting (sent : Sent) (queued : Bool)
  | advance (state : RCState) (onceReady replacing : Bool)
  | trySend (sent : Sent) (queued : Bool)
  | ready (expire : ℕ)
  | throttle (expire : ℕ)
  | fault (queued : Bool) (expire : ℕ)
  | stop
  | cleanup
  | fire (c now : ℕ) (idle queued : Bool) (expire : ℕ)
  | replace
  | deactivate (c fd : ℕ)
  | transfer
  | handOver

namespace World

/-- A center changes. -/
def onCenter (c : ℕ) (f : Center → Center) (w : World) : World :=
  { w with centers := Function.update w.centers c (f (w.centers c)) }

/-- The connection changes. -/
def onConn (f : Conn → Conn) (w : World) : World := { w with conn := f w.conn }

/-- `create_file_event` for the socket. -/
def createFileEvent (fd : ℕ) (mask : Mask) (ctxt : Callback) (w : World) : World :=
  w.onCenter w.conn.center (Center.createFileEvent fd mask ctxt)

/-- `delete_file_event` for the socket. -/
def deleteFileEvent (fd : ℕ) (mask : Mask) (w : World) : World :=
  w.onCenter w.conn.center (Center.deleteFileEvent fd mask)

/-- `register_time_events.insert(center->create_time_event(…, wakeup_handler))`. -/
def arm (expire : ℕ) (w : World) : World :=
  let id := (w.centers w.conn.center).timeEventNextId
  (w.onCenter w.conn.center (Center.onTimers (Timers.createTimeEvent expire .wakeupHandler))).onConn
    fun c => { c with registerTimeEvents := c.registerTimeEvents.insert id }

/-- `last_tick_id = center->create_time_event(…, tick_handler)`. -/
def createTick (expire : ℕ) (w : World) : World :=
  let id := (w.centers w.conn.center).timeEventNextId
  (w.onCenter w.conn.center (Center.onTimers (Timers.createTimeEvent expire .tickHandler))).onConn
    fun c => { c with lastTickId := id }

/-- `if (last_tick_id) center->delete_time_event(last_tick_id)`. -/
def dropTick (w : World) : World :=
  if w.conn.lastTickId = 0 then w
  else w.onCenter w.conn.center (Center.onTimers (Timers.deleteTimeEvent w.conn.lastTickId))

/-- The loop of `shutdown_socket` over `register_time_events`. -/
def clear (w : World) : World :=
  (w.onCenter w.conn.center (Center.onTimers (Timers.deleteAll w.conn.registerTimeEvents))).onConn
    fun c => { c with registerTimeEvents := [] }

/-- `shutdown_socket`; none where it asks an empty socket for its descriptor. -/
def shutdownSocket (w : World) : Option World :=
  let w := w.clear
  if w.conn.lastTickId = 0 then some w
  else
    match w.conn.cs with
    | none => none
    | some fd => some ((w.deleteFileEvent fd .both).onConn fun c => { c with cs := none })

/-- `_stop`, which leaves the events to `cleanup`. -/
def stop (w : World) : World :=
  if w.conn.state = .closed then w
  else w.onConn fun c => { c with state := .closed, openWrite := false, canWrite := .closed }

/-- `cleanup`. -/
def cleanup (w : World) : Option World :=
  w.shutdownSocket.map (onConn fun c => { c with handlersDeleted := true })

/-- The branch of `fault`. -/
def branch (queued : Bool) (w : World) : Aftermath :=
  w.conn.state.aftermath w.conn.policy w.conn.onceReady w.conn.replacing queued

/-- `fault`. -/
def fault (queued : Bool) (expire : ℕ) (w : World) : Option World :=
  let branch := w.branch queued
  let tearDown : Option World :=
    (w.onConn fun c => { c with canWrite := .nowrite }).shutdownSocket.map
      (onConn fun c => { c with openWrite := false })
  let goOn (w : World) : World :=
    w.onConn fun c => { c with replacing := false, state := c.state.after c.policy branch }
  match branch with
  | .ignored => some w
  | .failed => some w.stop
  | .dropped => tearDown.map stop
  | .standby => tearDown.map goOn
  | .reconnects => tearDown.map goOn
  | .backsOff => tearDown.map fun w => (goOn w).arm expire

/-- `_try_send` on a socket. -/
def trySend (fd : ℕ) (sent : Sent) (queued : Bool) (w : World) : World :=
  let isQueued := queued || sent = .part
  if sent = .failed then w
  else if isQueued then
    if w.conn.openWrite then w
    else (w.createFileEvent fd .write .writeHandler).onConn fun c => { c with openWrite := true }
  else if w.conn.openWrite then
    (w.deleteFileEvent fd .write).onConn fun c => { c with openWrite := false }
  else w

/-- The state behind `try_send` in an arm that sends. -/
def afterSend (sent : Sent) (next : RCState) (w : World) : World :=
  match sent with
  | .failed => w
  | .all => w.onConn fun c => { c with state := next }
  | .part => w.onConn fun c => { c with state := .waitSend }

/-- `STATE_CONNECTING`; `result` is the socket that `worker->connect` returns. -/
def connecting (result : Option ℕ) (w : World) : World :=
  let w :=
    match w.conn.cs with
    | some fd => (w.deleteFileEvent fd .both).onConn fun c => { c with cs := none }
    | none => w
  match result with
  | none => w
  | some fd =>
      (w.createFileEvent fd .read .readHandler).onConn fun c =>
        { c with cs := some fd, state := .connectingRe }

/-- `STATE_CONNECTING_RE`. -/
def connectingRe (needWritableEvent : Bool) (fd : ℕ) (isConnected : ℤ) (sent : Sent)
    (queued : Bool) (w : World) : World :=
  if isConnected < 0 then w
  else if isConnected = 0 then
    if needWritableEvent then w.createFileEvent fd .write .readHandler else w
  else
    ((w.deleteFileEvent fd .write).trySend fd sent queued).afterSend sent
      .connectingWaitBannerAndIdentify

/-- `STATE_ACCEPTING`. -/
def accepting (fd : ℕ) (sent : Sent) (queued : Bool) (w : World) : World :=
  ((w.createFileEvent fd .read .readHandler).trySend fd sent queued).afterSend sent
    .acceptingWaitBannerAddr

/-- The end of `STATE_CONNECTING_READY` and `STATE_ACCEPTING_READY`. -/
def ready (expire : ℕ) (w : World) : World :=
  (w.dropTick.createTick expire).onConn fun c =>
    { c with state := .opened, canWrite := .canwrite }

/-- A throttle refuses in one of the `STATE_OPEN_MESSAGE_THROTTLE_*`. -/
def throttle (expire : ℕ) (w : World) : World :=
  if w.conn.registerTimeEvents = [] then w.arm expire else w

/-- Whether `fault` without a tick timer calls the center, which only the thread of the center may
do. -/
def faultCallsCenter (queued : Bool) (w : World) : Bool :=
  match w.branch queued with
  | .ignored | .failed => false
  | .backsOff => true
  | _ => !w.conn.registerTimeEvents.isEmpty

/-- `tick`, run by the thread of the center `c`; none if an assertion about the thread fails. -/
def tick (c : ℕ) (idle queued : Bool) (expire : ℕ) (w : World) : Option World :=
  let w := w.onConn fun c => { c with lastTickId := 0 }
  if idle then
    if c = w.conn.center ∨ w.faultCallsCenter queued = false then w.fault queued expire else none
  else if w.conn.canWrite = .canwrite then
    if c = w.conn.center then some (w.createTick expire) else none
  else some w

/-- The callback of a time event of the center `c`. -/
def calledBack (c : ℕ) (e : TimeEvent) (idle queued : Bool) (expire : ℕ) (w : World) :
    Option World :=
  match e.timeCb with
  | .wakeupHandler =>
      some (w.onConn fun conn =>
        { conn with registerTimeEvents := conn.registerTimeEvents.filter fun id =>
            id ≠ throughInt e.id })
  | .tickHandler => w.tick c idle queued expire
  | _ => some w

/-- `deactivate_existing` on the connection that is replaced, which takes over the socket `fd` and
moves to the center `c`.  The old socket is dropped with whatever is registered for it. -/
def deactivate (c fd : ℕ) (w : World) : Option World :=
  (w.onConn fun c => { c with openWrite := false }).shutdownSocket.map (onConn fun conn =>
    { conn with cs := some fd, center := c, takeover := .moved })

/-- `transfer_existing`, up to `_reply_accept`. -/
def transfer (fd : ℕ) (w : World) : World :=
  let w := w.onConn fun c => { c with takeover := .idle }
  if w.conn.state = .closed then w
  else
    (w.createFileEvent fd .read .readHandler).onConn fun c =>
      { c with state := .acceptingWaitConnectMsg }

end World

/-- The states in which `advance` may leave a state: those of an open connection, and those of the
two handshakes while they wait for the peer or for the socket. -/
def Advances (s t : RCState) : Prop :=
  let between (a b s : RCState) := a.ctorIdx ≤ s.ctorIdx ∧ s.ctorIdx ≤ b.ctorIdx
  between .opened .openTagClose s ∧ between .opened .openTagClose t ∨
  (s = .waitSend ∨ between .connectingWaitBannerAndIdentify .connectingWaitAckSeq s) ∧
    (t = .waitSend ∨ t = .wait ∨ between .connectingWaitBannerAndIdentify .connectingReady t) ∨
  (s = .waitSend ∨ between .acceptingWaitBannerAddr .acceptingWaitSeq s) ∧
    (t = .waitSend ∨ between .acceptingWaitBannerAddr .acceptingReady t)

instance (s t : RCState) : Decidable (Advances s t) := by
  unfold Advances
  infer_instance

/-- The three states that ask a throttle. -/
def AsksThrottle (s : RCState) : Prop :=
  s = .openMessageThrottleMessage ∨ s = .openMessageThrottleBytes ∨
    s = .openMessageThrottleDispatchQueue

instance (s : RCState) : Decidable (AsksThrottle s) := inferInstanceAs (Decidable (_ ∨ _))

namespace World

/-- One step; none if it is not enabled, or ends in a failed assertion or an empty socket. -/
def step (needWritableEvent : Bool) (w : World) : Action → Option World
  | .otherCreate c expire =>
      some (w.onCenter c (Center.onTimers (Timers.createTimeEvent expire .other)))
  | .otherDelete c id =>
      some (w.onCenter c (Center.onTimers (Timers.deleteTimeEvent id)))
  | .otherCreateFile c fd mask =>
      if c = w.conn.center ∧ w.conn.cs = some fd then none
      else some (w.onCenter c (Center.createFileEvent fd mask .other))
  | .otherDeleteFile c fd mask =>
      if c = w.conn.center ∧ w.conn.cs = some fd then none
      else some (w.onCenter c (Center.deleteFileEvent fd mask))
  | .accept fd =>
      if w.conn.state = .none ∧ w.conn.cs = none ∧ w.conn.takeover = .idle then
        some (w.onConn fun c => { c with cs := some fd, state := .accepting })
      else none
  | .connect =>
      if (w.conn.state = .none ∧ w.conn.takeover = .idle) ∨ w.conn.state = .standby then
        some (w.onConn fun c => { c with state := .connecting })
      else none
  | .connecting result =>
      if w.conn.state = .connecting then some (w.connecting result) else none
  | .connectingRe isConnected sent queued =>
      match w.conn.cs with
      | some fd =>
          if w.conn.state = .connectingRe then
            some (w.connectingRe needWritableEvent fd isConnected sent queued)
          else none
      | none => none
  | .accepting sent queued =>
      match w.conn.cs with
      | some fd => if w.conn.state = .accepting then some (w.accepting fd sent queued) else none
      | none => none
  | .advance state onceReady replacing =>
      if Advances w.conn.state state then
        some (w.onConn fun c =>
          { c with state := state, onceReady := onceReady, replacing := replacing })
      else none
  | .trySend sent queued =>
      match w.conn.cs with
      | some fd =>
          if w.conn.state = .none ∨ w.conn.state = .closed then none
          else some (w.trySend fd sent queued)
      | none => none
  | .ready expire =>
      if w.conn.state = .connectingReady ∨ w.conn.state = .acceptingReady then
        some (w.ready expire)
      else none
  | .throttle expire => if AsksThrottle w.conn.state then some (w.throttle expire) else none
  | .fault queued expire => w.fault queued expire
  | .stop => some w.stop
  | .cleanup =>
      if w.conn.state = .closed ∧ w.conn.handlersDeleted = false then w.cleanup else none
  | .fire c now idle queued expire =>
      match (w.centers c).takeDue now with
      | some (e, ts) =>
          if w.conn.handlersDeleted ∧ e.timeCb ≠ .other then none
          else
            (w.onCenter c (Center.onTimers fun _ => ts)).calledBack c e idle queued expire
      | none => none
  | .replace =>
      if w.conn.state = .none ∨ w.conn.state = .closed ∨ w.conn.policy.lossy then none
      else some (w.onConn fun c =>
        { c with
          canWrite := .replacing, replacing := true, state := .none, takeover := .submitted })
  | .deactivate c fd =>
      if w.conn.takeover = .submitted then
        if w.conn.state = .none then w.deactivate c fd
        else some (w.onConn fun c => { c with takeover := .idle })
      else none
  | .transfer =>
      match w.conn.cs with
      | some fd => if w.conn.takeover = .moved then some (w.transfer fd) else none
      | none => none
  | .handOver =>
      match w.conn.cs with
      | some fd =>
          if w.conn.state = .acceptingWaitConnectMsg ∨
              w.conn.state = .acceptingWaitConnectMsgAuth then
            some ((w.deleteFileEvent fd .both).onConn fun c => { c with cs := none }).stop
          else none
      | none => none

/-- A connection as it is constructed, on centers that hold nothing of it. -/
structure Fresh (w : World) : Prop where
  state : w.conn.state = .none
  cs : w.conn.cs = none
  registerTimeEvents : w.conn.registerTimeEvents = []
  lastTickId : w.conn.lastTickId = 0
  openWrite : w.conn.openWrite = false
  takeover : w.conn.takeover = .idle
  handlersDeleted : w.conn.handlersDeleted = false
  timers : ∀ c, (w.centers c).toTimers.WellFormed
  files : ∀ c fd, ((w.centers c).fileEvents fd).WellFormed
  foreignTimers : ∀ c, ∀ e ∈ (w.centers c).timeEvents, e.timeCb = .other
  foreignFiles : ∀ c fd, ((w.centers c).fileEvents fd).Foreign

/-- A connection and its events, on a stack whose nonblocking connects need a writable event or
do not. -/
def machine (needWritableEvent : Bool) : Machine World Action := ⟨Fresh, step needWritableEvent⟩

/-- A connection on centers without events. -/
def created (policy : Policy) (nextId : ℕ) : World where
  centers _ :=
    { timeEvents := []
      timeEventNextId := nextId
      fileEvents := fun _ => ⟨.none, none, none⟩ }
  conn :=
    { state := .none
      policy := policy
      onceReady := false
      replacing := false
      canWrite := .nowrite
      openWrite := false
      cs := none
      registerTimeEvents := []
      lastTickId := 0
      center := 0
      takeover := .idle
      handlersDeleted := false }

theorem fresh_created (policy : Policy) {nextId : ℕ} (hpos : 0 < nextId) :
    Fresh (created policy nextId) where
  state := rfl
  cs := rfl
  registerTimeEvents := rfl
  lastTickId := rfl
  openWrite := rfl
  takeover := rfl
  handlersDeleted := rfl
  timers _ := ⟨fun _ he => (by cases he), fun _ he => (by cases he), hpos, List.nodup_nil⟩
  files _ _ := ⟨fun h => (by cases h), fun h => (by cases h)⟩
  foreignTimers _ _ he := (by cases he)
  foreignFiles _ _ := ⟨fun _ h => (by cases h), fun _ h => (by cases h)⟩

/-! ## The timers of a connection -/

/-- What a connection and its centers come to for its timers. -/
def timing (w : World) : Timing where
  timers c := (w.centers c).toTimers
  registerTimeEvents := w.conn.registerTimeEvents
  lastTickId := w.conn.lastTickId
  center := w.conn.center

theorem timing_onTimers (c : ℕ) (f : Timers → Timers) (w : World) :
    (w.onCenter c (Center.onTimers f)).timing = w.timing.onTimers c f := by
  have htimers (d : ℕ) : (Function.update w.centers c ((w.centers c).onTimers f) d).toTimers =
      Function.update w.timing.timers c (f (w.timing.timers c)) d := by
    by_cases hd : d = c
    · rw [hd, Function.update_self, Function.update_self]
      rfl
    · rw [Function.update_of_ne hd, Function.update_of_ne hd]
      rfl
  exact congrArg
    (fun timers => ({ w.timing with timers := timers } : Timing)) (funext htimers)

/-- File events do not concern the timers. -/
theorem timing_onCenter {c : ℕ} {f : Center → Center} (w : World)
    (hf : (f (w.centers c)).toTimers = (w.centers c).toTimers) :
    (w.onCenter c f).timing = w.timing := by
  have htimers (d : ℕ) : (Function.update w.centers c (f (w.centers c)) d).toTimers =
      w.timing.timers d := by
    by_cases hd : d = c
    · rw [hd, Function.update_self]
      exact hf
    · rw [Function.update_of_ne hd]
      rfl
  exact congrArg
    (fun timers => ({ w.timing with timers := timers } : Timing)) (funext htimers)

@[simp] theorem timing_createFileEvent (fd : ℕ) (mask : Mask) (ctxt : Callback) (w : World) :
    (w.createFileEvent fd mask ctxt).timing = w.timing :=
  timing_onCenter w rfl

@[simp] theorem timing_deleteFileEvent (fd : ℕ) (mask : Mask) (w : World) :
    (w.deleteFileEvent fd mask).timing = w.timing :=
  timing_onCenter w rfl

/-- Nor do the fields of the connection that are not about timers. -/
theorem timing_onConn (f : Conn → Conn) (w : World)
    (hids : (f w.conn).registerTimeEvents = w.conn.registerTimeEvents)
    (htick : (f w.conn).lastTickId = w.conn.lastTickId)
    (hcenter : (f w.conn).center = w.conn.center) : (w.onConn f).timing = w.timing := by
  simp only [timing, onConn, hids, htick, hcenter]

theorem timing_arm (expire : ℕ) (w : World) : (w.arm expire).timing = w.timing.arm expire := by
  have htimers := timing_onTimers w.conn.center (Timers.createTimeEvent expire .wakeupHandler) w
  exact congrArg (fun t : Timing => { t with
    registerTimeEvents := t.registerTimeEvents.insert
      (w.centers w.conn.center).timeEventNextId }) htimers

theorem timing_createTick (expire : ℕ) (w : World) :
    (w.createTick expire).timing = w.timing.createTick expire := by
  have htimers := timing_onTimers w.conn.center (Timers.createTimeEvent expire .tickHandler) w
  exact congrArg (fun t : Timing => { t with
    lastTickId := (w.centers w.conn.center).timeEventNextId }) htimers

theorem timing_dropTick (w : World) : w.dropTick.timing = w.timing.dropTick := by
  unfold dropTick Timing.dropTick
  by_cases htick : w.conn.lastTickId = 0
  · have hview : w.timing.lastTickId = 0 := htick
    rw [if_pos htick, if_pos hview]
  · have hview : w.timing.lastTickId ≠ 0 := htick
    rw [if_neg htick, if_neg hview]
    exact timing_onTimers w.conn.center _ w

theorem timing_clear (w : World) : w.clear.timing = w.timing.clear := by
  have htimers :=
    timing_onTimers w.conn.center (Timers.deleteAll w.conn.registerTimeEvents) w
  exact congrArg (fun t : Timing => { t with registerTimeEvents := [] }) htimers

theorem timing_shutdownSocket {w t : World} (h : w.shutdownSocket = some t) :
    t.timing = w.timing.clear := by
  simp only [shutdownSocket] at h
  split at h
  · rw [← timing_clear, Option.some.inj h]
  · split at h
    · cases h
    · rename_i fd _
      rw [← Option.some.inj h, timing_onConn _ _ rfl rfl rfl, timing_deleteFileEvent, timing_clear]

@[simp] theorem timing_stop (w : World) : w.stop.timing = w.timing := by
  unfold stop
  split
  · rfl
  · exact timing_onConn _ _ rfl rfl rfl

@[simp] theorem timing_trySend (fd : ℕ) (sent : Sent) (queued : Bool) (w : World) :
    (w.trySend fd sent queued).timing = w.timing := by
  simp only [trySend]
  split
  · rfl
  split
  · split
    · rfl
    · rw [timing_onConn _ _ rfl rfl rfl, timing_createFileEvent]
  · split
    · rw [timing_onConn _ _ rfl rfl rfl, timing_deleteFileEvent]
    · rfl

@[simp] theorem timing_afterSend (sent : Sent) (next : RCState) (w : World) :
    (w.afterSend sent next).timing = w.timing := by
  cases sent with
  | failed => rfl
  | all => exact timing_onConn _ _ rfl rfl rfl
  | part => exact timing_onConn _ _ rfl rfl rfl

@[simp] theorem timing_connecting (result : Option ℕ) (w : World) :
    (w.connecting result).timing = w.timing := by
  have hclosed : (match w.conn.cs with
      | some fd => (w.deleteFileEvent fd .both).onConn fun c => { c with cs := none }
      | none => w).timing = w.timing := by
    split
    · rw [timing_onConn _ _ rfl rfl rfl, timing_deleteFileEvent]
    · rfl
  unfold connecting
  dsimp only
  split
  · exact hclosed
  · rw [timing_onConn _ _ rfl rfl rfl, timing_createFileEvent]
    exact hclosed

@[simp] theorem timing_connectingRe (needWritableEvent : Bool) (fd : ℕ) (isConnected : ℤ)
    (sent : Sent) (queued : Bool) (w : World) :
    (w.connectingRe needWritableEvent fd isConnected sent queued).timing = w.timing := by
  unfold connectingRe
  split
  · rfl
  split
  · split
    · exact timing_createFileEvent _ _ _ w
    · rfl
  · rw [timing_afterSend, timing_trySend, timing_deleteFileEvent]

@[simp] theorem timing_accepting (fd : ℕ) (sent : Sent) (queued : Bool) (w : World) :
    (w.accepting fd sent queued).timing = w.timing := by
  rw [accepting, timing_afterSend, timing_trySend, timing_createFileEvent]

@[simp] theorem timing_transfer (fd : ℕ) (w : World) : (w.transfer fd).timing = w.timing := by
  simp only [transfer]
  split
  · exact timing_onConn _ _ rfl rfl rfl
  · rw [timing_onConn _ _ rfl rfl rfl, timing_createFileEvent]
    exact timing_onConn _ _ rfl rfl rfl

end World

/-- A condition on timer steps that holds of those that a connection does by itself, but for the
end of the handshake. -/
structure Timing.Admits (ok : Timing → TimingAction → Prop) : Prop where
  otherCreate : ∀ t c expire, ok t (.otherCreate c expire)
  arm : ∀ t expire, ok t (.arm expire)
  clear : ∀ t, ok t .clear
  startTick : ∀ t expire, t.lastTickId = 0 → ok t (.startTick expire)
  moveTo : ∀ t c, ok t (.moveTo c)

namespace World

/-- The condition for the steps of a connection. -/
def Under (ok : Timing → TimingAction → Prop) (w : World) : Action → Prop
  | .otherDelete c id => ok w.timing (.otherDelete c id)
  | .fire c now _ _ _ => ok w.timing (.fire c now)
  | .ready expire => ok w.timing (.startTick expire)
  | _ => True

section Simulation

open Relation (ReflTransGen)

variable {ok : Timing → TimingAction → Prop} (hadmits : Timing.Admits ok)
include hadmits

/-- `clear` is a step of the timers. -/
theorem moves_clear {t t' : Timing} (h : t' = t.clear) :
    ReflTransGen (Timing.machine.Moves ok) t t' :=
  .single ⟨.clear, hadmits.clear t, h ▸ rfl⟩

theorem moves_arm (expire : ℕ) (w : World) :
    Timing.machine.Moves ok w.timing (w.arm expire).timing :=
  ⟨.arm expire, hadmits.arm _ expire, by rw [timing_arm]; rfl⟩

theorem moves_fault {queued : Bool} {expire : ℕ} {w t : World}
    (h : w.fault queued expire = some t) :
    ReflTransGen (Timing.machine.Moves ok) w.timing t.timing := by
  -- behind `shutdown_socket` the timers are cleared, and only a wait for the next attempt adds one
  have htearDown {u : World}
      (hu : (w.onConn fun c => { c with canWrite := .nowrite }).shutdownSocket = some u) :
      ReflTransGen (Timing.machine.Moves ok) w.timing u.timing := by
    apply moves_clear hadmits
    rw [timing_shutdownSocket hu, timing_onConn _ _ rfl rfl rfl]
  simp only [fault] at h
  split at h
  · exact Option.some.inj h ▸ .refl
  · rw [← Option.some.inj h, timing_stop]
  · simp only [Option.map_map, Option.map_eq_some_iff, Function.comp_apply] at h
    obtain ⟨u, hu, rfl⟩ := h
    rw [timing_stop, timing_onConn _ _ rfl rfl rfl]
    exact htearDown hu
  · simp only [Option.map_map, Option.map_eq_some_iff, Function.comp_apply] at h
    obtain ⟨u, hu, rfl⟩ := h
    show ReflTransGen (Timing.machine.Moves ok) w.timing u.timing
    exact htearDown hu
  · simp only [Option.map_map, Option.map_eq_some_iff, Function.comp_apply] at h
    obtain ⟨u, hu, rfl⟩ := h
    show ReflTransGen (Timing.machine.Moves ok) w.timing u.timing
    exact htearDown hu
  · simp only [Option.map_map, Option.map_eq_some_iff, Function.comp_apply] at h
    obtain ⟨u, hu, rfl⟩ := h
    exact (htearDown hu).tail (moves_arm hadmits expire _)

theorem moves_createTick {w : World} (htick : w.conn.lastTickId = 0) (expire : ℕ) :
    Timing.machine.Moves ok w.timing (w.createTick expire).timing := by
  refine ⟨.startTick expire, hadmits.startTick _ expire htick, ?_⟩
  have hdrop : w.timing.dropTick = w.timing := if_pos htick
  rw [timing_createTick]
  show some (w.timing.dropTick.createTick expire) = _
  rw [hdrop]

theorem moves_tick {c : ℕ} {idle queued : Bool} {expire : ℕ} {w t : World}
    (h : w.tick c idle queued expire = some t) :
    ReflTransGen (Timing.machine.Moves ok) (w.onConn fun c => { c with lastTickId := 0 }).timing
      t.timing := by
  simp only [tick] at h
  split at h
  · split at h
    · exact moves_fault hadmits h
    · cases h
  · split at h
    · split at h
      · rw [← Option.some.inj h]
        exact .single (moves_createTick hadmits rfl expire)
      · cases h
    · exact Option.some.inj h ▸ .refl

theorem moves_calledBack {c : ℕ} {e : TimeEvent} {idle queued : Bool} {expire : ℕ} {w t : World}
    (h : w.calledBack c e idle queued expire = some t) :
    ReflTransGen (Timing.machine.Moves ok) (w.timing.calledBack e) t.timing := by
  cases hcb : e.timeCb with
  | wakeupHandler =>
      simp only [calledBack, hcb, Option.some.injEq] at h
      simp only [Timing.calledBack, hcb, ← h]
      exact .refl
  | tickHandler =>
      simp only [calledBack, hcb] at h
      simp only [Timing.calledBack, hcb]
      exact moves_tick hadmits h
  | readHandler | writeHandler | other =>
      simp only [calledBack, hcb, Option.some.injEq] at h
      simp only [Timing.calledBack, hcb, ← h]
      exact .refl

/-- A step of a connection is some steps of its timers. -/
theorem moves_step {needWritableEvent : Bool} {w t : World} {a : Action} (hunder : w.Under ok a)
    (h : w.step needWritableEvent a = some t) :
    ReflTransGen (Timing.machine.Moves ok) w.timing t.timing := by
  have hsame {u : World} (hu : u.timing = w.timing) (h : some u = some t) :
      ReflTransGen (Timing.machine.Moves ok) w.timing t.timing := by
    rw [← Option.some.inj h, hu]
  cases a with
  | otherCreate c expire =>
      refine .single ⟨.otherCreate c expire, hadmits.otherCreate _ c expire, ?_⟩
      rw [← Option.some.inj h, timing_onTimers]
      rfl
  | otherDelete c id =>
      refine .single ⟨.otherDelete c id, hunder, ?_⟩
      rw [← Option.some.inj h, timing_onTimers]
      rfl
  | otherCreateFile c fd mask =>
      simp only [step] at h
      split at h
      · cases h
      · exact hsame (timing_onCenter w rfl) h
  | otherDeleteFile c fd mask =>
      simp only [step] at h
      split at h
      · cases h
      · exact hsame (timing_onCenter w rfl) h
  | accept fd =>
      simp only [step] at h
      split at h
      · exact hsame (timing_onConn _ w rfl rfl rfl) h
      · cases h
  | connect =>
      simp only [step] at h
      split at h
      · exact hsame (timing_onConn _ w rfl rfl rfl) h
      · cases h
  | connecting result =>
      simp only [step] at h
      split at h
      · exact hsame (timing_connecting result w) h
      · cases h
  | connectingRe isConnected sent queued =>
      simp only [step] at h
      split at h
      · split at h
        · exact hsame (timing_connectingRe _ _ _ _ _ w) h
        · cases h
      · cases h
  | accepting sent queued =>
      simp only [step] at h
      split at h
      · split at h
        · exact hsame (timing_accepting _ _ _ w) h
        · cases h
      · cases h
  | advance state onceReady replacing =>
      simp only [step] at h
      split at h
      · exact hsame (timing_onConn _ w rfl rfl rfl) h
      · cases h
  | trySend sent queued =>
      simp only [step] at h
      split at h
      · split at h
        · cases h
        · exact hsame (timing_trySend _ _ _ w) h
      · cases h
  | ready expire =>
      simp only [step] at h
      split at h
      · refine .single ⟨.startTick expire, hunder, ?_⟩
        rw [← Option.some.inj h, ready, timing_onConn _ _ rfl rfl rfl, timing_createTick,
          timing_dropTick]
        rfl
      · cases h
  | throttle expire =>
      simp only [step] at h
      split at h
      · rw [← Option.some.inj h, throttle]
        split
        · exact .single (moves_arm hadmits expire w)
        · exact .refl
      · cases h
  | fault queued expire => exact moves_fault hadmits h
  | stop => exact hsame (timing_stop w) h
  | cleanup =>
      simp only [step, cleanup] at h
      split at h
      · rw [Option.map_eq_some_iff] at h
        obtain ⟨u, hu, rfl⟩ := h
        show ReflTransGen (Timing.machine.Moves ok) w.timing u.timing
        exact moves_clear hadmits (timing_shutdownSocket hu)
      · cases h
  | fire c now idle queued expire =>
      simp only [step] at h
      split at h
      · rename_i e ts hdue
        split at h
        · cases h
        · refine ReflTransGen.head ⟨.fire c now, hunder, ?_⟩ (moves_calledBack hadmits h)
          show Timing.step w.timing (.fire c now) = _
          have hdue' : (w.timing.timers c).takeDue now = some (e, ts) := hdue
          simp only [Timing.step, hdue', timing_onTimers]
      · cases h
  | replace =>
      simp only [step] at h
      split at h
      · cases h
      · exact hsame (timing_onConn _ w rfl rfl rfl) h
  | deactivate c fd =>
      simp only [step] at h
      split at h
      · split at h
        · simp only [deactivate, Option.map_eq_some_iff] at h
          obtain ⟨u, hu, rfl⟩ := h
          have hcleared : u.timing = w.timing.clear := by
            rw [timing_shutdownSocket hu, timing_onConn _ _ rfl rfl rfl]
          refine (moves_clear hadmits hcleared).tail ⟨.moveTo c, hadmits.moveTo _ c, ?_⟩
          have hempty : u.timing.registerTimeEvents = [] := by rw [hcleared]; rfl
          show Timing.step u.timing (.moveTo c) = _
          rw [Timing.step, if_pos hempty]
          rfl
        · exact hsame (timing_onConn _ w rfl rfl rfl) h
      · cases h
  | transfer =>
      simp only [step] at h
      split at h
      · split at h
        · exact hsame (timing_transfer _ w) h
        · cases h
      · cases h
  | handOver =>
      simp only [step] at h
      split at h
      · split at h
        · refine hsame ?_ h
          rw [timing_stop, timing_onConn _ _ rfl rfl rfl, timing_deleteFileEvent]
        · cases h
      · cases h

/-- **The timers of a connection.**  In every run of a connection, they are in a state that the
timers reach by themselves, under the same condition. -/
theorem timing_of_reached {needWritableEvent : Bool} {w : World}
    (hreached : (machine needWritableEvent).ReachedUnder (Under ok) w) :
    Timing.machine.ReachedUnder ok w.timing := by
  apply hreached.simulates timing
  · intro w hfresh
    exact ⟨Fresh.timers hfresh, Fresh.foreignTimers hfresh, Fresh.registerTimeEvents hfresh,
      Fresh.lastTickId hfresh⟩
  · intro w a t hunder hstep
    exact moves_step hadmits hunder hstep

end Simulation

end World

end HwAsync.Event
