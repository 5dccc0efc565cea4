/-
# Two messengers

A messenger has connections to a peer, of which at most one is in `conns`, and the peer has
connections of its own, each of which may be connecting at any time.  What the peer has sent stays
on its way for as long as it takes, so a connect message may arrive when newer sockets are in use.

`handle_connect_msg` drops the lock of its connection twice.  The steps are therefore the parts of
it that run under a lock, between which every other connection and every other thread may go on.
-/

import Mathlib.Data.Finset.Basic
import Mathlib.Logic.Function.Basic
import HwAsync.Lib.Run
import HwAsync.Connect.Reply
import HwAsync.Connect.Accept

namespace HwAsync.Connect

open HwAsync.Lib

variable {Addr : Type}

/-! ## The peer -/

/-- `STATE_CONNECTING`, up to the socket. -/
def Party.connecting (p : Party Addr) : Party Addr :=
  let globalSeq := getGlobalSeq p.globalSeq 0
  { globalSeq := globalSeq
    conn := { p.conn with
      gotBadAuth := false
      authorizer := none
      connectMsg := ⟨0, 0, 0, 0, 0, 0, 0, 0⟩
      connectReply := ⟨.other 0, 0, 0, 0, 0, 0, 0⟩
      globalSeq := globalSeq
      state := .connectingRe } }

/-- The peer: its counter, what `get_global_seq` has returned so far, its connections, and the
connect messages and accept replies that they have sent. -/
structure Peer (Addr : Type) where
  globalSeq : UInt32
  draws : List UInt32
  conns : ℕ → Conn Addr
  connects : List ConnectMsg
  accepts : List ConnectReply

namespace Peer

/-- A connection of the peer, with the counter. -/
def party (p : Peer Addr) (k : ℕ) : Party Addr := ⟨p.globalSeq, p.conns k⟩

/-- A connection that has drawn a number. -/
def draw (k : ℕ) (q : Party Addr) (p : Peer Addr) : Peer Addr :=
  { p with
    globalSeq := q.globalSeq
    draws := p.draws ++ [q.globalSeq]
    conns := Function.update p.conns k q.conn }

end Peer

/-! ## A connection that fails -/

namespace Conn

/-- From `STATE_CONNECTING` on, but not `STATE_CONNECTING_READY` yet. -/
def Connecting (c : Conn Addr) : Prop :=
  RCState.connecting.ctorIdx ≤ c.state.ctorIdx ∧ c.state.ctorIdx < RCState.connectingReady.ctorIdx

instance (c : Conn Addr) : Decidable c.Connecting := inferInstanceAs (Decidable (_ ∧ _))

/-- The connection is half accepted. -/
def Accepting (c : Conn Addr) : Prop :=
  RCState.accepting.ctorIdx ≤ c.state.ctorIdx ∧
    c.state.ctorIdx ≤ RCState.acceptingWaitConnectMsgAuth.ctorIdx

instance (c : Conn Addr) : Decidable c.Accepting := inferInstanceAs (Decidable (_ ∧ _))

/-- `fault`.  `outcoming_bl` is empty by then, so that `is_queued` is about `out_q`. -/
def fault (c : Conn Addr) : Conn Addr :=
  if c.state = .closed ∨ c.state = .none then c
  else if c.policy.lossy ∧ ¬ c.Connecting then c.stop
  else
    let c := { c.requeueSent with canWrite := .nowrite, socket := none, isResetFromPeer := false }
    let queued := c.outQ.buckets ≠ []
    if ¬ c.onceReady ∧ ¬ queued ∧ c.Accepting ∧ ¬ c.replacing then c.stop
    else
      let c := { c with replacing := false }.resetRecvState
      if c.policy.standby ∧ ¬ queued ∧ c.state ≠ .wait then { c with state := .standby }
      else if ¬ c.Connecting ∧ c.state ≠ .wait then
        if c.policy.server then { c with state := .standby }
        else { c with connectSeq := c.connectSeq + 1, state := .connecting }
      else { c with state := .connecting }

/-- `handle_connect_msg` behind `accept_conn`, with whether the reply was sent; none if the
assertion fails. -/
def relocked (sent : Sent) (nextState : RCState) (accepted : Bool) (c : Conn Addr) :
    Option (Conn Addr × Bool) :=
  let c := { c with replacing := false }
  if accepted then
    if c.state = .acceptingWaitConnectMsgAuth then
      match sent with
      | .failed => some (c.fault, false)
      | .all => some (c.accepted nextState, true)
      | .part => some ({ c.accepted .waitSend with stateAfterSend := nextState }, true)
    else if c.state = .closed then some (c.fault, false)
    else none
  else some (c.fault, false)

/-- The banner and the address of the peer are still on their way. -/
def Greeting (c : Conn Addr) : Prop :=
  c.state = .accepting ∨ c.state = .acceptingWaitBannerAddr ∨
    c.state = .waitSend ∧ c.stateAfterSend = .acceptingWaitBannerAddr

instance (c : Conn Addr) : Decidable c.Greeting := inferInstanceAs (Decidable (_ ∨ _ ∨ _))

/-- What the other states of `process` do with a connection, as far as this matters to
`handle_connect_msg`: its own connect message is awaited behind the banner only, and
`STATE_CONNECTING_READY` takes the `peer_global_seq` from an accept reply. -/
def Proceeds (accepts : List ConnectReply) (c c' : Conn Addr) : Prop :=
  (c.state ≠ .none ∧ c.state ≠ .closed ∧ c.state ≠ .acceptingWaitConnectMsg ∧
      c.state ≠ .acceptingWaitConnectMsgAuth) ∧
    (c'.state ≠ .none ∧ c'.state ≠ .acceptingWaitConnectMsgAuth) ∧
      (c'.Greeting → c.Greeting) ∧ (c'.state = .acceptingWaitConnectMsg → c.Greeting) ∧
        c'.replacing = c.replacing ∧
          (c'.peerGlobalSeq = c.peerGlobalSeq ∨ ∃ r ∈ accepts, c'.peerGlobalSeq = r.globalSeq)

instance (accepts : List ConnectReply) (c c' : Conn Addr) : Decidable (Proceeds accepts c c') :=
  inferInstanceAs (Decidable (_ ∧ _ ∧ _ ∧ _ ∧ _ ∧ _))

end Conn

/-! ## The messenger -/

/-- Where `handle_connect_msg` is: not running, behind `verify_authorizer`, behind `lookup_conn`
with what it has returned, or in front of and behind `accept_conn`. -/
inductive Handler
  | idle
  | verifying (refused : Bool) (authorizerReply : List UInt8)
  | looked (authorizerReply : List UInt8) (existing : Option ℕ)
  | registering (nextState : RCState) (reply : ConnectReply)
  | registered (nextState : RCState) (reply : ConnectReply) (accepted : Bool)
  deriving DecidableEq, Repr

/-- A socket on its way to the connection that is replaced, and whether `deactivate_existing` has
run. -/
structure Handover where
  existing : ℕ
  socket : Option ℕ
  connect : ConnectMsg
  protocolVersion : UInt32
  authorizerReply : List UInt8
  deactivated : Bool
  deriving DecidableEq, Repr

/-- The connections of a messenger to one peer; `registered` is what `conns` has under its address,
and `answers` are the replies to connect messages. -/
structure Host (Addr : Type) where
  globalSeq : UInt32
  registered : Option ℕ
  acceptingConns : Finset ℕ
  deletedConns : Finset ℕ
  created : ℕ
  conns : ℕ → Conn Addr
  handlers : ℕ → Handler
  handovers : List Handover
  answers : List (ℕ × ConnectReply)

namespace Host

/-- A connection changes.  If it is closed now, `_stop` has called `unregister_conn`. -/
def set (c : ℕ) (conn : Conn Addr) (q : Host Addr) : Host Addr :=
  { q with
    conns := Function.update q.conns c conn
    deletedConns :=
      if conn.state = .closed ∧ (q.conns c).state ≠ .closed then insert c q.deletedConns
      else q.deletedConns }

/-- `handle_connect_msg` goes on, or returns. -/
def setHandler (c : ℕ) (h : Handler) (q : Host Addr) : Host Addr :=
  { q with handlers := Function.update q.handlers c h }

/-- A new connection. -/
def construct (conn : Conn Addr) (q : Host Addr) : Host Addr :=
  { q with
    created := q.created + 1
    conns := Function.update q.conns q.created conn
    handlers := Function.update q.handlers q.created .idle }

/-- `_lookup_conn`. -/
def lookupConn (q : Host Addr) : Option ℕ × Host Addr :=
  match q.registered with
  | none => (none, q)
  | some e =>
      if e ∈ q.deletedConns then
        (none, { q with registered := none, deletedConns := q.deletedConns.erase e })
      else (some e, q)

/-- `get_connection`: `create_connect`, if nothing is registered. -/
def getConnection (conn : Conn Addr) (q : Host Addr) : Host Addr :=
  match q.lookupConn with
  | (some _, q) => q
  | (none, q) => { q.construct conn with registered := some q.created }

/-- `add_accept`. -/
def addAccept (conn : Conn Addr) (q : Host Addr) : Host Addr :=
  { q.construct conn with acceptingConns := insert q.created q.acceptingConns }

/-- `accept_conn`, with whether it accepts the connection. -/
def acceptConn (c : ℕ) (q : Host Addr) : Bool × Host Addr :=
  let accept (q : Host Addr) : Bool × Host Addr :=
    (true, { q with registered := some c, acceptingConns := q.acceptingConns.erase c })
  match q.registered with
  | none => accept q
  | some e =>
      if e ∈ q.deletedConns then accept { q with deletedConns := q.deletedConns.erase e }
      else if c ≠ e then (false, q)
      else accept q

/-- `reap_dead`. -/
def reapDead (q : Host Addr) : Host Addr :=
  { q with
    registered := q.registered.filter (· ∉ q.deletedConns)
    acceptingConns := q.acceptingConns \ q.deletedConns
    deletedConns := ∅ }

/-- `shutdown_connections`. -/
def shutdownConnections (q : Host Addr) : Host Addr :=
  { q with
    registered := none
    acceptingConns := ∅
    deletedConns := ∅
    conns := fun c =>
      if c ∈ q.acceptingConns ∨ q.registered = some c then (q.conns c).stop else q.conns c }

variable (t : Setup Addr)

/-- `_reply_accept`.  If the reply cannot be sent, `fault` is next. -/
def replyAccept (c : ℕ) (conn : Conn Addr) (tag : ReplyTag) (connectSeq globalSeq : UInt32)
    (authorizerReply : List UInt8) (q : Host Addr) : Host Addr :=
  let version := t.getProtoVersion conn.peerType false
  let r := conn.replyAccept conn.connectMsg tag version connectSeq globalSeq authorizerReply
  let q := (q.set c r.1).setHandler c .idle
  { q with answers := q.answers ++ [(c, r.2)] }

/-- The label `open`, up to `accept_conn`. -/
def openSession (c : ℕ) (authorizerReply : List UInt8) (q : Host Addr) : Host Addr :=
  let opening := (q.conns c).openSession t q.globalSeq authorizerReply
  let q := (q.set c opening.conn).setHandler c (.registering opening.nextState opening.reply)
  { q with globalSeq := opening.globalSeq }

/-- The label `replace`; none if the assertion fails. -/
def replace (c e outSeq : ℕ) (hardReset sessionReset : Bool) (authorizerReply : List UInt8)
    (q : Host Addr) : Option (Host Addr) :=
  let conn := q.conns c
  let old := q.conns e
  let q := q.set e (old.replaced hardReset sessionReset outSeq)
  if old.policy.lossy then some (q.openSession t c authorizerReply)
  else if conn.canWrite = .nowrite then
    let version := t.getProtoVersion conn.peerType false
    let q := (q.set c conn.stop).setHandler c .idle
    some { q with
      handovers :=
        ⟨e, conn.socket, conn.connectMsg, version, authorizerReply, false⟩ :: q.handovers }
  else none

/-- `handle_connect_msg` up to the unlocked call of `verify_authorizer`. -/
def handleConnectMsg (c : ℕ) (authorizer : List UInt8) (q : Host Addr) : Host Addr :=
  let checked := (q.conns c).check t authorizer
  match checked.refusal with
  | none => (q.set c checked.conn).setHandler c (.verifying false checked.authorizerReply)
  | some .badAuthorizer =>
      (q.set c checked.conn).setHandler c (.verifying true checked.authorizerReply)
  | some tag => q.replyAccept t c checked.conn tag 0 0 checked.authorizerReply

variable [LinearOrder Addr]

/-- `handle_connect_msg` once it has its lock back behind `lookup_conn`; none if an assertion
fails. -/
def decide (c outSeq : ℕ) (authorizerReply : List UInt8) (existing : Option ℕ) (q : Host Addr) :
    Option (Host Addr) :=
  let conn := q.conns c
  if conn.state ≠ .acceptingWaitConnectMsgAuth then
    if conn.state = .closed then some (q.setHandler c .idle) else none
  else
    let existing := if existing = some c then none else existing
    match conn.verdict t (existing.map q.conns) with
    | .reply tag connectSeq globalSeq =>
        some (q.replyAccept t c conn tag connectSeq globalSeq authorizerReply)
    | .replace hardReset sessionReset =>
        match existing with
        | none => none
        | some e => q.replace t c e outSeq hardReset sessionReset authorizerReply
    | .opens => some (q.openSession t c authorizerReply)
    | .aborts => none

/-- `handle_connect_msg` once it has its lock back behind `accept_conn`; none if an assertion
fails. -/
def relock (c : ℕ) (sent : Sent) (nextState : RCState) (reply : ConnectReply) (accepted : Bool)
    (q : Host Addr) : Option (Host Addr) :=
  match (q.conns c).relocked sent nextState accepted with
  | none => none
  | some (conn, replied) =>
      let q := (q.set c conn).setHandler c .idle
      some { q with answers := if replied then q.answers ++ [(c, reply)] else q.answers }

/-- `deactivate_existing`; none if the assertion fails. -/
def deactivate (h : Handover) (q : Host Addr) : Option (Host Addr) :=
  match (q.conns h.existing).deactivate h.socket with
  | none => none
  | some e =>
      let q := q.set h.existing e
      let rest := q.handovers.erase h
      some { q with
        handovers := if e.state = .closed then rest else { h with deactivated := true } :: rest }

/-- `transfer_existing`; none if the assertion fails. -/
def transfer (h : Handover) (q : Host Addr) : Option (Host Addr) :=
  let q := { q with handovers := q.handovers.erase h }
  let e := q.conns h.existing
  if e.state = .closed then some q
  else
    match e.transfer h.connect h.protocolVersion h.authorizerReply with
    | none => none
    | some (e, reply) =>
        let q := q.set h.existing e
        some { q with answers := q.answers ++ [(h.existing, reply)] }

end Host

/-! ## Steps -/

/-- A messenger and its peer. -/
structure Pair (Addr : Type) where
  peer : Peer Addr
  host : Host Addr

/-- What the peer and the messenger do. -/
inductive Action (Addr : Type)
  /-- The peer begins to connect. -/
  | connecting (k : ℕ)
  /-- The peer sends a connect message. -/
  | connect (k : ℕ)
  /-- The peer handles the reply to one. -/
  | reply (k outSeq : ℕ)
  /-- The peer accepts a connection of the messenger. -/
  | accepts (k : ℕ) (authorizerReply : List UInt8)
  /-- Anything else that changes a connection of the peer. -/
  | proceeds (k : ℕ) (conn : Conn Addr)
  | getConnection (peerType : UInt32)
  | addAccept (policy : Policy) (socket : ℕ)
  | lookupConn
  | reapDead
  | shutdownConnections
  | stop (c : ℕ)
  | fault (c : ℕ)
  /-- Another state of `process`, which may draw from the counter of the messenger. -/
  | process (c : ℕ) (conn : Conn Addr) (globalSeq : UInt32)
  /-- A connect message that the peer has sent is read. -/
  | receive (c : ℕ) (connect : ConnectMsg)
  | handleConnectMsg (c : ℕ) (authorizer : List UInt8)
  /-- `verify_authorizer` has returned that the authorizer is bad. -/
  | refuse (c : ℕ)
  /-- It has not, and `lookup_conn` is called. -/
  | lookUp (c : ℕ)
  | decide (c outSeq : ℕ)
  | acceptConn (c : ℕ)
  | relock (c : ℕ) (sent : Sent)
  | deactivate (h : Handover)
  | transfer (h : Handover)

namespace Peer

variable (s : Setup Addr)

/-- What the peer does. -/
def step (p : Peer Addr) : Action Addr → Option (Peer Addr)
  | .connecting k => some (p.draw k (p.party k).connecting)
  | .connect k =>
      let q := (p.party k).sendConnectMsg s
      some { p with
        conns := Function.update p.conns k q.conn
        connects := p.connects ++ [q.conn.connectMsg] }
  | .reply k outSeq =>
      match (p.party k).onReplyTag s outSeq with
      | .goes q =>
          if (p.conns k).connectReply.tag = .retryGlobal then some (p.draw k q)
          else some { p with conns := Function.update p.conns k q.conn }
      | _ => none
  | .accepts k authorizerReply =>
      let opening := (p.conns k).openSession s p.globalSeq authorizerReply
      let p := p.draw k ⟨opening.globalSeq, opening.conn⟩
      some { p with accepts := p.accepts ++ [opening.reply] }
  | .proceeds k conn =>
      if conn.globalSeq = (p.conns k).globalSeq then
        some { p with conns := Function.update p.conns k conn }
      else none
  | _ => none

end Peer

namespace Host

variable [LinearOrder Addr] (t : Setup Addr) (peerAddr : Addr)

/-- What the messenger does, with what the peer has sent.  The thread of a connection is busy while
`handle_connect_msg` runs. -/
def step (p : Peer Addr) (q : Host Addr) : Action Addr → Option (Host Addr)
  | .getConnection peerType =>
      some (q.getConnection
        { Conn.create peerAddr peerType (t.getPolicy peerType) with state := .connecting })
  | .addAccept policy socket =>
      some (q.addAccept
        { Conn.create peerAddr 0 policy with state := .accepting, socket := some socket })
  | .lookupConn => some q.lookupConn.2
  | .reapDead => some q.reapDead
  | .shutdownConnections => some q.shutdownConnections
  | .stop c => if c < q.created then some (q.set c (q.conns c).stop) else none
  | .fault c =>
      if c < q.created ∧ q.handlers c = .idle then some (q.set c (q.conns c).fault) else none
  | .process c conn globalSeq =>
      if c < q.created ∧ q.handlers c = .idle ∧ (q.conns c).Proceeds p.accepts conn then
        some { q.set c conn with globalSeq := globalSeq }
      else none
  | .receive c connect =>
      if c < q.created ∧ q.handlers c = .idle ∧ (q.conns c).state = .acceptingWaitConnectMsg ∧
          connect ∈ p.connects then
        some (q.set c ((q.conns c).onConnectMsg t connect))
      else none
  | .handleConnectMsg c authorizer =>
      if c < q.created ∧ q.handlers c = .idle ∧
          (q.conns c).state = .acceptingWaitConnectMsgAuth then
        some (q.handleConnectMsg t c authorizer)
      else none
  | .refuse c =>
      match q.handlers c with
      | .verifying true authorizerReply =>
          some (q.replyAccept t c (q.conns c) .badAuthorizer 0 0 authorizerReply)
      | _ => none
  | .lookUp c =>
      match q.handlers c with
      | .verifying false authorizerReply =>
          some (q.lookupConn.2.setHandler c (.looked authorizerReply q.lookupConn.1))
      | _ => none
  | .decide c outSeq =>
      match q.handlers c with
      | .looked authorizerReply existing => q.decide t c outSeq authorizerReply existing
      | _ => none
  | .acceptConn c =>
      match q.handlers c with
      | .registering nextState reply =>
          some ((q.acceptConn c).2.setHandler c (.registered nextState reply (q.acceptConn c).1))
      | _ => none
  | .relock c sent =>
      match q.handlers c with
      | .registered nextState reply accepted => q.relock c sent nextState reply accepted
      | _ => none
  | .deactivate h =>
      if h ∈ q.handovers ∧ ¬ h.deactivated ∧ q.handlers h.existing = .idle then q.deactivate h
      else none
  | .transfer h =>
      if h ∈ q.handovers ∧ h.deactivated ∧ q.handlers h.existing = .idle then q.transfer h
      else none
  | _ => none

end Host

namespace Pair

variable [LinearOrder Addr] (s t : Setup Addr) (peerAddr : Addr)

/-- One of the two does something. -/
def step (w : Pair Addr) (a : Action Addr) : Option (Pair Addr) :=
  match w.peer.step s a with
  | some peer => some { w with peer := peer }
  | none => (w.host.step t peerAddr w.peer a).map fun host => { w with host := host }

/-- Nobody is connected yet. -/
structure Start (w : Pair Addr) : Prop where
  peer : w.peer.draws = [] ∧ w.peer.connects = [] ∧ w.peer.accepts = []
  host : w.host.registered = none ∧ w.host.created = 0 ∧ w.host.handovers = []
  idle : ∀ c, w.host.handlers c = .idle

/-- The counter of the peer does not wrap. -/
def Counts (w : Pair Addr) : Action Addr → Prop
  | .connecting _ | .accepts _ _ => w.peer.globalSeq.toNat + 1 < 2 ^ 32
  | .reply k _ =>
      (w.peer.conns k).connectReply.tag = .retryGlobal →
        w.peer.globalSeq.toNat + 1 < 2 ^ 32 ∧
          (w.peer.conns k).connectReply.globalSeq.toNat + 1 < 2 ^ 32
  | _ => True

instance (w : Pair Addr) (a : Action Addr) : Decidable (w.Counts a) := by
  unfold Counts
  split <;> infer_instance

end Pair

/-- The two messengers, from when nobody is connected. -/
def pairMachine [LinearOrder Addr] (s t : Setup Addr) (peerAddr : Addr) :
    Machine (Pair Addr) (Action Addr) where
  start := Pair.Start
  step := Pair.step s t peerAddr

end HwAsync.Connect
