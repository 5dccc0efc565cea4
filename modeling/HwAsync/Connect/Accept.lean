/-
# The accepting side

`handle_connect_msg` compares a connect message with the connection that is registered for
the peer, and answers it, replaces that connection, or opens the session.  The decision is
written here as a function of its own, in the order of the source, apart from what is then
done.
-/

import HwAsync.Connect.Protocol

namespace HwAsync.Connect

open HwAsync.Lib

variable {Addr : Type}

/-- What `handle_connect_msg` decides once the authorizer is accepted: the tag of a reply
with its `connect_seq` and `global_seq`; to replace the existing connection, after a hard
reset of the peer or not, and with its session reset or not; to open the session; or a
failed assertion. -/
inductive Verdict
  | reply (tag : ReplyTag) (connectSeq globalSeq : UInt32)
  | replace (hardReset sessionReset : Bool)
  | opens
  | aborts
  deriving DecidableEq, Repr

/-- The policy for a peer of this type, with what cephx requires. -/
def Setup.signing (s : Setup Addr) (peerType protocol : UInt32) (policy : Policy) : Policy :=
  let required :=
    s.cephxRequireSignatures ||
      if s.isCluster peerType then s.cephxClusterRequireSignatures
      else s.cephxServiceRequireSignatures
  if protocol = s.authCephx ∧ required then
    { policy with featuresRequired := policy.featuresRequired ||| s.featureMsgAuth }
  else policy

/-- The checks in front of the decision: the connection with the features that it requires,
and the tag of a refusal or none, with the reply of `verify_authorizer`. -/
structure Checked (Addr : Type) where
  conn : Conn Addr
  refusal : Option ReplyTag
  authorizerReply : List UInt8

/-- What `open` leaves in front of `accept_conn`. -/
structure Opening (Addr : Type) where
  globalSeq : UInt32
  conn : Conn Addr
  reply : ConnectReply
  nextState : RCState

namespace Conn

/-- `STATE_ACCEPTING_WAIT_CONNECT_MSG` and the beginning of the state behind it. -/
def onConnectMsg (s : Setup Addr) (c : Conn Addr) (connect : ConnectMsg) : Conn Addr :=
  { c with
    connectMsg := connect
    state := .acceptingWaitConnectMsgAuth
    peerType := connect.hostType
    policy := s.getPolicy connect.hostType }

/-- The features that are required of a peer that uses cephx. -/
def requireSignatures (s : Setup Addr) (c : Conn Addr) : Conn Addr :=
  { c with policy := s.signing c.peerType c.connectMsg.authorizerProtocol c.policy }

/-- `handle_connect_msg` up to `lookup_conn`. -/
def check (s : Setup Addr) (authorizer : List UInt8) (c : Conn Addr) : Checked Addr :=
  let connect := c.connectMsg
  if connect.protocolVersion ≠ s.getProtoVersion c.peerType false then ⟨c, some .badProtoVer, []⟩
  else
    let c := c.requireSignatures s
    if c.policy.featuresRequired &&& ~~~connect.features ≠ 0 then ⟨c, some .features, []⟩
    else
      let verified := s.verifyAuthorizer c.peerType connect.authorizerProtocol authorizer
      if verified.1 then ⟨c, none, verified.2⟩ else ⟨c, some .badAuthorizer, verified.2⟩

variable [LinearOrder Addr]

/-- `handle_connect_msg` from `lookup_conn` on; `existing` is another connection to the peer. -/
def verdict (s : Setup Addr) (c : Conn Addr) (existing : Option (Conn Addr)) : Verdict :=
  let connect := c.connectMsg
  match existing with
  | some e =>
      if e.state = .closed then .opens
      else if e.replacing then .reply .retryGlobal 0 e.peerGlobalSeq
      else if connect.globalSeq < e.peerGlobalSeq then .reply .retryGlobal 0 e.peerGlobalSeq
      else if e.policy.lossy then .replace false true
      else if connect.connectSeq = 0 ∧ 0 < e.connectSeq then .replace true c.policy.resetcheck
      else if connect.connectSeq < e.connectSeq then .reply .retrySession (e.connectSeq + 1) 0
      else if connect.connectSeq = e.connectSeq then
        if e.state = .opened ∨ e.state = .standby then
          if c.policy.resetcheck ∧ e.connectSeq = 0 then .replace false false
          else .reply .retrySession (e.connectSeq + 1) 0
        else if c.peerAddr < s.myAddr ∨ e.policy.server then .replace false false
        else if s.myAddr < c.peerAddr then .reply .wait 0 0
        else .aborts
      else if connect.connectSeq ≤ e.connectSeq ∨ connect.globalSeq < e.peerGlobalSeq then .aborts
      else if c.policy.resetcheck ∧ e.connectSeq = 0 then .reply .resetSession 0 0
      else .replace false false
  | none => if ¬ c.replacing ∧ 0 < connect.connectSeq then .reply .resetSession 0 0 else .opens

/-- `_reply_accept`, of a connect message with the protocol version and the two numbers that the
reply has by then. -/
def replyAccept (c : Conn Addr) (connect : ConnectMsg) (tag : ReplyTag)
    (protocolVersion connectSeq globalSeq : UInt32) (authorizerReply : List UInt8) :
    Conn Addr × ConnectReply :=
  ({ c with state := .acceptingWaitConnectMsg },
    { tag := tag
      features := (connect.features &&& c.policy.featuresSupported) ||| c.policy.featuresRequired
      globalSeq := globalSeq
      connectSeq := connectSeq
      protocolVersion := protocolVersion
      authorizerLen := authorizerReply.length.toUInt32
      flags := 0 })

/-- `reset_recv_state`, without the throttlers. -/
def resetRecvState (c : Conn Addr) : Conn Addr :=
  if RCState.connectingSendConnectMsg.ctorIdx ≤ c.state.ctorIdx ∧
      c.state.ctorIdx ≤ RCState.connectingReady.ctorIdx then
    { c with authorizer := none, gotBadAuth := false }
  else c

/-- `_stop`; what it does to the messenger is left to the caller. -/
def stop (c : Conn Addr) : Conn Addr :=
  if c.state = .closed then c
  else { c.resetRecvState with outQ := .empty, sent := [], state := .closed, canWrite := .closed }

/-- The existing connection behind the label `replace`: it is closed if it is lossy and takes
over the socket otherwise. -/
def replaced (e : Conn Addr) (hardReset sessionReset : Bool) (outSeq : ℕ) : Conn Addr :=
  let e := if sessionReset then e.wasSessionReset outSeq else e
  if e.policy.lossy then e.stop
  else
    { e.resetRecvState with
      isResetFromPeer := e.isResetFromPeer || hardReset
      canWrite := .replacing
      replacing := true
      state := .none }

/-- `deactivate_existing`, with the socket that is handed over; none if the assertion fails. -/
def deactivate (e : Conn Addr) (socket : Option ℕ) : Option (Conn Addr) :=
  let e := e.requeueSent
  if e.state = .none then some { e with socket := socket }
  else if e.state = .closed then some e
  else none

/-- `transfer_existing` of a connection that was not closed meanwhile; none if the assertion
fails. -/
def transfer (e : Conn Addr) (connect : ConnectMsg) (protocolVersion : UInt32)
    (authorizerReply : List UInt8) : Option (Conn Addr × ConnectReply) :=
  if e.state = .none then
    some (e.replyAccept connect .retryGlobal protocolVersion 0 e.peerGlobalSeq authorizerReply)
  else none

/-- From the label `open` to `accept_conn`, with the counter of the messenger. -/
def openSession (s : Setup Addr) (globalSeq : UInt32) (authorizerReply : List UInt8)
    (c : Conn Addr) : Opening Addr :=
  let connect := c.connectMsg
  let c :=
    { c with connectSeq := connect.connectSeq + 1, peerGlobalSeq := connect.globalSeq }
  let exchange := connect.features &&& s.featureReconnectSeq ≠ 0 ∧ ¬ c.isResetFromPeer
  let c :=
    if exchange then c
    else { c.discardRequeuedUpTo 0 with isResetFromPeer := false, inSeq := 0 }
  let drawn := getGlobalSeq globalSeq 0
  let reply : ConnectReply :=
    { tag := if exchange then .seq else .ready
      features := c.policy.featuresSupported
      globalSeq := drawn
      connectSeq := c.connectSeq
      protocolVersion := s.getProtoVersion c.peerType false
      authorizerLen := authorizerReply.length.toUInt32
      flags := if c.policy.lossy then connectLossy else 0 }
  { globalSeq := drawn
    conn := { c with features := reply.features &&& connect.features }
    reply := reply
    nextState := if exchange then .acceptingWaitSeq else .acceptingReady }

/-- `handle_connect_msg` behind `accept_conn`, if the reply can be sent at once. -/
def accepted (c : Conn Addr) (nextState : RCState) : Conn Addr :=
  { c with replacing := false, onceReady := true, state := nextState }

end Conn

end HwAsync.Connect
