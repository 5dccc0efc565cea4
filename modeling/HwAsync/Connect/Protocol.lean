/-
# The connect protocol

Two messengers agree on a session by exchanging `ceph_msg_connect` and
`ceph_msg_connect_reply`.  Each attempt carries a `global_seq`, drawn from a counter of its
messenger, and a `connect_seq`, which counts the attempts of the session.

The queues of the connection are those of an end of a session.  Authorizers are not part of
this code; they are collected in `Setup` with the configuration.
-/

import HwAsync.Connection.Endpoint

namespace HwAsync.Connect

open HwAsync.Lib
open HwAsync.Connection (Message Priority highest)

/-- `RC_State`. -/
inductive RCState
  | none
  | opened
  | openKeepalive2
  | openKeepalive2Ack
  | openTagAck
  | openMessageHeader
  | openMessageThrottleMessage
  | openMessageThrottleBytes
  | openMessageThrottleDispatchQueue
  | openMessageReadFront
  | openMessageReadMiddle
  | openMessageReadDataPrepare
  | openMessageReadData
  | openMessageReadFooterAndDispatch
  | openTagClose
  | waitSend
  | connecting
  | connectingRe
  | connectingWaitBannerAndIdentify
  | connectingSendConnectMsg
  | connectingWaitConnectReply
  | connectingWaitConnectReplyAuth
  | connectingWaitAckSeq
  | connectingReady
  | accepting
  | acceptingWaitBannerAddr
  | acceptingWaitConnectMsg
  | acceptingWaitConnectMsgAuth
  | acceptingWaitSeq
  | acceptingReady
  | standby
  | closed
  | wait
  deriving DecidableEq, Repr

/-- `WriteStatus`. -/
inductive WriteStatus
  | nowrite
  | replacing
  | canwrite
  | closed
  deriving DecidableEq, Repr

/-- The `CEPH_MSGR_TAG_*` of a reply.  `other` stands for every byte that no reply is made
with. -/
inductive ReplyTag
  | ready
  | resetSession
  | wait
  | retrySession
  | retryGlobal
  | badProtoVer
  | badAuthorizer
  | features
  | seq
  | other (tag : UInt8)
  deriving DecidableEq, Repr

/-- `ceph_msg_connect`. -/
structure ConnectMsg where
  features : UInt64
  hostType : UInt32
  globalSeq : UInt32
  connectSeq : UInt32
  protocolVersion : UInt32
  authorizerProtocol : UInt32
  authorizerLen : UInt32
  flags : UInt8
  deriving DecidableEq, Repr

/-- `ceph_msg_connect_reply`. -/
structure ConnectReply where
  tag : ReplyTag
  features : UInt64
  globalSeq : UInt32
  connectSeq : UInt32
  protocolVersion : UInt32
  authorizerLen : UInt32
  flags : UInt8
  deriving DecidableEq, Repr

/-- `CEPH_MSG_CONNECT_LOSSY`. -/
def connectLossy : UInt8 := 1

/-- The part of `Messenger::Policy` that the protocol reads. -/
structure Policy where
  lossy : Bool
  server : Bool
  standby : Bool
  resetcheck : Bool
  featuresSupported : UInt64
  featuresRequired : UInt64
  deriving DecidableEq, Repr

/-- An `AuthAuthorizer`. -/
structure Authorizer where
  protocol : UInt32
  bl : List UInt8
  deriving DecidableEq, Repr

/-- What a messenger brings along: its address and type, its configuration and the code for
authorizers. -/
structure Setup (Addr : Type) where
  myAddr : Addr
  myType : UInt32
  /-- `get_proto_version`, of a peer type and whether this side connects. -/
  getProtoVersion : UInt32 → Bool → UInt32
  getPolicy : UInt32 → Policy
  /-- `CEPH_AUTH_CEPHX`, and whether the type is that of an OSD or MDS. -/
  authCephx : UInt32
  isCluster : UInt32 → Bool
  cephxRequireSignatures : Bool
  cephxClusterRequireSignatures : Bool
  cephxServiceRequireSignatures : Bool
  /-- `CEPH_FEATURE_MSG_AUTH` and `CEPH_FEATURE_RECONNECT_SEQ`. -/
  featureMsgAuth : UInt64
  featureReconnectSeq : UInt64
  /-- `get_authorizer`, of a peer type and whether a new one is forced. -/
  getAuthorizer : UInt32 → Bool → Option Authorizer
  verifyReply : Authorizer → List UInt8 → Bool
  /-- Whether `verify_authorizer` accepts, and its reply. -/
  verifyAuthorizer : UInt32 → UInt32 → List UInt8 → Bool × List UInt8

/-- The policy of lossless peers without features. -/
def Policy.plain : Policy := ⟨false, false, true, true, 0, 0⟩

/-- A messenger without authorizers. -/
def Setup.plain : Setup ℕ where
  myAddr := 1
  myType := 4
  getProtoVersion _ _ := 0
  getPolicy _ := .plain
  authCephx := 2
  isCluster _ := true
  cephxRequireSignatures := false
  cephxClusterRequireSignatures := false
  cephxServiceRequireSignatures := false
  featureMsgAuth := 8388608
  featureReconnectSeq := 64
  getAuthorizer _ _ := none
  verifyReply _ _ := false
  verifyAuthorizer _ _ _ := (true, [])

/-- The part of an `RDMAReliableConnected` that takes part in the protocol. -/
structure Conn (Addr : Type) where
  state : RCState
  stateAfterSend : RCState
  policy : Policy
  peerAddr : Addr
  peerType : UInt32
  globalSeq : UInt32
  connectSeq : UInt32
  peerGlobalSeq : UInt32
  features : UInt64
  connectMsg : ConnectMsg
  connectReply : ConnectReply
  authorizer : Option Authorizer
  gotBadAuth : Bool
  replacing : Bool
  isResetFromPeer : Bool
  onceReady : Bool
  canWrite : WriteStatus
  socket : Option ℕ
  outQ : PrioQueue Priority Message
  sent : List Message
  outSeq : ℕ
  inSeq : ℕ
  ackLeft : ℕ

/-- `get_global_seq`: the counter behind a draw, which is also its result. -/
def getGlobalSeq (globalSeq old : UInt32) : UInt32 :=
  (if globalSeq < old then old else globalSeq) + 1

/-- A draw is above everything drawn before and above `old`, unless the counter wraps. -/
theorem lt_getGlobalSeq {globalSeq old : UInt32} (hseq : globalSeq.toNat + 1 < 2 ^ 32)
    (hold : old.toNat + 1 < 2 ^ 32) :
    globalSeq < getGlobalSeq globalSeq old ∧ old < getGlobalSeq globalSeq old := by
  unfold getGlobalSeq
  split
  · rename_i hlt
    have hnext : (old + 1).toNat = old.toNat + 1 := by
      rw [UInt32.toNat_add]
      exact Nat.mod_eq_of_lt hold
    simp only [UInt32.lt_iff_toNat_lt, hnext] at hlt ⊢
    omega
  · rename_i hle
    have hnext : (globalSeq + 1).toNat = globalSeq.toNat + 1 := by
      rw [UInt32.toNat_add]
      exact Nat.mod_eq_of_lt hseq
    simp only [UInt32.lt_iff_toNat_lt, hnext] at hle ⊢
    omega

namespace Conn

variable {Addr : Type}

/-- A connection as it is constructed, with the peer that it is connected to. -/
def create (peerAddr : Addr) (peerType : UInt32) (policy : Policy) : Conn Addr where
  state := .none
  stateAfterSend := .none
  policy := policy
  peerAddr := peerAddr
  peerType := peerType
  globalSeq := 0
  connectSeq := 0
  peerGlobalSeq := 0
  features := 0
  connectMsg := ⟨0, 0, 0, 0, 0, 0, 0, 0⟩
  connectReply := ⟨.other 0, 0, 0, 0, 0, 0, 0⟩
  authorizer := .none
  gotBadAuth := false
  replacing := false
  isResetFromPeer := false
  onceReady := false
  canWrite := .nowrite
  socket := .none
  outQ := .empty
  sent := []
  outSeq := 0
  inSeq := 0
  ackLeft := 0

/-- `was_session_reset`; `outSeq` is what `randomize_out_seq` draws. -/
def wasSessionReset (c : Conn Addr) (outSeq : ℕ) : Conn Addr :=
  { c with
    outQ := .empty
    sent := []
    outSeq := outSeq
    inSeq := 0
    connectSeq := 0
    ackLeft := 0
    onceReady := false
    canWrite := .nowrite }

/-- `discard_requeued_up_to`. -/
def discardRequeuedUpTo (c : Conn Addr) (seq : ℕ) : Conn Addr :=
  let r := Connection.Endpoint.discardLoop seq (c.outQ.get highest) c.outSeq
  { c with outQ := c.outQ.put highest r.1, outSeq := r.2 }

/-- `requeue_sent`. -/
def requeueSent (c : Conn Addr) : Conn Addr :=
  if c.sent = [] then c
  else
    let r := Connection.Endpoint.requeueLoop c.sent (c.outQ.get highest) c.outSeq
    { c with outQ := c.outQ.put highest r.1, sent := [], outSeq := r.2 }

end Conn

end HwAsync.Connect
