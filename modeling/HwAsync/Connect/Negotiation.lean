/-
# Negotiation

A connector sends connect messages until a reply opens the session or tells it to wait.
Each reply takes back one reason for which the acceptor did not open it: a `global_seq` or
`connect_seq` that was too low, a session that the acceptor has lost, or a connection that
had to be replaced first.  Between honest peers none of them comes back, so four rounds are
enough, and no assertion of either side fails.
-/

import HwAsync.Connect.Reply
import HwAsync.Connect.Accept

namespace HwAsync.Connect

open HwAsync.Lib

variable {Addr : Type}

/-! ## Rounds -/

/-- What `conns` has under the address of the connector: nothing, the connection that the
connect messages arrive on, or another one. -/
inductive Registered (Addr : Type)
  | none
  | self
  | other (e : Conn Addr)

namespace Registered

/-- `lookup_conn`: a connection that was closed is in `deleted_conns`, and is dropped. -/
def lookup : Registered Addr → Registered Addr
  | .other e => if e.state = .closed then .none else .other e
  | r => r

/-- The connection that `handle_connect_msg` finds, other than its own. -/
def existing : Registered Addr → Option (Conn Addr)
  | .other e => some e
  | _ => Option.none

/-- `accept_conn`: whether the connection of the connect messages is registered. -/
def accept (r : Registered Addr) : Bool :=
  match r.lookup with
  | .other _ => false
  | _ => true

end Registered

/-- The connector, and what the acceptor has for it: the counter of its messenger, the registered
connection and the one that the connect messages arrive on. -/
structure Negotiation (Addr : Type) where
  connector : Party Addr
  globalSeq : UInt32
  registered : Registered Addr
  conn : Conn Addr

/-- What a round comes to: another connect message, an end with the tag of the last reply, `fault`
on one of the sides, or a failed assertion. -/
inductive Progress (Addr : Type)
  | again (n : Negotiation Addr)
  | settled (tag : ReplyTag) (n : Negotiation Addr)
  | fails
  | aborts

/-- What the acceptor sends: its reply, with an authorizer. -/
structure Answer (Addr : Type) where
  reply : ConnectReply
  authorizerReply : List UInt8
  registered : Registered Addr
  globalSeq : UInt32
  conn : Conn Addr

/-- What a connect message comes to on the accepting side. -/
inductive Answered (Addr : Type)
  | answers (a : Answer Addr)
  | fails
  | aborts

namespace Negotiation

variable [LinearOrder Addr] (s t : Setup Addr)

/-- The label `open`, and `accept_conn`. -/
def openSession (n : Negotiation Addr) (c : Conn Addr) (registered : Registered Addr)
    (authorizerReply : List UInt8) : Answered Addr :=
  let opening := c.openSession t n.globalSeq authorizerReply
  if registered.accept then
    .answers
      { reply := opening.reply
        authorizerReply := authorizerReply
        registered := .self
        globalSeq := opening.globalSeq
        conn := opening.conn.accepted opening.nextState }
  else .fails

/-- The label `replace`, with what is run in the thread of the existing connection. -/
def replace (n : Negotiation Addr) (c e : Conn Addr) (hardReset sessionReset : Bool)
    (outSeq : ℕ) (authorizerReply : List UInt8) : Answered Addr :=
  let e' := e.replaced hardReset sessionReset outSeq
  if e.policy.lossy then n.openSession t c (.other e') authorizerReply
  else if c.canWrite ≠ .nowrite then .aborts
  else
    match e'.deactivate c.socket with
    | none => .aborts
    | some e' =>
        match e'.transfer c.connectMsg (t.getProtoVersion c.peerType false) authorizerReply with
        | none => .aborts
        | some (e', reply) =>
            .answers
              { reply := reply
                authorizerReply := authorizerReply
                registered := .self
                globalSeq := n.globalSeq
                conn := e' }

/-- The accepting side handles a connect message. -/
def answer (outSeq : ℕ) (connect : ConnectMsg) (authorizer : List UInt8) (n : Negotiation Addr) :
    Answered Addr :=
  let checked := (n.conn.onConnectMsg t connect).check t authorizer
  let c := checked.conn
  let replies (r : Conn Addr × ConnectReply) (registered : Registered Addr) : Answered Addr :=
    .answers
      { reply := r.2
        authorizerReply := checked.authorizerReply
        registered := registered
        globalSeq := n.globalSeq
        conn := r.1 }
  let version := t.getProtoVersion c.peerType false
  match checked.refusal with
  | some tag => replies (c.replyAccept connect tag version 0 0 checked.authorizerReply) n.registered
  | none =>
      let registered := n.registered.lookup
      match c.verdict t registered.existing with
      | .reply tag connectSeq globalSeq =>
          replies (c.replyAccept connect tag version connectSeq globalSeq checked.authorizerReply)
            registered
      | .replace hardReset sessionReset =>
          match registered.existing with
          | some e => n.replace t c e hardReset sessionReset outSeq checked.authorizerReply
          | none => .aborts
      | .opens => n.openSession t c registered checked.authorizerReply
      | .aborts => .aborts

/-- What the end of an iteration means for the negotiation.  A connector that is told to exchange
numbers gets the `in_seq` of the acceptor, and both ways go on to the end of
`STATE_CONNECTING_READY`. -/
def conclude (a : Answer Addr) (out : Outcome Addr) : Progress Addr :=
  let opened (q : Party Addr) : Progress Addr :=
    match q.connectingReady with
    | .goes q => .settled a.reply.tag ⟨q, a.globalSeq, a.registered, a.conn⟩
    | .aborts => .aborts
    | _ => .fails
  match out with
  | .goes q =>
      match q.conn.state with
      | .connectingReady => opened q
      | .connectingWaitAckSeq =>
          match q.waitAckSeq (.complete a.conn.inSeq) .all with
          | .goes q => opened q
          | _ => .fails
      | .wait => .settled a.reply.tag ⟨q, a.globalSeq, a.registered, a.conn⟩
      | _ => .again ⟨q, a.globalSeq, a.registered, a.conn⟩
  | .aborts => .aborts
  | _ => .fails

/-- The connecting side handles the reply. -/
def settle (outSeq : ℕ) (p : Party Addr) (a : Answer Addr) : Progress Addr :=
  let read (k : ℕ) : Read (Vector UInt8 k) :=
    if h : a.authorizerReply.length = k then .complete ⟨a.authorizerReply.toArray, h⟩ else .failed
  let awaiting : Party Addr :=
    { p with conn := { p.conn with
      connectReply := a.reply, state := .connectingWaitConnectReplyAuth } }
  conclude a (awaiting.waitConnectReplyAuth s outSeq read)

/-- One connect message and its reply; `outSeq` and `outSeq'` are what `randomize_out_seq` draws on
the two sides. -/
def round (outSeq outSeq' : ℕ) (n : Negotiation Addr) : Progress Addr :=
  let p := n.connector.sendConnectMsg s
  match n.answer t outSeq' p.conn.connectMsg (authorizerBytes p.conn.authorizer) with
  | .answers a => settle s outSeq p a
  | .fails => .fails
  | .aborts => .aborts

/-- Rounds until one does not ask for another. -/
def rounds : List (ℕ × ℕ) → Negotiation Addr → Progress Addr
  | [], n => .again n
  | (outSeq, outSeq') :: draws, n =>
      match n.round s t outSeq outSeq' with
      | .again n' => rounds draws n'
      | out => out

end Negotiation

/-! ## Honest peers -/

section

variable (s t : Setup Addr)

/-- The policy of the acceptor for a connection that connects. -/
def acceptorPolicy (c : Conn Addr) : Policy :=
  t.signing s.myType (authorizerProtocol (c.presented s)) (t.getPolicy s.myType)

/-- What the acceptor makes of the authorizer of a connection that connects. -/
def verified (c : Conn Addr) : Bool × List UInt8 :=
  t.verifyAuthorizer s.myType (authorizerProtocol (c.presented s))
    (authorizerBytes (c.presented s))

/-- The features of a reply under this policy, other than the last, are enough for the connector. -/
def Replies (c : Conn Addr) (policy : Policy) : Prop :=
  c.policy.featuresRequired &&&
    ~~~((c.policy.featuresSupported &&& policy.featuresSupported) ||| policy.featuresRequired) = 0

/-- Protocol version, features and authorizer are acceptable on both sides. -/
structure Compatible (c : Conn Addr) : Prop where
  version : s.getProtoVersion c.peerType true = t.getProtoVersion s.myType false
  required : (acceptorPolicy s t c).featuresRequired &&& ~~~c.policy.featuresSupported = 0
  replies : Replies c (acceptorPolicy s t c)
  opened : c.policy.featuresRequired &&& ~~~(acceptorPolicy s t c).featuresSupported = 0
  authorizer : (verified s t c).1 = true
  authorizerReply : (verified s t c).2.length < 4096 ∧
    ∀ a, c.presented s = some a → s.verifyReply a (verified s t c).2 = true

/-- At most one other connection is registered, and nobody is replacing it.  No counter is within
8 of its maximum. -/
structure Quiescent [LinearOrder Addr] (n : Negotiation Addr) : Prop where
  sending : n.connector.conn.state = .connectingSendConnectMsg
  compatible : Compatible s t n.connector.conn
  counters : n.connector.globalSeq.toNat + 8 < 2 ^ 32 ∧
    n.connector.conn.globalSeq.toNat + 8 < 2 ^ 32 ∧ n.connector.conn.connectSeq.toNat + 8 < 2 ^ 32
  distinct : n.conn.peerAddr ≠ t.myAddr
  fresh : n.conn.replacing = false ∧ n.conn.canWrite = .nowrite
  registered : n.registered ≠ .self
  existing : ∀ e, n.registered = .other e → e.replacing = false ∧
    e.connectSeq.toNat + 8 < 2 ^ 32 ∧ e.peerGlobalSeq.toNat + 8 < 2 ^ 32 ∧
      Replies n.connector.conn e.policy

end

/-! ## One round -/

section

variable {s t : Setup Addr} {outSeq outSeq' : ℕ}

/-- What the acceptor knows of the connector stays. -/
structure SameConnector (c c' : Conn Addr) : Prop where
  policy : c'.policy = c.policy
  peerType : c'.peerType = c.peerType
  presented : ∀ s : Setup Addr, c'.presented s = c.presented s

theorem SameConnector.compatible {c c' : Conn Addr} (h : SameConnector c c')
    (hcompatible : Compatible s t c) : Compatible s t c' := by
  have hpolicy : acceptorPolicy s t c' = acceptorPolicy s t c := by
    rw [acceptorPolicy, acceptorPolicy, h.presented]
  have hverified : verified s t c' = verified s t c := by
    rw [verified, verified, h.presented]
  constructor
  · rw [h.peerType]
    exact hcompatible.version
  · rw [hpolicy, h.policy]
    exact hcompatible.required
  · rw [hpolicy, Replies, h.policy]
    exact hcompatible.replies
  · rw [hpolicy, h.policy]
    exact hcompatible.opened
  · rw [hverified]
    exact hcompatible.authorizer
  · rw [hverified, h.presented]
    exact hcompatible.authorizerReply

/-- The checks of an acceptor that has no reason to refuse the connect message. -/
theorem check_of_accepts {c : Conn Addr} {authorizer : List UInt8}
    (hversion : c.connectMsg.protocolVersion = t.getProtoVersion c.peerType false)
    (hrequired : (c.requireSignatures t).policy.featuresRequired &&& ~~~c.connectMsg.features = 0)
    (hverified :
      (t.verifyAuthorizer c.peerType c.connectMsg.authorizerProtocol authorizer).1 = true) :
    c.check t authorizer =
      ⟨c.requireSignatures t, none,
        (t.verifyAuthorizer c.peerType c.connectMsg.authorizerProtocol authorizer).2⟩ := by
  simp only [Conn.check]
  rw [if_neg (not_not.mpr hversion), if_neg (not_not.mpr hrequired)]
  exact if_pos hverified

variable {n : Negotiation Addr}

/-- The connect message of a connection. -/
abbrev connectMsg (s : Setup Addr) (p : Party Addr) : ConnectMsg :=
  (p.sendConnectMsg s).conn.connectMsg

/-- The connection of the acceptor in front of its decision. -/
abbrev judging (s t : Setup Addr) (n : Negotiation Addr) : Conn Addr :=
  (n.conn.onConnectMsg t (connectMsg s n.connector)).requireSignatures t

theorem check_accepts (h : Compatible s t n.connector.conn) :
    (n.conn.onConnectMsg t (connectMsg s n.connector)).check t
        (authorizerBytes (n.connector.conn.presented s)) =
      ⟨judging s t n, none, (verified s t n.connector.conn).2⟩ :=
  check_of_accepts h.version h.required h.authorizer

/-- The connector in front of a reply. -/
abbrev awaiting (s : Setup Addr) (p : Party Addr) (reply : ConnectReply) : Party Addr :=
  let p := p.sendConnectMsg s
  { p with conn := { p.conn with
    connectReply := reply, state := .connectingWaitConnectReplyAuth } }

/-- A reply whose authorizer is accepted is handled. -/
theorem waitConnectReplyAuth_of_accepted {q : Party Addr} {bytes : List UInt8}
    (hlen : q.conn.connectReply.authorizerLen.toNat = bytes.length) (hshort : bytes.length < 4096)
    (hverifies : ∀ a, q.conn.authorizer = some a → s.verifyReply a bytes = true) :
    q.waitConnectReplyAuth s outSeq (fun k =>
      if h : bytes.length = k then .complete ⟨bytes.toArray, h⟩ else .failed) =
      q.handled s outSeq := by
  simp only [Party.waitConnectReplyAuth, hlen]
  by_cases hzero : bytes.length = 0
  · rw [if_neg (not_not.mpr hzero)]
  · rw [if_pos hzero, if_neg (Nat.not_le.mpr hshort), dif_pos trivial]
    cases hauthorizer : q.conn.authorizer with
    | none => rfl
    | some a => simp only [Vector.toList_mk, hverifies a hauthorizer, if_true]

/-- An authorizer that is acceptable is accepted. -/
theorem settle_eq {a : Answer Addr} (h : Compatible s t n.connector.conn)
    (hreply : a.authorizerReply = (verified s t n.connector.conn).2)
    (hlen : a.reply.authorizerLen = a.authorizerReply.length.toUInt32) :
    Negotiation.settle s outSeq (n.connector.sendConnectMsg s) a =
      Negotiation.conclude a ((awaiting s n.connector a.reply).handled s outSeq) := by
  obtain ⟨hshort, hverifies⟩ := h.authorizerReply
  rw [← hreply] at hshort hverifies
  have hnat : a.reply.authorizerLen.toNat = a.authorizerReply.length := by
    rw [hlen]
    exact UInt32.toNat_ofNat_of_lt' (hshort.trans (by decide))
  exact congrArg (Negotiation.conclude a)
    (waitConnectReplyAuth_of_accepted (q := awaiting s n.connector a.reply) hnat hshort hverifies)

/-- A reply after which another connect message is sent. -/
theorem conclude_again {p q : Party Addr} {a : Answer Addr}
    (htag : p.onReplyTag s outSeq = .goes q) (hstate : q.conn.state = .connectingSendConnectMsg)
    (hfeatures : q.featMissing q.conn.connectReply = 0)
    (hseq : q.conn.connectReply.tag ≠ .seq) (hready : q.conn.connectReply.tag ≠ .ready) :
    Negotiation.conclude a (p.handled s outSeq) =
      .again ⟨q, a.globalSeq, a.registered, a.conn⟩ := by
  simp [Party.handled, Party.handleConnectReply, htag, hfeatures, hseq, hready, hstate,
    Negotiation.conclude]

/-- A reply that tells the connector to wait. -/
theorem conclude_wait {p : Party Addr} (outSeq : ℕ) (a : Answer Addr)
    (htag : p.conn.connectReply.tag = .wait)
    (hfeatures : p.featMissing p.conn.connectReply = 0) :
    ∃ n, Negotiation.conclude a (p.handled s outSeq) = .settled a.reply.tag n := by
  have hfeatures' : ({ p with conn := { p.conn with state := .wait } } : Party Addr).featMissing
      p.conn.connectReply = 0 := hfeatures
  refine ⟨⟨{ p with conn := { p.conn with state := .wait } }, a.globalSeq, a.registered,
    a.conn⟩, ?_⟩
  simp [Party.handled, Party.handleConnectReply, Party.onReplyTag, htag, hfeatures',
    Negotiation.conclude]

/-- A reply that opens the session, with the number that the connector is about to count. -/
theorem conclude_open {p : Party Addr} (outSeq : ℕ) (a : Answer Addr)
    (htag : p.conn.connectReply.tag = .seq ∨ p.conn.connectReply.tag = .ready)
    (hfeatures : p.featMissing p.conn.connectReply = 0)
    (hseq : p.conn.connectSeq + 1 = p.conn.connectReply.connectSeq) :
    ∃ n, Negotiation.conclude a (p.handled s outSeq) = .settled a.reply.tag n := by
  rcases htag with htag | htag
  · simp [Party.handled, Party.handleConnectReply, Party.onReplyTag, htag, hfeatures,
      Negotiation.conclude, Party.waitAckSeq, Party.connectingReady, Conn.discardRequeuedUpTo, hseq]
  · simp [Party.handled, Party.handleConnectReply, Party.onReplyTag, htag, hfeatures,
      Negotiation.conclude, Party.connectingReady, hseq]

/-! ### The decision about a registered connection -/

/-- The `connect_seq` is answered with `RETRY_SESSION` or `RESETSESSION`. -/
def Misfit (e : Conn Addr) (resetcheck : Bool) (connectSeq : UInt32) : Prop :=
  connectSeq ≠ 0 ∧ connectSeq < e.connectSeq ∨
    connectSeq = e.connectSeq ∧ ¬ (resetcheck ∧ e.connectSeq = 0) ∨
      e.connectSeq < connectSeq ∧ resetcheck ∧ e.connectSeq = 0

instance (e : Conn Addr) (resetcheck : Bool) (connectSeq : UInt32) :
    Decidable (Misfit e resetcheck connectSeq) :=
  inferInstanceAs (Decidable (_ ∨ _ ∨ _))

theorem lt_next {x : UInt32} (h : x.toNat + 1 < 2 ^ 32) : x < x + 1 := by
  have hlt := (lt_getGlobalSeq h h).2
  simpa [getGlobalSeq] using hlt

/-- `RETRY_SESSION` asks for a `connect_seq` that fits. -/
theorem not_misfit_next {e : Conn Addr} {resetcheck : Bool}
    (hseq : e.connectSeq.toNat + 1 < 2 ^ 32) (hkept : ¬ (resetcheck ∧ e.connectSeq = 0)) :
    ¬ Misfit e resetcheck (e.connectSeq + 1) := by
  have hlt := lt_next hseq
  rintro (⟨_, hbelow⟩ | ⟨hequal, _⟩ | ⟨_, hreset⟩)
  · exact absurd hlt (UInt32.not_lt.mpr (UInt32.le_of_lt hbelow))
  · exact absurd hequal (UInt32.ne_of_lt hlt).symm
  · exact hkept hreset

/-- So does `RESETSESSION`, which is about a session that the acceptor has lost. -/
theorem not_misfit_zero {e : Conn Addr} {resetcheck : Bool}
    (hreset : resetcheck ∧ e.connectSeq = 0) : ¬ Misfit e resetcheck 0 := by
  rintro (⟨hzero, _⟩ | ⟨_, hkept⟩ | ⟨hpos, _⟩)
  · exact hzero rfl
  · exact hkept hreset
  · exact absurd hpos (by simp [hreset.2])

/-- The reply to the connect message of a round. -/
abbrev replied (s t : Setup Addr) (n : Negotiation Addr) (tag : ReplyTag)
    (connectSeq globalSeq : UInt32) : Conn Addr × ConnectReply :=
  let c := judging s t n
  c.replyAccept (connectMsg s n.connector) tag (t.getProtoVersion c.peerType false) connectSeq
    globalSeq (verified s t n.connector.conn).2

/-- The reply has the features that the connector requires. -/
theorem featMissing_replied (h : Compatible s t n.connector.conn) {q : Party Addr} {tag : ReplyTag}
    {connectSeq globalSeq : UInt32} (hpolicy : q.conn.policy = n.connector.conn.policy) :
    q.featMissing (replied s t n tag connectSeq globalSeq).2 = 0 := by
  rw [Party.featMissing, hpolicy]
  exact h.replies

/-- The reply of an acceptor that opens the session. -/
theorem openSession_reply (c : Conn Addr) (globalSeq : UInt32) (authorizerReply : List UInt8) :
    let reply := (c.openSession t globalSeq authorizerReply).reply
    (reply.tag = .seq ∨ reply.tag = .ready) ∧ reply.features = c.policy.featuresSupported ∧
      reply.connectSeq = c.connectMsg.connectSeq + 1 ∧
        reply.authorizerLen = authorizerReply.length.toUInt32 := by
  dsimp only [Conn.openSession]
  split_ifs
  · exact ⟨.inl rfl, rfl, rfl, rfl⟩
  · exact ⟨.inr rfl, rfl, rfl, rfl⟩

theorem stop_state (c : Conn Addr) : c.stop.state = .closed := by
  rw [Conn.stop]
  split_ifs with hclosed
  · exact hclosed
  · rfl

/-- A lossy connection is closed. -/
theorem replaced_of_lossy {e : Conn Addr} {hardReset sessionReset : Bool} (h : e.policy.lossy) :
    (e.replaced hardReset sessionReset outSeq).state = .closed := by
  cases sessionReset with
  | true =>
      simp only [Conn.replaced, if_true, Conn.wasSessionReset, h]
      exact stop_state _
  | false =>
      simp only [Conn.replaced, Bool.false_eq_true, if_false, h, if_true]
      exact stop_state _

/-- What the hand-over keeps of a connection. -/
structure HandsOver (e e' : Conn Addr) : Prop where
  state : e'.state = .none
  replacing : e'.replacing = true
  policy : e'.policy = e.policy

theorem resetRecvState_policy (c : Conn Addr) : c.resetRecvState.policy = c.policy := by
  rw [Conn.resetRecvState]
  split_ifs <;> rfl

theorem replaced_of_lossless {e : Conn Addr} (hardReset sessionReset : Bool) (outSeq : ℕ)
    (h : e.policy.lossy = false) :
    HandsOver e (e.replaced hardReset sessionReset outSeq) := by
  cases sessionReset with
  | true =>
      simp only [Conn.replaced, if_true, Conn.wasSessionReset, h, Bool.false_eq_true, if_false]
      exact ⟨rfl, rfl, resetRecvState_policy _⟩
  | false =>
      simp only [Conn.replaced, h, Bool.false_eq_true, if_false]
      exact ⟨rfl, rfl, resetRecvState_policy _⟩

/-- The two functions that run in the thread of the replaced connection fail no assertion. -/
theorem HandsOver.transfers {e e' : Conn Addr} (h : HandsOver e e') (socket : Option ℕ)
    (connect : ConnectMsg) (version : UInt32) (authorizerReply : List UInt8) :
    ∃ e₁ r, e'.deactivate socket = some e₁ ∧
      e₁.transfer connect version authorizerReply = some r ∧ r.1.replacing = true ∧
        r.2.tag = .retryGlobal ∧ r.2.authorizerLen = authorizerReply.length.toUInt32 ∧
          r.2.features =
            (connect.features &&& e.policy.featuresSupported) ||| e.policy.featuresRequired := by
  obtain ⟨hstate, hreplacing, hpolicy⟩ := h
  rw [← hpolicy]
  simp only [Conn.deactivate, Conn.requeueSent]
  split_ifs with hsent
  · simp only [hstate, Conn.transfer]
    exact ⟨_, _, rfl, rfl, hreplacing, rfl, rfl, rfl⟩
  · simp only [hstate, Conn.transfer]
    exact ⟨_, _, rfl, rfl, hreplacing, rfl, rfl, rfl⟩

/-- A connector presents the authorizer that it has sent. -/
theorem sameConnector_of_sent {c c' : Conn Addr} (hpolicy : c'.policy = c.policy)
    (hpeerType : c'.peerType = c.peerType) (hbad : c'.gotBadAuth = c.gotBadAuth)
    (hauthorizer : c'.authorizer = c.presented s) : SameConnector c c' := by
  refine ⟨hpolicy, hpeerType, fun s' => ?_⟩
  simp only [Conn.presented] at hauthorizer
  simp only [Conn.presented, hbad, hpeerType, hauthorizer]
  split_ifs <;> rfl

theorem judging_resetcheck :
    (judging s t n).policy.resetcheck = (t.getPolicy s.myType).resetcheck := by
  dsimp only [judging, Conn.requireSignatures, Setup.signing]
  split_ifs <;> rfl

/-! ### The measure -/

/-- Rounds that are left at most: one that opens, one for a connection to be replaced and one for
each number that does not fit. -/
def budget (s t : Setup Addr) (n : Negotiation Addr) : ℕ :=
  match n.registered.lookup with
  | .self => 1
  | .none => 1 + if n.connector.conn.connectSeq = 0 then 0 else 1
  | .other e =>
      2 + (if n.connector.conn.globalSeq < e.peerGlobalSeq then 1 else 0) +
        if Misfit e (t.getPolicy s.myType).resetcheck n.connector.conn.connectSeq then 1 else 0

/-- What holds of the registered connection as long as rounds go on.  A replaced connection is the
one that the connect messages arrive on by then. -/
def Faces (t : Setup Addr) (n : Negotiation Addr) : Registered Addr → Prop
  | .self => n.conn.replacing = true
  | .none => n.conn.replacing = false
  | .other e =>
      n.conn.canWrite = .nowrite ∧ n.conn.peerAddr ≠ t.myAddr ∧ e.state ≠ .closed ∧
        e.replacing = false ∧ Replies n.connector.conn e.policy ∧
          e.connectSeq.toNat + 1 < 2 ^ 32 ∧ e.peerGlobalSeq.toNat + 1 < 2 ^ 32 ∧
            (n.connector.conn.globalSeq < e.peerGlobalSeq →
              n.connector.globalSeq.toNat + 1 < 2 ^ 32)

/-- What holds in front of a round. -/
structure Sound (s t : Setup Addr) (n : Negotiation Addr) : Prop where
  sending : n.connector.conn.state = .connectingSendConnectMsg
  compatible : Compatible s t n.connector.conn
  faces : Faces t n n.registered.lookup

theorem budget_of_none (h : n.registered.lookup = .none) :
    budget s t n = 1 + if n.connector.conn.connectSeq = 0 then 0 else 1 := by
  rw [budget, h]

theorem budget_of_self (h : n.registered.lookup = .self) : budget s t n = 1 := by
  rw [budget, h]

theorem budget_of_other {e : Conn Addr} (h : n.registered.lookup = .other e) :
    budget s t n =
      2 + (if n.connector.conn.globalSeq < e.peerGlobalSeq then 1 else 0) +
        if Misfit e (t.getPolicy s.myType).resetcheck n.connector.conn.connectSeq then 1
        else 0 := by
  rw [budget, h]

theorem Registered.lookup_lookup (r : Registered Addr) : r.lookup.lookup = r.lookup := by
  cases r with
  | none => rfl
  | self => rfl
  | other e =>
      by_cases hclosed : e.state = .closed <;> simp [Registered.lookup, hclosed]

theorem Registered.lookup_eq_other {r : Registered Addr} {e : Conn Addr}
    (h : r.lookup = .other e) : r = .other e ∧ e.state ≠ .closed := by
  cases r with
  | none => cases h
  | self => cases h
  | other e' =>
      simp only [Registered.lookup] at h
      split at h
      · cases h
      · rename_i hopen
        cases h
        exact ⟨rfl, hopen⟩

theorem Registered.lookup_eq_self {r : Registered Addr} (h : r.lookup = .self) : r = .self := by
  cases r with
  | none => cases h
  | self => rfl
  | other e =>
      simp only [Registered.lookup] at h
      split at h <;> cases h

theorem Quiescent.sound [LinearOrder Addr] (h : Quiescent s t n) : Sound s t n := by
  refine ⟨h.sending, h.compatible, ?_⟩
  cases hlookup : n.registered.lookup with
  | none => exact h.fresh.1
  | self => exact absurd (Registered.lookup_eq_self hlookup) h.registered
  | other e =>
      obtain ⟨hregistered, hopen⟩ := Registered.lookup_eq_other hlookup
      obtain ⟨hreplacing, hseq, hglobal, hreplies⟩ := h.existing e hregistered
      have hcounter := h.counters.1
      exact ⟨h.fresh.2, h.distinct, hopen, hreplacing, hreplies, by omega, by omega,
        fun _ => by omega⟩

theorem budget_pos (s t : Setup Addr) (n : Negotiation Addr) : 0 < budget s t n := by
  simp only [budget]
  cases n.registered.lookup with
  | none => dsimp only; omega
  | self => dsimp only; omega
  | other e => dsimp only; omega

/-- Four rounds are enough at the beginning. -/
theorem budget_le (s t : Setup Addr) (n : Negotiation Addr) : budget s t n ≤ 4 := by
  simp only [budget]
  cases n.registered.lookup with
  | none => dsimp only; split_ifs <;> omega
  | self => dsimp only; omega
  | other e => dsimp only; split_ifs <;> omega

variable [LinearOrder Addr]

/-- The answer of an acceptor that has no reason to refuse the connect message. -/
theorem answer_eq (outSeq' : ℕ) (h : Compatible s t n.connector.conn) :
    let c := judging s t n
    let authorizerReply := (verified s t n.connector.conn).2
    n.answer t outSeq' (connectMsg s n.connector)
        (authorizerBytes (n.connector.conn.presented s)) =
      match c.verdict t n.registered.lookup.existing with
      | .reply tag connectSeq globalSeq =>
          let r := c.replyAccept (connectMsg s n.connector) tag (t.getProtoVersion c.peerType false)
            connectSeq globalSeq authorizerReply
          .answers ⟨r.2, authorizerReply, n.registered.lookup, n.globalSeq, r.1⟩
      | .replace hardReset sessionReset =>
          match n.registered.lookup.existing with
          | some e => n.replace t c e hardReset sessionReset outSeq' authorizerReply
          | none => .aborts
      | .opens => n.openSession t c n.registered.lookup authorizerReply
      | .aborts => .aborts := by
  simp only [Negotiation.answer, check_accepts h]

/-- The decisions about a registered connection that nobody is replacing. -/
inductive Judged (e c : Conn Addr) : Verdict → Prop
  | retryGlobal (hbelow : c.connectMsg.globalSeq < e.peerGlobalSeq) :
      Judged e c (.reply .retryGlobal 0 e.peerGlobalSeq)
  | retrySession (hmisfit : Misfit e c.policy.resetcheck c.connectMsg.connectSeq)
      (hle : c.connectMsg.connectSeq ≤ e.connectSeq)
      (hkept : ¬ (c.policy.resetcheck ∧ e.connectSeq = 0)) :
      Judged e c (.reply .retrySession (e.connectSeq + 1) 0)
  | resetSession (hmisfit : Misfit e c.policy.resetcheck c.connectMsg.connectSeq)
      (hreset : c.policy.resetcheck ∧ e.connectSeq = 0) :
      Judged e c (.reply .resetSession 0 0)
  | wait : Judged e c (.reply .wait 0 0)
  | replace (hardReset sessionReset : Bool) : Judged e c (.replace hardReset sessionReset)

/-- Past the comparison of the addresses one of the two is smaller, and the two assertions only
repeat what was decided before them. -/
theorem verdict_judged {e c : Conn Addr} (hopen : e.state ≠ .closed)
    (hreplacing : e.replacing = false) (hdistinct : c.peerAddr ≠ t.myAddr) :
    Judged e c (c.verdict t (some e)) := by
  simp only [Conn.verdict, if_neg hopen, hreplacing, Bool.false_eq_true, if_false]
  by_cases hglobal : c.connectMsg.globalSeq < e.peerGlobalSeq
  · rw [if_pos hglobal]
    exact .retryGlobal hglobal
  rw [if_neg hglobal]
  by_cases hlossy : e.policy.lossy
  · rw [if_pos hlossy]
    exact .replace _ _
  rw [if_neg hlossy]
  by_cases hhard : c.connectMsg.connectSeq = 0 ∧ 0 < e.connectSeq
  · rw [if_pos hhard]
    exact .replace _ _
  rw [if_neg hhard]
  by_cases hlt : c.connectMsg.connectSeq < e.connectSeq
  · rw [if_pos hlt]
    have hpos : 0 < e.connectSeq := UInt32.lt_of_le_of_lt UInt32.zero_le hlt
    apply Judged.retrySession
    · exact .inl ⟨fun hzero => hhard ⟨hzero, hpos⟩, hlt⟩
    · exact UInt32.le_of_lt hlt
    · exact fun hreset => absurd hpos (by simp [hreset.2])
  rw [if_neg hlt]
  by_cases heq : c.connectMsg.connectSeq = e.connectSeq
  · rw [if_pos heq]
    split_ifs with hlive hreset hrace hwait
    · exact .replace _ _
    · exact .retrySession (.inr (.inl ⟨heq, hreset⟩)) (UInt32.le_of_eq heq) hreset
    · exact .replace _ _
    · exact .wait
    · have hle : t.myAddr ≤ c.peerAddr := not_lt.mp fun hlt => hrace (.inl hlt)
      exact absurd (lt_of_le_of_ne hle hdistinct.symm) hwait
  · have hgt : e.connectSeq < c.connectMsg.connectSeq :=
      UInt32.lt_of_le_of_ne (UInt32.not_lt.mp hlt) (Ne.symm heq)
    have hasserts : ¬ (c.connectMsg.connectSeq ≤ e.connectSeq ∨
        c.connectMsg.globalSeq < e.peerGlobalSeq) :=
      not_or.mpr ⟨UInt32.not_le.mpr hgt, hglobal⟩
    rw [if_neg heq, if_neg hasserts]
    split_ifs with hreset
    · exact .resetSession (.inr (.inr ⟨hgt, hreset⟩)) hreset
    · exact .replace _ _

/-! ### Rounds that are answered with a reply -/

theorem round_of_answer {a : Answer Addr} (outSeq : ℕ) (h : Compatible s t n.connector.conn)
    (hanswer : n.answer t outSeq' (connectMsg s n.connector)
      (authorizerBytes (n.connector.conn.presented s)) = .answers a)
    (hreply : a.authorizerReply = (verified s t n.connector.conn).2)
    (hlen : a.reply.authorizerLen = a.authorizerReply.length.toUInt32) :
    n.round s t outSeq outSeq' =
      Negotiation.conclude a ((awaiting s n.connector a.reply).handled s outSeq) := by
  have hpresented : (n.connector.sendConnectMsg s).conn.authorizer = n.connector.conn.presented s :=
    rfl
  rw [Negotiation.round, hpresented, hanswer]
  exact settle_eq h hreply hlen

theorem round_of_reply {tag : ReplyTag} {connectSeq globalSeq : UInt32}
    (h : Compatible s t n.connector.conn)
    (hverdict : (judging s t n).verdict t n.registered.lookup.existing =
      .reply tag connectSeq globalSeq) :
    let r := replied s t n tag connectSeq globalSeq
    n.round s t outSeq outSeq' =
      Negotiation.conclude
        ⟨r.2, (verified s t n.connector.conn).2, n.registered.lookup, n.globalSeq, r.1⟩
        ((awaiting s n.connector r.2).handled s outSeq) := by
  have hanswer := answer_eq outSeq' h
  simp only [hverdict] at hanswer
  exact round_of_answer outSeq h hanswer rfl rfl

/-- A reply after which another connect message is sent. -/
theorem round_again {tag : ReplyTag} {connectSeq globalSeq : UInt32} {q : Party Addr}
    (h : Compatible s t n.connector.conn)
    (hverdict : (judging s t n).verdict t n.registered.lookup.existing =
      .reply tag connectSeq globalSeq)
    (htag : (awaiting s n.connector (replied s t n tag connectSeq globalSeq).2).onReplyTag s
      outSeq = .goes q)
    (hstate : q.conn.state = .connectingSendConnectMsg)
    (hreply : q.conn.connectReply = (replied s t n tag connectSeq globalSeq).2)
    (hpolicy : q.conn.policy = n.connector.conn.policy) (hseq : tag ≠ .seq)
    (hready : tag ≠ .ready) :
    n.round s t outSeq outSeq' =
      .again ⟨q, n.globalSeq, n.registered.lookup, (replied s t n tag connectSeq globalSeq).1⟩ := by
  rw [round_of_reply h hverdict]
  apply conclude_again htag hstate
  · rw [hreply]
    exact featMissing_replied h hpolicy
  · rwa [hreply]
  · rwa [hreply]

/-! ### Rounds that open the session -/

theorem round_opens {registered : Registered Addr} (outSeq : ℕ)
    (h : Compatible s t n.connector.conn)
    (hanswer : n.answer t outSeq' (connectMsg s n.connector)
        (authorizerBytes (n.connector.conn.presented s)) =
      n.openSession t (judging s t n) registered (verified s t n.connector.conn).2)
    (haccept : registered.accept = true) :
    ∃ tag n', (tag = .seq ∨ tag = .ready) ∧ n.round s t outSeq outSeq' = .settled tag n' := by
  let opening := (judging s t n).openSession t n.globalSeq (verified s t n.connector.conn).2
  obtain ⟨htag, hfeatures, hseq, hlen⟩ := openSession_reply (t := t) (judging s t n) n.globalSeq
    (verified s t n.connector.conn).2
  let a : Answer Addr :=
    { reply := opening.reply
      authorizerReply := (verified s t n.connector.conn).2
      registered := .self
      globalSeq := opening.globalSeq
      conn := opening.conn.accepted opening.nextState }
  have hanswers : n.answer t outSeq' (connectMsg s n.connector)
      (authorizerBytes (n.connector.conn.presented s)) = .answers a := by
    rw [hanswer, Negotiation.openSession, if_pos haccept]
  have hround := round_of_answer outSeq h hanswers rfl hlen
  have hmissing : (awaiting s n.connector a.reply).featMissing a.reply = 0 := by
    rw [Party.featMissing, hfeatures]
    exact h.opened
  obtain ⟨n', hsettled⟩ := conclude_open (s := s) outSeq a
    (p := awaiting s n.connector a.reply) htag hmissing hseq.symm
  exact ⟨a.reply.tag, n', htag, hround.trans hsettled⟩

/-! ### The step -/

/-- A round ends the negotiation, or takes from the budget. -/
inductive Advances (s t : Setup Addr) (n : Negotiation Addr) : Progress Addr → Prop
  | settled {tag : ReplyTag} (htag : tag = .seq ∨ tag = .ready ∨ tag = .wait)
      (n' : Negotiation Addr) : Advances s t n (.settled tag n')
  | again {n' : Negotiation Addr} (hsound : Sound s t n') (hless : budget s t n' < budget s t n) :
      Advances s t n (.again n')

theorem round_opens_advances {registered : Registered Addr} (h : Sound s t n)
    (hanswer : n.answer t outSeq' (connectMsg s n.connector)
        (authorizerBytes (n.connector.conn.presented s)) =
      n.openSession t (judging s t n) registered (verified s t n.connector.conn).2)
    (haccept : registered.accept = true) : Advances s t n (n.round s t outSeq outSeq') := by
  obtain ⟨tag, n', htag, hround⟩ := round_opens outSeq h.compatible hanswer haccept
  rw [hround]
  exact .settled (htag.imp_right .inl) n'

/-- Nothing is registered, or the connection that was replaced. -/
theorem advances_of_unregistered (h : Sound s t n)
    (hnone : n.registered.lookup.existing = none) (haccept : n.registered.lookup.accept = true)
    (hfaces : n.conn.replacing = false → n.registered.lookup = .none) :
    Advances s t n (n.round s t outSeq outSeq') := by
  by_cases hfresh : ¬ n.conn.replacing ∧ 0 < n.connector.conn.connectSeq
  · have hverdict : (judging s t n).verdict t n.registered.lookup.existing =
        .reply .resetSession 0 0 := by
      rw [hnone]
      exact if_pos hfresh
    have hreplacing : n.conn.replacing = false := eq_false_of_ne_true hfresh.1
    let a := awaiting s n.connector (replied s t n .resetSession 0 0).2
    let q : Party Addr :=
      { a with conn := { a.conn.wasSessionReset outSeq with state := .connectingSendConnectMsg } }
    have hround : n.round s t outSeq outSeq' = _ :=
      round_again (q := q) h.compatible hverdict rfl rfl rfl rfl (by simp) (by simp)
    rw [hround]
    have hlookup := hfaces hreplacing
    have hpos : n.connector.conn.connectSeq ≠ 0 := (UInt32.ne_of_lt hfresh.2).symm
    have hsame : SameConnector n.connector.conn q.conn := sameConnector_of_sent rfl rfl rfl rfl
    have hlookup' := (Registered.lookup_lookup n.registered).trans hlookup
    apply Advances.again
    · refine ⟨rfl, hsame.compatible h.compatible, ?_⟩
      simp only [hlookup']
      exact hreplacing
    · rw [budget_of_none hlookup, budget_of_none hlookup', if_neg hpos]
      exact Nat.lt_succ_self _
  · have hverdict : (judging s t n).verdict t n.registered.lookup.existing = .opens := by
      rw [hnone]
      exact if_neg hfresh
    apply round_opens_advances h _ haccept
    have hanswer := answer_eq outSeq' h.compatible
    simpa only [hverdict] using hanswer

/-- A reply that leaves the registered connection as it is. -/
theorem round_again_advances {e : Conn Addr} {tag : ReplyTag} {connectSeq globalSeq : UInt32}
    {q : Party Addr} (h : Sound s t n) (hlookup : n.registered.lookup = .other e)
    (hverdict : (judging s t n).verdict t (some e) = .reply tag connectSeq globalSeq)
    (htag : (awaiting s n.connector (replied s t n tag connectSeq globalSeq).2).onReplyTag s
      outSeq = .goes q)
    (hstate : q.conn.state = .connectingSendConnectMsg)
    (hreply : q.conn.connectReply = (replied s t n tag connectSeq globalSeq).2)
    (hsame : SameConnector n.connector.conn q.conn) (hseq : tag ≠ .seq) (hready : tag ≠ .ready)
    (hcounter : q.conn.globalSeq < e.peerGlobalSeq → q.globalSeq.toNat + 1 < 2 ^ 32)
    (hless : ∀ n', n'.registered.lookup = .other e → n'.connector = q →
      budget s t n' < budget s t n) :
    Advances s t n (n.round s t outSeq outSeq') := by
  have hverdict' : (judging s t n).verdict t n.registered.lookup.existing =
      .reply tag connectSeq globalSeq := by
    rw [hlookup]
    exact hverdict
  have hlookup' := (Registered.lookup_lookup n.registered).trans hlookup
  rw [round_again h.compatible hverdict' htag hstate hreply hsame.policy hseq hready]
  have hfaces := h.faces
  rw [hlookup] at hfaces
  obtain ⟨hwrite, hdistinct, hopen, hreplacing, hreplies, hmax, hglobal, _⟩ := hfaces
  apply Advances.again
  · refine ⟨hstate, hsame.compatible h.compatible, ?_⟩
    simp only [hlookup']
    refine ⟨hwrite, hdistinct, hopen, hreplacing, ?_, hmax, hglobal, hcounter⟩
    rw [Replies, hsame.policy]
    exact hreplies
  · exact hless _ hlookup' rfl

theorem advances_of_retryGlobal {e : Conn Addr} (h : Sound s t n)
    (hlookup : n.registered.lookup = .other e)
    (hbelow : n.connector.conn.globalSeq < e.peerGlobalSeq)
    (hverdict : (judging s t n).verdict t (some e) = .reply .retryGlobal 0 e.peerGlobalSeq) :
    Advances s t n (n.round s t outSeq outSeq') := by
  have hfaces := h.faces
  rw [hlookup] at hfaces
  obtain ⟨_, _, _, _, _, _, hglobal, hcounter⟩ := hfaces
  let a := awaiting s n.connector (replied s t n .retryGlobal 0 e.peerGlobalSeq).2
  let drawn := getGlobalSeq n.connector.globalSeq e.peerGlobalSeq
  have habove : ¬ drawn < e.peerGlobalSeq :=
    UInt32.not_lt.mpr (UInt32.le_of_lt (lt_getGlobalSeq (hcounter hbelow) hglobal).2)
  apply round_again_advances h hlookup hverdict (q := ⟨drawn,
    { a.conn with globalSeq := drawn, state := .connectingSendConnectMsg }⟩) rfl rfl rfl
    (sameConnector_of_sent rfl rfl rfl rfl) (by simp) (by simp) (absurd · habove)
  intro n' hlookup' hq
  rw [budget_of_other hlookup, budget_of_other hlookup', hq, if_pos hbelow, if_neg habove]
  exact Nat.add_lt_add_right (Nat.lt_succ_self 2) _

theorem advances_of_misfit {e : Conn Addr} {q : Party Addr} {tag : ReplyTag}
    {connectSeq : UInt32} (h : Sound s t n) (hlookup : n.registered.lookup = .other e)
    (hmisfit : Misfit e (t.getPolicy s.myType).resetcheck n.connector.conn.connectSeq)
    (hverdict : (judging s t n).verdict t (some e) = .reply tag connectSeq 0)
    (htag : (awaiting s n.connector (replied s t n tag connectSeq 0).2).onReplyTag s outSeq =
      .goes q)
    (hstate : q.conn.state = .connectingSendConnectMsg)
    (hreply : q.conn.connectReply = (replied s t n tag connectSeq 0).2)
    (hsame : SameConnector n.connector.conn q.conn) (hseq : tag ≠ .seq) (hready : tag ≠ .ready)
    (hcounter : q.globalSeq = n.connector.globalSeq)
    (hglobal : q.conn.globalSeq = n.connector.conn.globalSeq)
    (hfits : ¬ Misfit e (t.getPolicy s.myType).resetcheck q.conn.connectSeq) :
    Advances s t n (n.round s t outSeq outSeq') := by
  have hfaces := h.faces
  rw [hlookup] at hfaces
  obtain ⟨_, _, _, _, _, _, _, hbound⟩ := hfaces
  apply round_again_advances h hlookup hverdict htag hstate hreply hsame hseq hready
  · rwa [hcounter, hglobal]
  · intro n' hlookup' hq
    rw [budget_of_other hlookup, budget_of_other hlookup', hq, hglobal, if_pos hmisfit,
      if_neg hfits]
    exact Nat.lt_succ_self _

theorem advances_of_wait {e : Conn Addr} (h : Sound s t n)
    (hlookup : n.registered.lookup = .other e)
    (hverdict : (judging s t n).verdict t (some e) = .reply .wait 0 0) :
    Advances s t n (n.round s t outSeq outSeq') := by
  have hverdict' : (judging s t n).verdict t n.registered.lookup.existing = .reply .wait 0 0 := by
    rw [hlookup]
    exact hverdict
  rw [round_of_reply h.compatible hverdict']
  let r := replied s t n .wait 0 0
  obtain ⟨n', hsettled⟩ := conclude_wait (s := s) outSeq
    ⟨r.2, (verified s t n.connector.conn).2, n.registered.lookup, n.globalSeq, r.1⟩
    (p := awaiting s n.connector r.2) rfl (featMissing_replied h.compatible rfl)
  rw [hsettled]
  exact .settled (.inr (.inr rfl)) n'

/-- A lossy connection makes room at once, any other one asks the connector to come back. -/
theorem advances_of_replace {e : Conn Addr} {hardReset sessionReset : Bool} (h : Sound s t n)
    (hlookup : n.registered.lookup = .other e)
    (hverdict : (judging s t n).verdict t (some e) = .replace hardReset sessionReset) :
    Advances s t n (n.round s t outSeq outSeq') := by
  have hfaces := h.faces
  rw [hlookup] at hfaces
  obtain ⟨hwrite, _, _, _, hreplies, _, _, _⟩ := hfaces
  have hanswer := answer_eq outSeq' h.compatible
  simp only [hlookup, Registered.existing, hverdict, Negotiation.replace] at hanswer
  by_cases hlossy : e.policy.lossy
  · rw [if_pos hlossy] at hanswer
    apply round_opens_advances h hanswer
    simp [Registered.accept, Registered.lookup, replaced_of_lossy hlossy]
  · have hnowrite : ¬ (judging s t n).canWrite ≠ .nowrite := not_not.mpr hwrite
    rw [if_neg hlossy, if_neg hnowrite] at hanswer
    obtain ⟨e₁, r, hdeactivate, htransfer, hreplacing, htag, hlen, hfeatures⟩ :=
      (replaced_of_lossless hardReset sessionReset outSeq' (eq_false_of_ne_true hlossy)).transfers
        (judging s t n).socket (judging s t n).connectMsg
        (t.getProtoVersion (judging s t n).peerType false) (verified s t n.connector.conn).2
    simp only [hdeactivate, htransfer] at hanswer
    rw [round_of_answer outSeq h.compatible hanswer rfl hlen]
    let a := awaiting s n.connector r.2
    let drawn := getGlobalSeq n.connector.globalSeq r.2.globalSeq
    have hgoes : a.onReplyTag s outSeq = .goes ⟨drawn,
        { a.conn with globalSeq := drawn, state := .connectingSendConnectMsg }⟩ := by
      simp only [Party.onReplyTag, a, htag]
      rfl
    have hmissing : a.featMissing r.2 = 0 := by
      rw [Party.featMissing, hfeatures]
      exact hreplies
    have hseq : r.2.tag ≠ .seq := by simp [htag]
    have hready : r.2.tag ≠ .ready := by simp [htag]
    rw [conclude_again hgoes rfl hmissing hseq hready]
    have hsame : SameConnector n.connector.conn
        { a.conn with globalSeq := drawn, state := .connectingSendConnectMsg } :=
      sameConnector_of_sent rfl rfl rfl rfl
    apply Advances.again
    · exact ⟨rfl, hsame.compatible h.compatible, hreplacing⟩
    · rw [budget_of_other hlookup, budget_of_self rfl]
      omega

/-- **A round.**  It ends the negotiation, or the next one has less to do. -/
theorem round_advances (h : Sound s t n) (outSeq outSeq' : ℕ) :
    Advances s t n (n.round s t outSeq outSeq') := by
  cases hlookup : n.registered.lookup with
  | none =>
      apply advances_of_unregistered h
      · rw [hlookup]
        rfl
      · rw [hlookup]
        rfl
      · exact fun _ => hlookup
  | self =>
      have hfaces := h.faces
      rw [hlookup] at hfaces
      apply advances_of_unregistered h
      · rw [hlookup]
        rfl
      · rw [hlookup]
        rfl
      · exact fun hfresh => absurd (hfresh.symm.trans hfaces) Bool.false_ne_true
  | other e =>
      have hfaces := h.faces
      rw [hlookup] at hfaces
      obtain ⟨_, hdistinct, hopen, hreplacing, _, hmax, _, _⟩ := hfaces
      have hjudged := verdict_judged (t := t) (c := judging s t n) hopen hreplacing hdistinct
      generalize hverdict : (judging s t n).verdict t (some e) = verdict at hjudged
      cases hjudged with
      | retryGlobal hbelow => exact advances_of_retryGlobal h hlookup hbelow hverdict
      | retrySession hmisfit hle hkept =>
          rw [judging_resetcheck] at hmisfit hkept
          let a := awaiting s n.connector (replied s t n .retrySession (e.connectSeq + 1) 0).2
          have hlt : ¬ e.connectSeq + 1 ≤ n.connector.conn.connectSeq :=
            UInt32.not_le.mpr (UInt32.lt_of_le_of_lt hle (lt_next hmax))
          exact advances_of_misfit h hlookup hmisfit hverdict (q := { a with conn :=
            { a.conn with
              connectSeq := e.connectSeq + 1, state := .connectingSendConnectMsg } })
            (if_neg hlt) rfl rfl (sameConnector_of_sent rfl rfl rfl rfl) (by simp) (by simp) rfl rfl
            (not_misfit_next hmax hkept)
      | resetSession hmisfit hreset =>
          rw [judging_resetcheck] at hmisfit hreset
          let a := awaiting s n.connector (replied s t n .resetSession 0 0).2
          exact advances_of_misfit h hlookup hmisfit hverdict (q := { a with conn :=
            { a.conn.wasSessionReset outSeq with state := .connectingSendConnectMsg } }) rfl rfl rfl
            (sameConnector_of_sent rfl rfl rfl rfl) (by simp) (by simp) rfl rfl
            (not_misfit_zero hreset)
      | wait => exact advances_of_wait h hlookup hverdict
      | replace => exact advances_of_replace h hlookup hverdict

/-! ## The result -/

theorem rounds_settle (draws : List (ℕ × ℕ)) :
    ∀ {n : Negotiation Addr}, Sound s t n → budget s t n ≤ draws.length →
      ∃ tag n', (tag = .seq ∨ tag = .ready ∨ tag = .wait) ∧
        n.rounds s t draws = .settled tag n' := by
  induction draws with
  | nil =>
      intro n h hbudget
      have hpos := budget_pos s t n
      exact absurd hbudget (Nat.not_le.mpr hpos)
  | cons draw draws ih =>
      intro n h hbudget
      have hadvances := round_advances h draw.1 draw.2
      simp only [Negotiation.rounds]
      generalize n.round s t draw.1 draw.2 = out at hadvances
      cases hadvances with
      | settled htag n' => exact ⟨_, n', htag, rfl⟩
      | again hsound hless =>
          apply ih hsound
          rw [List.length_cons] at hbudget
          omega

end

/-- **Four rounds settle a negotiation between honest peers.**  No assertion fails on the way. -/
theorem settled_of_quiescent [LinearOrder Addr] (s t : Setup Addr) (n : Negotiation Addr)
    (h : Quiescent s t n) (draws : List (ℕ × ℕ)) (hdraws : 4 ≤ draws.length) :
    ∃ tag n', (tag = .seq ∨ tag = .ready ∨ tag = .wait) ∧ n.rounds s t draws = .settled tag n' :=
  rounds_settle draws h.sound ((budget_le s t n).trans hdraws)

/-- A peer that has restarted, while the acceptor keeps its session in standby. -/
def Negotiation.restart : Negotiation ℕ where
  connector := ⟨0, { Conn.create 1 4 Policy.plain with state := .connectingSendConnectMsg }⟩
  globalSeq := 0
  registered := .other
    { Conn.create 2 4 Policy.plain with state := .standby, connectSeq := 3, peerGlobalSeq := 5 }
  conn := Conn.create 2 4 Policy.plain

theorem quiescent_restart : Quiescent Setup.plain Setup.plain Negotiation.restart := by
  constructor
  · rfl
  · exact ⟨rfl, rfl, rfl, rfl, rfl, by decide, by intro a ha; cases ha⟩
  · decide
  · decide
  · exact ⟨rfl, rfl⟩
  · intro h
    cases h
  · intro e he
    cases he
    exact ⟨rfl, by decide, by decide, rfl⟩

theorem settled_restart :
    ∃ tag n', (tag = .seq ∨ tag = .ready ∨ tag = .wait) ∧
      Negotiation.restart.rounds Setup.plain Setup.plain (List.replicate 4 (0, 0)) =
        .settled tag n' :=
  settled_of_quiescent _ _ _ quiescent_restart _ (by decide)

end HwAsync.Connect
