/-
# The connecting side

A connection that has sent its `ceph_msg_connect` waits for the reply, handles it, and
either sends another connect message or goes on to `STATE_CONNECTING_READY`.  Several
assertions on the way are about fields that the peer fills in.  This module says exactly
which replies fail one of them.
-/

import HwAsync.Lib.Run
import HwAsync.Connect.Protocol

namespace HwAsync.Connect

open HwAsync.Lib

variable {Addr : Type}

/-- What `read_until` returns. -/
inductive Read (α : Type)
  | failed
  | missing
  | complete (a : α)

/-- What `try_send` returns: nothing is left to send, or something is. -/
inductive Sent
  | failed
  | all
  | part
  deriving DecidableEq, Repr

/-- A connection and the `global_seq` of its messenger. -/
structure Party (Addr : Type) where
  globalSeq : UInt32
  conn : Conn Addr

/-- How an iteration of `process` ends: it goes on, it has to come back for more bytes, it
goes to `fail`, or an assertion fails. -/
inductive Outcome (Addr : Type)
  | goes (p : Party Addr)
  | waits (p : Party Addr)
  | fails (p : Party Addr)
  | aborts

/-- What an iteration gets from the socket, and the number that `randomize_out_seq` draws. -/
structure Input where
  reply : Read Unit
  /-- What a read of so many bytes of the authorizer returns. -/
  authorizer : (n : ℕ) → Read (Vector UInt8 n)
  ackSeq : Read ℕ
  sent : Sent
  flushed : Bool
  outSeq : ℕ

/-- The protocol and the bytes of an authorizer, if there is one. -/
def authorizerProtocol : Option Authorizer → UInt32
  | some a => a.protocol
  | none => 0

def authorizerBytes : Option Authorizer → List UInt8
  | some a => a.bl
  | none => []

/-- The authorizer that a connect message comes with. -/
def Conn.presented (s : Setup Addr) (c : Conn Addr) : Option Authorizer :=
  if c.gotBadAuth then c.authorizer else s.getAuthorizer c.peerType false

namespace Party

variable (s : Setup Addr)

/-- `STATE_CONNECTING_SEND_CONNECT_MSG`, up to `try_send`. -/
def sendConnectMsg (p : Party Addr) : Party Addr :=
  let c := p.conn
  let authorizer := c.presented s
  let connectMsg : ConnectMsg :=
    { features := c.policy.featuresSupported
      hostType := s.myType
      globalSeq := c.globalSeq
      connectSeq := c.connectSeq
      protocolVersion := s.getProtoVersion c.peerType true
      authorizerProtocol := authorizerProtocol authorizer
      authorizerLen := (authorizerBytes authorizer).length.toUInt32
      flags := if c.policy.lossy then connectLossy else 0 }
  { p with conn := { c with authorizer := authorizer, connectMsg := connectMsg } }

/-- `handle_connect_reply` up to the check of the features. -/
def onReplyTag (outSeq : ℕ) (p : Party Addr) : Outcome Addr :=
  let c := p.conn
  let reply := c.connectReply
  match reply.tag with
  | .features | .badProtoVer => .fails p
  | .badAuthorizer =>
      if c.gotBadAuth then .fails p
      else
        .goes { p with
          conn := { c with
            gotBadAuth := true
            authorizer := s.getAuthorizer c.peerType true
            state := .connectingSendConnectMsg } }
  | .resetSession =>
      .goes { p with conn := { c.wasSessionReset outSeq with state := .connectingSendConnectMsg } }
  | .retryGlobal =>
      let globalSeq := getGlobalSeq p.globalSeq reply.globalSeq
      .goes
        { globalSeq := globalSeq
          conn := { c with globalSeq := globalSeq, state := .connectingSendConnectMsg } }
  | .retrySession =>
      if reply.connectSeq ≤ c.connectSeq then .aborts
      else
        .goes { p with
          conn := { c with connectSeq := reply.connectSeq, state := .connectingSendConnectMsg } }
  | .wait => .goes { p with conn := { c with state := .wait } }
  | .seq | .ready | .other _ => .goes p

/-- The required features that a reply lacks. -/
def featMissing (p : Party Addr) (reply : ConnectReply) : UInt64 :=
  p.conn.policy.featuresRequired &&& ~~~reply.features

/-- `handle_connect_reply`. -/
def handleConnectReply (outSeq : ℕ) (p : Party Addr) : Outcome Addr :=
  match p.onReplyTag s outSeq with
  | .goes p' =>
      if p'.featMissing p'.conn.connectReply ≠ 0 then .fails p'
      else if p'.conn.connectReply.tag = .seq then
        .goes { p' with conn := { p'.conn with state := .connectingWaitAckSeq } }
      else if p'.conn.connectReply.tag = .ready then
        .goes { p' with conn := { p'.conn with state := .connectingReady } }
      else .goes p'
  | out => out

/-- `STATE_CONNECTING_WAIT_CONNECT_REPLY`. -/
def waitConnectReply (reply : ConnectReply) (read : Read Unit) (p : Party Addr) : Outcome Addr :=
  match read with
  | .failed => .fails p
  | .missing => .waits p
  | .complete () =>
      .goes { p with
        conn := { p.conn with connectReply := reply, state := .connectingWaitConnectReplyAuth } }

/-- The end of `STATE_CONNECTING_WAIT_CONNECT_REPLY_AUTH`: the state must have changed. -/
def handled (outSeq : ℕ) (p : Party Addr) : Outcome Addr :=
  match p.handleConnectReply s outSeq with
  | .goes p' => if p'.conn.state = .connectingWaitConnectReplyAuth then .aborts else .goes p'
  | out => out

/-- `STATE_CONNECTING_WAIT_CONNECT_REPLY_AUTH`. -/
def waitConnectReplyAuth (outSeq : ℕ) (read : (n : ℕ) → Read (Vector UInt8 n)) (p : Party Addr) :
    Outcome Addr :=
  let len := p.conn.connectReply.authorizerLen.toNat
  if len ≠ 0 then
    if 4096 ≤ len then .aborts
    else
      match read len with
      | .failed => .fails p
      | .missing => .waits p
      | .complete bytes =>
          match p.conn.authorizer with
          | some a => if s.verifyReply a bytes.toList then p.handled s outSeq else .fails p
          | none => p.handled s outSeq
  else p.handled s outSeq

/-- `STATE_CONNECTING_WAIT_ACK_SEQ`. -/
def waitAckSeq (read : Read ℕ) (sent : Sent) (p : Party Addr) : Outcome Addr :=
  match read with
  | .failed => .fails p
  | .missing => .waits p
  | .complete seq =>
      let c := p.conn.discardRequeuedUpTo seq
      match sent with
      | .all => .goes { p with conn := { c with state := .connectingReady } }
      | .part =>
          .goes { p with conn := { c with stateAfterSend := .connectingReady, state := .waitSend } }
      | .failed => .fails { p with conn := c }

/-- `STATE_WAIT_SEND`, and whether everything was sent by then. -/
def waitSend (flushed : Bool) (p : Party Addr) : Outcome Addr :=
  if flushed then
    if p.conn.stateAfterSend = .none then .aborts
    else
      .goes { p with
        conn := { p.conn with state := p.conn.stateAfterSend, stateAfterSend := .none } }
  else .waits p

/-- `STATE_CONNECTING_READY`. -/
def connectingReady (p : Party Addr) : Outcome Addr :=
  let c := p.conn
  if c.connectSeq + 1 = c.connectReply.connectSeq then
    .goes { p with
      conn := { c with
        peerGlobalSeq := c.connectReply.globalSeq
        policy := { c.policy with lossy := c.connectReply.flags &&& connectLossy != 0 }
        state := .opened
        onceReady := true
        connectSeq := c.connectSeq + 1
        features := c.connectReply.features &&& c.connectMsg.features
        canWrite := .canwrite } }
  else .aborts

/-- An iteration of `process` while it handles the reply. -/
def onReply (reply : ConnectReply) (input : Input) (p : Party Addr) : Outcome Addr :=
  match p.conn.state with
  | .connectingWaitConnectReply => p.waitConnectReply reply input.reply
  | .connectingWaitConnectReplyAuth => p.waitConnectReplyAuth s input.outSeq input.authorizer
  | .connectingWaitAckSeq => p.waitAckSeq input.ackSeq input.sent
  | .waitSend => p.waitSend input.flushed
  | .connectingReady => p.connectingReady
  | _ => .waits p

end Party

/-! ## The property -/

/-- A connection in front of the reply or of its authorizer. -/
structure Awaiting (Addr : Type) (reply : ConnectReply) extends Party Addr where
  awaits : conn.state = .connectingWaitConnectReply ∨
    conn.state = .connectingWaitConnectReplyAuth ∧ conn.connectReply = reply

/-- The handling of one reply. -/
def replyMachine (s : Setup Addr) (reply : ConnectReply) (p : Party Addr) :
    Machine (Outcome Addr) Input where
  start out := out = .goes p
  step out input :=
    match out with
    | .goes p | .waits p => some (p.onReply s reply input)
    | .fails _ | .aborts => none

/-- The reply fails no assertion, and an iteration that does not wait for more bytes ends in
`fail` or in another state. -/
structure Survives (s : Setup Addr) (reply : ConnectReply) (p : Party Addr) : Prop where
  lives : ¬ (replyMachine s reply p).Reached .aborts
  moves : ∀ (q q' : Party Addr) input, q.conn.state = .connectingWaitConnectReply ∨
    q.conn.state = .connectingWaitConnectReplyAuth →
    q.onReply s reply input = .goes q' → q'.conn.state ≠ q.conn.state

/-- The fields that the reply has under its tag. -/
def TagHarmless (reply : ConnectReply) (p : Party Addr) : Prop :=
  match reply.tag with
  | .retrySession => p.conn.connectSeq < reply.connectSeq
  | .seq | .ready => p.featMissing reply ≠ 0 ∨ p.conn.connectSeq + 1 = reply.connectSeq
  | .other _ => p.featMissing reply ≠ 0
  | _ => True

/-- Some authorizer of the length that the reply announces is accepted. -/
def Acceptable (s : Setup Addr) (reply : ConnectReply) (p : Party Addr) : Prop :=
  reply.authorizerLen.toNat = 0 ∨ ∀ a, p.conn.authorizer = some a →
    ∃ bytes : Vector UInt8 reply.authorizerLen.toNat, s.verifyReply a bytes.toList = true

/-- The announced authorizer is short, and the fields fit the tag unless no authorizer is
accepted. -/
def Harmless (s : Setup Addr) (reply : ConnectReply) (p : Party Addr) : Prop :=
  reply.authorizerLen.toNat < 4096 ∧ (Acceptable s reply p → TagHarmless reply p)

/-! ## What the handling of a reply comes to -/

section

variable {s : Setup Addr} {reply : ConnectReply} {p q : Party Addr} {outSeq : ℕ}

/-- The ways in which a reply is handled. -/
inductive Handled (reply : ConnectReply) (p : Party Addr) : Outcome Addr → Prop
  | failed (q : Party Addr) : Handled reply p (.fails q)
  | again {q : Party Addr}
      (hstate : q.conn.state = .connectingSendConnectMsg ∨ q.conn.state = .wait) :
      Handled reply p (.goes q)
  | seq (htag : reply.tag = .seq) (hfeatures : p.featMissing reply = 0) :
      Handled reply p (.goes { p with conn := { p.conn with state := .connectingWaitAckSeq } })
  | ready (htag : reply.tag = .ready) (hfeatures : p.featMissing reply = 0) :
      Handled reply p (.goes { p with conn := { p.conn with state := .connectingReady } })
  | aborted (hharms : ¬ TagHarmless reply p) : Handled reply p .aborts

/-- A reply after which another connect message is sent, or none. -/
theorem handled_again (htag : p.onReplyTag s outSeq = .goes q)
    (hstate : q.conn.state = .connectingSendConnectMsg ∨ q.conn.state = .wait)
    (hseq : q.conn.connectReply.tag ≠ .seq) (hready : q.conn.connectReply.tag ≠ .ready) :
    Handled reply p (p.handled s outSeq) := by
  have hchanged : q.conn.state ≠ .connectingWaitConnectReplyAuth := by
    rcases hstate with hstate | hstate <;> simp [hstate]
  simp only [Party.handled, Party.handleConnectReply, htag]
  split_ifs
  · exact .failed q
  · simp only [if_neg hchanged]
    exact .again hstate

theorem handled_cases (hreply : p.conn.connectReply = reply)
    (hstate : p.conn.state = .connectingWaitConnectReplyAuth) :
    Handled reply p (p.handled s outSeq) := by
  subst hreply
  cases htag : p.conn.connectReply.tag with
  | features | badProtoVer =>
      simp only [Party.handled, Party.handleConnectReply, Party.onReplyTag, htag]
      exact .failed p
  | badAuthorizer =>
      by_cases hbad : p.conn.gotBadAuth
      · simp only [Party.handled, Party.handleConnectReply, Party.onReplyTag, htag, if_pos hbad]
        exact .failed p
      · apply handled_again (q := { p with conn := { p.conn with
          gotBadAuth := true
          authorizer := s.getAuthorizer p.conn.peerType true
          state := .connectingSendConnectMsg } })
        · simp [Party.onReplyTag, htag, hbad]
        · exact .inl rfl
        · simp [htag]
        · simp [htag]
  | resetSession =>
      apply handled_again (q := { p with conn :=
        { p.conn.wasSessionReset outSeq with state := .connectingSendConnectMsg } })
      · simp [Party.onReplyTag, htag]
      · exact .inl rfl
      · simp [Conn.wasSessionReset, htag]
      · simp [Conn.wasSessionReset, htag]
  | retryGlobal =>
      let globalSeq := getGlobalSeq p.globalSeq p.conn.connectReply.globalSeq
      apply handled_again (q := ⟨globalSeq,
        { p.conn with globalSeq := globalSeq, state := .connectingSendConnectMsg }⟩)
      · simp [Party.onReplyTag, htag, globalSeq]
      · exact .inl rfl
      · simp [htag]
      · simp [htag]
  | retrySession =>
      by_cases hle : p.conn.connectReply.connectSeq ≤ p.conn.connectSeq
      · simp only [Party.handled, Party.handleConnectReply, Party.onReplyTag, htag, if_pos hle]
        apply Handled.aborted
        simp only [TagHarmless, htag]
        exact UInt32.not_lt.mpr hle
      · apply handled_again (q := { p with conn := { p.conn with
          connectSeq := p.conn.connectReply.connectSeq, state := .connectingSendConnectMsg } })
        · simp [Party.onReplyTag, htag, hle]
        · exact .inl rfl
        · simp [htag]
        · simp [htag]
  | wait =>
      apply handled_again (q := { p with conn := { p.conn with state := .wait } })
      · simp [Party.onReplyTag, htag]
      · exact .inr rfl
      · simp [htag]
      · simp [htag]
  | seq =>
      by_cases hfeatures : p.featMissing p.conn.connectReply = 0
      · simp only [Party.handled, Party.handleConnectReply, Party.onReplyTag, htag, hfeatures]
        exact .seq htag hfeatures
      · simp only [Party.handled, Party.handleConnectReply, Party.onReplyTag, htag,
          if_pos hfeatures]
        exact .failed p
  | ready =>
      by_cases hfeatures : p.featMissing p.conn.connectReply = 0
      · simp only [Party.handled, Party.handleConnectReply, Party.onReplyTag, htag, hfeatures]
        exact .ready htag hfeatures
      · simp only [Party.handled, Party.handleConnectReply, Party.onReplyTag, htag,
          if_pos hfeatures]
        exact .failed p
  | other tag =>
      by_cases hfeatures : p.featMissing p.conn.connectReply = 0
      · have haborts : p.handled s outSeq = .aborts := by
          simp [Party.handled, Party.handleConnectReply, Party.onReplyTag, htag, hfeatures, hstate]
        rw [haborts]
        apply Handled.aborted
        simp only [TagHarmless, htag]
        exact not_not.mpr hfeatures
      · simp only [Party.handled, Party.handleConnectReply, Party.onReplyTag, htag,
          if_pos hfeatures]
        exact .failed p

/-- `TagHarmless` depends on the number and the policy of the connection only. -/
theorem tagHarmless_congr (hseq : q.conn.connectSeq = p.conn.connectSeq)
    (hpolicy : q.conn.policy = p.conn.policy) : TagHarmless reply q ↔ TagHarmless reply p := by
  simp only [TagHarmless, Party.featMissing, hseq, hpolicy]

/-- The authorizer was accepted if the reply is handled at all. -/
theorem waitConnectReplyAuth_cases (outSeq : ℕ) (read : (n : ℕ) → Read (Vector UInt8 n))
    (hreply : q.conn.connectReply = reply) (hshort : reply.authorizerLen.toNat < 4096) :
    q.waitConnectReplyAuth s outSeq read = .fails q ∨
      q.waitConnectReplyAuth s outSeq read = .waits q ∨
        Acceptable s reply q ∧ q.waitConnectReplyAuth s outSeq read = q.handled s outSeq := by
  subst hreply
  simp only [Party.waitConnectReplyAuth, Acceptable]
  split
  · rename_i hlen
    rw [if_neg (Nat.not_le.mpr hshort)]
    split
    · exact .inl rfl
    · exact .inr (.inl rfl)
    · rename_i bytes _
      split
      · rename_i a hauthorizer
        split
        · rename_i haccepts
          refine .inr (.inr ⟨.inr fun a' ha' => ?_, rfl⟩)
          cases hauthorizer.symm.trans ha'
          exact ⟨bytes, haccepts⟩
        · exact .inl rfl
      · rename_i hnone
        refine .inr (.inr ⟨.inr fun a ha => ?_, rfl⟩)
        cases hnone.symm.trans ha
  · rename_i hlen
    exact .inr (.inr ⟨.inl (not_not.mp hlen), rfl⟩)

/-- Where the handling of a harmless reply is. -/
inductive Within (reply : ConnectReply) (p q : Party Addr) : Prop
  | reply (hstate : q.conn.state = .connectingWaitConnectReply) (hsame : q = p)
  | authorizer (hstate : q.conn.state = .connectingWaitConnectReplyAuth)
      (hreply : q.conn.connectReply = reply) (hseq : q.conn.connectSeq = p.conn.connectSeq)
      (hpolicy : q.conn.policy = p.conn.policy)
      (hauthorizer : q.conn.authorizer = p.conn.authorizer)
  | ready (hstate : q.conn.state = .connectingWaitAckSeq ∨
        q.conn.state = .waitSend ∧ q.conn.stateAfterSend = .connectingReady ∨
          q.conn.state = .connectingReady)
      (hseq : q.conn.connectSeq + 1 = q.conn.connectReply.connectSeq)
  | done (hstate : q.conn.state = .connectingSendConnectMsg ∨ q.conn.state = .wait ∨
        q.conn.state = .opened)

/-- The same for the end of an iteration. -/
def Outcome.Within (reply : ConnectReply) (p : Party Addr) : Outcome Addr → Prop
  | .goes q | .waits q => Connect.Within reply p q
  | .fails _ => True
  | .aborts => False

/-- The handling of a reply whose authorizer is accepted. -/
theorem Handled.within {out : Outcome Addr} (h : Handled reply q out)
    (hreply : q.conn.connectReply = reply) (hharmless : TagHarmless reply q) :
    out.Within reply p := by
  cases h with
  | failed q => trivial
  | again hstate => exact .done (hstate.imp_right .inl)
  | seq htag hfeatures =>
      simp only [TagHarmless, htag, hfeatures] at hharmless
      exact .ready (.inl rfl) (hreply ▸ hharmless.resolve_left (absurd rfl))
  | ready htag hfeatures =>
      simp only [TagHarmless, htag, hfeatures] at hharmless
      exact .ready (.inr (.inr rfl)) (hreply ▸ hharmless.resolve_left (absurd rfl))
  | aborted hharms => exact hharms hharmless

/-- One iteration of the handling of a harmless reply. -/
theorem onReply_within (hharmless : Harmless s reply p) (input : Input) (h : Within reply p q) :
    (q.onReply s reply input).Within reply p := by
  cases h with
  | reply hstate hsame =>
      simp only [Party.onReply, hstate, Party.waitConnectReply]
      split
      · trivial
      · exact .reply hstate hsame
      · subst hsame
        exact .authorizer rfl rfl rfl rfl rfl
  | authorizer hstate hreply hseq hpolicy hauthorizer =>
      simp only [Party.onReply, hstate]
      rcases waitConnectReplyAuth_cases (s := s) input.outSeq input.authorizer hreply
        hharmless.1 with hfails | hwaits | ⟨haccepts, hhandled⟩
      · rw [hfails]
        trivial
      · rw [hwaits]
        exact .authorizer hstate hreply hseq hpolicy hauthorizer
      · rw [hhandled]
        have hacceptable : Acceptable s reply p := by
          simpa only [Acceptable, hauthorizer] using haccepts
        exact (handled_cases hreply hstate).within hreply
          ((tagHarmless_congr hseq hpolicy).mpr (hharmless.2 hacceptable))
  | ready hstate hseq =>
      rcases hstate with hstate | ⟨hstate, hafter⟩ | hstate
      · simp only [Party.onReply, hstate, Party.waitAckSeq]
        split
        · trivial
        · exact .ready (.inl hstate) hseq
        · split
          · exact .ready (.inr (.inr rfl)) hseq
          · exact .ready (.inr (.inl ⟨rfl, rfl⟩)) hseq
          · trivial
      · simp only [Party.onReply, hstate, Party.waitSend, hafter]
        split
        · exact .ready (.inr (.inr rfl)) hseq
        · exact .ready (.inr (.inl ⟨hstate, hafter⟩)) hseq
      · simp only [Party.onReply, hstate, Party.connectingReady, if_pos hseq]
        exact .done (.inr (.inr rfl))
  | done hstate =>
      have hends : q.onReply s reply input = .waits q := by
        rcases hstate with hstate | hstate | hstate <;> simp only [Party.onReply, hstate]
      rw [hends]
      exact .done hstate

theorem onReply_moves {q q' : Party Addr} (input : Input)
    (hstate : q.conn.state = .connectingWaitConnectReply ∨
      q.conn.state = .connectingWaitConnectReplyAuth)
    (hgoes : q.onReply s reply input = .goes q') : q'.conn.state ≠ q.conn.state := by
  rcases hstate with hstate | hstate
  · simp only [Party.onReply, hstate, Party.waitConnectReply] at hgoes
    split at hgoes
    · cases hgoes
    · cases hgoes
    · cases hgoes
      simp [hstate]
  · have hhandled (h : q.handled s input.outSeq = .goes q') : q'.conn.state ≠ q.conn.state := by
      simp only [Party.handled] at h
      split at h
      · split at h
        · cases h
        · rename_i hchanged
          cases h
          rw [hstate]
          exact hchanged
      · rename_i hnot
        exact absurd h (hnot q')
    simp only [Party.onReply, hstate, Party.waitConnectReplyAuth] at hgoes
    split at hgoes
    · split at hgoes
      · cases hgoes
      · split at hgoes
        · cases hgoes
        · cases hgoes
        · split at hgoes
          · split at hgoes
            · exact hhandled hgoes
            · cases hgoes
          · exact hhandled hgoes
    · exact hhandled hgoes

/-! ## The result -/

/-- An iteration whose reads are complete, with this authorizer. -/
def ample (read : (n : ℕ) → Read (Vector UInt8 n)) : Input where
  reply := .complete ()
  authorizer := read
  ackSeq := .complete 0
  sent := .all
  flushed := true
  outSeq := 0

theorem survives_of_harmless (p : Awaiting Addr reply) (h : Harmless s reply p.toParty) :
    Survives s reply p.toParty := by
  refine ⟨fun haborts => ?_, fun q q' input => onReply_moves input⟩
  have hwithin : Outcome.Within reply p.toParty .aborts := by
    apply haborts.invariant (Outcome.Within reply p.toParty)
    · rintro out rfl
      cases p.awaits with
      | inl hstate => exact .reply hstate rfl
      | inr hauth => exact .authorizer hauth.1 hauth.2 rfl rfl rfl
    · intro out input out' hwithin _ hstep
      cases out with
      | goes q | waits q =>
          cases hstep
          exact onReply_within h input hwithin
      | fails q => cases hstep
      | aborts => cases hstep
  exact hwithin

/-- The authorizer of the reply can be waited for. -/
theorem reached_authorizer (p : Awaiting Addr reply) :
    ∃ q : Party Addr, (replyMachine s reply p.toParty).Reached (.goes q) ∧
      q.conn.state = .connectingWaitConnectReplyAuth ∧ q.conn.connectReply = reply ∧
        q.conn.connectSeq = p.conn.connectSeq ∧ q.conn.policy = p.conn.policy ∧
          q.conn.authorizer = p.conn.authorizer := by
  have hstart : (replyMachine s reply p.toParty).Reached (.goes p.toParty) := .start rfl
  cases p.awaits with
  | inl hstate =>
      let q : Party Addr :=
        { p.toParty with
          conn := { p.conn with
            connectReply := reply, state := .connectingWaitConnectReplyAuth } }
      have hreply : p.toParty.onReply s reply (ample fun _ => .missing) = .goes q := by
        simp [Party.onReply, hstate, Party.waitConnectReply, ample, q]
      exact ⟨q, .step hstart trivial (congrArg some hreply), rfl, rfl, rfl, rfl, rfl⟩
  | inr hauth => exact ⟨p.toParty, hstart, hauth.1, hauth.2, rfl, rfl, rfl⟩

/-- A reply with an acceptable authorizer can be handled. -/
theorem exists_handled (hreply : q.conn.connectReply = reply)
    (hstate : q.conn.state = .connectingWaitConnectReplyAuth)
    (hshort : reply.authorizerLen.toNat < 4096) (haccepts : Acceptable s reply q) :
    ∃ input, q.onReply s reply input = q.handled s 0 := by
  subst hreply
  by_cases hlen : q.conn.connectReply.authorizerLen.toNat = 0
  · refine ⟨ample fun _ => .missing, ?_⟩
    simp [Party.onReply, hstate, Party.waitConnectReplyAuth, hlen, ample]
  · have haccepts' := haccepts.resolve_left hlen
    cases hauthorizer : q.conn.authorizer with
    | none =>
        refine ⟨ample fun n => .complete (Vector.replicate n 0), ?_⟩
        simp [Party.onReply, hstate, Party.waitConnectReplyAuth, hlen, ample, hauthorizer,
          Nat.not_le.mpr hshort]
    | some a =>
        obtain ⟨bytes, hverified⟩ := haccepts' a hauthorizer
        refine ⟨ample fun n =>
          if h : n = q.conn.connectReply.authorizerLen.toNat then .complete (h ▸ bytes)
          else .missing, ?_⟩
        simp [Party.onReply, hstate, Party.waitConnectReplyAuth, hlen, ample, hauthorizer,
          Nat.not_le.mpr hshort, hverified]

/-- The number is checked once the session is open. -/
theorem aborts_of_ready {M : Machine (Outcome Addr) Input} (hM : M = replyMachine s reply p)
    (hreached : M.Reached (.goes q)) (hstate : q.conn.state = .connectingReady)
    (hseq : q.conn.connectSeq + 1 ≠ q.conn.connectReply.connectSeq) : M.Reached .aborts := by
  subst hM
  have haborts : q.onReply s reply (ample fun _ => .missing) = .aborts := by
    simp [Party.onReply, hstate, Party.connectingReady, hseq]
  exact .step hreached trivial (congrArg some haborts)

theorem harmless_of_survives (p : Awaiting Addr reply) (h : Survives s reply p.toParty) :
    Harmless s reply p.toParty := by
  obtain ⟨q, hreached, hstate, hreply, hseq, hpolicy, hauthorizer⟩ := reached_authorizer (s := s) p
  have hshort : reply.authorizerLen.toNat < 4096 := by
    by_contra hlong
    have haborts : q.onReply s reply (ample fun _ => .missing) = .aborts := by
      have hlen : ¬ reply.authorizerLen.toNat = 0 := by omega
      simp [Party.onReply, hstate, Party.waitConnectReplyAuth, hreply, Nat.not_lt.mp hlong, hlen]
    exact h.lives (.step hreached trivial (congrArg some haborts))
  refine ⟨hshort, fun hacceptable => ?_⟩
  rw [← tagHarmless_congr hseq hpolicy]
  have hacceptable' : Acceptable s reply q := by
    simpa only [Acceptable, hauthorizer] using hacceptable
  obtain ⟨input, hinput⟩ := exists_handled hreply hstate hshort hacceptable'
  have hhandled : (replyMachine s reply p.toParty).Reached (q.handled s 0) :=
    .step hreached trivial (congrArg some hinput)
  by_contra hharms
  cases htag : reply.tag with
  | retrySession =>
      simp only [TagHarmless, htag] at hharms
      have haborts : q.handled s 0 = .aborts := by
        simp [Party.handled, Party.handleConnectReply, Party.onReplyTag, hreply, htag,
          UInt32.not_lt.mp hharms]
      exact h.lives (haborts ▸ hhandled)
  | other tag =>
      simp only [TagHarmless, htag, not_not] at hharms
      have haborts : q.handled s 0 = .aborts := by
        simp [Party.handled, Party.handleConnectReply, Party.onReplyTag, hreply, htag, hharms,
          hstate]
      exact h.lives (haborts ▸ hhandled)
  | ready =>
      simp only [TagHarmless, htag, not_or, not_not] at hharms
      have hgoes : q.handled s 0 =
          .goes { q with conn := { q.conn with state := .connectingReady } } := by
        simp [Party.handled, Party.handleConnectReply, Party.onReplyTag, hreply, htag, hharms.1]
      exact h.lives (aborts_of_ready rfl (hgoes ▸ hhandled) rfl (hreply ▸ hharms.2))
  | seq =>
      simp only [TagHarmless, htag, not_or, not_not] at hharms
      have hgoes : q.handled s 0 =
          .goes { q with conn := { q.conn with state := .connectingWaitAckSeq } } := by
        simp [Party.handled, Party.handleConnectReply, Party.onReplyTag, hreply, htag, hharms.1]
      have hacked := Machine.ReachedUnder.step (a := ample fun _ => .missing) (hgoes ▸ hhandled)
        trivial rfl
      exact h.lives (aborts_of_ready rfl hacked rfl (hreply ▸ hharms.2))
  | _ => simp [TagHarmless, htag] at hharms

/-- **The replies that fail no assertion.** -/
theorem survives_iff_harmless (s : Setup Addr) (reply : ConnectReply) (p : Awaiting Addr reply) :
    Survives s reply p.toParty ↔ Harmless s reply p.toParty :=
  ⟨harmless_of_survives p, survives_of_harmless p⟩

end

/-- A peer that answers with `CEPH_MSGR_TAG_MSG`. -/
theorem not_survives_unknownTag :
    ¬ Survives Setup.plain ⟨.other 7, 0, 0, 0, 0, 0, 0⟩
      ⟨0, { Conn.create 2 4 Policy.plain with state := .connectingWaitConnectReply }⟩ := by
  intro h
  have hharmless := harmless_of_survives
    (⟨⟨0, { Conn.create 2 4 Policy.plain with state := .connectingWaitConnectReply }⟩, .inl rfl⟩ :
      Awaiting ℕ ⟨.other 7, 0, 0, 0, 0, 0, 0⟩) h
  exact hharmless.2 (.inl rfl) rfl

end HwAsync.Connect
