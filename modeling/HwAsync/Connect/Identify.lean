/-
# Who is at the other end

In front of the connect messages both ends of a socket send a banner and addresses.  The acceptor
claims its own address and tells the connector under which address it sees it; the connector
compares the claim with the peer that it wanted, lets its messenger learn the other address, and
answers with its own.  The acceptor replaces an IP that the answer leaves blank.

The two ends are put together here over the bytes of the socket, which takes and returns any number
of them at a time.  The connector drops its lock while the messenger learns the address, and other
threads change the address of either messenger at any time.

How an address is encoded is not part of this code.
-/

import Mathlib.Algebra.Group.Nat.Defs
import HwAsync.Connect.Protocol
import HwAsync.Framing.Lane
import HwAsync.Lib.FixedSize
import HwAsync.Messenger.Bind

namespace HwAsync.Connect

open HwAsync.Framing (Bytes Lane)
open HwAsync.Lib
open HwAsync.Messenger (Binder EntityAddr Family toPort)

/-- `CEPH_BANNER`, and the encoding of addresses for peers without features; `received` is the
address that is decoded from what an address is encoded to. -/
structure AddrWire (Ip : Type) where
  banner : Bytes
  /-- `sizeof(ceph_entity_addr)`. -/
  size : ℕ
  isAny : Family → Ip → Bool
  encode : EntityAddr Ip → Bytes
  decode : Bytes → Option (EntityAddr Ip × Bytes)
  received : EntityAddr Ip → EntityAddr Ip
  size_pos : 0 < size
  need_lt : banner.length + size * 2 < 2 ^ 32
  length_encode : ∀ a, (encode a).length = size
  decode_encode : ∀ a rest, decode (encode a ++ rest) = some (received a, rest)
  received_family : ∀ a, (received a).family = a.family
  received_nonce : ∀ a, (received a).nonce = a.nonce
  received_of_ne_unspec : ∀ a, a.family ≠ .unspec → received a = { a with legacy := true }

/-- `is_blank_ip`. -/
def AddrWire.isBlankIp {Ip : Type} (w : AddrWire Ip) (a : EntityAddr Ip) : Bool :=
  match a.family with
  | .unspec => true
  | family => w.isAny family a.ip

/-- What is the same all the while: the peer of the connector, and the address that the acceptor
got with the socket. -/
structure Meeting (Ip : Type) where
  wire : AddrWire Ip
  /-- `recv_max_prefetch`. -/
  prefetch : ℕ
  prefetch_lt : prefetch < 2 ^ 31
  peerAddr : EntityAddr Ip
  socketAddr : EntityAddr Ip
  socketAddr_family : socketAddr.family ≠ .unspec

/-- Why an end goes to the label `fail` by itself. -/
inductive Complaint
  | badBanner
  | badAddr
  | otherPeer
  deriving DecidableEq, Repr

/-! ## The two ends -/

/-- Where an end stands. -/
structure Stand where
  state : RCState
  stateAfterSend : RCState
  complaint : Option Complaint
  deriving DecidableEq

namespace Stand

/-- `state` behind a `try_send`. -/
def sent (next : RCState) (l : Lane) (c : Stand) : Stand :=
  if l.outgoing = [] then { c with state := next }
  else { c with state := .waitSend, stateAfterSend := next }

/-- `STATE_WAIT_SEND`. -/
def resume (l : Lane) (c : Stand) : Stand :=
  if l.outgoing = [] then { c with state := c.stateAfterSend, stateAfterSend := .none } else c

/-- The label `fail`; what `fault` makes of the connection is not part of this. -/
def fail (complaint : Complaint) (c : Stand) : Stand :=
  { c with state := .closed, complaint := some complaint }

/-- `mark_down`, or a fault of the socket. -/
def leave (c : Stand) : Stand := { c with state := .closed }

/-- It is in the state, or waits to get there. -/
def At (state : RCState) (c : Stand) : Prop :=
  c.state = state ∨ c.state = .waitSend ∧ c.stateAfterSend = state

end Stand

/-- How far the connector is with what it has read: not at all, with its lock dropped in front of
`learned_addr`, or behind it. -/
inductive Pause (Ip : Type)
  | reads
  | unlocked (peerAddrForMe : EntityAddr Ip)
  | learned
  deriving DecidableEq

/-- The connection that connects.  `greeted`, `answered` and `later` are what it has sent: the
banner, its address, and what comes behind. -/
structure Connector (Ip : Type) where
  stand : Stand
  pause : Pause Ip
  greeted : Bool
  answered : Option (EntityAddr Ip)
  later : Bytes

/-- The connection that was accepted, with the address of its messenger; `claimed` is the address
that it has sent as its own, and `later` what it has sent behind. -/
structure Acceptor (Ip : Type) where
  stand : Stand
  myAddr : EntityAddr Ip
  peerAddr : Option (EntityAddr Ip)
  claimed : Option (EntityAddr Ip)
  later : Bytes

/-- Both ends, the messenger of the connector, and the two directions of the socket. -/
structure Meet (Ip : Type) where
  connector : Connector Ip
  acceptor : Acceptor Ip
  binder : Binder Ip
  up : Lane
  down : Lane
  aborted : Bool

variable {Ip : Type}

namespace Meeting

variable (m : Meeting Ip)

/-- `need_len` of the connector. -/
def needIdentify : ℕ := m.wire.banner.length + m.wire.size * 2

/-- What the acceptor reads. -/
def needBannerAddr : ℕ := m.wire.banner.length + m.wire.size

/-- Whether another address than that of the peer is taken for it. -/
def SameNode (paddr : EntityAddr Ip) : Prop :=
  m.wire.isBlankIp paddr = true ∧ m.peerAddr.getPort = paddr.getPort ∧
    m.peerAddr.nonce = paddr.nonce

instance decidableSameNode (paddr : EntityAddr Ip) : Decidable (m.SameNode paddr) :=
  inferInstanceAs (Decidable (_ ∧ _ ∧ _))

/-- The address of the peer, which may not know its IP. -/
def settle (peerAddr : EntityAddr Ip) : EntityAddr Ip :=
  if m.wire.isBlankIp peerAddr then
    { peerAddr with
      family := m.socketAddr.family
      ip := m.socketAddr.ip
      port := toPort peerAddr.getPort }
  else peerAddr

end Meeting

namespace Connector

/-- `STATE_CONNECTING_WAIT_BANNER_AND_IDENTIFY` from the complete read to `lock.unlock`. -/
def identify [DecidableEq Ip] (m : Meeting Ip) (p : Bytes) (c : Connector Ip) : Connector Ip :=
  if p.take m.wire.banner.length ≠ m.wire.banner then { c with stand := c.stand.fail .badBanner }
  else
    match m.wire.decode (p.drop m.wire.banner.length) with
    | none => { c with stand := c.stand.fail .badAddr }
    | some (paddr, rest) =>
        match m.wire.decode rest with
        | none => { c with stand := c.stand.fail .badAddr }
        | some (peerAddrForMe, _) =>
            if m.peerAddr ≠ paddr ∧ ¬ m.SameNode paddr then
              { c with stand := c.stand.fail .otherPeer }
            else { c with pause := .unlocked peerAddrForMe }

/-- What it has sent. -/
def said (m : Meeting Ip) (c : Connector Ip) : Bytes :=
  if c.greeted then m.wire.banner ++ (c.answered.elim [] fun a => m.wire.encode a ++ c.later)
  else []

end Connector

namespace Acceptor

/-- `STATE_ACCEPTING_WAIT_BANNER_ADDR` behind the complete read. -/
def identify (m : Meeting Ip) (p : Bytes) (c : Acceptor Ip) : Acceptor Ip :=
  if p.take m.wire.banner.length ≠ m.wire.banner then { c with stand := c.stand.fail .badBanner }
  else
    match m.wire.decode (p.drop m.wire.banner.length) with
    | none => { c with stand := c.stand.fail .badAddr }
    | some (peerAddr, _) =>
        { c with
          peerAddr := some (m.settle peerAddr)
          stand := { c.stand with state := .acceptingWaitConnectMsg } }

/-- What it has sent. -/
def said (m : Meeting Ip) (c : Acceptor Ip) : Bytes :=
  c.claimed.elim [] fun a =>
    m.wire.banner ++ (m.wire.encode a ++ (m.wire.encode m.socketAddr ++ c.later))

end Acceptor

/-- The steps of the two ends, of the socket, and of the other threads.  `k` is how much the
socket takes at once and `answers` what it returns to the reads. -/
inductive MeetAction (Ip : Type)
  | connectorGreets (k : ℕ)
  | connectorReads (answers : List ℕ)
  | connectorLearns
  | connectorAnswers (k : ℕ)
  | connectorGoesOn (bl : Bytes) (k : ℕ)
  | connectorSends (k : ℕ)
  | connectorResumes
  | connectorLeaves
  | acceptorGreets (k : ℕ)
  | acceptorReads (answers : List ℕ)
  | acceptorGoesOn (bl : Bytes) (k : ℕ)
  | acceptorSends (k : ℕ)
  | acceptorResumes
  | acceptorLeaves
  | others (binder : Binder Ip)
  | renames (myAddr : EntityAddr Ip)

namespace Meet

variable [Inhabited Ip] [DecidableEq Ip] (m : Meeting Ip)

/-- The banner of the connector. -/
def connectorGreets (k : ℕ) (s : Meet Ip) : Meet Ip :=
  let up := s.up.trySend m.wire.banner k
  { s with
    up := up
    connector :=
      { s.connector with
        greeted := true
        stand := s.connector.stand.sent .connectingWaitBannerAndIdentify up } }

/-- What the connector reads. -/
def connectorReads (answers : List ℕ) (s : Meet Ip) : Meet Ip :=
  let r := s.down.readUntil m.prefetch m.needIdentify answers
  match r.1 with
  | none => { s with down := r.2 }
  | some p => { s with down := r.2, connector := s.connector.identify m p }

/-- `learned_addr`, with the assertion in `set_port`. -/
def connectorLearns (peerAddrForMe : EntityAddr Ip) (s : Meet Ip) : Meet Ip :=
  { s with
    binder := s.binder.learnedAddr peerAddrForMe
    connector := { s.connector with pause := .learned }
    aborted := s.aborted || s.binder.needAddr && peerAddrForMe.family == .unspec }

/-- The address of the connector. -/
def connectorAnswers (k : ℕ) (s : Meet Ip) : Meet Ip :=
  let up := s.up.trySend (m.wire.encode s.binder.myAddr) k
  { s with
    up := up
    connector :=
      { s.connector with
        answered := some s.binder.myAddr
        stand := s.connector.stand.sent .connectingSendConnectMsg up } }

/-- `STATE_ACCEPTING`. -/
def acceptorGreets (k : ℕ) (s : Meet Ip) : Meet Ip :=
  let down :=
    s.down.trySend
      (m.wire.banner ++ (m.wire.encode s.acceptor.myAddr ++ m.wire.encode m.socketAddr)) k
  { s with
    down := down
    acceptor :=
      { s.acceptor with
        claimed := some s.acceptor.myAddr
        stand := s.acceptor.stand.sent .acceptingWaitBannerAddr down } }

/-- What the acceptor reads. -/
def acceptorReads (answers : List ℕ) (s : Meet Ip) : Meet Ip :=
  let r := s.up.readUntil m.prefetch m.needBannerAddr answers
  match r.1 with
  | none => { s with up := r.2 }
  | some p => { s with up := r.2, acceptor := s.acceptor.identify m p }

/-- One step. -/
def step (s : Meet Ip) : MeetAction Ip → Option (Meet Ip)
  | .connectorGreets k =>
      if s.connector.stand.state = .connectingRe then some (s.connectorGreets m k) else none
  | .connectorReads answers =>
      if s.connector.stand.state = .connectingWaitBannerAndIdentify ∧
          s.connector.pause = .reads then
        some (s.connectorReads m answers)
      else none
  | .connectorLearns =>
      match s.connector.pause with
      | .unlocked peerAddrForMe => some (s.connectorLearns peerAddrForMe)
      | _ => none
  | .connectorAnswers k =>
      if s.connector.pause = .learned ∧
          s.connector.stand.state = .connectingWaitBannerAndIdentify then
        some (s.connectorAnswers m k)
      else none
  | .connectorGoesOn bl k =>
      if s.connector.stand.state = .connectingSendConnectMsg then
        some
          { s with
            up := s.up.trySend bl k
            connector := { s.connector with later := s.connector.later ++ bl } }
      else none
  | .connectorSends k => some { s with up := s.up.send k }
  | .connectorResumes =>
      if s.connector.stand.state = .waitSend then
        some { s with connector := { s.connector with stand := s.connector.stand.resume s.up } }
      else none
  | .connectorLeaves =>
      some { s with connector := { s.connector with stand := s.connector.stand.leave } }
  | .acceptorGreets k =>
      if s.acceptor.stand.state = .accepting then some (s.acceptorGreets m k) else none
  | .acceptorReads answers =>
      if s.acceptor.stand.state = .acceptingWaitBannerAddr then some (s.acceptorReads m answers)
      else none
  | .acceptorGoesOn bl k =>
      if s.acceptor.stand.state = .acceptingWaitConnectMsg then
        some
          { s with
            down := s.down.trySend bl k
            acceptor := { s.acceptor with later := s.acceptor.later ++ bl } }
      else none
  | .acceptorSends k => some { s with down := s.down.send k }
  | .acceptorResumes =>
      if s.acceptor.stand.state = .waitSend then
        some { s with acceptor := { s.acceptor with stand := s.acceptor.stand.resume s.down } }
      else none
  | .acceptorLeaves =>
      some { s with acceptor := { s.acceptor with stand := s.acceptor.stand.leave } }
  | .others binder =>
      -- The address may become any other; `need_addr` only ever becomes false.
      if binder.needAddr ∧ ¬ s.binder.needAddr then none else some { s with binder := binder }
  | .renames myAddr => some { s with acceptor := { s.acceptor with myAddr := myAddr } }

/-- Both ends have the socket, which has not carried anything yet. -/
structure Fresh (s : Meet Ip) : Prop where
  connector : s.connector = ⟨⟨.connectingRe, .none, none⟩, .reads, false, none, []⟩
  acceptor : ∃ myAddr, s.acceptor = ⟨⟨.accepting, .none, none⟩, myAddr, none, none, []⟩
  up : s.up = .fresh
  down : s.down = .fresh
  aborted : s.aborted = false

end Meet

/-- The two ends of one socket. -/
def Meeting.machine [Inhabited Ip] [DecidableEq Ip] (m : Meeting Ip) :
    Machine (Meet Ip) (MeetAction Ip) where
  start := Meet.Fresh
  step := Meet.step m

/-! ## What is read of what was said -/

section Said

variable {m : Meeting Ip} {p q : Bytes} {a : EntityAddr Ip}

/-- Whether the connector goes on with a peer that claims the address. -/
def Meeting.Accepts (m : Meeting Ip) (paddr : EntityAddr Ip) : Prop :=
  m.peerAddr = paddr ∨ m.SameNode paddr

instance decidableAccepts [DecidableEq Ip] (m : Meeting Ip) (paddr : EntityAddr Ip) :
    Decidable (m.Accepts paddr) :=
  inferInstanceAs (Decidable (_ ∨ _))

/-- What the acceptor reads is complete only behind the address of the connector. -/
theorem Connector.answered_of_said {c : Connector Ip} (h : p ++ q = c.said m)
    (hlength : p.length = m.needBannerAddr) :
    ∃ a, c.greeted = true ∧ c.answered = some a ∧ p = m.wire.banner ++ m.wire.encode a ∧
      q = c.later := by
  have hpos := m.wire.size_pos
  have hle : p.length ≤ (c.said m).length := by
    rw [← h, List.length_append]
    exact Nat.le_add_right _ _
  unfold said at h hle
  unfold Meeting.needBannerAddr at hlength
  cases hgreeted : c.greeted with
  | false =>
      simp only [hgreeted, Bool.false_eq_true, if_false, List.length_nil] at hle
      omega
  | true =>
      simp only [hgreeted, if_true] at h hle
      cases hanswered : c.answered with
      | none =>
          simp only [hanswered, Option.elim_none, List.append_nil] at hle
          omega
      | some a =>
          simp only [hanswered, Option.elim_some, ← List.append_assoc m.wire.banner] at h
          obtain ⟨hp, hq⟩ := List.append_inj h
            (by rw [hlength, List.length_append, m.wire.length_encode])
          exact ⟨a, rfl, rfl, hp, hq⟩

/-- What the connector reads is complete only behind both addresses. -/
theorem Acceptor.claimed_of_said {c : Acceptor Ip} (h : p ++ q = c.said m)
    (hlength : p.length = m.needIdentify) :
    ∃ a, c.claimed = some a ∧
      p = m.wire.banner ++ (m.wire.encode a ++ m.wire.encode m.socketAddr) ∧ q = c.later := by
  have hpos := m.wire.size_pos
  have hle : p.length ≤ (c.said m).length := by
    rw [← h, List.length_append]
    exact Nat.le_add_right _ _
  unfold said at h hle
  unfold Meeting.needIdentify at hlength
  cases hclaimed : c.claimed with
  | none =>
      simp only [hclaimed, Option.elim_none, List.length_nil] at hle
      omega
  | some a =>
      simp only [hclaimed, Option.elim_some] at h
      rw [← List.append_assoc (m.wire.encode a), ← List.append_assoc m.wire.banner] at h
      obtain ⟨hp, hq⟩ := List.append_inj h (by
        simp only [hlength, List.length_append, m.wire.length_encode]
        omega)
      exact ⟨a, rfl, hp, hq⟩

theorem Connector.length_said {c : Connector Ip} {a : EntityAddr Ip} (hgreeted : c.greeted = true)
    (hanswered : c.answered = some a) : m.needBannerAddr ≤ (c.said m).length := by
  simp only [said, hgreeted, hanswered, if_true, Option.elim_some, Meeting.needBannerAddr,
    List.length_append, m.wire.length_encode]
  omega

theorem Acceptor.length_said {c : Acceptor Ip} {a : EntityAddr Ip} (hclaimed : c.claimed = some a) :
    m.needIdentify ≤ (c.said m).length := by
  simp only [said, hclaimed, Option.elim_some, Meeting.needIdentify, List.length_append,
    m.wire.length_encode]
  omega

/-- The connector understands what the acceptor sends, and compares the claim. -/
theorem Connector.identify_of_claimed [DecidableEq Ip] (c : Connector Ip) :
    c.identify m (m.wire.banner ++ (m.wire.encode a ++ m.wire.encode m.socketAddr)) =
      if m.Accepts (m.wire.received a) then
        { c with pause := .unlocked (m.wire.received m.socketAddr) }
      else { c with stand := c.stand.fail .otherPeer } := by
  have hlast := m.wire.decode_encode m.socketAddr []
  rw [List.append_nil] at hlast
  simp only [identify, List.take_left, List.drop_left, ne_eq, not_true_eq_false, if_false,
    m.wire.decode_encode, hlast]
  by_cases haccepts : m.Accepts (m.wire.received a)
  · rw [if_pos haccepts, if_neg]
    rintro ⟨hne, hother⟩
    exact haccepts.elim hne hother
  · rw [if_neg haccepts, if_pos]
    exact not_or.mp haccepts

/-- The acceptor understands what the connector sends. -/
theorem Acceptor.identify_of_answered (c : Acceptor Ip) :
    c.identify m (m.wire.banner ++ m.wire.encode a) =
      { c with
        peerAddr := some (m.settle (m.wire.received a))
        stand := { c.stand with state := .acceptingWaitConnectMsg } } := by
  have hlast := m.wire.decode_encode a []
  rw [List.append_nil] at hlast
  simp only [identify, List.take_left, List.drop_left, ne_eq, not_true_eq_false, if_false, hlast]

end Said

/-! ## The invariant -/

namespace Stand

variable {next : RCState} {l : Lane} {c : Stand}

theorem sent_complaint : (c.sent next l).complaint = c.complaint := by
  unfold sent
  split <;> rfl

theorem at_sent : (c.sent next l).At next := by
  unfold sent
  split
  · exact .inl rfl
  · exact .inr ⟨rfl, rfl⟩

theorem resume_complaint : (c.resume l).complaint = c.complaint := by
  unfold resume
  split <;> rfl

theorem At.resume (h : c.At next) (hstate : c.state = .waitSend) (hnext : next ≠ .waitSend) :
    (c.resume l).At next := by
  unfold Stand.resume
  split
  · obtain heq | ⟨-, hafter⟩ := h
    · exact absurd (heq.symm.trans hstate) hnext
    · exact .inl hafter
  · exact h

/-- An end that does not wait stands where it is. -/
theorem At.eq {state : RCState} (h : c.At next) (hstate : c.state = state)
    (hne : state ≠ .waitSend) : next = state := by
  obtain heq | ⟨hwait, -⟩ := h
  · exact heq.symm.trans hstate
  · exact absurd (hstate.symm.trans hwait) hne

end Stand

/-- How far the connector is. -/
inductive Connector.Stage (c : Connector Ip) : Prop
  | begins (hstate : c.stand.state = .connectingRe) (hcomplaint : c.stand.complaint = none)
      (hpause : c.pause = .reads) (hgreeted : c.greeted = false) (hanswered : c.answered = none)
      (hlater : c.later = [])
  | listens (hat : c.stand.At .connectingWaitBannerAndIdentify)
      (hcomplaint : c.stand.complaint = none) (hpause : c.pause = .reads)
      (hgreeted : c.greeted = true) (hanswered : c.answered = none) (hlater : c.later = [])
  | pauses (hstate : c.stand.state = .connectingWaitBannerAndIdentify)
      (hcomplaint : c.stand.complaint = none) (hpause : c.pause ≠ .reads)
      (hgreeted : c.greeted = true) (hanswered : c.answered = none) (hlater : c.later = [])
  | speaks (hat : c.stand.At .connectingSendConnectMsg) (hcomplaint : c.stand.complaint = none)
      (hpause : c.pause = .learned) (hgreeted : c.greeted = true) (hanswered : c.answered ≠ none)
  | left (hstate : c.stand.state = .closed)

/-- How far the acceptor is. -/
inductive Acceptor.Stage (c : Acceptor Ip) : Prop
  | begins (hstate : c.stand.state = .accepting) (hcomplaint : c.stand.complaint = none)
      (hclaimed : c.claimed = none) (hpeer : c.peerAddr = none) (hlater : c.later = [])
  | listens (hat : c.stand.At .acceptingWaitBannerAddr) (hcomplaint : c.stand.complaint = none)
      (hclaimed : c.claimed ≠ none) (hpeer : c.peerAddr = none)
  | settles (hstate : c.stand.state = .acceptingWaitConnectMsg)
      (hcomplaint : c.stand.complaint = none) (hclaimed : c.claimed ≠ none)
      (hpeer : c.peerAddr ≠ none)
  | left (hstate : c.stand.state = .closed) (hcomplaint : c.stand.complaint = none)

namespace Connector.Stage

variable {c : Connector Ip}

theorem of_connectingRe (h : c.Stage) (hstate : c.stand.state = .connectingRe) :
    c.stand.complaint = none ∧ c.pause = .reads ∧ c.greeted = false ∧ c.answered = none ∧
      c.later = [] := by
  cases h with
  | begins _ hcomplaint hpause hgreeted hanswered hlater =>
      exact ⟨hcomplaint, hpause, hgreeted, hanswered, hlater⟩
  | listens hat => cases hat.eq hstate nofun
  | pauses hother => cases hother.symm.trans hstate
  | speaks hat => cases hat.eq hstate nofun
  | left hclosed => cases hclosed.symm.trans hstate

theorem of_identify (h : c.Stage)
    (hstate : c.stand.state = .connectingWaitBannerAndIdentify) :
    c.stand.complaint = none ∧ c.greeted = true ∧ c.answered = none ∧ c.later = [] := by
  cases h with
  | begins hother => cases hother.symm.trans hstate
  | listens _ hcomplaint _ hgreeted hanswered hlater =>
      exact ⟨hcomplaint, hgreeted, hanswered, hlater⟩
  | pauses _ hcomplaint _ hgreeted hanswered hlater =>
      exact ⟨hcomplaint, hgreeted, hanswered, hlater⟩
  | speaks hat => cases hat.eq hstate nofun
  | left hclosed => cases hclosed.symm.trans hstate

theorem of_sendConnectMsg (h : c.Stage) (hstate : c.stand.state = .connectingSendConnectMsg) :
    c.stand.complaint = none ∧ c.pause = .learned ∧ c.greeted = true ∧ c.answered ≠ none := by
  cases h with
  | begins hother => cases hother.symm.trans hstate
  | listens hat => cases hat.eq hstate nofun
  | pauses hother => cases hother.symm.trans hstate
  | speaks _ hcomplaint hpause hgreeted hanswered =>
      exact ⟨hcomplaint, hpause, hgreeted, hanswered⟩
  | left hclosed => cases hclosed.symm.trans hstate

end Connector.Stage

namespace Acceptor.Stage

variable {c : Acceptor Ip}

theorem complaint (h : c.Stage) : c.stand.complaint = none := by
  cases h with
  | begins _ hcomplaint => exact hcomplaint
  | listens _ hcomplaint => exact hcomplaint
  | settles _ hcomplaint => exact hcomplaint
  | left _ hcomplaint => exact hcomplaint

theorem of_accepting (h : c.Stage) (hstate : c.stand.state = .accepting) :
    c.claimed = none ∧ c.peerAddr = none ∧ c.later = [] := by
  cases h with
  | begins _ _ hclaimed hpeer hlater => exact ⟨hclaimed, hpeer, hlater⟩
  | listens hat => cases hat.eq hstate nofun
  | settles hother => cases hother.symm.trans hstate
  | left hclosed => cases hclosed.symm.trans hstate

theorem of_bannerAddr (h : c.Stage) (hstate : c.stand.state = .acceptingWaitBannerAddr) :
    c.claimed ≠ none ∧ c.peerAddr = none := by
  cases h with
  | begins hother => cases hother.symm.trans hstate
  | listens _ _ hclaimed hpeer => exact ⟨hclaimed, hpeer⟩
  | settles hother => cases hother.symm.trans hstate
  | left hclosed => cases hclosed.symm.trans hstate

theorem of_connectMsg (h : c.Stage) (hstate : c.stand.state = .acceptingWaitConnectMsg) :
    c.claimed ≠ none ∧ c.peerAddr ≠ none := by
  cases h with
  | begins hother => cases hother.symm.trans hstate
  | listens hat => cases hat.eq hstate nofun
  | settles _ _ hclaimed hpeer => exact ⟨hclaimed, hpeer⟩
  | left hclosed => cases hclosed.symm.trans hstate

end Acceptor.Stage

/-- What the connector makes of what it has read. -/
structure Connector.Heard (m : Meeting Ip) (claimed : Option (EntityAddr Ip)) (down : Lane)
    (c : Connector Ip) : Prop where
  nothing : c.pause = .reads → c.stand.complaint = none →
    down.heard = [] ∧ down.inbound.dest.length < m.needIdentify
  peer : c.pause ≠ .reads → ∃ a, claimed = some a ∧ m.Accepts (m.wire.received a) ∧
    down.heard = m.wire.banner ++ (m.wire.encode a ++ m.wire.encode m.socketAddr) ∧
    down.inbound.dest = []
  peerAddrForMe : ∀ a, c.pause = .unlocked a → a = m.wire.received m.socketAddr
  complaint : ∀ x, c.stand.complaint = some x →
    x = .otherPeer ∧ ∃ a, claimed = some a ∧ ¬ m.Accepts (m.wire.received a)

/-- What the acceptor makes of what it has read. -/
structure Acceptor.Heard (m : Meeting Ip) (answered : Option (EntityAddr Ip)) (up : Lane)
    (c : Acceptor Ip) : Prop where
  nothing : c.peerAddr = none → up.heard = [] ∧ up.inbound.dest.length < m.needBannerAddr
  peer : ∀ p, c.peerAddr = some p → ∃ a, answered = some a ∧ p = m.settle (m.wire.received a) ∧
    up.heard = m.wire.banner ++ m.wire.encode a ∧ up.inbound.dest = []

/-- What is known at any time. -/
structure Meet.Known (m : Meeting Ip) (s : Meet Ip) : Prop where
  up : s.up.Carries (s.connector.said m)
  down : s.down.Carries (s.acceptor.said m)
  connector : s.connector.Stage
  acceptor : s.acceptor.Stage
  heardDown : s.connector.Heard m s.acceptor.claimed s.down
  heardUp : s.acceptor.Heard m s.connector.answered s.up
  learned : s.connector.pause = .learned → s.binder.needAddr = false
  aborted : s.aborted = false

namespace Meet

section Steps

variable {m : Meeting Ip} {s t : Meet Ip} {k : ℕ} {bl : Bytes} {answers : List ℕ}

theorem Known.connectorSends (h : s.Known m) :
    ({ s with up := s.up.send k } : Meet Ip).Known m where
  up := h.up.send
  down := h.down
  connector := h.connector
  acceptor := h.acceptor
  heardDown := h.heardDown
  heardUp := ⟨h.heardUp.nothing, h.heardUp.peer⟩
  learned := h.learned
  aborted := h.aborted

theorem Known.acceptorSends (h : s.Known m) :
    ({ s with down := s.down.send k } : Meet Ip).Known m where
  up := h.up
  down := h.down.send
  connector := h.connector
  acceptor := h.acceptor
  heardDown := ⟨h.heardDown.nothing, h.heardDown.peer, h.heardDown.peerAddrForMe,
    h.heardDown.complaint⟩
  heardUp := h.heardUp
  learned := h.learned
  aborted := h.aborted

/-- The connector stands elsewhere, with the same complaint. -/
theorem Known.connectorStands {stand : Stand} (h : s.Known m)
    (hcomplaint : stand.complaint = s.connector.stand.complaint)
    (hstage : ({ s.connector with stand := stand } : Connector Ip).Stage) :
    ({ s with connector := { s.connector with stand := stand } } : Meet Ip).Known m where
  up := h.up
  down := h.down
  connector := hstage
  acceptor := h.acceptor
  heardDown :=
    ⟨fun hpause hnone => h.heardDown.nothing hpause (hcomplaint.symm.trans hnone),
      h.heardDown.peer, h.heardDown.peerAddrForMe,
      fun x hx => h.heardDown.complaint x (hcomplaint.symm.trans hx)⟩
  heardUp := h.heardUp
  learned := h.learned
  aborted := h.aborted

/-- The acceptor stands elsewhere. -/
theorem Known.acceptorStands {stand : Stand} (h : s.Known m)
    (hstage : ({ s.acceptor with stand := stand } : Acceptor Ip).Stage) :
    ({ s with acceptor := { s.acceptor with stand := stand } } : Meet Ip).Known m where
  up := h.up
  down := h.down
  connector := h.connector
  acceptor := hstage
  heardDown := h.heardDown
  heardUp := ⟨h.heardUp.nothing, h.heardUp.peer⟩
  learned := h.learned
  aborted := h.aborted

theorem Known.connectorResumes (h : s.Known m) (hstate : s.connector.stand.state = .waitSend) :
    ({ s with
      connector := { s.connector with stand := s.connector.stand.resume s.up } } :
        Meet Ip).Known m := by
  apply h.connectorStands Stand.resume_complaint
  cases h.connector with
  | begins hother => cases hother.symm.trans hstate
  | listens hat hcomplaint hpause hgreeted hanswered hlater =>
      exact .listens (hat.resume hstate nofun) (Stand.resume_complaint.trans hcomplaint) hpause
        hgreeted hanswered hlater
  | pauses hother => cases hother.symm.trans hstate
  | speaks hat hcomplaint hpause hgreeted hanswered =>
      exact .speaks (hat.resume hstate nofun) (Stand.resume_complaint.trans hcomplaint) hpause
        hgreeted hanswered
  | left hclosed => cases hclosed.symm.trans hstate

theorem Known.acceptorResumes (h : s.Known m) (hstate : s.acceptor.stand.state = .waitSend) :
    ({ s with
      acceptor := { s.acceptor with stand := s.acceptor.stand.resume s.down } } :
        Meet Ip).Known m := by
  apply h.acceptorStands
  cases h.acceptor with
  | begins hother => cases hother.symm.trans hstate
  | listens hat hcomplaint hclaimed hpeer =>
      exact .listens (hat.resume hstate nofun) (Stand.resume_complaint.trans hcomplaint) hclaimed
        hpeer
  | settles hother => cases hother.symm.trans hstate
  | left hclosed => cases hclosed.symm.trans hstate

theorem Known.connectorLeaves (h : s.Known m) :
    ({ s with connector := { s.connector with stand := s.connector.stand.leave } } :
      Meet Ip).Known m :=
  h.connectorStands rfl (.left rfl)

theorem Known.acceptorLeaves (h : s.Known m) :
    ({ s with acceptor := { s.acceptor with stand := s.acceptor.stand.leave } } :
      Meet Ip).Known m :=
  h.acceptorStands (.left rfl h.acceptor.complaint)

/-! ### The steps that write -/

/-- The connector goes on from what it knows, and says more. -/
theorem Known.connectorWrites {c : Connector Ip} (h : s.Known m) (hstage : c.Stage)
    (hsaid : c.said m = s.connector.said m ++ bl) (hpause : c.pause = s.connector.pause)
    (hcomplaint : c.stand.complaint = s.connector.stand.complaint)
    (hanswered : ∀ a, s.connector.answered = some a → c.answered = some a) :
    ({ s with up := s.up.trySend bl k, connector := c } : Meet Ip).Known m where
  up := by
    rw [hsaid]
    exact h.up.trySend
  down := h.down
  connector := hstage
  acceptor := h.acceptor
  heardDown := by
    constructor
    · rw [hpause, hcomplaint]
      exact h.heardDown.nothing
    · rw [hpause]
      exact h.heardDown.peer
    · rw [hpause]
      exact h.heardDown.peerAddrForMe
    · rw [hcomplaint]
      exact h.heardDown.complaint
  heardUp := by
    refine ⟨h.heardUp.nothing, fun p hp => ?_⟩
    obtain ⟨a, ha, hrest⟩ := h.heardUp.peer p hp
    exact ⟨a, hanswered a ha, hrest⟩
  learned := by
    rw [hpause]
    exact h.learned
  aborted := h.aborted

/-- The acceptor goes on from what it knows, and says more. -/
theorem Known.acceptorWrites {c : Acceptor Ip} (h : s.Known m) (hstage : c.Stage)
    (hsaid : c.said m = s.acceptor.said m ++ bl) (hpeer : c.peerAddr = s.acceptor.peerAddr)
    (hclaimed : ∀ a, s.acceptor.claimed = some a → c.claimed = some a) :
    ({ s with down := s.down.trySend bl k, acceptor := c } : Meet Ip).Known m where
  up := h.up
  down := by
    rw [hsaid]
    exact h.down.trySend
  connector := h.connector
  acceptor := hstage
  heardDown := by
    refine ⟨h.heardDown.nothing, fun hpause => ?_, h.heardDown.peerAddrForMe, fun x hx => ?_⟩
    · obtain ⟨a, ha, hrest⟩ := h.heardDown.peer hpause
      exact ⟨a, hclaimed a ha, hrest⟩
    · obtain ⟨hother, a, ha, hrest⟩ := h.heardDown.complaint x hx
      exact ⟨hother, a, hclaimed a ha, hrest⟩
  heardUp := by
    constructor
    · rw [hpeer]
      exact h.heardUp.nothing
    · rw [hpeer]
      exact h.heardUp.peer
  learned := h.learned
  aborted := h.aborted

theorem Known.connectorGreets (h : s.Known m) (hstate : s.connector.stand.state = .connectingRe) :
    (s.connectorGreets m k).Known m := by
  obtain ⟨hcomplaint, hpause, hgreeted, hanswered, hlater⟩ := h.connector.of_connectingRe hstate
  refine h.connectorWrites ?_ ?_ rfl Stand.sent_complaint fun a ha => ha
  · exact .listens Stand.at_sent (Stand.sent_complaint.trans hcomplaint) hpause rfl hanswered hlater
  · simp [Connector.said, hgreeted, hanswered]

theorem Known.connectorAnswers (h : s.Known m) (hpause : s.connector.pause = .learned)
    (hstate : s.connector.stand.state = .connectingWaitBannerAndIdentify) :
    (s.connectorAnswers m k).Known m := by
  obtain ⟨hcomplaint, hgreeted, hanswered, hlater⟩ := h.connector.of_identify hstate
  refine h.connectorWrites ?_ ?_ rfl Stand.sent_complaint fun a ha => ?_
  · exact .speaks Stand.at_sent (Stand.sent_complaint.trans hcomplaint) hpause hgreeted nofun
  · simp [Connector.said, hgreeted, hanswered, hlater]
  · cases hanswered.symm.trans ha

theorem Known.connectorGoesOn (h : s.Known m)
    (hstate : s.connector.stand.state = .connectingSendConnectMsg) :
    ({ s with
      up := s.up.trySend bl k
      connector := { s.connector with later := s.connector.later ++ bl } } : Meet Ip).Known m := by
  obtain ⟨hcomplaint, hpause, hgreeted, hanswered⟩ := h.connector.of_sendConnectMsg hstate
  obtain ⟨a, ha⟩ := Option.ne_none_iff_exists'.mp hanswered
  refine h.connectorWrites ?_ ?_ rfl rfl fun a ha => ha
  · exact .speaks (.inl hstate) hcomplaint hpause hgreeted hanswered
  · simp [Connector.said, hgreeted, ha]

theorem Known.acceptorGreets (h : s.Known m) (hstate : s.acceptor.stand.state = .accepting) :
    (s.acceptorGreets m k).Known m := by
  obtain ⟨hclaimed, hpeer, hlater⟩ := h.acceptor.of_accepting hstate
  refine h.acceptorWrites ?_ ?_ rfl fun a ha => ?_
  · exact .listens Stand.at_sent (Stand.sent_complaint.trans h.acceptor.complaint) nofun hpeer
  · simp [Acceptor.said, hclaimed, hlater]
  · cases hclaimed.symm.trans ha

theorem Known.acceptorGoesOn (h : s.Known m)
    (hstate : s.acceptor.stand.state = .acceptingWaitConnectMsg) :
    ({ s with
      down := s.down.trySend bl k
      acceptor := { s.acceptor with later := s.acceptor.later ++ bl } } : Meet Ip).Known m := by
  obtain ⟨hclaimed, hpeer⟩ := h.acceptor.of_connectMsg hstate
  obtain ⟨a, ha⟩ := Option.ne_none_iff_exists'.mp hclaimed
  refine h.acceptorWrites ?_ ?_ rfl fun a ha => ha
  · exact .settles hstate h.acceptor.complaint hclaimed hpeer
  · simp [Acceptor.said, ha]

/-! ### The steps that read -/

theorem Known.connectorReads [DecidableEq Ip] (h : s.Known m)
    (hstate : s.connector.stand.state = .connectingWaitBannerAndIdentify)
    (hpause : s.connector.pause = .reads) : (s.connectorReads m answers).Known m := by
  obtain ⟨hcomplaint, hgreeted, hanswered, hlater⟩ := h.connector.of_identify hstate
  obtain ⟨hheard, hshort⟩ := h.heardDown.nothing hpause hcomplaint
  unfold Meet.connectorReads
  cases hread : s.down.readUntil m.prefetch m.needIdentify answers with
  | mk r down =>
      cases r with
      | none =>
          obtain ⟨hcarries, hsame, hshort'⟩ :=
            h.down.again hshort m.wire.need_lt m.prefetch_lt hread
          exact
            { h with
              down := hcarries
              heardDown := ⟨fun _ _ => ⟨hsame.trans hheard, hshort'⟩, fun hne => absurd hpause hne,
                h.heardDown.peerAddrForMe, h.heardDown.complaint⟩ }
      | some p =>
          obtain ⟨hcarries, hadded, hlength, hdest⟩ :=
            h.down.complete hshort m.wire.need_lt m.prefetch_lt hread
          rw [hheard, List.nil_append] at hadded
          have hconserved := hcarries.conserved
          rw [hadded] at hconserved
          obtain ⟨a, hclaimed, rfl, -⟩ := Acceptor.claimed_of_said hconserved hlength
          simp only [Connector.identify_of_claimed]
          by_cases haccepts : m.Accepts (m.wire.received a)
          · rw [if_pos haccepts]
            exact
              { up := h.up
                down := hcarries
                connector := .pauses hstate hcomplaint nofun hgreeted hanswered hlater
                acceptor := h.acceptor
                heardDown := ⟨nofun, fun _ => ⟨a, hclaimed, haccepts, hadded, hdest⟩,
                  fun b hb => (Pause.unlocked.inj hb).symm, h.heardDown.complaint⟩
                heardUp := h.heardUp
                learned := nofun
                aborted := h.aborted }
          · rw [if_neg haccepts]
            exact
              { up := h.up
                down := hcarries
                connector := .left rfl
                acceptor := h.acceptor
                heardDown := ⟨fun _ => nofun, fun hne => absurd hpause hne,
                  h.heardDown.peerAddrForMe,
                  fun x hx => ⟨(Option.some.inj hx).symm, a, hclaimed, haccepts⟩⟩
                heardUp := h.heardUp
                learned := h.learned
                aborted := h.aborted }

theorem Known.connectorLearns [Inhabited Ip] [DecidableEq Ip] {peerAddrForMe : EntityAddr Ip}
    (h : s.Known m) (hpause : s.connector.pause = .unlocked peerAddrForMe) :
    (s.connectorLearns peerAddrForMe).Known m where
  up := h.up
  down := h.down
  connector := by
    cases h.connector with
    | begins _ _ hreads => cases hreads.symm.trans hpause
    | listens _ _ hreads => cases hreads.symm.trans hpause
    | pauses hstate hcomplaint _ hgreeted hanswered hlater =>
        exact .pauses hstate hcomplaint nofun hgreeted hanswered hlater
    | speaks _ _ hlearned => cases hlearned.symm.trans hpause
    | left hclosed => exact .left hclosed
  acceptor := h.acceptor
  heardDown := ⟨nofun, fun _ => h.heardDown.peer (by rw [hpause]; nofun), nofun,
    h.heardDown.complaint⟩
  heardUp := h.heardUp
  learned _ := by
    simp only [Meet.connectorLearns, Binder.learnedAddr]
    split
    · rfl
    · rename_i hneed
      exact Bool.eq_false_iff.mpr hneed
  aborted := by
    have hfamily : peerAddrForMe.family ≠ .unspec := by
      rw [h.heardDown.peerAddrForMe peerAddrForMe hpause, m.wire.received_family]
      exact m.socketAddr_family
    simp [Meet.connectorLearns, h.aborted, hfamily]

theorem Known.acceptorReads (h : s.Known m)
    (hstate : s.acceptor.stand.state = .acceptingWaitBannerAddr) :
    (s.acceptorReads m answers).Known m := by
  obtain ⟨hclaimed, hpeer⟩ := h.acceptor.of_bannerAddr hstate
  obtain ⟨hheard, hshort⟩ := h.heardUp.nothing hpeer
  have hlt : m.needBannerAddr < 2 ^ 32 := by
    have hneed := m.wire.need_lt
    unfold Meeting.needBannerAddr
    omega
  unfold Meet.acceptorReads
  cases hread : s.up.readUntil m.prefetch m.needBannerAddr answers with
  | mk r up =>
      cases r with
      | none =>
          obtain ⟨hcarries, hsame, hshort'⟩ := h.up.again hshort hlt m.prefetch_lt hread
          exact
            { h with
              up := hcarries
              heardUp := ⟨fun _ => ⟨hsame.trans hheard, hshort'⟩,
                fun p hp => nomatch hpeer.symm.trans hp⟩ }
      | some p =>
          obtain ⟨hcarries, hadded, hlength, hdest⟩ := h.up.complete hshort hlt m.prefetch_lt hread
          rw [hheard, List.nil_append] at hadded
          have hconserved := hcarries.conserved
          rw [hadded] at hconserved
          obtain ⟨a, -, hanswered, rfl, -⟩ := Connector.answered_of_said hconserved hlength
          simp only [Acceptor.identify_of_answered]
          exact
            { up := hcarries
              down := h.down
              connector := h.connector
              acceptor := .settles rfl h.acceptor.complaint hclaimed nofun
              heardDown := h.heardDown
              heardUp := ⟨nofun, fun p hp =>
                ⟨a, hanswered, (Option.some.inj hp).symm, hadded, hdest⟩⟩
              learned := h.learned
              aborted := h.aborted }

end Steps

variable {m : Meeting Ip} {s t : Meet Ip}

theorem known_of_fresh (h : s.Fresh) : s.Known m := by
  obtain ⟨hconnector, ⟨myAddr, hacceptor⟩, hup, hdown, haborted⟩ := h
  have hpos := m.wire.size_pos
  constructor
  · rw [hup, hconnector]
    exact Lane.carries_fresh
  · rw [hdown, hacceptor]
    exact Lane.carries_fresh
  · rw [hconnector]
    exact .begins rfl rfl rfl rfl rfl rfl
  · rw [hacceptor]
    exact .begins rfl rfl rfl rfl rfl
  · rw [hconnector, hdown]
    refine ⟨fun _ _ => ⟨rfl, ?_⟩, fun hne => absurd rfl hne, nofun, nofun⟩
    change 0 < m.wire.banner.length + m.wire.size * 2
    omega
  · rw [hacceptor, hup]
    refine ⟨fun _ => ⟨rfl, ?_⟩, nofun⟩
    change 0 < m.wire.banner.length + m.wire.size
    omega
  · rw [hconnector]
    nofun
  · exact haborted

variable [Inhabited Ip] [DecidableEq Ip]

/-- Every step of the ends, of the socket and of other threads leaves it known. -/
theorem known_of_step (h : s.Known m) {a : MeetAction Ip} (hstep : s.step m a = some t) :
    t.Known m := by
  cases a with
  | connectorGreets k =>
      simp only [step, Option.ite_none_right_eq_some, Option.some.injEq] at hstep
      obtain ⟨hstate, rfl⟩ := hstep
      exact h.connectorGreets hstate
  | connectorReads answers =>
      simp only [step, Option.ite_none_right_eq_some, Option.some.injEq] at hstep
      obtain ⟨⟨hstate, hpause⟩, rfl⟩ := hstep
      exact h.connectorReads hstate hpause
  | connectorLearns =>
      simp only [step] at hstep
      split at hstep
      · rename_i hpause
        cases hstep
        exact h.connectorLearns hpause
      · cases hstep
  | connectorAnswers k =>
      simp only [step, Option.ite_none_right_eq_some, Option.some.injEq] at hstep
      obtain ⟨⟨hpause, hstate⟩, rfl⟩ := hstep
      exact h.connectorAnswers hpause hstate
  | connectorGoesOn bl k =>
      simp only [step, Option.ite_none_right_eq_some, Option.some.injEq] at hstep
      obtain ⟨hstate, rfl⟩ := hstep
      exact h.connectorGoesOn hstate
  | connectorSends k =>
      cases hstep
      exact h.connectorSends
  | connectorResumes =>
      simp only [step, Option.ite_none_right_eq_some, Option.some.injEq] at hstep
      obtain ⟨hstate, rfl⟩ := hstep
      exact h.connectorResumes hstate
  | connectorLeaves =>
      cases hstep
      exact h.connectorLeaves
  | acceptorGreets k =>
      simp only [step, Option.ite_none_right_eq_some, Option.some.injEq] at hstep
      obtain ⟨hstate, rfl⟩ := hstep
      exact h.acceptorGreets hstate
  | acceptorReads answers =>
      simp only [step, Option.ite_none_right_eq_some, Option.some.injEq] at hstep
      obtain ⟨hstate, rfl⟩ := hstep
      exact h.acceptorReads hstate
  | acceptorGoesOn bl k =>
      simp only [step, Option.ite_none_right_eq_some, Option.some.injEq] at hstep
      obtain ⟨hstate, rfl⟩ := hstep
      exact h.acceptorGoesOn hstate
  | acceptorSends k =>
      cases hstep
      exact h.acceptorSends
  | acceptorResumes =>
      simp only [step, Option.ite_none_right_eq_some, Option.some.injEq] at hstep
      obtain ⟨hstate, rfl⟩ := hstep
      exact h.acceptorResumes hstate
  | acceptorLeaves =>
      cases hstep
      exact h.acceptorLeaves
  | others binder =>
      simp only [step] at hstep
      split at hstep
      · cases hstep
      · rename_i hneed
        cases hstep
        refine { h with learned := fun hpause => ?_ }
        have hfalse := h.learned hpause
        rw [hfalse] at hneed
        exact Bool.eq_false_iff.mpr fun htrue => hneed ⟨htrue, nofun⟩
  | renames myAddr =>
      cases hstep
      refine { h with acceptor := ?_, heardUp := ⟨h.heardUp.nothing, h.heardUp.peer⟩ }
      cases h.acceptor with
      | begins hstate hcomplaint hclaimed hpeer hlater =>
          exact .begins hstate hcomplaint hclaimed hpeer hlater
      | listens hat hcomplaint hclaimed hpeer => exact .listens hat hcomplaint hclaimed hpeer
      | settles hstate hcomplaint hclaimed hpeer => exact .settles hstate hcomplaint hclaimed hpeer
      | left hstate hcomplaint => exact .left hstate hcomplaint

theorem known_of_reached (h : m.machine.Reached s) : s.Known m :=
  h.invariant (Known m) (fun _ hstart => known_of_fresh hstart)
    fun _ _ _ hknown _ hstep => known_of_step hknown hstep

end Meet

/-! ## Who is known to whom -/

section Peers

variable {m : Meeting Ip} {a p : EntityAddr Ip}

/-- The address is that of the peer that the connector wants, but for an IP that is left blank. -/
def Meeting.IsPeer (m : Meeting Ip) (a : EntityAddr Ip) : Prop :=
  m.peerAddr.getPort = a.getPort ∧ m.peerAddr.nonce = a.nonce ∧
    (m.wire.isBlankIp a = true ∨ m.peerAddr = { a with legacy := true })

/-- The acceptor knows a connector with the first address under the second one. -/
structure Meeting.KnownAs (m : Meeting Ip) (a p : EntityAddr Ip) : Prop where
  nonce : p.nonce = a.nonce
  port : p.getPort = a.getPort
  blank : m.wire.isBlankIp a = true → p.family = m.socketAddr.family ∧ p.ip = m.socketAddr.ip
  own : m.wire.isBlankIp a = false → p = { a with legacy := true }

theorem AddrWire.isBlankIp_received (w : AddrWire Ip) (a : EntityAddr Ip) :
    w.isBlankIp (w.received a) = w.isBlankIp a := by
  cases hfamily : a.family with
  | unspec => simp [isBlankIp, w.received_family, hfamily]
  | inet => rw [w.received_of_ne_unspec a (by rw [hfamily]; nofun)]; rfl
  | inet6 => rw [w.received_of_ne_unspec a (by rw [hfamily]; nofun)]; rfl

theorem AddrWire.getPort_received (w : AddrWire Ip) (a : EntityAddr Ip) :
    (w.received a).getPort = a.getPort := by
  by_cases hfamily : a.family = .unspec
  · simp [EntityAddr.getPort, w.received_family, hfamily]
  · rw [w.received_of_ne_unspec a hfamily]
    rfl

/-- Without a blank IP the address is received as it was sent. -/
theorem AddrWire.received_of_isBlankIp (w : AddrWire Ip) (h : w.isBlankIp a = false) :
    w.received a = { a with legacy := true } := by
  apply w.received_of_ne_unspec
  intro hfamily
  simp [isBlankIp, hfamily] at h

/-- What the connector compares is what the peer claims. -/
theorem Meeting.accepts_received_iff : m.Accepts (m.wire.received a) ↔ m.IsPeer a := by
  unfold Accepts SameNode IsPeer
  rw [m.wire.isBlankIp_received, m.wire.getPort_received, m.wire.received_nonce]
  constructor
  · rintro (heq | ⟨hblank, hport, hnonce⟩)
    · refine ⟨?_, ?_, ?_⟩
      · rw [heq, m.wire.getPort_received]
      · rw [heq, m.wire.received_nonce]
      · cases hblank : m.wire.isBlankIp a with
        | true => exact .inl rfl
        | false => exact .inr (heq.trans (m.wire.received_of_isBlankIp hblank))
    · exact ⟨hport, hnonce, .inl hblank⟩
  · rintro ⟨hport, hnonce, hblank | heq⟩
    · exact .inr ⟨hblank, hport, hnonce⟩
    · cases hblank : m.wire.isBlankIp a with
      | true => exact .inr ⟨rfl, hport, hnonce⟩
      | false => exact .inl (heq.trans (m.wire.received_of_isBlankIp hblank).symm)

theorem getPort_toPort_getPort (a : EntityAddr Ip) :
    ((toPort a.getPort).toNat : ℤ) = a.getPort := by
  unfold EntityAddr.getPort toPort
  split
  · rfl
  · have hlt := a.port.toNat_lt
    have hmod : ((a.port.toNat : ℤ) % 2 ^ 16).toNat = a.port.toNat := by omega
    rw [hmod, UInt16.ofNat_toNat]

theorem Meeting.knownAs_settle : m.KnownAs a (m.settle (m.wire.received a)) := by
  unfold settle
  rw [m.wire.isBlankIp_received]
  cases hblank : m.wire.isBlankIp a with
  | true =>
      refine ⟨m.wire.received_nonce a, ?_, fun _ => ⟨rfl, rfl⟩, fun hother => ?_⟩
      · rw [if_pos rfl, EntityAddr.getPort, if_neg m.socketAddr_family, getPort_toPort_getPort,
          m.wire.getPort_received]
      · cases hblank.symm.trans hother
  | false =>
      rw [if_neg Bool.false_ne_true]
      refine ⟨m.wire.received_nonce a, m.wire.getPort_received a, fun hother => ?_,
        fun _ => m.wire.received_of_isBlankIp hblank⟩
      cases hblank.symm.trans hother

end Peers

section Results

variable [Inhabited Ip] [DecidableEq Ip] {m : Meeting Ip} {s : Meet Ip}

/-- What the ends of one socket know of each other. -/
structure Meet.Identified (m : Meeting Ip) (s : Meet Ip) : Prop where
  /-- Each understands the other, and the only complaint is that of the connector about the peer. -/
  understood : s.acceptor.stand.complaint = none ∧
    ∀ x, s.connector.stand.complaint = some x →
      x = .otherPeer ∧ ∃ a, s.acceptor.claimed = some a ∧ ¬ m.IsPeer a
  /-- A connector that has read the claim without complaint has the peer that it wanted. -/
  peer : s.connector.pause ≠ .reads → ∃ a, s.acceptor.claimed = some a ∧ m.IsPeer a
  /-- The acceptor knows the connector by what it answered. -/
  peerAddr : ∀ p, s.acceptor.peerAddr = some p →
    ∃ a, s.connector.answered = some a ∧ m.KnownAs a p
  /-- Both leave exactly what was said behind. -/
  connectorLeft : s.connector.pause ≠ .reads →
    s.down.inbound.unread ++ s.down.outgoing = s.acceptor.later
  acceptorLeft : s.acceptor.peerAddr ≠ none →
    s.up.inbound.unread ++ s.up.outgoing = s.connector.later
  /-- `learned_addr` is only given addresses that have a port. -/
  aborted : s.aborted = false
  learned : s.connector.pause = .learned → s.binder.needAddr = false

theorem identified_of_reached (h : m.machine.Reached s) : s.Identified m := by
  have hknown := Meet.known_of_reached h
  refine ⟨⟨hknown.acceptor.complaint, fun x hx => ?_⟩, fun hpause => ?_, fun p hp => ?_,
    fun hpause => ?_, fun hpeer => ?_, hknown.aborted, hknown.learned⟩
  · obtain ⟨hother, a, ha, hrefused⟩ := hknown.heardDown.complaint x hx
    exact ⟨hother, a, ha, fun hpeer => hrefused (Meeting.accepts_received_iff.mpr hpeer)⟩
  · obtain ⟨a, ha, haccepts, -⟩ := hknown.heardDown.peer hpause
    exact ⟨a, ha, Meeting.accepts_received_iff.mp haccepts⟩
  · obtain ⟨a, ha, rfl, -⟩ := hknown.heardUp.peer p hp
    exact ⟨a, ha, Meeting.knownAs_settle⟩
  · obtain ⟨a, ha, -, hheard, hdest⟩ := hknown.heardDown.peer hpause
    have hconserved := hknown.down.conserved
    rw [hheard, hdest, List.nil_append] at hconserved
    obtain ⟨b, -, -, hlater⟩ := Acceptor.claimed_of_said hconserved (by
      simp only [Meeting.needIdentify, List.length_append, m.wire.length_encode]
      omega)
    exact hlater
  · obtain ⟨p, hp⟩ := Option.ne_none_iff_exists'.mp hpeer
    obtain ⟨a, ha, -, hheard, hdest⟩ := hknown.heardUp.peer p hp
    have hconserved := hknown.up.conserved
    rw [hheard, hdest, List.nil_append] at hconserved
    obtain ⟨b, -, -, -, hlater⟩ := Connector.answered_of_said hconserved (by
      rw [Meeting.needBannerAddr, List.length_append, m.wire.length_encode])
    exact hlater

/-- Family, IP, port and nonce, one behind the other. -/
def AddrWire.plainCodec : FixedSize (UInt8 × UInt8 × UInt16 × UInt32) :=
  .pair .u8 (.pair .u8 (.pair .u16 .u32))

/-- The addresses of a network of 255 nodes. -/
def AddrWire.plain : AddrWire UInt8 where
  banner := [99, 101, 112, 104]
  size := plainCodec.size
  isAny _ ip := ip == 0
  encode a := plainCodec.bytes (a.family.ctorIdx.toUInt8, a.ip, a.port, a.nonce)
  decode bs :=
    if bs.length < plainCodec.size then none
    else
      let v := plainCodec.ofBytes (bs.take plainCodec.size)
      let family := if v.1 = 0 then .unspec else if v.1 = 1 then .inet else .inet6
      some (⟨family != .unspec, family, v.2.1, v.2.2.1, v.2.2.2⟩, bs.drop plainCodec.size)
  received a := { a with legacy := a.family != .unspec }
  size_pos := by decide
  need_lt := by decide
  length_encode a := plainCodec.length_bytes _
  decode_encode a rest := by
    have hlength := plainCodec.length_bytes (a.family.ctorIdx.toUInt8, a.ip, a.port, a.nonce)
    rw [if_neg (by rw [List.length_append, hlength]; omega), ← hlength, List.take_left,
      List.drop_left, plainCodec.ofBytes_bytes]
    cases a with
    | mk legacy family ip port nonce => cases family <;> rfl
  received_family _ := rfl
  received_nonce _ := rfl
  received_of_ne_unspec a h := by simp [h]

/-- The connector has bound to a port without knowing its IP, and so has the acceptor. -/
def Meeting.plain : Meeting UInt8 where
  wire := .plain
  prefetch := 8
  prefetch_lt := by decide
  peerAddr := ⟨true, .inet, 2, 6800, 22⟩
  socketAddr := ⟨true, .inet, 1, 40000, 0⟩
  socketAddr_family := nofun

def Meet.plain : Meet UInt8 where
  connector := ⟨⟨.connectingRe, .none, none⟩, .reads, false, none, []⟩
  acceptor := ⟨⟨.accepting, .none, none⟩, ⟨true, .inet, 0, 6800, 22⟩, none, none, []⟩
  binder := ⟨⟨true, .inet, 0, 6801, 11⟩, 11, false, true, true, none, []⟩
  up := .fresh
  down := .fresh
  aborted := false

/-- Both ends write and read in pieces, up to a byte behind the address of the connector. -/
def Meet.pieces : List (MeetAction UInt8) :=
  [.connectorGreets 3, .acceptorGreets 5, .connectorSends 9, .connectorResumes,
    .connectorReads [2, 3], .acceptorSends 20, .acceptorResumes, .acceptorReads [4],
    .connectorReads [8, 8, 8], .connectorLearns, .connectorAnswers 8, .connectorGoesOn [7] 1,
    .acceptorReads [8, 8]]

theorem identified_of_reached_pieces :
    ∃ s : Meet UInt8, s.acceptor.peerAddr = some ⟨true, .inet, 1, 6801, 11⟩ ∧
      s.up.inbound.unread = [7] ∧ s.Identified .plain := by
  obtain ⟨s, hreplay, hpeer, hunread⟩ : ∃ s,
      (Meeting.plain.machine).replay (fun _ _ => True) .plain Meet.pieces = some s ∧
        s.acceptor.peerAddr = some ⟨true, .inet, 1, 6801, 11⟩ ∧ s.up.inbound.unread = [7] :=
    ⟨_, rfl, rfl, rfl⟩
  have hfresh : Meet.plain.Fresh := ⟨rfl, ⟨_, rfl⟩, rfl, rfl, rfl⟩
  exact ⟨s, hpeer, hunread, identified_of_reached (.of_replay (.start hfresh) hreplay)⟩

/-- Nothing is under way, and neither end is in the middle of something. -/
structure Meet.Quiet (s : Meet Ip) : Prop where
  up : s.up.Idle
  down : s.down.Idle
  connector : s.connector.stand.state ≠ .connectingRe ∧ s.connector.stand.state ≠ .waitSend
  pause : s.connector.stand.state = .connectingWaitBannerAndIdentify → s.connector.pause = .reads
  acceptor : s.acceptor.stand.state ≠ .accepting ∧ s.acceptor.stand.state ≠ .waitSend

/-- Once nothing is under way, both ends have read what they wait for, or the connector has
complained about the peer. -/
theorem both_pass_of_quiet (h : m.machine.Reached s) (hquiet : s.Quiet)
    (hconnector : s.connector.stand.state = .closed → s.connector.stand.complaint ≠ none)
    (hacceptor : s.acceptor.stand.state ≠ .closed) :
    ∃ a, s.acceptor.claimed = some a ∧
      (m.IsPeer a ∧ s.connector.stand.state = .connectingSendConnectMsg ∧
          s.acceptor.stand.state = .acceptingWaitConnectMsg ∨
        ¬ m.IsPeer a ∧ s.connector.stand.complaint = some .otherPeer) := by
  have hknown := Meet.known_of_reached h
  have hclaimed : s.acceptor.claimed ≠ none := by
    cases hknown.acceptor with
    | begins hstate => exact absurd hstate hquiet.acceptor.1
    | listens _ _ hclaimed => exact hclaimed
    | settles _ _ hclaimed => exact hclaimed
    | left hstate => exact absurd hstate hacceptor
  -- What is not read yet would be enough for the reader.
  have hdown : s.connector.pause = .reads → s.connector.stand.complaint ≠ none := by
    intro hpause hcomplaint
    obtain ⟨hheard, hshort⟩ := hknown.heardDown.nothing hpause hcomplaint
    obtain ⟨a, ha⟩ := Option.ne_none_iff_exists'.mp hclaimed
    have hlength := Acceptor.length_said (m := m) ha
    rw [hknown.down.dest_of_idle hquiet.down hheard] at hshort
    omega
  have hup : s.connector.greeted = true → s.connector.answered ≠ none →
      s.acceptor.peerAddr ≠ none := by
    intro hgreeted hanswered hpeer
    obtain ⟨hheard, hshort⟩ := hknown.heardUp.nothing hpeer
    obtain ⟨a, ha⟩ := Option.ne_none_iff_exists'.mp hanswered
    have hlength := Connector.length_said (m := m) hgreeted ha
    rw [hknown.up.dest_of_idle hquiet.up hheard] at hshort
    omega
  cases hknown.connector with
  | begins hstate => exact absurd hstate hquiet.connector.1
  | listens _ hcomplaint hpause => exact absurd hcomplaint (hdown hpause)
  | pauses hstate _ hpause => exact absurd (hquiet.pause hstate) hpause
  | speaks hat _ hpause hgreeted hanswered =>
      obtain ⟨a, ha, haccepts, -⟩ := hknown.heardDown.peer (by rw [hpause]; nofun)
      refine ⟨a, ha, .inl ⟨Meeting.accepts_received_iff.mp haccepts, ?_, ?_⟩⟩
      · exact hat.resolve_right fun hwait => hquiet.connector.2 hwait.1
      · cases hknown.acceptor with
        | begins hstate => exact absurd hstate hquiet.acceptor.1
        | listens _ _ _ hpeer => exact absurd hpeer (hup hgreeted hanswered)
        | settles hstate => exact hstate
        | left hstate => exact absurd hstate hacceptor
  | left hstate =>
      obtain ⟨x, hx⟩ := Option.ne_none_iff_exists'.mp (hconnector hstate)
      obtain ⟨rfl, a, ha, hrefused⟩ := hknown.heardDown.complaint x hx
      exact ⟨a, ha, .inr ⟨fun hpeer => hrefused (Meeting.accepts_received_iff.mpr hpeer), hx⟩⟩

end Results

/-- A connector that wanted another nonce. -/
def Meeting.stale : Meeting UInt8 := { Meeting.plain with peerAddr := ⟨true, .inet, 2, 6800, 23⟩ }

theorem both_pass_of_quiet_stale :
    ∃ (s : Meet UInt8) (a : EntityAddr UInt8),
      s.connector.stand.complaint = some .otherPeer ∧ s.acceptor.claimed = some a ∧
        ¬ Meeting.stale.IsPeer a := by
  obtain ⟨s, hreplay, hcomplaint, hquiet, hacceptor⟩ : ∃ s,
      (Meeting.stale.machine).replay (fun _ _ => True) .plain
        [.connectorGreets 9, .acceptorGreets 20, .connectorReads [8, 8, 8], .acceptorReads [8]] =
          some s ∧
        s.connector.stand.complaint = some .otherPeer ∧ s.Quiet ∧
        s.acceptor.stand.state = .acceptingWaitBannerAddr :=
    ⟨_, rfl, rfl, ⟨⟨rfl, rfl⟩, ⟨rfl, rfl⟩, ⟨nofun, nofun⟩, nofun, ⟨nofun, nofun⟩⟩, rfl⟩
  have hfresh : Meet.plain.Fresh := ⟨rfl, ⟨_, rfl⟩, rfl, rfl, rfl⟩
  obtain ⟨a, ha, ⟨-, -, hsettled⟩ | ⟨hother, -⟩⟩ :=
    both_pass_of_quiet (.of_replay (.start hfresh) hreplay) hquiet
      (fun _ => by rw [hcomplaint]; nofun) (by rw [hacceptor]; nofun)
  · cases hacceptor.symm.trans hsettled
  · exact ⟨s, a, hcomplaint, ha, hother⟩

end HwAsync.Connect
