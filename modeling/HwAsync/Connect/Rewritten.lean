/-
# The two versions of the connecting states

`process` is being rewritten.  The new file has the first three states of the connecting side, and
the old one still has them in `_process_connection`.  Both are here as they are written, with what
one iteration does to the connection and to everything around it, in order.

Two things differ.  Where the connection is not up yet, the old version comes back later, and the
new one only if the stack needs a writable event, which the RDMA stack does not.  And the old
version drops its lock while the messenger learns its address, and looks afterwards whether the
state is still the same.

A branch of the new version that goes to `fail` is taken to fail like one of the old version, and
what is left open in its reading of the banner is taken from there.
-/

import HwAsync.Connect.Messengers
import HwAsync.Event.Center

namespace HwAsync.Connect

open HwAsync.Event (Mask Callback)

/-- What an iteration does outside its connection. -/
inductive Effect (Addr : Type)
  | deleteFileEvent (fd : ℕ) (mask : Mask)
  | createFileEvent (fd : ℕ) (mask : Mask) (ctxt : Callback)
  | close (fd : ℕ)
  | connect (addr : Addr)
  | queueRefused
  | learnedAddr (addr : Addr)
  | trySend (bl : List UInt8)
  deriving DecidableEq, Repr

/-- Addresses and their encoding. -/
structure AddrCodec (Addr : Type) where
  /-- `CEPH_BANNER` and `sizeof(ceph_entity_addr)`. -/
  banner : List UInt8
  addrSize : ℕ
  /-- The two addresses of the peer; none if decoding throws. -/
  decode : List UInt8 → Option (Addr × Addr)
  encode : Addr → List UInt8
  isBlankIp : Addr → Bool
  port : Addr → ℕ
  nonce : Addr → ℕ

/-- What an iteration gets from the calls it makes. -/
structure Outcomes (Addr : Type) where
  /-- The descriptor of the new socket; none if `worker->connect` fails. -/
  connect : Option ℕ
  isConnected : ℤ
  /-- `nonblock_connect_need_writable_event()`. -/
  needWritableEvent : Bool
  trySend : ℤ
  readUntil : ℤ
  stateBuffer : List UInt8
  /-- `get_myaddr()` behind `learned_addr`. -/
  myAddr : Addr
  /-- What other threads make of the state while the lock is dropped; none if they leave it. -/
  meanwhile : Option RCState

/-- A connection behind an iteration, what was done on the way, and whether it goes to `fail`. -/
structure Iteration (Addr : Type) where
  party : Party Addr
  effects : List (Effect Addr)
  fails : Bool

def econnrefused : ℤ := 111

variable {Addr : Type}

/-- The variables of the last attempt are reset, and a new `global_seq` is drawn. -/
def Party.resetConnect (p : Party Addr) : Party Addr :=
  let globalSeq := getGlobalSeq p.globalSeq 0
  { globalSeq := globalSeq
    conn := { p.conn with
      gotBadAuth := false
      authorizer := none
      connectMsg := ⟨0, 0, 0, 0, 0, 0, 0, 0⟩
      connectReply := ⟨.other 0, 0, 0, 0, 0, 0, 0⟩
      globalSeq := globalSeq } }

def Party.setState (p : Party Addr) (s : RCState) : Party Addr :=
  { p with conn := { p.conn with state := s } }

def Party.setSocket (p : Party Addr) (cs : Option ℕ) : Party Addr :=
  { p with conn := { p.conn with socket := cs } }

theorem Party.setState_of_state_eq {p : Party Addr} {s : RCState} (h : p.conn.state = s) :
    p.setState s = p := by
  rw [← h]
  rfl

/-- Wait for the rest to be sent, and go on with `next`. -/
def Party.sendThen (p : Party Addr) (next : RCState) : Party Addr :=
  { p with conn := { p.conn with state := .waitSend, stateAfterSend := next } }

variable (k : AddrCodec Addr) (o : Outcomes Addr)

/-! ## The old version -/

namespace Original

/-- `STATE_CONNECTING`; none if the assertion fails. -/
def connecting (p : Party Addr) : Option (Iteration Addr) :=
  if p.conn.policy.server then none
  else
    let p := p.resetConnect
    let (p, effects) : Party Addr × List (Effect Addr) :=
      match p.conn.socket with
      | some fd => (p.setSocket none, [.deleteFileEvent fd .both, .close fd])
      | none => (p, [])
    let effects := effects ++ [.connect p.conn.peerAddr]
    match o.connect with
    | none => some ⟨p, effects, true⟩
    | some fd =>
        some ⟨(p.setSocket (some fd)).setState .connectingRe,
          effects ++ [.createFileEvent fd .read .readHandler], false⟩

/-- `STATE_CONNECTING_RE`. -/
def connectingRe (fd : ℕ) (p : Party Addr) : Iteration Addr :=
  if o.isConnected < 0 then
    ⟨p, if o.isConnected = -econnrefused then [.queueRefused] else [], true⟩
  else if o.isConnected = 0 then
    ⟨p, if o.needWritableEvent then [.createFileEvent fd .write .readHandler] else [], false⟩
  else
    let effects := [.deleteFileEvent fd .write, .trySend k.banner]
    if o.trySend = 0 then
      ⟨p.setState .connectingWaitBannerAndIdentify, effects, false⟩
    else if 0 < o.trySend then
      ⟨p.sendThen .connectingWaitBannerAndIdentify, effects, false⟩
    else ⟨p, effects, true⟩

/-- `STATE_CONNECTING_WAIT_BANNER_AND_IDENTIFY`. -/
def waitBanner [DecidableEq Addr] (p : Party Addr) : Iteration Addr :=
  let bannerLen := k.banner.length
  if o.readUntil < 0 then ⟨p, [], true⟩
  else if 0 < o.readUntil then ⟨p, [], false⟩
  else if o.stateBuffer.take bannerLen ≠ k.banner then ⟨p, [], true⟩
  else
    match k.decode ((o.stateBuffer.drop bannerLen).take (k.addrSize * 2)) with
    | none => ⟨p, [], true⟩
    | some (paddr, peerAddrForMe) =>
        let peerAddr := p.conn.peerAddr
        if peerAddr ≠ paddr ∧
            ¬ (k.isBlankIp paddr ∧ k.port peerAddr = k.port paddr ∧
              k.nonce peerAddr = k.nonce paddr) then ⟨p, [], true⟩
        else
          -- the lock is dropped around `learned_addr`
          let p := p.setState (o.meanwhile.getD p.conn.state)
          if p.conn.state ≠ .connectingWaitBannerAndIdentify then
            ⟨p, [.learnedAddr peerAddrForMe], false⟩
          else
            let effects := [.learnedAddr peerAddrForMe, .trySend (k.encode o.myAddr)]
            if o.trySend = 0 then ⟨p.setState .connectingSendConnectMsg, effects, false⟩
            else if 0 < o.trySend then ⟨p.sendThen .connectingSendConnectMsg, effects, false⟩
            else ⟨p, effects, true⟩

/-- An iteration in one of the three states; none in the others, with a failed assertion or on an
empty socket. -/
def iterate [DecidableEq Addr] (p : Party Addr) : Option (Iteration Addr) :=
  match p.conn.state with
  | .connecting => connecting o p
  | .connectingRe => p.conn.socket.map fun fd => connectingRe k o fd p
  | .connectingWaitBannerAndIdentify => some (waitBanner k o p)
  | _ => none

end Original

/-! ## The new version -/

namespace Rewritten

/-- `STATE_CONNECTING`; none if the assertion fails. -/
def connecting (p : Party Addr) : Option (Iteration Addr) :=
  if p.conn.policy.server then none
  else
    let p := p.resetConnect
    let (p, effects) : Party Addr × List (Effect Addr) :=
      match p.conn.socket with
      | some fd => (p.setSocket none, [.deleteFileEvent fd .both, .close fd])
      | none => (p, [])
    let effects := effects ++ [.connect p.conn.peerAddr]
    match o.connect with
    | none => some ⟨p, effects, true⟩
    | some fd =>
        some ⟨(p.setSocket (some fd)).setState .connectingRe,
          effects ++ [.createFileEvent fd .read .readHandler], false⟩

/-- `STATE_CONNECTING_RE`.  The `break` of a connection that is not up stands inside the test for
the writable event. -/
def connectingRe (fd : ℕ) (p : Party Addr) : Iteration Addr :=
  if o.isConnected < 0 then
    ⟨p, if o.isConnected = -econnrefused then [.queueRefused] else [], true⟩
  else if o.isConnected = 0 ∧ o.needWritableEvent then
    ⟨p, [.createFileEvent fd .write .readHandler], false⟩
  else
    let effects := [.deleteFileEvent fd .write, .trySend k.banner]
    if o.trySend = 0 then
      ⟨p.setState .connectingWaitBannerAndIdentify, effects, false⟩
    else if 0 < o.trySend then
      ⟨p.sendThen .connectingWaitBannerAndIdentify, effects, false⟩
    else ⟨p, effects, true⟩

/-- `STATE_CONNECTING_WAIT_BANNER_AND_IDENTIFY`, which keeps the lock. -/
def waitBanner [DecidableEq Addr] (p : Party Addr) : Iteration Addr :=
  let bannerLen := k.banner.length
  if o.readUntil < 0 then ⟨p, [], true⟩
  else if 0 < o.readUntil then ⟨p, [], false⟩
  else if o.stateBuffer.take bannerLen ≠ k.banner then ⟨p, [], true⟩
  else
    match k.decode ((o.stateBuffer.drop bannerLen).take (k.addrSize * 2)) with
    | none => ⟨p, [], true⟩
    | some (paddr, peerAddrForMe) =>
        let peerAddr := p.conn.peerAddr
        if peerAddr ≠ paddr ∧
            ¬ (k.isBlankIp paddr ∧ k.port peerAddr = k.port paddr ∧
              k.nonce peerAddr = k.nonce paddr) then ⟨p, [], true⟩
        else
          let effects := [.learnedAddr peerAddrForMe, .trySend (k.encode o.myAddr)]
          if o.trySend = 0 then ⟨p.setState .connectingSendConnectMsg, effects, false⟩
          else if 0 < o.trySend then ⟨p.sendThen .connectingSendConnectMsg, effects, false⟩
          else ⟨p, effects, true⟩

/-- An iteration of `process`. -/
def iterate [DecidableEq Addr] (p : Party Addr) : Option (Iteration Addr) :=
  match p.conn.state with
  | .connecting => connecting o p
  | .connectingRe => p.conn.socket.map fun fd => connectingRe k o fd p
  | .connectingWaitBannerAndIdentify => some (waitBanner k o p)
  | _ => none

end Rewritten

/-! ## Where they agree -/

/-- The connection is not up, and nothing will say when it is. -/
def FallsThrough (p : Party Addr) : Prop :=
  p.conn.state = .connectingRe ∧ p.conn.socket.isSome ∧ o.isConnected = 0 ∧
    o.needWritableEvent = false

/-- The peer has identified itself: the banner and the addresses are complete and acceptable. -/
def Identified (p : Party Addr) : Prop :=
  o.readUntil = 0 ∧ o.stateBuffer.take k.banner.length = k.banner ∧
    ∃ paddr forMe,
      k.decode ((o.stateBuffer.drop k.banner.length).take (k.addrSize * 2)) = some (paddr, forMe) ∧
      (p.conn.peerAddr = paddr ∨ k.isBlankIp paddr ∧ k.port p.conn.peerAddr = k.port paddr ∧
        k.nonce p.conn.peerAddr = k.nonce paddr)

/-- The state changes while the old version has dropped its lock. -/
def Overtaken (p : Party Addr) : Prop :=
  p.conn.state = .connectingWaitBannerAndIdentify ∧ Identified k o p ∧
    ∃ s, o.meanwhile = some s ∧ s ≠ .connectingWaitBannerAndIdentify

theorem connecting_eq (p : Party Addr) :
    Rewritten.connecting o p = Original.connecting o p := rfl

theorem connectingRe_eq_iff (fd : ℕ) (p : Party Addr) :
    Rewritten.connectingRe k o fd p = Original.connectingRe k o fd p ↔
      ¬ (o.isConnected = 0 ∧ o.needWritableEvent = false) := by
  simp only [Rewritten.connectingRe, Original.connectingRe]
  by_cases hfail : o.isConnected < 0
  · simp [hfail, hfail.ne]
  by_cases hzero : o.isConnected = 0
  · cases hneed : o.needWritableEvent with
    | true => simp [hzero]
    | false =>
      -- the new version has deleted an event, the old one has done nothing
      simp only [hzero, lt_irrefl, if_false, if_true, Bool.false_eq_true, and_false, and_self,
        not_true_eq_false, iff_false]
      intro h
      have heffects := congrArg Iteration.effects h
      split_ifs at heffects
  · simp [hfail, hzero]

/-- A new iteration that sends the banner while nothing is wrong found the connection up. -/
theorem connectingRe_banner {fd : ℕ} {p : Party Addr}
    (hwaits : ¬ (o.isConnected = 0 ∧ o.needWritableEvent = false))
    (hsends : .trySend k.banner ∈ (Rewritten.connectingRe k o fd p).effects) :
    0 < o.isConnected := by
  by_contra hdown
  simp only [Rewritten.connectingRe] at hsends
  by_cases hfail : o.isConnected < 0
  · simp only [hfail, if_true] at hsends
    split_ifs at hsends <;> simp at hsends
  · have hzero : o.isConnected = 0 := by omega
    have hneed : o.needWritableEvent = true := by
      rw [← Bool.not_eq_false]
      exact fun h => hwaits ⟨hzero, h⟩
    simp [hzero, hneed] at hsends

variable [DecidableEq Addr]

theorem waitBanner_eq {p : Party Addr} (hidentified : ¬ Identified k o p) :
    Rewritten.waitBanner k o p = Original.waitBanner k o p := by
  simp only [Rewritten.waitBanner, Original.waitBanner]
  by_cases hread : o.readUntil = 0
  · by_cases hbanner : o.stateBuffer.take k.banner.length = k.banner
    · cases hdecode : k.decode ((o.stateBuffer.drop k.banner.length).take (k.addrSize * 2)) with
      | none => rfl
      | some addrs =>
        have hrefused : ¬ (p.conn.peerAddr = addrs.1 ∨
            k.isBlankIp addrs.1 ∧ k.port p.conn.peerAddr = k.port addrs.1 ∧
              k.nonce p.conn.peerAddr = k.nonce addrs.1) :=
          fun haccepted => hidentified ⟨hread, hbanner, _, _, hdecode, haccepted⟩
        rw [not_or] at hrefused
        simp only [ne_eq, hrefused, not_false_eq_true, and_self, if_true]
    · simp only [ne_eq, hbanner, not_false_eq_true, if_true]
  · rcases lt_or_gt_of_ne hread with hneg | hpos
    · simp only [hneg, if_true]
    · simp only [hpos, hpos.not_gt, if_true, if_false]

theorem waitBanner_of_identified {p : Party Addr}
    (hstate : p.conn.state = .connectingWaitBannerAndIdentify) (hidentified : Identified k o p) :
    Rewritten.waitBanner k o p = Original.waitBanner k o p ↔
      ∀ s, o.meanwhile = some s → s = .connectingWaitBannerAndIdentify := by
  obtain ⟨hread, hbanner, paddr, forMe, hdecode, haccepted⟩ := hidentified
  have hnotRefused : ¬ (p.conn.peerAddr ≠ paddr ∧
      ¬ (k.isBlankIp paddr ∧ k.port p.conn.peerAddr = k.port paddr ∧
        k.nonce p.conn.peerAddr = k.nonce paddr)) := by
    rintro ⟨hne, hblank⟩
    exact haccepted.elim hne hblank
  simp only [Rewritten.waitBanner, Original.waitBanner, hread, hbanner, hdecode, hnotRefused,
    lt_irrefl, ne_eq, not_true_eq_false, if_false]
  cases hmeanwhile : o.meanwhile with
  | none =>
    simp [hstate, Party.setState_of_state_eq hstate]
  | some s =>
    by_cases hsame : s = .connectingWaitBannerAndIdentify
    · simp [hsame, hstate, Party.setState_of_state_eq hstate]
    · have hchanged : (p.setState s).conn.state ≠ .connectingWaitBannerAndIdentify := hsame
      simp only [Option.getD_some, hchanged, not_false_eq_true, if_true, Option.some.injEq,
        forall_eq', hsame, iff_false]
      intro h
      -- the new version has sent its address, the old one has not
      have heffects := congrArg Iteration.effects h
      split_ifs at heffects <;> simp at heffects

/-! ## Agreement -/

/-- Both versions make the same iteration, and the banner is not sent before the connection is
up. -/
def Agree (p : Party Addr) : Prop :=
  Rewritten.iterate k o p = Original.iterate k o p ∧
    (p.conn.state = .connectingRe → ∀ i, Rewritten.iterate k o p = some i →
      .trySend k.banner ∈ i.effects → 0 < o.isConnected)

theorem iterate_eq_iff (p : Party Addr) :
    Rewritten.iterate k o p = Original.iterate k o p ↔
      ¬ FallsThrough o p ∧ ¬ Overtaken k o p := by
  simp only [Rewritten.iterate, Original.iterate, FallsThrough, Overtaken]
  cases hstate : p.conn.state with
  | connectingRe =>
    cases hsocket : p.conn.socket with
    | none => simp
    | some fd => simp [connectingRe_eq_iff]
  | connectingWaitBannerAndIdentify =>
    by_cases hidentified : Identified k o p
    · have h := waitBanner_of_identified k o hstate hidentified
      simp only [Option.some.injEq, h, hidentified, reduceCtorEq, false_and, not_false_eq_true,
        true_and, not_exists, not_and, not_not]
    · simp [waitBanner_eq k o hidentified, hidentified]
  | _ => simp [connecting_eq]

/-- The versions agree exactly unless the new one takes a connection that is still coming up for
one that is up, or the old one is overtaken while it has no lock. -/
theorem agree_iff (p : Party Addr) :
    Agree k o p ↔ ¬ FallsThrough o p ∧ ¬ Overtaken k o p := by
  rw [Agree, iterate_eq_iff]
  apply and_iff_left_of_imp
  rintro ⟨hwaits, -⟩ hstate i hi hsends
  cases hsocket : p.conn.socket with
  | none => simp [Rewritten.iterate, hstate, hsocket] at hi
  | some fd =>
    simp only [Rewritten.iterate, hstate, hsocket, Option.map_some, Option.some.injEq] at hi
    subst hi
    apply connectingRe_banner k o _ hsends
    intro hfalls
    exact hwaits ⟨hstate, by simp [hsocket], hfalls⟩

/-- The codec of addresses that are bytes, none of them blank. -/
def AddrCodec.plain : AddrCodec UInt8 where
  banner := [99]
  addrSize := 1
  decode
    | [a, b] => some (a, b)
    | _ => none
  encode a := [a]
  isBlankIp _ := false
  port _ := 0
  nonce _ := 0

/-- A connection on the RDMA stack, which needs no writable event, is not up yet. -/
def Outcomes.inProgress : Outcomes UInt8 where
  connect := none
  isConnected := 0
  needWritableEvent := false
  trySend := 0
  readUntil := 0
  stateBuffer := []
  myAddr := 7
  meanwhile := none

/-- The new version sends its banner into a connection that is not up; the old one waits. -/
theorem not_agree_inProgress :
    ∃ p : Party UInt8, p.conn.state = .connectingRe ∧ p.conn.socket = some 5 ∧
      ¬ Agree AddrCodec.plain Outcomes.inProgress p := by
  let conn : Conn UInt8 :=
    { Conn.create 2 4 Policy.plain with state := .connectingRe, socket := some 5 }
  refine ⟨⟨1, conn⟩, rfl, rfl, ?_⟩
  intro h
  have hsends : .trySend AddrCodec.plain.banner ∈
      (Rewritten.connectingRe AddrCodec.plain Outcomes.inProgress 5 ⟨1, conn⟩).effects := by
    decide
  exact absurd (h.2 rfl _ rfl hsends) (by decide)

end HwAsync.Connect
