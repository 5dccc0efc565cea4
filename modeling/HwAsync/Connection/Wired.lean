/-
# The session over the bytes of its sockets

`Connection.Session` has whole frames between its ends.  Here an end appends the bytes of what it
writes to `outcoming_bl`, the socket takes as many of them at a time as it likes, and the other end
reads as many of them at a time as the socket returns: first the bare number of the exchange, then
with `process`.  A fault loses what was not read yet, in the middle of a frame or not, and what the
reader has of a frame.

Every run of this is a run of the session: what the reader has in front of it are the frames of
the session, as far as they have arrived.  So messages are dispatched once and in order however
their bytes are cut, and the reader never finds anything that it does not expect.
-/

import HwAsync.Connection.Session
import HwAsync.Framing.Lane
import HwAsync.Framing.Live
import HwAsync.Framing.Sync

namespace HwAsync.Connection

open HwAsync.Lib

variable {Addr : Type} {w : Framing.Wire Addr}

/-- The messages as they are encoded, each under the number that `set_seq` gives it. -/
structure Contents (w : Framing.Wire Addr) where
  frame : ℕ → UInt64 → Framing.MsgFrame w
  seq : ∀ id n, (frame id n).header.seq = n

/-- Both ends with their readers, what is left in `outcoming_bl` of each, and whether what is
written still arrives.  What was dispatched is recorded by the readers. -/
structure Wired where
  endpoint : Side → Endpoint
  reader : Side → Framing.Receiver
  outgoing : Side → Framing.Bytes
  linked : Bool

/-- The steps of an end.  `k` is how much the socket takes at once and `answers` what it returns to
the reads. -/
inductive WiredAction
  | sendMessage (x : Side) (id : ℕ) (priority : Priority)
  | writeNext (x : Side) (k : ℕ)
  | writeAck (x : Side) (k : ℕ)
  | writeKeepalive (x : Side) (ack : Bool) (t : Framing.UTime) (k : ℕ)
  | send (x : Side) (k : ℕ)
  | pass (x : Side) (p : Framing.Pass)
  | readSeq (x : Side) (answers : List ℕ) (k : ℕ)
  | becomeOpen (x : Side)
  | fault (x : Side)
  | reconnect (x : Side)

/-- What an end does with something that it has read: the check of the number of a message with
what follows from it, and `handle_ack`. -/
def Endpoint.hear (e : Endpoint) : Framing.Received → Endpoint
  | .message header _ _ _ =>
      if header.seq.toNat ≤ e.inSeq then e
      else { e with inSeq := header.seq.toNat, ackLeft := e.ackLeft + 1 }
  | .ack seq => e.handleAck seq.toNat
  | _ => e

/-- The reader of a new socket, before the first tag. -/
def resetRecvState (r : Framing.Receiver) : Framing.Receiver :=
  { r with state := .opened, io := ⟨[], 0, [], [], []⟩ }

namespace Wired

def set (s : Wired) (x : Side) (e : Endpoint) : Wired :=
  { s with endpoint := Function.update s.endpoint x e }

def setReader (s : Wired) (x : Side) (r : Framing.Receiver) : Wired :=
  { s with reader := Function.update s.reader x r }

def setOutgoing (s : Wired) (x : Side) (bl : Framing.Bytes) : Wired :=
  { s with outgoing := Function.update s.outgoing x bl }

/-- The bytes are in the socket of the reader. -/
def arrive (s : Wired) (x : Side) (bl : Framing.Bytes) : Wired :=
  s.setReader x
    { s.reader x with io := { (s.reader x).io with socket := (s.reader x).io.socket ++ bl } }

/-- `_try_send`, if the socket takes `k` bytes. -/
def trySend (s : Wired) (x : Side) (k : ℕ) : Wired :=
  if s.linked then
    (s.setOutgoing x ((s.outgoing x).drop k)).arrive x.peer ((s.outgoing x).take k)
  else s.setOutgoing x ((s.outgoing x).drop k)

/-- The side writes bytes behind what it has left. -/
def write (s : Wired) (x : Side) (bl : Framing.Bytes) : Wired :=
  s.setOutgoing x (s.outgoing x ++ bl)

/-- One pass of `process`, and what the end does with what was read. -/
def pass (w : Framing.Wire Addr) (s : Wired) (x : Side) (p : Framing.Pass) : Wired :=
  let r := (s.reader x).step w p
  let new := r.received.drop (s.reader x).received.length
  (s.setReader x r).set x (new.foldl Endpoint.hear (s.endpoint x))

/-- `STATE_CONNECTING_WAIT_ACK_SEQ` and `STATE_ACCEPTING_WAIT_SEQ`. -/
def readSeq (w : Framing.Wire Addr) (s : Wired) (x : Side) (answers : List ℕ) (k : ℕ) : Wired :=
  let e := s.endpoint x
  let r := s.reader x
  match ({ r.io with answers := answers }).readUntil w.recvMaxPrefetch FixedSize.u64.size with
  | (none, io) => s.setReader x { r with io := io }
  | (some p, io) =>
      let n := (FixedSize.u64.ofBytes p).toNat
      let t := (s.setReader x { r with io := io }).set x
        { e.discardRequeuedUpTo n with state := .ready }
      if e.state = .connectingWaitAckSeq then
        (t.write x (FixedSize.u64.bytes (UInt64.ofNat e.inSeq))).trySend x k
      else t

/-- `fault`. -/
def fault (s : Wired) (x : Side) : Wired :=
  { ((s.set x (s.endpoint x).fault).setReader x (resetRecvState (s.reader x))).setOutgoing x [] with
    linked := false }

/-- A new pair of sockets; the accepting side has its `in_seq` behind the reply that the connecting
side has read. -/
def reconnect (s : Wired) (x : Side) : Wired where
  endpoint :=
    ((s.set x { s.endpoint x with state := .connectingWaitAckSeq }).set x.peer
      { s.endpoint x.peer with state := .acceptingWaitSeq }).endpoint
  reader y := resetRecvState (s.reader y)
  outgoing :=
    ((s.setOutgoing x []).setOutgoing x.peer
      (FixedSize.u64.bytes (UInt64.ofNat (s.endpoint x.peer).inSeq))).outgoing
  linked := true

/-- One action; `none` where it is disabled. -/
def step (c : Contents w) (s : Wired) : WiredAction → Option Wired
  | .sendMessage x id priority =>
      if id ∈ (s.endpoint x).accepted then none
      else some (s.set x ((s.endpoint x).sendMessage id priority))
  | .writeNext x k =>
      if (s.endpoint x).state ≠ .opened then none
      else
        match (s.endpoint x).writeNext with
        | none => none
        | some (e, m) =>
            let bl := Framing.Wire.encode (.message (c.frame m.id (UInt64.ofNat m.seq)))
            some (((s.set x e).write x bl).trySend x k)
  | .writeAck x k =>
      if (s.endpoint x).state ≠ .opened then none
      else
        match (s.endpoint x).writeAck with
        | none => none
        | some (e, n) =>
            let bl := Framing.Wire.encode (w := w) (.ack (UInt64.ofNat n))
            some (((s.set x e).write x bl).trySend x k)
  | .writeKeepalive x ack t k =>
      if (s.endpoint x).state ≠ .opened then none
      else some ((s.write x (w.appendKeepaliveOrAck ack t)).trySend x k)
  | .send x k => some (s.trySend x k)
  | .pass x p => if (s.endpoint x).state ≠ .opened then none else some (s.pass w x p)
  | .readSeq x answers k =>
      if (s.endpoint x).state.Waiting then some (s.readSeq w x answers k) else none
  | .becomeOpen x =>
      if (s.endpoint x).state ≠ .ready then none
      else some (s.set x { s.endpoint x with state := .opened })
  | .fault x => some (s.fault x)
  | .reconnect x =>
      if (s.endpoint x).state ≠ .down ∨ (s.endpoint x.peer).state ≠ .down then none
      else some (s.reconnect x)

/-- A connection that has not sent anything yet. -/
structure Fresh (s : Wired) : Prop where
  state : ∀ x, (s.endpoint x).state = .down
  outQ : ∀ x, (s.endpoint x).outQ = .empty
  sent : ∀ x, (s.endpoint x).sent = []
  outSeq : ∀ x, (s.endpoint x).outSeq = 0
  inSeq : ∀ x, (s.endpoint x).inSeq = 0 ∧ (s.reader x).inSeq = 0
  accepted : ∀ x, (s.endpoint x).accepted = []
  dispatched : ∀ x, (s.endpoint x).dispatched = [] ∧ (s.reader x).dispatched = []
  reader : ∀ x, (s.reader x).state = .opened ∧ (s.reader x).io = ⟨[], 0, [], [], []⟩
  linked : s.linked = false

/-- The numbers stay below the 64 bits that they have on the wire. -/
def InRange (s : Wired) : WiredAction → Prop
  | .writeNext x _ => (s.endpoint x).outSeq + 1 < 2 ^ 64
  | _ => True

instance decidableInRange (s : Wired) : ∀ a, Decidable (s.InRange a)
  | .writeNext x _ => inferInstanceAs (Decidable ((s.endpoint x).outSeq + 1 < 2 ^ 64))
  | .sendMessage .. | .writeAck .. | .writeKeepalive .. | .send .. | .pass .. | .readSeq ..
  | .becomeOpen .. | .fault .. | .reconnect .. => isTrue trivial

end Wired

/-- The session over bytes. -/
def wiredMachine (c : Contents w) : Machine Wired WiredAction where
  start := Wired.Fresh
  step := Wired.step c

/-! ## What the session sees -/

/-- An end of the session without the record that its reader has. -/
def Endpoint.erase (e : Endpoint) : Endpoint := { e with dispatched := [] }

section View

variable (c : Contents w)

/-- What was dispatched is the message of the session. -/
def Shows (m : Message) (e : Framing.Received) : Prop :=
  Framing.Recovers (.message (c.frame m.id (UInt64.ofNat m.seq))) e

/-- The frames whose bytes are under way are those of the session, with keepalives among them. -/
inductive Encodes : List Frame → List (Framing.Frame w) → Prop
  | nil : Encodes [] []
  | message {m : Message} {v : List Frame} {fs : List (Framing.Frame w)}
      (hseq : (UInt64.ofNat m.seq).toNat = m.seq) (h : Encodes v fs) :
      Encodes (.message m :: v) (.message (c.frame m.id (UInt64.ofNat m.seq)) :: fs)
  | ack {n : ℕ} {v : List Frame} {fs : List (Framing.Frame w)}
      (hseq : (UInt64.ofNat n).toNat = n) (h : Encodes v fs) :
      Encodes (.ack n :: v) (.ack (UInt64.ofNat n) :: fs)
  | keepalive (t : Framing.UTime) {v : List Frame} {fs : List (Framing.Frame w)}
      (h : Encodes v fs) : Encodes v (.keepalive t :: fs)
  | keepaliveAck (t : Framing.UTime) {v : List Frame} {fs : List (Framing.Frame w)}
      (h : Encodes v fs) : Encodes v (.keepaliveAck t :: fs)

/-- In front of an end that waits for the number of its peer is nothing, or that number first. -/
inductive Says : List Frame → Framing.Bytes → Prop
  | nothing : Says [] []
  | inSeq {n : ℕ} {v : List Frame} {fs : List (Framing.Frame w)}
      (hn : (UInt64.ofNat n).toNat = n) (h : Encodes c v fs) :
      Says (.inSeq n :: v) (FixedSize.u64.bytes (UInt64.ofNat n) ++ Framing.Wire.encodeAll fs)

/-- What the reader has in front of it once `missing` has arrived as well. -/
inductive Holds (r : Framing.Receiver) (missing : Framing.Bytes) (st : State) (v : List Frame) :
    Prop
  | waits (hst : st.Waiting) (hstate : r.state = .opened) (hready : r.io.Ready)
      (hshort : r.io.dest.length < FixedSize.u64.size)
      (hspoken : Says c v (r.io.dest ++ (r.io.unread ++ missing)))
  | reads {fs : List (Framing.Frame w)} (hst : ¬ st.Waiting) (hfs : Encodes c v fs)
      (hready : r.io.Ready) (hat : Framing.At (r.extend missing []) fs)

/-- An end of the session `e`, with `v` on the channel to it, is the end `e'` with its reader, if
`out` is what the peer has left. -/
structure Half (e : Endpoint) (v : List Frame) (linked : Bool) (e' : Endpoint)
    (r : Framing.Receiver) (out : Framing.Bytes) : Prop where
  endpoint : e' = e.erase
  counted : r.inSeq.toNat = e.inSeq
  shown : List.Forall₂ (Shows c) e.dispatched r.dispatched
  /-- What was lost is missing for ever. -/
  holds : ∃ missing, (linked = true → missing = out) ∧ Holds c r missing e.state v

/-- Both ends are those of the session. -/
structure Refines (t : Wired) (s : Session) : Prop where
  linked : t.linked = s.linked
  halves : ∀ x, Half c (s.endpoint x) (s.wire x) s.linked (t.endpoint x) (t.reader x)
    (t.outgoing x.peer)

end View

/-! ## Writing -/

section Writing

variable {c : Contents w} {v v' : List Frame} {fs fs' : List (Framing.Frame w)}
  {r : Framing.Receiver} {missing out out' : Framing.Bytes} {st : State} {e e' : Endpoint}
  {linked : Bool}

theorem Encodes.append (h : Encodes c v fs) (h' : Encodes c v' fs') :
    Encodes c (v ++ v') (fs ++ fs') := by
  induction h with
  | nil => exact h'
  | message hseq _ ih => exact .message hseq ih
  | ack hseq _ ih => exact .ack hseq ih
  | keepalive t _ ih => exact .keepalive t ih
  | keepaliveAck t _ ih => exact .keepaliveAck t ih

theorem Holds.append (h : Holds c r missing st v) (h' : Encodes c v' fs')
    (hsaid : st.Waiting → v ≠ []) :
    Holds c r (missing ++ Framing.Wire.encodeAll fs') st (v ++ v') := by
  cases h with
  | waits hst hstate hready hshort hspoken =>
      refine .waits hst hstate hready hshort ?_
      rw [← List.append_assoc r.io.unread, ← List.append_assoc]
      generalize r.io.dest ++ (r.io.unread ++ missing) = bl at hspoken
      cases hspoken with
      | nothing => exact absurd rfl (hsaid hst)
      | inSeq hn hv =>
          rw [List.append_assoc, ← Framing.encodeAll_append]
          exact .inSeq hn (hv.append h')
  | reads hst hfs hready hat =>
      refine .reads hst (hfs.append h') hready ?_
      rw [← Framing.Receiver.extend_extend r missing _ [] []]
      exact hat.extend fs' []

/-- The socket takes some of what is missing. -/
theorem Holds.arrive (h : Holds c r missing st v) (k : ℕ) :
    Holds c { r with io := { r.io with socket := r.io.socket ++ missing.take k } }
      (missing.drop k) st v := by
  have hunread : r.io.recvBuf ++ (r.io.socket ++ missing.take k) ++ missing.drop k =
      r.io.recvBuf ++ r.io.socket ++ missing := by
    simp only [List.append_assoc, List.take_append_drop]
  cases h with
  | waits hst hstate hready hshort hspoken =>
      refine .waits hst hstate ⟨hready.stateOffset, hready.recvBuf⟩ hshort ?_
      show Says c v (r.io.dest ++ (r.io.recvBuf ++ (r.io.socket ++ missing.take k) ++
        missing.drop k))
      rw [hunread]
      exact hspoken
  | reads hst hfs hready hat =>
      refine .reads hst hfs ⟨hready.stateOffset, hready.recvBuf⟩ ?_
      have hsame : Framing.Receiver.extend
          { r with io := { r.io with socket := r.io.socket ++ missing.take k } }
          (missing.drop k) [] = r.extend missing [] := by
        simp [Framing.Receiver.extend, Framing.Inbound.extend]
      rw [hsame]
      exact hat

/-- An end whose queues change. -/
theorem Half.of_queues (h : Half c e v linked e' r out) {f : Endpoint}
    (hstate : f.state.Waiting ↔ e.state.Waiting) (hreceived : Endpoint.SameReceived e f) :
    Half c f v linked f.erase r out where
  endpoint := rfl
  counted := h.counted.trans hreceived.inSeq.symm
  shown := hreceived.dispatched ▸ h.shown
  holds := by
    obtain ⟨missing, hout, hholds⟩ := h.holds
    refine ⟨missing, hout, ?_⟩
    cases hholds with
    | waits hst hopened hready hshort hspoken =>
        exact .waits (hstate.mpr hst) hopened hready hshort hspoken
    | reads hst hfs hready hat => exact .reads (fun hw => hst (hstate.mp hw)) hfs hready hat

/-- The peer writes frames. -/
theorem Half.write (h : Half c e v linked e' r out) (h' : Encodes c v' fs')
    (hsaid : linked = true → e.state.Waiting → v ≠ []) :
    Half c e (if linked then v ++ v' else v) linked e' r (out ++ Framing.Wire.encodeAll fs') where
  endpoint := h.endpoint
  counted := h.counted
  shown := h.shown
  holds := by
    obtain ⟨missing, hout, hholds⟩ := h.holds
    cases linked with
    | false => exact ⟨missing, nofun, hholds⟩
    | true =>
        refine ⟨missing ++ Framing.Wire.encodeAll fs', fun _ => by rw [hout rfl], ?_⟩
        exact hholds.append h' (hsaid rfl)

/-- The socket takes some of what the peer has left. -/
theorem Half.arrive (h : Half c e v true e' r out) (k : ℕ) :
    Half c e v true e' { r with io := { r.io with socket := r.io.socket ++ out.take k } }
      (out.drop k) where
  endpoint := h.endpoint
  counted := h.counted
  shown := h.shown
  holds := by
    obtain ⟨missing, hout, hholds⟩ := h.holds
    obtain rfl := hout rfl
    exact ⟨missing.drop k, fun _ => rfl, hholds.arrive k⟩

/-- The peer has failed: what is missing does not arrive. -/
theorem Half.unlink (h : Half c e v linked e' r out) : Half c e v false e' r out' where
  endpoint := h.endpoint
  counted := h.counted
  shown := h.shown
  holds := by
    obtain ⟨missing, -, hholds⟩ := h.holds
    exact ⟨missing, nofun, hholds⟩

end Writing

/-! ## Reading -/

section Reading

variable {c : Contents w} {v : List Frame} {r : Framing.Receiver} {out : Framing.Bytes}
  {e e' : Endpoint} {linked : Bool} {s s' : Session} {x : Side}

/-- The number of the peer is not complete yet. -/
theorem Half.readSeq_again (h : Half c e v linked e' r out) (hwaiting : e.state.Waiting)
    {answers : List ℕ} {io : Framing.Inbound}
    (hread : ({ r.io with answers := answers }).readUntil w.recvMaxPrefetch FixedSize.u64.size =
      (none, io)) : Half c e v linked e' { r with io := io } out where
  endpoint := h.endpoint
  counted := h.counted
  shown := h.shown
  holds := by
    obtain ⟨missing, hout, hholds⟩ := h.holds
    refine ⟨missing, hout, ?_⟩
    cases hholds with
    | reads hst => exact absurd hwaiting hst
    | waits hst hstate hready hshort hspoken =>
        have houtcome := @Framing.Inbound.readUntil_spec w.recvMaxPrefetch FixedSize.u64.size
          { r.io with answers := answers } ⟨hready.stateOffset, hready.recvBuf⟩ hshort (by decide)
          w.recvMaxPrefetch_lt
        rw [hread] at houtcome
        cases houtcome with
        | again hready' hconserved hshort' =>
            refine .waits hst hstate hready' hshort' ?_
            have hsame : io.dest ++ io.unread = r.io.dest ++ r.io.unread := hconserved
            rw [← List.append_assoc] at hspoken ⊢
            rw [hsame]
            exact hspoken

/-- The number of the peer is complete. -/
theorem Half.readSeq_complete (h : Half c e v linked e' r out) (hwaiting : e.state.Waiting)
    {answers : List ℕ} {io : Framing.Inbound} {p : Framing.Bytes}
    (hread : ({ r.io with answers := answers }).readUntil w.recvMaxPrefetch FixedSize.u64.size =
      (some p, io)) : ∃ rest, v = .inSeq (FixedSize.u64.ofBytes p).toNat :: rest ∧
        ∀ f : Endpoint, Endpoint.SameReceived e f → ¬ f.state.Waiting →
          Half c f rest linked f.erase { r with io := io } out := by
  obtain ⟨missing, hout, hholds⟩ := h.holds
  cases hholds with
  | reads hst => exact absurd hwaiting hst
  | waits hst hstate hready hshort hspoken =>
      have houtcome := @Framing.Inbound.readUntil_spec w.recvMaxPrefetch FixedSize.u64.size
        { r.io with answers := answers } ⟨hready.stateOffset, hready.recvBuf⟩ hshort (by decide)
        w.recvMaxPrefetch_lt
      rw [hread] at houtcome
      cases houtcome with
      | complete hlength hconserved hdest hoffset =>
          have hsame : p ++ (io.unread ++ missing) = r.io.dest ++ (r.io.unread ++ missing) := by
            rw [← List.append_assoc, ← List.append_assoc]
            exact congrArg (· ++ missing) hconserved
          rw [← hsame] at hspoken
          generalize hbl : p ++ (io.unread ++ missing) = bl at hspoken
          cases hspoken with
          | nothing =>
              rw [(List.append_eq_nil_iff.mp hbl).1] at hlength
              cases hlength
          | @inSeq n rest fs hn hfs =>
              obtain ⟨rfl, hunread⟩ := List.append_inj hbl
                (hlength.trans (FixedSize.u64.length_bytes _).symm)
              rw [FixedSize.u64.ofBytes_bytes, hn]
              refine ⟨rest, rfl, fun f hreceived hwaits => ?_⟩
              have hready' : io.Ready :=
                ⟨by rw [hoffset, hdest]; rfl, fun hne => absurd hdest hne⟩
              have hat : Framing.At (Framing.Receiver.extend { r with io := io } missing []) fs :=
                .opened hstate hdest ((Framing.Inbound.unread_extend _ _ _).trans hunread)
              exact
                { endpoint := rfl
                  counted := h.counted.trans hreceived.inSeq.symm
                  shown := hreceived.dispatched ▸ h.shown
                  holds := ⟨missing, hout, .reads hwaits hfs hready' hat⟩ }

theorem seq_sentHeader (w : Framing.Wire Addr) (h : Framing.Header) :
    (w.sentHeader h).seq = h.seq := by
  unfold Framing.Wire.sentHeader
  split <;> rfl

/-- What the session does while the reader of `x` recovers `new`. -/
structure Heard (c : Contents w) (x : Side) (s s' : Session) (new : List Framing.Received) :
    Prop where
  moves : Relation.ReflTransGen (sessionMachine.Moves fun _ _ => True) s s'
  linked : s'.linked = s.linked
  peer : s'.endpoint x.peer = s.endpoint x.peer ∧ s'.wire x.peer = s.wire x.peer
  opened : (s'.endpoint x).state = .opened
  endpoint : (s'.endpoint x).erase = new.foldl Endpoint.hear (s.endpoint x).erase
  inSeq : (s'.endpoint x).inSeq =
    (s.endpoint x).inSeq + (new.filter Framing.Received.isMessage).length
  shown : ∃ ms, (s'.endpoint x).dispatched = (s.endpoint x).dispatched ++ ms ∧
    List.Forall₂ (Shows c) ms (new.filter Framing.Received.isMessage)

/-- The session has heard what the reader has received, and has the frames in front of it. -/
def Hears (c : Contents w) (x : Side) (s : Session) (before : List Framing.Received)
    (received : List Framing.Received) (inSeq : UInt64) (fs : List (Framing.Frame w)) : Prop :=
  ∃ new s', received = before ++ new ∧ Heard c x s s' new ∧
    inSeq.toNat = (s'.endpoint x).inSeq ∧ Encodes c (s'.wire x) fs

theorem Heard.refl (hopened : (s.endpoint x).state = .opened) : Heard c x s s [] where
  moves := .refl
  linked := rfl
  peer := ⟨rfl, rfl⟩
  opened := hopened
  endpoint := rfl
  inSeq := rfl
  shown := ⟨[], (List.append_nil _).symm, .nil⟩

/-- A keepalive. -/
theorem Heard.ignore {new : List Framing.Received} (h : Heard c x s s' new) {e : Framing.Received}
    (hmessage : e.isMessage = false) (hhear : ∀ f : Endpoint, f.hear e = f) :
    Heard c x s s' (new ++ [e]) := by
  have hfilter : (new ++ [e]).filter Framing.Received.isMessage =
      new.filter Framing.Received.isMessage := by
    rw [List.filter_append, List.filter_singleton, hmessage]
    exact List.append_nil _
  exact
    { h with
      endpoint := by
        rw [h.endpoint, List.foldl_append]
        exact (hhear _).symm
      inSeq := hfilter ▸ h.inSeq
      shown := hfilter ▸ h.shown }

theorem Heard.ack {new : List Framing.Received} (h : Heard c x s s' new) {n : ℕ} {v : List Frame}
    (hwire : s'.wire x = .ack n :: v) (hn : (UInt64.ofNat n).toNat = n) :
    Heard c x s ((s'.setWire x v).set x ((s'.endpoint x).handleAck n))
      (new ++ [.ack (UInt64.ofNat n)]) where
  moves := by
    refine h.moves.tail ⟨.deliver x, trivial, ?_⟩
    show (if (s'.endpoint x).state ≠ .opened then none else s'.deliver x) = _
    rw [if_neg (not_not.mpr h.opened), Session.deliver, hwire]
  linked := h.linked
  peer := by
    rw [Session.set_endpoint_peer, Session.set_wire, Session.setWire_wire_peer]
    exact h.peer
  opened := by
    rw [Session.set_endpoint_self]
    exact h.opened
  endpoint := by
    rw [Session.set_endpoint_self, List.foldl_append, ← h.endpoint]
    simp only [List.foldl_cons, List.foldl_nil, Endpoint.hear, hn]
    rfl
  inSeq := by
    rw [Session.set_endpoint_self, List.filter_append]
    exact h.inSeq.trans (by simp [Framing.Received.isMessage])
  shown := by
    rw [Session.set_endpoint_self, List.filter_append]
    obtain ⟨ms, hdispatched, hms⟩ := h.shown
    exact ⟨ms, hdispatched, by simpa [Framing.Received.isMessage] using hms⟩

theorem Heard.message {new : List Framing.Received} (h : Heard c x s s' new) {m : Message}
    {v : List Frame} {e : Framing.Received} (hwire : s'.wire x = .message m :: v)
    (hnext : m.seq = (s'.endpoint x).inSeq + 1) (hm : (UInt64.ofNat m.seq).toNat = m.seq)
    (hshows : Shows c m e) :
    Heard c x s ((s'.setWire x v).set x ((s'.endpoint x).receive m)) (new ++ [e]) := by
  have hreceive : (s'.endpoint x).receive m =
      { s'.endpoint x with
        inSeq := m.seq
        ackLeft := (s'.endpoint x).ackLeft + 1
        dispatched := (s'.endpoint x).dispatched ++ [m] } := by
    rw [Endpoint.receive, if_neg (by omega)]
  have hmessage : e.isMessage = true := by
    cases e with
    | message => rfl
    | _ => exact absurd hshows id
  have hhear (f : Endpoint) (hf : f.inSeq = (s'.endpoint x).inSeq) :
      f.hear e = { f with inSeq := m.seq, ackLeft := f.ackLeft + 1 } := by
    cases e with
    | message header front middle data =>
        have hseq : header.seq.toNat = m.seq := by
          rw [congrArg Framing.Envelope.seq hshows.1.envelope, seq_sentHeader, c.seq, hm]
        rw [Endpoint.hear, hseq, if_neg (by omega)]
    | _ => exact absurd hshows id
  have hfilter : (new ++ [e]).filter Framing.Received.isMessage =
      new.filter Framing.Received.isMessage ++ [e] := by
    rw [List.filter_append, List.filter_singleton, hmessage]
    rfl
  exact
    { moves := by
        refine h.moves.tail ⟨.deliver x, trivial, ?_⟩
        show (if (s'.endpoint x).state ≠ .opened then none else s'.deliver x) = _
        rw [if_neg (not_not.mpr h.opened), Session.deliver, hwire]
      linked := h.linked
      peer := by
        rw [Session.set_endpoint_peer, Session.set_wire, Session.setWire_wire_peer]
        exact h.peer
      opened := by
        rw [Session.set_endpoint_self, hreceive]
        exact h.opened
      endpoint := by
        rw [Session.set_endpoint_self, List.foldl_append, ← h.endpoint, hreceive]
        exact (hhear (s'.endpoint x).erase rfl).symm
      inSeq := by
        rw [Session.set_endpoint_self, hreceive, hfilter, List.length_append]
        show m.seq = _
        rw [hnext, h.inSeq]
        rfl
      shown := by
        obtain ⟨ms, hdispatched, hms⟩ := h.shown
        refine ⟨ms ++ [m], ?_, ?_⟩
        · rw [Session.set_endpoint_self, hreceive, ← List.append_assoc, ← hdispatched]
        · rw [hfilter]
          exact List.rel_append hms (.cons hshows .nil) }

/-- The session moves on behind every frame that is recovered. -/
theorem movesOn_hears (hreached : sessionMachine.Reached s) (before : List Framing.Received) :
    Framing.MovesOn (Hears c x s before) := by
  rintro received inSeq f rest e inSeq' ⟨new, s', rfl, hheard, hinSeq, hfs⟩ hrecovers hcounts
  generalize hwire : s'.wire x = v at hfs
  cases hfs with
  | @message m v _ hm hfs =>
      have hnext := Session.next_of_reached (hreached.trans hheard.moves) hwire
      refine ⟨new ++ [e], _, List.append_assoc _ _ _,
        hheard.message hwire hnext hm hrecovers, ?_, ?_⟩
      · rw [hcounts.2, c.seq, hm, Session.set_endpoint_self, Endpoint.receive, if_neg (by omega)]
      · rw [Session.set_wire, Session.setWire_wire_self]
        exact hfs
  | @ack n v _ hn hfs =>
      obtain rfl : e = .ack (UInt64.ofNat n) := by
        cases e with
        | ack seq => exact congrArg _ hrecovers
        | _ => exact absurd hrecovers id
      refine ⟨new ++ [.ack (UInt64.ofNat n)], _, List.append_assoc _ _ _,
        hheard.ack hwire hn, ?_, ?_⟩
      · rw [hcounts, Session.set_endpoint_self]
        exact hinSeq
      · rw [Session.set_wire, Session.setWire_wire_self]
        exact hfs
  | keepalive t hfs =>
      have he : e = if w.msgrKeepalive2 then .keepalive2 t else .keepalive := by
        cases e <;> exact hrecovers
      have hmessage : e.isMessage = false := by
        rw [he]
        split <;> rfl
      have hhear (f : Endpoint) : f.hear e = f := by
        rw [he]
        split <;> rfl
      refine ⟨new ++ [e], s', List.append_assoc _ _ _, hheard.ignore hmessage hhear, ?_, ?_⟩
      · rw [hcounts]
        exact hinSeq
      · exact hwire ▸ hfs
  | keepaliveAck t hfs =>
      obtain rfl : e = .keepalive2Ack t := by
        cases e with
        | keepalive2Ack t' => exact congrArg _ hrecovers
        | _ => exact absurd hrecovers id
      refine ⟨new ++ [.keepalive2Ack t], s', List.append_assoc _ _ _,
        hheard.ignore rfl fun _ => rfl, ?_, ?_⟩
      · rw [hcounts]
        exact hinSeq
      · exact hwire ▸ hfs

/-- The message in front of the reader is the next one. -/
theorem not_lost (hreached : sessionMachine.Reached s) {before received : List Framing.Received}
    {inSeq : UInt64} {r' : Framing.Receiver} :
    ¬ Framing.Lost (Hears c x s before) received inSeq r' := by
  rintro ⟨⟨new, s', -, hheard, hinSeq, hfs⟩, huntaken, -⟩
  generalize hwire : s'.wire x = v at hfs
  cases hfs with
  | @message m v _ hm hfs =>
      have hnext := Session.next_of_reached (hreached.trans hheard.moves) hwire
      have hseq : UInt64.ofNat m.seq = inSeq + 1 := by
        rw [hnext, ← hinSeq]
        simp
      have hlt : inSeq.toNat < (UInt64.ofNat m.seq).toNat := by
        rw [hm, hnext, hinSeq]
        exact Nat.lt_succ_self _
      refine huntaken ⟨?_, fun _ => ?_⟩
      · rw [c.seq]
        exact hlt
      · rw [c.seq, hseq]
        exact UInt64.lt_irrefl _

/-- **A pass of `process`** is some deliveries of the session. -/
theorem Half.pass {e' : Endpoint} (hreached : sessionMachine.Reached s)
    (h : Half c (s.endpoint x) (s.wire x) s.linked e' r out)
    (hopened : (s.endpoint x).state = .opened) (p : Framing.Pass) :
    ∃ s' new, Heard c x s s' new ∧ (r.step w p).received = r.received ++ new ∧
      Half c (s'.endpoint x) (s'.wire x) s.linked (new.foldl Endpoint.hear e') (r.step w p)
        out := by
  obtain ⟨missing, hout, hholds⟩ := h.holds
  cases hholds with
  | waits hst => exact absurd hopened hst.ne_opened
  | @reads fs hst hfs hready hat =>
      obtain ⟨asked, left, hstep⟩ := Framing.Receiver.step_extend (w := w) r p missing
      have hfollows : Framing.Follows (Hears c x s r.received) (r.extend missing asked) :=
        ⟨fs, ⟨[], s, (List.append_nil _).symm, .refl hopened, h.counted, hfs⟩, hready.extend _ _,
          hat.of_answers asked⟩
      have hadvances : Framing.Advances (Hears c x s r.received) p.granted (r.extend missing asked)
          ((r.extend missing asked).pass w p.granted) :=
        Framing.pass_advances (movesOn_hears hreached _) hfollows
      rw [hstep] at hadvances
      obtain ⟨fs', ⟨new, s', hreceived, hheard, hinSeq, hfs'⟩, hready', hat'⟩ :=
        hadvances.outcome.resolve_right (not_lost hreached)
      have hruns : (r.step w p).state ≠ .aborted := hat'.running.2.2
      obtain ⟨new', hnews⟩ := Framing.Receiver.pass_news
        { r with io := { r.io with answers := p.answers } } p.granted hruns
      obtain rfl : new' = new := List.append_cancel_left (hnews.received.symm.trans hreceived)
      have hdispatched : (r.step w p).dispatched =
          r.dispatched ++ new'.filter Framing.Received.isMessage := by
        refine hnews.dispatched.resolve_right ?_
        rintro ⟨hsame, e, he, hmessage⟩
        have hcount := hheard.inSeq
        have hpos : 0 < (new'.filter Framing.Received.isMessage).length :=
          List.length_pos_of_mem (List.mem_filter.mpr ⟨he, hmessage⟩)
        have hstays : (r.step w p).inSeq.toNat = r.inSeq.toNat := congrArg UInt64.toNat hsame
        have hmoved : (r.step w p).inSeq.toNat = (s'.endpoint x).inSeq := hinSeq
        rw [h.counted] at hstays
        omega
      obtain ⟨ms, hms, hshown⟩ := hheard.shown
      refine ⟨s', new', hheard, hreceived, ?_⟩
      exact
        { endpoint := by rw [h.endpoint, hheard.endpoint]
          counted := hinSeq
          shown := by
            rw [hms, hdispatched]
            exact List.rel_append h.shown hshown
          holds := by
            refine ⟨missing, hout, .reads (fun hw => hw.ne_opened hheard.opened) hfs' ?_
              (hat'.of_answers [])⟩
            exact ⟨hready'.stateOffset, hready'.recvBuf⟩ }

end Reading

/-! ## The steps -/

namespace Wired

variable {t : Wired} {x : Side} {e : Endpoint} {r : Framing.Receiver} {bl : Framing.Bytes}

@[simp] theorem set_endpoint_self : (t.set x e).endpoint x = e := by simp [set]

@[simp] theorem set_endpoint_peer : (t.set x e).endpoint x.peer = t.endpoint x.peer := by simp [set]

@[simp] theorem set_peer_endpoint : (t.set x.peer e).endpoint x = t.endpoint x := by simp [set]

@[simp] theorem setReader_reader_self : (t.setReader x r).reader x = r := by simp [setReader]

@[simp] theorem setReader_reader_peer : (t.setReader x r).reader x.peer = t.reader x.peer := by
  simp [setReader]

@[simp] theorem setReader_peer_reader : (t.setReader x.peer r).reader x = t.reader x := by
  simp [setReader]

@[simp] theorem setOutgoing_outgoing_self : (t.setOutgoing x bl).outgoing x = bl := by
  simp [setOutgoing]

@[simp] theorem setOutgoing_outgoing_peer :
    (t.setOutgoing x bl).outgoing x.peer = t.outgoing x.peer := by simp [setOutgoing]

@[simp] theorem setOutgoing_peer_outgoing :
    (t.setOutgoing x.peer bl).outgoing x = t.outgoing x := by simp [setOutgoing]

end Wired

section Steps

open Wired

variable {c : Contents w} {t t' : Wired} {s s' : Session} {x : Side} {e' f : Endpoint}
  {v' : List Frame} {fs' : List (Framing.Frame w)}

theorem Refines.peer (h : Refines c t s) (x : Side) : Half c (s.endpoint x.peer) (s.wire x.peer)
    s.linked (t.endpoint x.peer) (t.reader x.peer) (t.outgoing x) := by
  have hpeer := h.halves x.peer
  rwa [x.peer_peer] at hpeer

theorem Refines.of_halves (x : Side) (hlinked : t.linked = s.linked)
    (hself : Half c (s.endpoint x) (s.wire x) s.linked (t.endpoint x) (t.reader x)
      (t.outgoing x.peer))
    (hpeer : Half c (s.endpoint x.peer) (s.wire x.peer) s.linked (t.endpoint x.peer)
      (t.reader x.peer) (t.outgoing x)) : Refines c t s where
  linked := hlinked
  halves y := by
    cases x.eq_or_eq_peer y with
    | inl hy => exact hy ▸ hself
    | inr hy =>
        subst hy
        rw [x.peer_peer]
        exact hpeer

/-- The queues of an end change. -/
theorem Refines.set (h : Refines c t s) (x : Side) (he : e' = f.erase)
    (hstate : f.state.Waiting ↔ (s.endpoint x).state.Waiting)
    (hreceived : Endpoint.SameReceived (s.endpoint x) f) : Refines c (t.set x e') (s.set x f) := by
  refine .of_halves x h.linked ?_ ?_
  · rw [Session.set_endpoint_self, set_endpoint_self, he]
    exact (h.halves x).of_queues hstate hreceived
  · rw [Session.set_endpoint_peer, set_endpoint_peer]
    exact h.peer x

/-- An end writes something that the session has on the channel to its peer. -/
theorem Refines.write (h : Refines c t s) {bl : Framing.Bytes}
    (hlinked : s'.linked = s.linked) (hendpoint : s'.endpoint = s.endpoint)
    (hself : s'.wire x = s.wire x)
    (hpeer : Half c (s.endpoint x.peer) (s'.wire x.peer) s.linked (t.endpoint x.peer)
      (t.reader x.peer) (t.outgoing x ++ bl)) : Refines c (t.write x bl) s' := by
  refine .of_halves x (h.linked.trans hlinked.symm) ?_ ?_
  · rw [hendpoint, hself, hlinked]
    show Half c _ _ _ _ _ ((t.setOutgoing x _).outgoing x.peer)
    rw [setOutgoing_outgoing_peer]
    exact h.halves x
  · rw [hendpoint, hlinked]
    show Half c _ _ _ _ _ ((t.setOutgoing x _).outgoing x)
    rw [setOutgoing_outgoing_self]
    exact hpeer

/-- The socket takes some of what an end has left. -/
theorem Refines.trySend (h : Refines c t s) (x : Side) (k : ℕ) : Refines c (t.trySend x k) s := by
  unfold Wired.trySend
  cases hlinked : t.linked with
  | true =>
      have hs : s.linked = true := h.linked.symm.trans hlinked
      rw [if_pos rfl]
      refine .of_halves x h.linked ?_ ?_
      · show Half c _ _ _ _ ((t.setReader x.peer _).reader x) ((t.setOutgoing x _).outgoing x.peer)
        rw [setReader_peer_reader, setOutgoing_outgoing_peer]
        exact h.halves x
      · show Half c _ _ _ _ ((t.setReader x.peer _).reader x.peer)
          ((t.setOutgoing x _).outgoing x)
        rw [setReader_reader_self, setOutgoing_outgoing_self]
        have hpeer := h.peer x
        rw [hs] at hpeer ⊢
        exact hpeer.arrive k
  | false =>
      have hs : s.linked = false := h.linked.symm.trans hlinked
      rw [if_neg Bool.false_ne_true]
      refine .of_halves x h.linked ?_ ?_
      · rw [setOutgoing_outgoing_peer]
        exact h.halves x
      · rw [setOutgoing_outgoing_self, hs]
        exact (h.peer x).unlink

/-- Whoever is open writes to an end that has the number of its peer in front of it. -/
theorem said_of_reached (hreached : sessionMachine.Reached s) (hlinked : s.linked = true)
    (hopened : (s.endpoint x).state = .opened) (hwaiting : (s.endpoint x.peer).state.Waiting) :
    s.wire x.peer ≠ [] := by
  obtain ⟨log, acked, log', acked', hforth, hback⟩ := (Session.sound_of_reached hreached).lanes x
  intro hnil
  rcases hwaiting with hpeer | hpeer
  · have hself := ((hback.paired hlinked).mp hpeer).1
    rw [hopened] at hself
    cases hself
  · have hself := (hforth.paired hlinked).mpr ⟨hpeer, hnil⟩
    rw [hopened] at hself
    cases hself

theorem Endpoint.writeNext_erase (e : Endpoint) :
    e.erase.writeNext = e.writeNext.map fun p => (p.1.erase, p.2) := by
  unfold Endpoint.writeNext
  rw [show e.erase.outQ = e.outQ from rfl]
  cases e.outQ.pop <;> rfl

theorem Endpoint.writeAck_erase (e : Endpoint) :
    e.erase.writeAck = e.writeAck.map fun p => (p.1.erase, p.2) := by
  unfold Endpoint.writeAck
  show (if e.ackLeft = 0 then none else _) = _
  split <;> rfl

theorem Endpoint.seq_writeNext {e f : Endpoint} {m : Message}
    (hwrite : e.writeNext = some (f, m)) : m.seq = e.outSeq + 1 := by
  unfold Endpoint.writeNext at hwrite
  split at hwrite
  · cases hwrite
  · simp only [Option.some.injEq, Prod.mk.injEq] at hwrite
    obtain ⟨-, rfl⟩ := hwrite
    rfl

theorem encodeAll_singleton (f : Framing.Frame w) :
    Framing.Wire.encodeAll [f] = Framing.Wire.encode f := List.append_nil _

/-- What is written is a step of the session. -/
theorem Refines.transmit (h : Refines c t s) {g : Frame} {fs : List (Framing.Frame w)}
    (hencodes : Encodes c [g] fs)
    (hsaid : s.linked = true → (s.endpoint x.peer).state.Waiting → s.wire x.peer ≠ []) (k : ℕ) :
    Refines c ((t.write x (Framing.Wire.encodeAll fs)).trySend x k) (s.transmit x g) := by
  refine (h.write Session.transmit_linked Session.transmit_endpoint Session.transmit_wire_self
    ?_).trySend x k
  rw [Session.transmit_wire_peer]
  exact (h.peer x).write hencodes hsaid

theorem toNat_ofNat_inSeq (h : Refines c t s) (x : Side) :
    (UInt64.ofNat (s.endpoint x).inSeq).toNat = (s.endpoint x).inSeq := by
  rw [← (h.halves x).counted, UInt64.ofNat_toNat]

theorem refines_writeNext (hreached : sessionMachine.Reached s) (h : Refines c t s) {k : ℕ}
    (hrange : (t.endpoint x).outSeq + 1 < 2 ^ 64)
    (hstep : t.step c (.writeNext x k) = some t') :
    ∃ s', Relation.ReflTransGen (sessionMachine.Moves fun _ _ => True) s s' ∧ Refines c t' s' := by
  have hendpoint := (h.halves x).endpoint
  rw [hendpoint] at hrange
  simp only [Wired.step, hendpoint, Endpoint.writeNext_erase] at hstep
  split at hstep
  · cases hstep
  · rename_i hopened
    have hopened : (s.endpoint x).state = .opened := not_not.mp hopened
    cases hwrite : (s.endpoint x).writeNext with
    | none =>
        rw [hwrite] at hstep
        cases hstep
    | some p =>
        obtain ⟨f, m⟩ := p
        rw [hwrite] at hstep
        obtain rfl := Option.some.inj hstep
        obtain ⟨hstate, hreceived⟩ := Endpoint.sameReceived_writeNext hwrite
        have hseq : (UInt64.ofNat m.seq).toNat = m.seq := by
          rw [Endpoint.seq_writeNext hwrite]
          exact UInt64.toNat_ofNat_of_lt' hrange
        refine ⟨(s.set x f).transmit x (.message m), .single ⟨.writeNext x, trivial, ?_⟩, ?_⟩
        · show (if (s.endpoint x).state ≠ .opened then none else _) = _
          rw [if_neg (not_not.mpr hopened), hwrite]
        · have hset := h.set x (rfl : f.erase = f.erase) (by rw [hstate]) hreceived
          have hsaid : (s.set x f).linked = true →
              ((s.set x f).endpoint x.peer).state.Waiting → (s.set x f).wire x.peer ≠ [] := by
            rw [Session.set_endpoint_peer]
            exact fun hlinked hwaiting => said_of_reached (s := s) hreached hlinked hopened hwaiting
          have hframe := hset.transmit (.message (c := c) hseq .nil) hsaid k
          rwa [encodeAll_singleton] at hframe

theorem refines_writeAck (hreached : sessionMachine.Reached s) (h : Refines c t s) {k : ℕ}
    (hstep : t.step c (.writeAck x k) = some t') :
    ∃ s', Relation.ReflTransGen (sessionMachine.Moves fun _ _ => True) s s' ∧ Refines c t' s' := by
  have hendpoint := (h.halves x).endpoint
  simp only [Wired.step, hendpoint, Endpoint.writeAck_erase] at hstep
  split at hstep
  · cases hstep
  · rename_i hopened
    have hopened : (s.endpoint x).state = .opened := not_not.mp hopened
    cases hwrite : (s.endpoint x).writeAck with
    | none =>
        rw [hwrite] at hstep
        cases hstep
    | some p =>
        obtain ⟨f, n⟩ := p
        rw [hwrite] at hstep
        obtain rfl := Option.some.inj hstep
        obtain ⟨rfl, hstate, -, hreceived⟩ := Endpoint.writeAck_spec hwrite
        refine ⟨(s.set x f).transmit x (.ack (s.endpoint x).inSeq),
          .single ⟨.writeAck x, trivial, ?_⟩, ?_⟩
        · show (if (s.endpoint x).state ≠ .opened then none else _) = _
          rw [if_neg (not_not.mpr hopened), hwrite]
        · have hset := h.set x (rfl : f.erase = f.erase) (by rw [hstate]) hreceived
          have hsaid : (s.set x f).linked = true →
              ((s.set x f).endpoint x.peer).state.Waiting → (s.set x f).wire x.peer ≠ [] := by
            rw [Session.set_endpoint_peer]
            exact fun hlinked hwaiting => said_of_reached (s := s) hreached hlinked hopened hwaiting
          have hframe := hset.transmit (.ack (c := c) (toNat_ofNat_inSeq h x) .nil) hsaid k
          rwa [encodeAll_singleton] at hframe

/-- Keepalives are no part of the session. -/
theorem refines_writeKeepalive (hreached : sessionMachine.Reached s) (h : Refines c t s)
    {ack : Bool} {now : Framing.UTime} {k : ℕ}
    (hstep : t.step c (.writeKeepalive x ack now k) = some t') : Refines c t' s := by
  simp only [Wired.step] at hstep
  split at hstep
  · cases hstep
  · rename_i hopened
    rw [(h.halves x).endpoint] at hopened
    have hopened : (s.endpoint x).state = .opened := not_not.mp hopened
    obtain rfl := Option.some.inj hstep
    obtain ⟨f, hf, hencodes⟩ : ∃ f : Framing.Frame w,
        Framing.Wire.encode f = w.appendKeepaliveOrAck ack now ∧ Encodes c [] [f] := by
      cases ack with
      | true => exact ⟨.keepaliveAck now, rfl, .keepaliveAck now .nil⟩
      | false => exact ⟨.keepalive now, rfl, .keepalive now .nil⟩
    have hpeer := (h.peer x).write hencodes fun hlinked hwaiting =>
      said_of_reached hreached hlinked hopened hwaiting
    rw [encodeAll_singleton, hf, List.append_nil, ite_self] at hpeer
    exact (h.write rfl rfl rfl hpeer).trySend x k

theorem refines_pass (hreached : sessionMachine.Reached s) (h : Refines c t s)
    {p : Framing.Pass} (hstep : t.step c (.pass x p) = some t') :
    ∃ s', Relation.ReflTransGen (sessionMachine.Moves fun _ _ => True) s s' ∧ Refines c t' s' := by
  simp only [Wired.step] at hstep
  split at hstep
  · cases hstep
  · rename_i hopened
    rw [(h.halves x).endpoint] at hopened
    have hopened : (s.endpoint x).state = .opened := not_not.mp hopened
    obtain rfl := Option.some.inj hstep
    obtain ⟨s', new, hheard, hreceived, hhalf⟩ := (h.halves x).pass hreached hopened p
    refine ⟨s', hheard.moves, .of_halves x (h.linked.trans hheard.linked.symm) ?_ ?_⟩
    · rw [hheard.linked]
      show Half c _ _ _ ((Wired.set _ x _).endpoint x) ((t.setReader x _).reader x) _
      rw [set_endpoint_self, setReader_reader_self, hreceived, List.drop_left]
      exact hhalf
    · rw [hheard.linked, hheard.peer.1, hheard.peer.2]
      show Half c _ _ _ ((Wired.set _ x _).endpoint x.peer) ((t.setReader x _).reader x.peer) _
      rw [set_endpoint_peer, setReader_reader_peer]
      exact h.peer x

/-- An end reads what is in front of it. -/
theorem Refines.read (h : Refines c t s) {r : Framing.Receiver} {rest : List Frame}
    (hself : Half c f rest s.linked e' r (t.outgoing x.peer)) :
    Refines c ((t.setReader x r).set x e') ((s.setWire x rest).set x f) := by
  refine .of_halves x h.linked ?_ ?_
  · rw [Session.set_endpoint_self, Session.set_wire, Session.setWire_wire_self, set_endpoint_self]
    show Half c _ _ _ _ ((t.setReader x _).reader x) _
    rw [setReader_reader_self]
    exact hself
  · rw [Session.set_endpoint_peer, Session.set_wire, Session.setWire_wire_peer, set_endpoint_peer]
    show Half c _ _ _ _ ((t.setReader x _).reader x.peer) _
    rw [setReader_reader_peer]
    exact h.peer x

/-- The number of the exchange, to a peer that waits for it. -/
theorem Half.writeSeq {e : Endpoint} {linked : Bool} {r : Framing.Receiver} {out : Framing.Bytes}
    {v : List Frame} {n : ℕ} (h : Half c e v linked e' r out)
    (hn : (UInt64.ofNat n).toNat = n) (hpeer : linked = true → e.state.Waiting ∧ v = []) :
    Half c e (if linked then v ++ [.inSeq n] else v) linked e' r
      (out ++ FixedSize.u64.bytes (UInt64.ofNat n)) := by
  cases linked with
  | false => exact h.unlink
  | true =>
      obtain ⟨hwaiting, rfl⟩ := hpeer rfl
      obtain ⟨missing, hout, hholds⟩ := h.holds
      obtain rfl := hout rfl
      cases hholds with
      | reads hst => exact absurd hwaiting hst
      | waits hst hstate hready hshort hspoken =>
          have hempty : r.io.dest ++ (r.io.unread ++ missing) = [] := by
            generalize r.io.dest ++ (r.io.unread ++ missing) = bl at hspoken
            cases hspoken
            rfl
          refine ⟨h.endpoint, h.counted, h.shown, _, fun _ => rfl, ?_⟩
          refine .waits hst hstate hready hshort ?_
          rw [← List.append_assoc r.io.unread, ← List.append_assoc, hempty]
          have hspoken' := Says.inSeq (c := c) hn .nil
          rwa [Framing.Wire.encodeAll, List.flatMap_nil, List.append_nil] at hspoken'

/-- An end that has read the number of its peer. -/
abbrev Endpoint.agreed (e : Endpoint) (n : ℕ) : Endpoint :=
  { e.discardRequeuedUpTo n with state := .ready }

theorem not_waiting_down : ¬ State.down.Waiting := by decide

theorem not_waiting_ready : ¬ State.ready.Waiting := by decide

theorem not_waiting_opened : ¬ State.opened.Waiting := by decide

theorem refines_readSeq (hreached : sessionMachine.Reached s) (h : Refines c t s)
    {answers : List ℕ} {k : ℕ} (hstep : t.step c (.readSeq x answers k) = some t') :
    ∃ s', Relation.ReflTransGen (sessionMachine.Moves fun _ _ => True) s s' ∧ Refines c t' s' := by
  have hendpoint := (h.halves x).endpoint
  obtain ⟨hwaiting, hstep⟩ := Option.ite_none_right_eq_some.mp hstep
  obtain rfl := Option.some.inj hstep
  rw [hendpoint] at hwaiting
  have hwaiting : (s.endpoint x).state.Waiting := hwaiting
  unfold Wired.readSeq
  cases hread : ({ (t.reader x).io with answers := answers }).readUntil w.recvMaxPrefetch
      FixedSize.u64.size with
  | mk p io =>
      cases p with
      | none =>
          refine ⟨s, .refl, ?_⟩
          dsimp only
          rw [hread]
          refine .of_halves x h.linked ?_ ?_
          · show Half c _ _ _ _ ((t.setReader x _).reader x) _
            rw [setReader_reader_self]
            exact (h.halves x).readSeq_again hwaiting hread
          · show Half c _ _ _ _ ((t.setReader x _).reader x.peer) _
            rw [setReader_reader_peer]
            exact h.peer x
      | some p =>
          obtain ⟨rest, hwire, hhalf⟩ := (h.halves x).readSeq_complete hwaiting hread
          have hself := hhalf ((s.endpoint x).agreed (FixedSize.u64.ofBytes p).toNat) ⟨rfl, rfl⟩
            not_waiting_ready
          have hrefines := h.read hself
          dsimp only
          rw [hread, hendpoint]
          rcases hwaiting with hconnecting | haccepting
          · have hconnecting' : (s.endpoint x).erase.state = .connectingWaitAckSeq := hconnecting
            have hs : s.readSeq x = some (((s.setWire x rest).set x
                ((s.endpoint x).agreed (FixedSize.u64.ofBytes p).toNat)).transmit x
                  (.inSeq (s.endpoint x).inSeq)) := by
              simp only [Session.readSeq, hconnecting, hwire]
            refine ⟨_, .single ⟨.readSeq x, trivial, hs⟩, ?_⟩
            dsimp only
            rw [if_pos hconnecting']
            refine (hrefines.write Session.transmit_linked Session.transmit_endpoint
              Session.transmit_wire_self ?_).trySend x k
            rw [Session.transmit_wire_peer]
            refine (hrefines.peer x).writeSeq (toNat_ofNat_inSeq h x) fun hlinked => ?_
            obtain ⟨log, acked, hlane⟩ := Session.sound_of_reached hreached x
            obtain ⟨hpeer, hnil⟩ := (hlane.paired hlinked).mp hconnecting
            rw [Session.set_endpoint_peer, Session.set_wire, Session.setWire_wire_peer]
            exact ⟨.inr hpeer, hnil⟩
          · have haccepting' : ¬ (s.endpoint x).erase.state = .connectingWaitAckSeq := by
              show ¬ (s.endpoint x).state = _
              rw [haccepting]
              decide
            have hs : s.readSeq x = some ((s.setWire x rest).set x
                ((s.endpoint x).agreed (FixedSize.u64.ofBytes p).toNat)) := by
              simp only [Session.readSeq, haccepting, hwire]
            refine ⟨_, .single ⟨.readSeq x, trivial, hs⟩, ?_⟩
            dsimp only
            rw [if_neg haccepting']
            exact hrefines

/-- The reader of a new socket. -/
theorem holds_reset (r : Framing.Receiver) {st : State} (hst : ¬ st.Waiting) :
    Holds c (resetRecvState r) [] st [] :=
  .reads hst .nil ⟨rfl, fun h => absurd rfl h⟩ (.opened rfl rfl rfl)

theorem refines_fault (h : Refines c t s) (x : Side) : Refines c (t.fault x) (s.fault x) := by
  have hreceived := Endpoint.sameReceived_fault (s.endpoint x)
  have herase : (t.endpoint x).fault = (s.endpoint x).fault.erase := by
    rw [(h.halves x).endpoint]
    by_cases hsent : (s.endpoint x).sent = []
    · have hsent' : (s.endpoint x).erase.sent = [] := hsent
      rw [Endpoint.fault, Endpoint.fault, Endpoint.requeueSent, Endpoint.requeueSent, if_pos hsent,
        if_pos hsent']
      rfl
    · have hsent' : ¬ (s.endpoint x).erase.sent = [] := hsent
      rw [Endpoint.fault, Endpoint.fault, Endpoint.requeueSent, Endpoint.requeueSent, if_neg hsent,
        if_neg hsent']
      rfl
  refine .of_halves x rfl ?_ ?_
  · show Half c ((Session.set _ x _).endpoint x) ((s.setWire x []).wire x) false
      ((t.set x _).endpoint x) ((Wired.setReader _ x _).reader x) _
    rw [Session.set_endpoint_self, Session.setWire_wire_self, set_endpoint_self,
      setReader_reader_self]
    exact
      { endpoint := herase
        counted := (h.halves x).counted.trans hreceived.inSeq.symm
        shown := hreceived.dispatched ▸ (h.halves x).shown
        holds := ⟨[], nofun, holds_reset _ not_waiting_down⟩ }
  · show Half c ((Session.set _ x _).endpoint x.peer) ((s.setWire x []).wire x.peer) false
      ((t.set x _).endpoint x.peer) ((Wired.setReader _ x _).reader x.peer) _
    rw [Session.set_endpoint_peer, Session.setWire_wire_peer, set_endpoint_peer,
      setReader_reader_peer]
    exact (h.peer x).unlink

theorem refines_reconnect (h : Refines c t s) (x : Side) :
    Refines c (t.reconnect x) (s.reconnect x) := by
  have hself := h.halves x
  have hpeer := h.peer x
  have hn := toNat_ofNat_inSeq h x.peer
  have hready (r : Framing.Receiver) : (resetRecvState r).io.Ready :=
    ⟨rfl, fun hne => absurd rfl hne⟩
  refine .of_halves x rfl ?_ ?_
  · show Half c ((Session.set _ x.peer _).endpoint x) ((Session.setWire _ x.peer _).wire x) true
      ((Wired.set _ x.peer _).endpoint x) (resetRecvState (t.reader x))
      ((Wired.setOutgoing _ x.peer _).outgoing x.peer)
    rw [Session.set_peer_endpoint, Session.set_endpoint_self, Session.setWire_peer_wire,
      Session.setWire_wire_self, Wired.set_peer_endpoint, Wired.set_endpoint_self,
      Wired.setOutgoing_outgoing_self, hself.endpoint, hpeer.endpoint]
    refine ⟨rfl, hself.counted, hself.shown, _, fun _ => rfl,
      .waits (.inl rfl) rfl (hready _) (Nat.zero_lt_succ 7) ?_⟩
    have hspoken := Says.inSeq (c := c) hn .nil
    rwa [Framing.Wire.encodeAll, List.flatMap_nil, List.append_nil] at hspoken
  · show Half c ((Session.set _ x.peer _).endpoint x.peer)
      ((Session.setWire _ x.peer _).wire x.peer) true
      ((Wired.set _ x.peer _).endpoint x.peer) (resetRecvState (t.reader x.peer))
      ((Wired.setOutgoing _ x.peer _).outgoing x)
    rw [Session.set_endpoint_self, Session.setWire_wire_self, Wired.set_endpoint_self,
      Wired.setOutgoing_peer_outgoing, Wired.setOutgoing_outgoing_self, hpeer.endpoint]
    exact ⟨rfl, hpeer.counted, hpeer.shown, [], fun _ => rfl,
      .waits (.inr rfl) rfl (hready _) (Nat.zero_lt_succ 7) .nothing⟩

/-- **A step over the bytes** is some steps of the session. -/
theorem refines_step (hreached : sessionMachine.Reached s) (h : Refines c t s) {a : WiredAction}
    (hrange : t.InRange a) (hstep : t.step c a = some t') :
    ∃ s', Relation.ReflTransGen (sessionMachine.Moves fun _ _ => True) s s' ∧ Refines c t' s' := by
  cases a with
  | sendMessage x id priority =>
      simp only [Wired.step, (h.halves x).endpoint] at hstep
      split at hstep
      · cases hstep
      · rename_i hnew
        obtain rfl := Option.some.inj hstep
        refine ⟨s.set x ((s.endpoint x).sendMessage id priority),
          .single ⟨.sendMessage x id priority, trivial, if_neg hnew⟩, ?_⟩
        exact h.set x rfl Iff.rfl ⟨rfl, rfl⟩
  | writeNext x k => exact refines_writeNext hreached h hrange hstep
  | writeAck x k => exact refines_writeAck hreached h hstep
  | writeKeepalive x ack now k =>
      exact ⟨s, .refl, refines_writeKeepalive hreached h hstep⟩
  | send x k =>
      obtain rfl := Option.some.inj hstep
      exact ⟨s, .refl, h.trySend x k⟩
  | pass x p => exact refines_pass hreached h hstep
  | readSeq x answers k => exact refines_readSeq hreached h hstep
  | becomeOpen x =>
      simp only [Wired.step, (h.halves x).endpoint] at hstep
      split at hstep
      · cases hstep
      · rename_i hready
        obtain rfl := Option.some.inj hstep
        have hready' : (s.endpoint x).state = .ready := not_not.mp hready
        refine ⟨s.set x { s.endpoint x with state := .opened },
          .single ⟨.becomeOpen x, trivial, if_neg hready⟩, ?_⟩
        refine h.set x rfl ?_ ⟨rfl, rfl⟩
        rw [hready']
        exact iff_of_false not_waiting_opened not_waiting_ready
  | fault x =>
      obtain rfl := Option.some.inj hstep
      exact ⟨s.fault x, .single ⟨.fault x, trivial, rfl⟩, refines_fault h x⟩
  | reconnect x =>
      simp only [Wired.step, (h.halves x).endpoint, (h.halves x.peer).endpoint] at hstep
      split at hstep
      · cases hstep
      · rename_i hdown
        obtain rfl := Option.some.inj hstep
        exact ⟨s.reconnect x, .single ⟨.reconnect x, trivial, if_neg hdown⟩,
          refines_reconnect h x⟩

end Steps

/-! ## The result -/

section Result

variable {c : Contents w} {t : Wired} {s : Session} {x : Side}

/-- A session that has not begun. -/
def Wired.session (t : Wired) : Session where
  endpoint := t.endpoint
  wire _ := []
  linked := false

theorem Wired.Fresh.refines (h : t.Fresh) : t.session.Fresh ∧ Refines c t t.session := by
  refine ⟨⟨h.state, h.outQ, h.sent, h.outSeq, fun x => (h.inSeq x).1, h.accepted,
    fun x => (h.dispatched x).1, fun _ => rfl, rfl⟩, h.linked, fun x => ?_⟩
  refine ⟨?_, ?_, ?_, [], nofun, ?_⟩
  · show t.endpoint x = { t.endpoint x with dispatched := [] }
    rw [← (h.dispatched x).1]
  · show (t.reader x).inSeq.toNat = (t.endpoint x).inSeq
    rw [(h.inSeq x).1, (h.inSeq x).2]
    rfl
  · show List.Forall₂ (Shows c) (t.endpoint x).dispatched (t.reader x).dispatched
    rw [(h.dispatched x).1, (h.dispatched x).2]
    exact .nil
  · have hreader : t.reader x = resetRecvState (t.reader x) := by
      unfold resetRecvState
      rw [← (h.reader x).1, ← (h.reader x).2]
    have hdown : ¬ (t.endpoint x).state.Waiting := by
      rw [h.state]
      exact not_waiting_down
    rw [hreader]
    exact holds_reset _ hdown

/-- **Every run over the bytes is a run of the session.** -/
theorem refines_of_reached (hreached : (wiredMachine c).ReachedUnder Wired.InRange t) :
    ∃ s, sessionMachine.Reached s ∧ Refines c t s := by
  refine hreached.refines (Refines c) (fun t h => ⟨_, Wired.Fresh.refines h⟩) ?_
  intro t a t' s hs hrefines hrange hstep
  exact refines_step hs hrefines hrange hstep

/-! ### A run -/

/-- Messages of two bytes, the first of which is the identity. -/
def plainContents : Contents Framing.Layout.plainWire where
  frame id seq := { Framing.Layout.twoBytes seq with front := [UInt8.ofNat id, 2], frontLen := rfl }
  seq _ _ := rfl

/-- Both ends before they are joined. -/
def plainWired : Wired where
  endpoint := Session.fresh.endpoint
  reader _ := Framing.Receiver.before 0 []
  outgoing _ := []
  linked := false

theorem fresh_plainWired : plainWired.Fresh :=
  ⟨fun _ => rfl, fun _ => rfl, fun _ => rfl, fun _ => rfl, fun _ => ⟨rfl, rfl⟩, fun _ => rfl,
    fun _ => ⟨rfl, rfl⟩, fun _ => ⟨rfl, rfl⟩, rfl⟩

/-- Here connects, and both exchange their numbers, the first of them cut in two. -/
def joins : List WiredAction :=
  [.reconnect .here, .send .there 3, .readSeq .here [8] 0, .send .there 5, .readSeq .here [8] 8,
    .readSeq .there [8] 0, .becomeOpen .here, .becomeOpen .there]

/-- Here writes a message, a keepalive and another message; there reads the first message and the
keepalive, and is in the middle of the other when the sockets break. -/
def breaks : List WiredAction :=
  [.sendMessage .here 7 highest, .sendMessage .here 8 highest, .writeNext .here 9,
    .writeKeepalive .here false ⟨1, 2⟩ 200, .writeNext .here 30] ++
    List.replicate 9 (.pass .there ⟨[200], true⟩) ++ [.fault .there, .fault .here]

/-- The message that was lost is written and read again. -/
def resends : List WiredAction :=
  joins ++ .writeNext .here 300 :: List.replicate 9 (.pass .there ⟨[200], true⟩)

theorem exists_resent :
    ∃ t, (wiredMachine plainContents).ReachedUnder Wired.InRange t ∧
      (t.reader .there).dispatched.length = 2 ∧ t.linked = true ∧
      (t.endpoint .here).state = .opened ∧ (t.endpoint .here).outQ.items = 0 ∧
      t.outgoing .here = [] ∧ (t.reader .there).io.unread = [] := by
  have hrun : ((wiredMachine plainContents).replay Wired.InRange plainWired
      (joins ++ breaks ++ resends)).any
        (fun t => decide ((t.reader .there).dispatched.length = 2 ∧ t.linked = true ∧
          (t.endpoint .here).state = .opened ∧ (t.endpoint .here).outQ.items = 0 ∧
          t.outgoing .here = [] ∧ (t.reader .there).io.unread = [])) = true := by
    decide +kernel
  obtain ⟨t, hreplay, ht⟩ := (Option.any_eq_true _ _).mp hrun
  exact ⟨t, .of_replay (.start fresh_plainWired) hreplay, of_decide_eq_true ht⟩

/-- What an end has dispatched of what its peer was given. -/
structure Delivered (c : Contents w) (e : Endpoint) (r : Framing.Receiver) : Prop where
  /-- The reader finds nothing that it does not expect. -/
  runs : r.state ≠ .faulted ∧ r.state ≠ .stopped ∧ r.state ≠ .aborted
  /-- What was dispatched are messages that were accepted, each once, in the order of their numbers
  and with their contents; and those that were not are still held. -/
  dispatched : ∃ ms : List Message, List.Forall₂ (Shows c) ms r.dispatched ∧
    (∀ m ∈ ms, m.id ∈ e.accepted) ∧ (ms.map Message.id).Nodup ∧
    ms.Pairwise (fun m m' => m.seq < m'.seq) ∧
    ∀ id ∈ e.accepted, id ∉ ms.map Message.id →
      id ∈ e.outQ.items.map Message.id ∨ id ∈ e.sent.map Message.id

/-- What the peer has in front of it, when nothing is under way and nothing was lost. -/
theorem Half.wire_eq_nil {e e' : Endpoint} {v : List Frame} {r : Framing.Receiver}
    (h : Half c e v true e' r []) (hsaid : e.state.Waiting → v ≠ []) (hunread : r.io.unread = []) :
    v = [] := by
  obtain ⟨missing, hout, hholds⟩ := h.holds
  obtain rfl := hout rfl
  cases hholds with
  | waits hst hstate hready hshort hspoken =>
      rw [hunread, List.append_nil, List.append_nil] at hspoken
      generalize r.io.dest = bl at hspoken hshort
      cases hspoken with
      | nothing => rfl
      | inSeq hn hfs =>
          rw [List.length_append, FixedSize.u64.length_bytes] at hshort
          omega
  | reads hst hfs hready hat =>
      have hextend : (r.extend [] []).io.unread = [] := by
        rw [Framing.Receiver.extend, Framing.Inbound.unread_extend, hunread]
        rfl
      obtain rfl := hat.eq_nil hextend
      cases hfs
      rfl

end Result

end HwAsync.Connection
