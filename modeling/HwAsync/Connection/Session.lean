/-
# A lossless session between two ends

Two ends joined by a channel in each direction.  A channel delivers frames in the
order they were written; a fault of an end loses everything on its way to it, and
whatever is written from then on until the two ends are joined again.  To join
them, each end tells the other its `in_seq`, and each discards what it requeued
up to there.

The run theorem says that nothing is lost, repeated or reordered: every message
accepted is dispatched at most once and in the order of its number, and as long as it
is not, the sender still holds it.
-/

import HwAsync.Lib.Run
import HwAsync.Connection.Endpoint

namespace HwAsync.Connection

open HwAsync.Lib

/-- The two ends. -/
inductive Side
  | here
  | there
  deriving DecidableEq, Repr

def Side.peer : Side → Side
  | .here => .there
  | .there => .here

@[simp]
theorem Side.peer_peer (x : Side) : x.peer.peer = x := by cases x <;> rfl

@[simp]
theorem Side.peer_ne (x : Side) : x.peer ≠ x := by cases x <;> decide

@[simp]
theorem Side.ne_peer (x : Side) : x ≠ x.peer := x.peer_ne.symm

theorem Side.eq_or_eq_peer (x y : Side) : y = x ∨ y = x.peer := by
  cases x <;> cases y <;> simp [Side.peer]

/-- What travels on a channel: a message, an acknowledgement, or the bare number of the
exchange. -/
inductive Frame
  | message (m : Message)
  | ack (seq : ℕ)
  | inSeq (seq : ℕ)
  deriving DecidableEq, Repr

/-- Both ends, the frames on their way to each, and whether what is written still
arrives. -/
structure Session where
  endpoint : Side → Endpoint
  wire : Side → List Frame
  linked : Bool

inductive Action
  | sendMessage (x : Side) (id : ℕ) (priority : Priority)
  | writeNext (x : Side)
  | writeAck (x : Side)
  | deliver (x : Side)
  | readSeq (x : Side)
  | becomeOpen (x : Side)
  | fault (x : Side)
  | reconnect (x : Side)

namespace Session

def set (s : Session) (x : Side) (e : Endpoint) : Session :=
  { s with endpoint := Function.update s.endpoint x e }

def setWire (s : Session) (x : Side) (w : List Frame) : Session :=
  { s with wire := Function.update s.wire x w }

/-- The side writes a frame. -/
def transmit (s : Session) (x : Side) (f : Frame) : Session :=
  if s.linked then s.setWire x.peer (s.wire x.peer ++ [f]) else s

/-- `STATE_OPEN` reads the next frame. -/
def deliver (s : Session) (x : Side) : Option Session :=
  match s.wire x with
  | .message m :: rest => some ((s.setWire x rest).set x ((s.endpoint x).receive m))
  | .ack n :: rest => some ((s.setWire x rest).set x ((s.endpoint x).handleAck n))
  | _ => none

/-- `STATE_CONNECTING_WAIT_ACK_SEQ` and `STATE_ACCEPTING_WAIT_SEQ` read the number of the
peer; the connecting side answers with its own. -/
def readSeq (s : Session) (x : Side) : Option Session :=
  let e := s.endpoint x
  match e.state, s.wire x with
  | .connectingWaitAckSeq, .inSeq n :: rest =>
      some (((s.setWire x rest).set x { e.discardRequeuedUpTo n with state := .ready }).transmit x
        (.inSeq e.inSeq))
  | .acceptingWaitSeq, .inSeq n :: rest =>
      some ((s.setWire x rest).set x { e.discardRequeuedUpTo n with state := .ready })
  | _, _ => none

/-- `fault` of a side, or the replacement of its socket by `handle_connect_msg`. -/
def fault (s : Session) (x : Side) : Session :=
  { (s.setWire x []).set x (s.endpoint x).fault with linked := false }

/-- A new pair of sockets: the accepting side has written its `in_seq` behind the reply that
the connecting side has read. -/
def reconnect (s : Session) (x : Side) : Session where
  endpoint :=
    ((s.set x { s.endpoint x with state := .connectingWaitAckSeq }).set x.peer
      { s.endpoint x.peer with state := .acceptingWaitSeq }).endpoint
  wire := ((s.setWire x [.inSeq (s.endpoint x.peer).inSeq]).setWire x.peer []).wire
  linked := true

/-- One action; `none` where it is disabled. -/
def step (s : Session) : Action → Option Session
  | .sendMessage x id priority =>
      if id ∈ (s.endpoint x).accepted then none
      else some (s.set x ((s.endpoint x).sendMessage id priority))
  | .writeNext x =>
      if (s.endpoint x).state ≠ .opened then none
      else
        match (s.endpoint x).writeNext with
        | none => none
        | some (e, m) => some ((s.set x e).transmit x (.message m))
  | .writeAck x =>
      if (s.endpoint x).state ≠ .opened then none
      else
        match (s.endpoint x).writeAck with
        | none => none
        | some (e, n) => some ((s.set x e).transmit x (.ack n))
  | .deliver x => if (s.endpoint x).state ≠ .opened then none else s.deliver x
  | .readSeq x => s.readSeq x
  | .becomeOpen x =>
      if (s.endpoint x).state ≠ .ready then none
      else some (s.set x { s.endpoint x with state := .opened })
  | .fault x => some (s.fault x)
  | .reconnect x =>
      if (s.endpoint x).state ≠ .down ∨ (s.endpoint x.peer).state ≠ .down then none
      else some (s.reconnect x)

/-- A connection that has not sent anything yet. -/
structure Fresh (s : Session) : Prop where
  state : ∀ x, (s.endpoint x).state = .down
  outQ : ∀ x, (s.endpoint x).outQ = .empty
  sent : ∀ x, (s.endpoint x).sent = []
  outSeq : ∀ x, (s.endpoint x).outSeq = 0
  inSeq : ∀ x, (s.endpoint x).inSeq = 0
  accepted : ∀ x, (s.endpoint x).accepted = []
  dispatched : ∀ x, (s.endpoint x).dispatched = []
  wire : ∀ x, s.wire x = []
  linked : s.linked = false

end Session

/-- Two ends and the channels between them. -/
def sessionMachine : Machine Session Action where
  start := Session.Fresh
  step := Session.step

/-! ## One direction -/

/-- The messages on a channel. -/
def messages (w : List Frame) : List Message :=
  w.filterMap fun
    | .message m => some m
    | _ => none

@[simp]
theorem messages_nil : messages [] = [] := rfl

@[simp]
theorem messages_append (w v : List Frame) : messages (w ++ v) = messages w ++ messages v :=
  List.filterMap_append

@[simp]
theorem messages_message (m : Message) (w : List Frame) :
    messages (.message m :: w) = m :: messages w := rfl

@[simp]
theorem messages_inSeq (n : ℕ) (w : List Frame) : messages (.inSeq n :: w) = messages w := rfl

/-- The state waits for the number of the peer. -/
def State.Waiting (st : State) : Prop := st = .connectingWaitAckSeq ∨ st = .acceptingWaitSeq

namespace State.Waiting

variable {st : State}

theorem ne_opened (h : st.Waiting) : st ≠ .opened := by
  rcases h with rfl | rfl <;> decide

theorem ne_ready (h : st.Waiting) : st ≠ .ready := by
  rcases h with rfl | rfl <;> decide

theorem ne_down (h : st.Waiting) : st ≠ .down := by
  rcases h with rfl | rfl <;> decide

end State.Waiting

instance (st : State) : Decidable st.Waiting := inferInstanceAs (Decidable (_ ∨ _))

/-- The bare number of the peer is first on the channel of a side that waits for it, and
nowhere else. -/
def Framed (st : State) (inSeq : ℕ) (v : List Frame) : Prop :=
  (st.Waiting ∧ ∃ rest, v = .inSeq inSeq :: rest ∧ ∀ n, .inSeq n ∉ rest) ∨
    (∀ n, .inSeq n ∉ v) ∧ (st.Waiting → v = [])

/-- What holds from a sender to its receiver: the receiver has dispatched a prefix of the
log, the messages on the channel `w` continue it, and `v` brings back true numbers. -/
structure Lane (e f : Endpoint) (w v : List Frame) (linked : Bool) (log : List Message)
    (acked : ℕ) : Prop where
  ledger : e.Ledger log acked
  inSeq_le : f.inSeq ≤ log.length
  dispatched : f.dispatched = log.take f.inSeq
  inflight : f.dispatched ++ messages w <+: log
  acked_le : acked ≤ f.inSeq
  idle : e.state ≠ .opened → e.outSeq = acked
  quiet : e.state ≠ .opened → e.state ≠ .down → messages w = []
  exchanged : e.state = .ready → e.outSeq = f.inSeq
  live : linked = true → e.state = .opened → f.dispatched ++ messages w = log.take e.outSeq
  acks : ∀ n, .ack n ∈ v → n ≤ f.inSeq
  framed : Framed e.state f.inSeq v
  paired : linked = true →
    (e.state = .connectingWaitAckSeq ↔ f.state = .acceptingWaitSeq ∧ w = [])

namespace Lane

variable {e f e' f' : Endpoint} {w v v' : List Frame} {g : Frame} {linked : Bool}
  {log log' : List Message} {acked acked' n : ℕ} {m : Message}

/-- A lane depends on the sender's state and queues and on what the receiver has got. -/
theorem of_same (h : Lane e f w v linked log acked) (hsender : e'.state = e.state)
    (hqueues : Endpoint.SameQueues e e') (hreceiver : f'.state = f.state)
    (hreceived : Endpoint.SameReceived f f') : Lane e' f' w v linked log acked where
  ledger := h.ledger.of_sameQueues hqueues
  inSeq_le := hreceived.inSeq ▸ h.inSeq_le
  dispatched := by rw [hreceived.dispatched, hreceived.inSeq, h.dispatched]
  inflight := hreceived.dispatched ▸ h.inflight
  acked_le := hreceived.inSeq ▸ h.acked_le
  idle := by
    rw [hsender, hqueues.outSeq]
    exact h.idle
  quiet := hsender ▸ h.quiet
  exchanged := by
    rw [hsender, hqueues.outSeq, hreceived.inSeq]
    exact h.exchanged
  live := by
    rw [hsender, hqueues.outSeq, hreceived.dispatched]
    exact h.live
  acks := hreceived.inSeq ▸ h.acks
  framed := by
    rw [hsender, hreceived.inSeq]
    exact h.framed
  paired := by
    rw [hsender, hreceiver]
    exact h.paired

/-- A side that waits has either nothing or the number of its peer on its channel. -/
theorem head_of_waiting (h : Lane e f w v linked log acked) (hwaiting : e.state.Waiting)
    {rest : List Frame} (hv : v = g :: rest) :
    g = .inSeq f.inSeq ∧ ∀ n, .inSeq n ∉ rest := by
  cases h.framed with
  | inl hfirst =>
      obtain ⟨-, rest', hv', hrest⟩ := hfirst
      rw [hv, List.cons.injEq] at hv'
      exact ⟨hv'.1, hv'.2 ▸ hrest⟩
  | inr hnone => rw [hv] at hnone; exact absurd (hnone.2 hwaiting) (List.cons_ne_nil _ _)

/-- A side that does not wait finds no bare number. -/
theorem not_inSeq_mem (h : Lane e f w v linked log acked) (hwaiting : ¬ e.state.Waiting)
    (n : ℕ) : .inSeq n ∉ v := by
  cases h.framed with
  | inl hfirst => exact absurd hfirst.1 hwaiting
  | inr hnone => exact hnone.1 n

/-- An open sender reads the next frame. -/
theorem tail (h : Lane e f w (g :: v) linked log acked) (hopen : e.state = .opened) :
    Lane e f w v linked log acked :=
  { h with
    acks := fun n hn => h.acks n (List.mem_cons_of_mem _ hn)
    framed := by
      have hwaiting : ¬ e.state.Waiting := fun hw => hw.ne_opened hopen
      exact .inr ⟨fun n hn => h.not_inSeq_mem hwaiting n (List.mem_cons_of_mem _ hn),
        fun hw => absurd hw hwaiting⟩ }

/-! ### Writing -/

theorem sendMessage (h : Lane e f w v linked log acked) {id : ℕ} (hid : id ∉ e.accepted)
    (priority : Priority) : Lane (e.sendMessage id priority) f w v linked log acked :=
  { h with ledger := h.ledger.sendMessage hid priority }

/-- An open sender writes something that is not a message. -/
theorem append_quiet (h : Lane e f w v linked log acked) (hopen : e.state = .opened)
    (hg : messages [g] = []) : Lane e f (if linked then w ++ [g] else w) v linked log acked := by
  have hmessages : messages (if linked then w ++ [g] else w) = messages w := by
    cases linked <;> simp [hg]
  exact
    { h with
      inflight := hmessages ▸ h.inflight
      quiet := hmessages ▸ h.quiet
      live := hmessages ▸ h.live
      paired := by
        rintro rfl
        simp [hopen] }

/-- The other direction of a lane whose sender writes something that is not a bare number:
the peer does not wait for one with an empty channel. -/
theorem append_back (h : Lane f e v w linked log' acked') (hback : Lane e f w v linked log acked)
    (hopen : e.state = .opened) (hg : ∀ n, g ≠ .inSeq n) (hack : ∀ n, g = .ack n → n ≤ e.inSeq) :
    Lane f e v (if linked then w ++ [g] else w) linked log' acked' := by
  cases linked with
  | false => exact h
  | true =>
      have hnotin : ∀ {rest : List Frame}, (∀ n, .inSeq n ∉ rest) →
          ∀ n, .inSeq n ∉ rest ++ [g] := by
        intro rest hrest n hn
        cases List.mem_append.mp hn with
        | inl hmem => exact hrest n hmem
        | inr hmem => exact hg n (List.mem_singleton.mp hmem).symm
      refine { h with acks := fun n hn => ?_, framed := ?_ }
      · cases List.mem_append.mp hn with
        | inl hmem => exact h.acks n hmem
        | inr hmem => exact hack n (List.mem_singleton.mp hmem).symm
      · cases h.framed with
        | inl hfirst =>
            obtain ⟨hwaiting, rest, rfl, hrest⟩ := hfirst
            exact .inl ⟨hwaiting, rest ++ [g], rfl, hnotin hrest⟩
        | inr hnone =>
            refine .inr ⟨hnotin hnone.1, fun hwaiting => ?_⟩
            have hempty := hnone.2 hwaiting
            cases hwaiting with
            | inl hconnecting =>
                have hstate := ((h.paired rfl).mp hconnecting).1
                rw [hopen] at hstate
                cases hstate
            | inr haccepting =>
                have hstate := (hback.paired rfl).mpr ⟨haccepting, hempty⟩
                rw [hopen] at hstate
                cases hstate

theorem writeNext (h : Lane e f w v linked log acked) (hopen : e.state = .opened)
    (hwrite : e.writeNext = some (e', m)) :
    ∃ log', Lane e' f (if linked then w ++ [.message m] else w) v linked log' acked := by
  obtain ⟨log', hledger, hprefix, htake⟩ := h.ledger.writeNext hwrite
  have hstate : e'.state = .opened := (Endpoint.sameReceived_writeNext hwrite).1.trans hopen
  have hlive : linked = true →
      f.dispatched ++ messages (if linked then w ++ [.message m] else w) =
        log'.take e'.outSeq := by
    rintro rfl
    show f.dispatched ++ messages (w ++ [.message m]) = _
    rw [messages_append, ← List.append_assoc, h.live rfl hopen, htake]
    rfl
  exact ⟨log',
    { ledger := hledger
      inSeq_le := h.inSeq_le.trans hprefix.length_le
      dispatched := by
        obtain ⟨more, rfl⟩ := hprefix
        rw [List.take_append_of_le_length h.inSeq_le]
        exact h.dispatched
      inflight := by
        cases linked with
        | false => exact h.inflight.trans hprefix
        | true => exact hlive rfl ▸ List.take_prefix _ _
      acked_le := h.acked_le
      idle := fun hne => absurd hstate hne
      quiet := fun hne => absurd hstate hne
      exchanged := fun hready => by rw [hstate] at hready; cases hready
      live := fun hlinked _ => hlive hlinked
      acks := h.acks
      framed := by
        rw [hstate, ← hopen]
        exact h.framed
      paired := by
        rintro rfl
        simp [hstate] }⟩

/-! ### Reading -/

theorem handleAck (h : Lane e f w v linked log acked) (hopen : e.state = .opened)
    (hn : n ≤ f.inSeq) :
    Lane (e.handleAck n) f w v linked log (max acked (min n e.outSeq)) :=
  { h with
    ledger := h.ledger.handleAck n
    acked_le := max_le h.acked_le ((min_le_left _ _).trans hn)
    idle := fun hne => absurd hopen hne }

/-- An acknowledgement on the channel is nothing to the messages behind it. -/
theorem skip_ack (h : Lane e f (.ack n :: w) v linked log acked) (hopen : f.state = .opened) :
    Lane e f w v linked log acked :=
  { h with
    paired := fun hlinked => by
      have hpaired := h.paired hlinked
      rw [hopen] at hpaired ⊢
      simpa using hpaired }

/-- A message that arrives is the next of the log. -/
theorem inflight_cons (h : Lane e f (.message m :: w) v linked log acked) :
    ∃ more, log = f.dispatched ++ [m] ++ (messages w ++ more) := by
  obtain ⟨more, hlog⟩ := h.inflight
  rw [messages_message, List.append_cons, List.append_assoc] at hlog
  exact ⟨more, hlog.symm⟩

theorem length_dispatched (h : Lane e f w v linked log acked) :
    f.dispatched.length = f.inSeq := by
  rw [h.dispatched, List.length_take, Nat.min_eq_left h.inSeq_le]

theorem seq_eq (h : Lane e f (.message m :: w) v linked log acked) : m.seq = f.inSeq + 1 := by
  obtain ⟨more, hlog⟩ := h.inflight_cons
  have hnumbered := h.ledger.numbered
  rw [hlog, List.append_assoc, Numbered.append_iff, h.length_dispatched, Nat.zero_add]
    at hnumbered
  exact hnumbered.2.1

/-- So it is dispatched. -/
theorem receive_eq (h : Lane e f (.message m :: w) v linked log acked) :
    f.receive m = { f with
      inSeq := f.inSeq + 1, ackLeft := f.ackLeft + 1, dispatched := f.dispatched ++ [m] } := by
  have hseq := h.seq_eq
  rw [Endpoint.receive, if_neg (by omega), hseq]

theorem receive (h : Lane e f (.message m :: w) v linked log acked) (hopen : f.state = .opened) :
    Lane e (f.receive m) w v linked log acked := by
  obtain ⟨more, hlog⟩ := h.inflight_cons
  have hlength : (f.dispatched ++ [m]).length = f.inSeq + 1 := by
    rw [List.length_append, h.length_dispatched]
    rfl
  -- something is on the channel, so the sender neither waits nor has just exchanged numbers
  have hbusy : e.state = .opened ∨ e.state = .down := by
    by_contra hne
    rw [not_or] at hne
    exact absurd (h.quiet hne.1 hne.2) (List.cons_ne_nil _ _)
  have hwaiting : ¬ e.state.Waiting := fun hw => hbusy.elim hw.ne_opened hw.ne_down
  rw [h.receive_eq]
  exact
    { ledger := h.ledger
      inSeq_le := by
        show f.inSeq + 1 ≤ log.length
        rw [hlog, List.length_append, hlength]
        omega
      dispatched := by
        show f.dispatched ++ [m] = log.take (f.inSeq + 1)
        rw [hlog, ← hlength, List.take_left]
      inflight := ⟨more, by rw [hlog, List.append_assoc _ (messages w)]⟩
      acked_le := h.acked_le.trans (Nat.le_succ _)
      idle := h.idle
      quiet := fun hopened hdown => absurd hbusy (not_or.mpr ⟨hopened, hdown⟩)
      exchanged := fun hready => by
        rw [hready] at hbusy
        exact absurd hbusy (by decide)
      live := fun hlinked hopened => by
        show f.dispatched ++ [m] ++ messages w = log.take e.outSeq
        rw [← h.live hlinked hopened, messages_message, List.append_assoc]
        rfl
      acks := fun n hn => (h.acks n hn).trans (Nat.le_succ _)
      framed := .inr ⟨h.not_inSeq_mem hwaiting, fun hw => absurd hw hwaiting⟩
      paired := fun _ => by
        show e.state = .connectingWaitAckSeq ↔ f.state = .acceptingWaitSeq ∧ w = []
        rw [hopen]
        constructor
        · exact fun hstate => absurd (.inl hstate) hwaiting
        · rintro ⟨hstate, -⟩
          cases hstate }

/-- The number of the peer arrives: both ends agree on what is next. -/
theorem discard (h : Lane e f w (.inSeq n :: v) linked log acked) (hwaiting : e.state.Waiting) :
    Lane { e.discardRequeuedUpTo n with state := .ready } f
      (if linked ∧ e.state = .connectingWaitAckSeq then w ++ [.inSeq e.inSeq] else w) v linked
      log n := by
  obtain ⟨hn, hrest⟩ := h.head_of_waiting hwaiting rfl
  obtain rfl : n = f.inSeq := by simpa using hn
  obtain ⟨hledger, hout⟩ :=
    h.ledger.discardRequeuedUpTo (h.idle hwaiting.ne_opened) h.acked_le h.inSeq_le
  have hquiet := h.quiet hwaiting.ne_opened hwaiting.ne_down
  set w' := if linked ∧ e.state = .connectingWaitAckSeq then w ++ [.inSeq e.inSeq] else w
  have hmessages : messages w' = [] := by
    simp only [w']
    split <;> simp [hquiet]
  exact
    { ledger := hledger.of_sameQueues ⟨rfl, rfl, rfl, rfl⟩
      inSeq_le := h.inSeq_le
      dispatched := h.dispatched
      inflight := by
        rw [hmessages, ← hquiet]
        exact h.inflight
      acked_le := le_rfl
      idle := fun _ => hout
      quiet := fun _ _ => hmessages
      exchanged := fun _ => hout
      live := fun _ hstate => by cases hstate
      acks := fun m hm => h.acks m (List.mem_cons_of_mem _ hm)
      framed := .inr ⟨hrest, fun hw => absurd rfl hw.ne_ready⟩
      paired := fun hlinked => by
        constructor
        · intro hstate
          cases hstate
        · rintro ⟨hstate, hempty⟩
          by_cases hconnecting : e.state = .connectingWaitAckSeq
          · simp [w', hlinked, hconnecting] at hempty
          · simp only [w', hconnecting, and_false, if_false] at hempty
            exact absurd ((h.paired hlinked).mpr ⟨hstate, hempty⟩) hconnecting }

/-- The other direction of a lane whose sender reads the number of its peer. -/
theorem discard_back (h : Lane f e (.inSeq n :: v) w linked log' acked')
    (hback : Lane e f w (.inSeq n :: v) linked log acked) :
    Lane f { e.discardRequeuedUpTo n with state := .ready } v
      (if linked ∧ e.state = .connectingWaitAckSeq then w ++ [.inSeq e.inSeq] else w) linked
      log' acked' := by
  have hpaired : linked = true → f.state ≠ .connectingWaitAckSeq := by
    intro hlinked hstate
    exact absurd ((h.paired hlinked).mp hstate).2 (List.cons_ne_nil _ _)
  have hframe : Lane f e (.inSeq n :: v)
      (if linked ∧ e.state = .connectingWaitAckSeq then w ++ [.inSeq e.inSeq] else w) linked
      log' acked' := by
    split
    · rename_i hconnecting
      obtain ⟨hstate, rfl⟩ := (hback.paired hconnecting.1).mp hconnecting.2
      exact
        { h with
          acks := fun n hn => by simp at hn
          framed := .inl ⟨.inr hstate, [], rfl, by simp⟩ }
    · exact h
  exact
    { ledger := hframe.ledger
      inSeq_le := hframe.inSeq_le
      dispatched := hframe.dispatched
      inflight := hframe.inflight
      acked_le := hframe.acked_le
      idle := hframe.idle
      quiet := hframe.quiet
      exchanged := hframe.exchanged
      live := hframe.live
      acks := hframe.acks
      framed := hframe.framed
      paired := fun hlinked => by
        constructor
        · exact fun hstate => absurd hstate (hpaired hlinked)
        · rintro ⟨hstate, -⟩
          cases hstate }

/-! ### Opening, faults and new sockets -/

theorem becomeOpen (h : Lane e f w v linked log acked) (hready : e.state = .ready) :
    Lane { e with state := .opened } f w v linked log acked := by
  have hquiet := h.quiet (by simp [hready]) (by simp [hready])
  have hwaiting : ¬ e.state.Waiting := fun hw => hw.ne_ready hready
  exact
    { h with
      ledger := h.ledger.of_sameQueues ⟨rfl, rfl, rfl, rfl⟩
      idle := fun hne => absurd rfl hne
      quiet := fun hne => absurd rfl hne
      exchanged := fun hstate => by cases hstate
      live := fun _ _ => by
        rw [hquiet, List.append_nil, h.dispatched, h.exchanged hready]
      framed := .inr ⟨h.not_inSeq_mem hwaiting, fun hw => absurd rfl hw.ne_opened⟩
      paired := fun hlinked => by
        have hpaired := h.paired hlinked
        rw [hready] at hpaired
        simpa using hpaired }

theorem becomeOpen_back (h : Lane f e v w linked log acked) (hready : e.state = .ready) :
    Lane f { e with state := .opened } v w linked log acked :=
  { h with
    paired := fun hlinked => by
      have hpaired := h.paired hlinked
      rw [hready] at hpaired
      simpa using hpaired }

theorem fault (h : Lane e f w v linked log acked) : Lane e.fault f w [] false log acked := by
  obtain ⟨hledger, hout⟩ := h.ledger.requeueSent
  exact
    { ledger := hledger.of_sameQueues ⟨rfl, rfl, rfl, rfl⟩
      inSeq_le := h.inSeq_le
      dispatched := h.dispatched
      inflight := h.inflight
      acked_le := h.acked_le
      idle := fun _ => hout
      quiet := fun _ hne => absurd rfl hne
      exchanged := fun hstate => by cases hstate
      live := fun hlinked => by cases hlinked
      acks := fun n hn => by cases hn
      framed := .inr ⟨fun _ => List.not_mem_nil, fun _ => rfl⟩
      paired := fun hlinked => by cases hlinked }

theorem fault_back (h : Lane f e v w linked log acked) : Lane f e.fault [] w false log acked := by
  have hsame := e.sameReceived_fault
  exact
    { ledger := h.ledger
      inSeq_le := hsame.inSeq ▸ h.inSeq_le
      dispatched := by rw [hsame.dispatched, hsame.inSeq, h.dispatched]
      inflight := by
        rw [hsame.dispatched, messages_nil, List.append_nil]
        exact (List.prefix_append _ _).trans h.inflight
      acked_le := hsame.inSeq ▸ h.acked_le
      idle := h.idle
      quiet := fun _ _ => rfl
      exchanged := fun hready => hsame.inSeq ▸ h.exchanged hready
      live := fun hlinked => by cases hlinked
      acks := hsame.inSeq ▸ h.acks
      framed := hsame.inSeq ▸ h.framed
      paired := fun hlinked => by cases hlinked }

/-- Two ends that were down are joined: no message is on the new channel. -/
theorem reconnect (h : Lane e f w v linked log acked) (hdown : e.state = .down) {st st' : State}
    (hwaiting : st.Waiting) {w' v' : List Frame} (hw : messages w' = [])
    (hacks : ∀ n, .ack n ∉ v') (hframed : Framed st f.inSeq v')
    (hpaired : st = .connectingWaitAckSeq ↔ st' = .acceptingWaitSeq ∧ w' = []) :
    Lane { e with state := st } { f with state := st' } w' v' true log acked where
  ledger := h.ledger.of_sameQueues ⟨rfl, rfl, rfl, rfl⟩
  inSeq_le := h.inSeq_le
  dispatched := h.dispatched
  inflight := by
    rw [hw, List.append_nil]
    exact (List.prefix_append _ _).trans h.inflight
  acked_le := h.acked_le
  idle := fun _ => h.idle (by simp [hdown])
  quiet := fun _ _ => hw
  exchanged := fun hready => absurd hready hwaiting.ne_ready
  live := fun _ hopened => absurd hopened hwaiting.ne_opened
  acks := fun n hn => absurd hn (hacks n)
  framed := hframed
  paired := fun _ => hpaired

end Lane

/-! ## Runs -/

namespace Session

/-- Both directions are in order. -/
def Sound (s : Session) : Prop :=
  ∀ x, ∃ log acked,
    Lane (s.endpoint x) (s.endpoint x.peer) (s.wire x.peer) (s.wire x) s.linked log acked

variable {s t : Session} {x : Side} {e f : Endpoint} {w v : List Frame} {g : Frame}
  {linked : Bool} {log log' : List Message} {acked acked' : ℕ}

@[simp]
theorem set_endpoint_self : (s.set x e).endpoint x = e := by simp [set]

@[simp]
theorem set_endpoint_peer : (s.set x e).endpoint x.peer = s.endpoint x.peer := by
  simp [set]

@[simp]
theorem set_peer_endpoint : (s.set x.peer e).endpoint x = s.endpoint x := by
  simp [set]

@[simp]
theorem set_wire : (s.set x e).wire = s.wire := rfl

@[simp]
theorem set_linked : (s.set x e).linked = s.linked := rfl

@[simp]
theorem setWire_wire_self : (s.setWire x w).wire x = w := by simp [setWire]

@[simp]
theorem setWire_wire_peer : (s.setWire x w).wire x.peer = s.wire x.peer := by
  simp [setWire]

@[simp]
theorem setWire_peer_wire : (s.setWire x.peer w).wire x = s.wire x := by
  simp [setWire]

@[simp]
theorem setWire_endpoint : (s.setWire x w).endpoint = s.endpoint := rfl

@[simp]
theorem setWire_linked : (s.setWire x w).linked = s.linked := rfl

@[simp]
theorem transmit_endpoint : (s.transmit x g).endpoint = s.endpoint := by
  unfold transmit
  split <;> rfl

@[simp]
theorem transmit_linked : (s.transmit x g).linked = s.linked := by
  unfold transmit
  split <;> rfl

@[simp]
theorem transmit_wire_self : (s.transmit x g).wire x = s.wire x := by
  unfold transmit
  split
  · exact setWire_peer_wire
  · rfl

@[simp]
theorem transmit_wire_peer : (s.transmit x g).wire x.peer =
    if s.linked then s.wire x.peer ++ [g] else s.wire x.peer := by
  unfold transmit
  split
  · exact setWire_wire_self
  · rfl

/-- The two directions of a session, seen from one side. -/
theorem Sound.lanes (h : Sound s) (x : Side) : ∃ log acked log' acked',
    Lane (s.endpoint x) (s.endpoint x.peer) (s.wire x.peer) (s.wire x) s.linked log acked ∧
      Lane (s.endpoint x.peer) (s.endpoint x) (s.wire x) (s.wire x.peer) s.linked log' acked' := by
  obtain ⟨log, acked, hout⟩ := h x
  obtain ⟨log', acked', hin⟩ := h x.peer
  rw [x.peer_peer] at hin
  exact ⟨log, acked, log', acked', hout, hin⟩

/-- A session whose two ends and channels are in order seen from one side. -/
theorem Sound.of_lanes (x : Side) (hendpoint : t.endpoint x = e) (hpeer : t.endpoint x.peer = f)
    (hout : t.wire x.peer = w) (hin : t.wire x = v) (hlinked : t.linked = linked)
    (hforth : Lane e f w v linked log acked) (hback : Lane f e v w linked log' acked') :
    Sound t := by
  intro y
  subst hendpoint hpeer hout hin hlinked
  cases x.eq_or_eq_peer y with
  | inl hy => exact hy ▸ ⟨log, acked, hforth⟩
  | inr hy =>
      subst hy
      exact ⟨log', acked', by rwa [x.peer_peer]⟩

theorem Fresh.sound (h : Fresh s) : Sound s := by
  intro x
  exact ⟨[], 0,
    { ledger :=
        { numbered := trivial
          acked_le := Nat.zero_le _
          outSeq_le := (h.outSeq x).le
          sent := by simp [h.sent x]
          requeued := ⟨[], by simp [h.outQ x], by simp⟩
          others := by simp [h.outQ x]
          accepted := by simp [h.accepted x, h.outQ x]
          nodup := by simp [h.accepted x] }
      inSeq_le := (h.inSeq x.peer).le
      dispatched := by simp [h.dispatched x.peer]
      inflight := by simp [h.dispatched x.peer, h.wire x.peer]
      acked_le := Nat.zero_le _
      idle := fun _ => h.outSeq x
      quiet := fun _ hne => absurd (h.state x) hne
      exchanged := by simp [h.state x]
      live := by simp [h.linked]
      acks := by simp [h.wire x]
      framed := .inr ⟨by simp [h.wire x], fun _ => h.wire x⟩
      paired := by simp [h.linked] }⟩

theorem Sound.deliver (h : Sound s) (hopen : (s.endpoint x).state = .opened)
    (hstep : s.deliver x = some t) : Sound t := by
  obtain ⟨log, acked, log', acked', hforth, hback⟩ := h.lanes x
  unfold Session.deliver at hstep
  split at hstep
  · rename_i m rest hwire
    cases hstep
    rw [hwire] at hforth hback
    obtain ⟨hstate, hqueues⟩ := (s.endpoint x).sameQueues_receive m
    exact Sound.of_lanes x (by simp) (by simp) (by simp) (by simp) (by simp)
      ((hforth.tail hopen).of_same hstate hqueues rfl ⟨rfl, rfl⟩) (hback.receive hopen)
  · rename_i n rest hwire
    cases hstep
    rw [hwire] at hforth hback
    exact Sound.of_lanes x (by simp) (by simp) (by simp) (by simp) (by simp)
      ((hforth.tail hopen).handleAck hopen (hforth.acks n List.mem_cons_self))
      ((hback.skip_ack hopen).of_same rfl ⟨rfl, rfl, rfl, rfl⟩ rfl ⟨rfl, rfl⟩)
  · cases hstep

theorem Sound.readSeq (h : Sound s) (hstep : s.readSeq x = some t) : Sound t := by
  obtain ⟨log, acked, log', acked', hforth, hback⟩ := h.lanes x
  simp only [Session.readSeq] at hstep
  split at hstep
  · rename_i n rest hstate hwire
    cases hstep
    rw [hwire] at hforth hback
    have hforth' := hforth.discard (.inl hstate)
    have hback' := hback.discard_back hforth
    simp only [hstate, and_true] at hforth' hback'
    exact Sound.of_lanes x (by simp) (by simp) (by simp) (by simp) (by simp) hforth' hback'
  · rename_i n rest hstate hwire
    cases hstep
    rw [hwire] at hforth hback
    have hforth' := hforth.discard (.inr hstate)
    have hback' := hback.discard_back hforth
    simp only [hstate, reduceCtorEq, and_false, if_false] at hforth' hback'
    exact Sound.of_lanes x (by simp) (by simp) (by simp) (by simp) (by simp) hforth' hback'
  · cases hstep

theorem Sound.fault (h : Sound s) (x : Side) : Sound (s.fault x) := by
  obtain ⟨log, acked, log', acked', hforth, hback⟩ := h.lanes x
  refine Sound.of_lanes x ?_ ?_ setWire_wire_peer setWire_wire_self rfl hforth.fault
    hback.fault_back
  · exact set_endpoint_self (s := s.setWire x [])
  · exact set_endpoint_peer (s := s.setWire x [])

theorem Sound.reconnect (h : Sound s) (hdown : (s.endpoint x).state = .down)
    (hpeer : (s.endpoint x.peer).state = .down) : Sound (s.reconnect x) := by
  obtain ⟨log, acked, log', acked', hforth, hback⟩ := h.lanes x
  have hforth' : Lane { s.endpoint x with state := .connectingWaitAckSeq }
      { s.endpoint x.peer with state := .acceptingWaitSeq } []
      [.inSeq (s.endpoint x.peer).inSeq] true log acked :=
    hforth.reconnect hdown (.inl rfl) rfl (by simp) (.inl ⟨.inl rfl, [], rfl, by simp⟩) (by simp)
  have hback' : Lane { s.endpoint x.peer with state := .acceptingWaitSeq }
      { s.endpoint x with state := .connectingWaitAckSeq } [.inSeq (s.endpoint x.peer).inSeq]
      [] true log' acked' :=
    hback.reconnect hpeer (.inr rfl) rfl (by simp) (.inr ⟨by simp, fun _ => rfl⟩) (by simp)
  refine Sound.of_lanes x ?_ ?_ ?_ ?_ rfl hforth' hback'
  · simp [Session.reconnect]
  · simp [Session.reconnect]
  · simp [Session.reconnect]
  · simp [Session.reconnect]

theorem Sound.step (h : Sound s) {a : Action} (hstep : s.step a = some t) : Sound t := by
  cases a with
  | sendMessage x id priority =>
      obtain ⟨log, acked, log', acked', hforth, hback⟩ := h.lanes x
      simp only [Session.step] at hstep
      split at hstep
      · cases hstep
      · rename_i hid
        cases hstep
        exact Sound.of_lanes x set_endpoint_self set_endpoint_peer rfl rfl rfl
          (hforth.sendMessage hid priority)
          (hback.of_same rfl ⟨rfl, rfl, rfl, rfl⟩ rfl ⟨rfl, rfl⟩)
  | writeNext x =>
      obtain ⟨log, acked, log', acked', hforth, hback⟩ := h.lanes x
      simp only [Session.step] at hstep
      split at hstep
      · cases hstep
      · rename_i hopen
        split at hstep
        · cases hstep
        · rename_i e m hwrite
          cases hstep
          rw [not_not] at hopen
          obtain ⟨log'', hforth'⟩ := hforth.writeNext hopen hwrite
          obtain ⟨hstate, hreceived⟩ := Endpoint.sameReceived_writeNext hwrite
          have hback' := hback.append_back hforth hopen (g := .message m) (by simp) (by simp)
          exact Sound.of_lanes x (by simp) (by simp) transmit_wire_peer (by simp) (by simp)
            hforth' (hback'.of_same rfl ⟨rfl, rfl, rfl, rfl⟩ hstate hreceived)
  | writeAck x =>
      obtain ⟨log, acked, log', acked', hforth, hback⟩ := h.lanes x
      simp only [Session.step] at hstep
      split at hstep
      · cases hstep
      · rename_i hopen
        split at hstep
        · cases hstep
        · rename_i e n hwrite
          cases hstep
          rw [not_not] at hopen
          obtain ⟨rfl, hstate, hqueues, hreceived⟩ := Endpoint.writeAck_spec hwrite
          exact Sound.of_lanes x (by simp) (by simp) transmit_wire_peer (by simp) (by simp)
            ((hforth.append_quiet hopen rfl).of_same hstate hqueues rfl ⟨rfl, rfl⟩)
            ((hback.append_back hforth hopen (g := .ack (s.endpoint x).inSeq)
              (by simp) (by simp)).of_same rfl
              ⟨rfl, rfl, rfl, rfl⟩ hstate hreceived)
  | deliver x =>
      simp only [Session.step] at hstep
      split at hstep
      · cases hstep
      · rename_i hopen
        exact h.deliver (not_not.mp hopen) hstep
  | readSeq x => exact h.readSeq hstep
  | becomeOpen x =>
      obtain ⟨log, acked, log', acked', hforth, hback⟩ := h.lanes x
      simp only [Session.step] at hstep
      split at hstep
      · cases hstep
      · rename_i hready
        cases hstep
        rw [not_not] at hready
        exact Sound.of_lanes x set_endpoint_self set_endpoint_peer rfl rfl rfl
          (hforth.becomeOpen hready) (hback.becomeOpen_back hready)
  | fault x =>
      cases hstep
      exact h.fault x
  | reconnect x =>
      simp only [Session.step] at hstep
      split at hstep
      · cases hstep
      · rename_i hdown
        cases hstep
        rw [not_or, not_not, not_not] at hdown
        exact h.reconnect hdown.1 hdown.2

/-- What the session owes from a sender to its receiver. -/
structure Lossless (e f : Endpoint) : Prop where
  /-- Nothing is dispatched that was not accepted, and nothing twice. -/
  accepted : ∀ m ∈ f.dispatched, m.id ∈ e.accepted
  once : (f.dispatched.map Message.id).Nodup
  ordered : f.dispatched.Pairwise fun m m' => m.seq < m'.seq
  /-- What is accepted and not dispatched is still held. -/
  held : ∀ id ∈ e.accepted, id ∉ f.dispatched.map Message.id →
    id ∈ e.outQ.items.map Message.id ∨ id ∈ e.sent.map Message.id
  /-- The numbers in `sent` are consecutive and end at `out_seq`. -/
  sent : ∃ acked, Numbered Message.seq acked e.sent ∧ acked + e.sent.length = e.outSeq
  /-- Right after the exchange of numbers both ends agree. -/
  exchanged : e.state = .ready → e.outSeq = f.inSeq ∧ e.sent = []

end Session

namespace Lane

open Session

variable {e f : Endpoint} {w v : List Frame} {linked : Bool} {log : List Message} {acked : ℕ}

/-- A message of the log is dispatched, or in `sent`, or requeued. -/
theorem mem_log (h : Lane e f w v linked log acked) {m : Message} (hm : m ∈ log) :
    m ∈ f.dispatched ∨ m ∈ e.sent ∨ m ∈ e.outQ.get highest := by
  obtain ⟨fresh, hget, -⟩ := h.ledger.requeued
  rw [h.dispatched, h.ledger.sent, hget]
  rw [← List.take_append_drop e.outSeq log, List.mem_append] at hm
  cases hm with
  | inr hdrop => exact .inr (.inr (List.mem_append_left _ hdrop))
  | inl htake =>
      rw [← List.take_append_drop acked (log.take e.outSeq), List.mem_append] at htake
      cases htake with
      | inr hsent => exact .inr (.inl hsent)
      | inl hacked =>
          rw [List.take_take, Nat.min_eq_left h.ledger.acked_le] at hacked
          exact .inl ((List.take_prefix_take_left h.acked_le).subset hacked)

theorem nodup_log (h : Lane e f w v linked log acked) : (log.map Message.id).Nodup := by
  have hnodup : (e.accepted : Multiset ℕ).Nodup := h.ledger.nodup
  rw [h.ledger.accepted] at hnodup
  exact (Multiset.nodup_add.mp hnodup).1

theorem lossless (h : Lane e f w v linked log acked) : Lossless e f where
  accepted := by
    intro m hm
    rw [h.dispatched] at hm
    have hmem : m.id ∈ (e.accepted : Multiset ℕ) := by
      rw [h.ledger.accepted]
      exact Multiset.mem_add.mpr (.inl (List.mem_map_of_mem (List.mem_of_mem_take hm)))
    exact hmem
  once := by
    rw [h.dispatched, List.map_take]
    exact h.nodup_log.sublist (List.take_sublist _ _)
  ordered := by
    rw [h.dispatched]
    exact (h.ledger.numbered.take _).pairwise_lt
  held := by
    intro id hid hnot
    have hmem : id ∈ (e.accepted : Multiset ℕ) := hid
    rw [h.ledger.accepted] at hmem
    cases Multiset.mem_add.mp hmem with
    | inl hlog =>
        obtain ⟨m, hm, rfl⟩ := List.mem_map.mp hlog
        rcases h.mem_log hm with hdispatched | hsent | hqueued
        · exact absurd (List.mem_map_of_mem hdispatched) hnot
        · exact .inr (List.mem_map_of_mem hsent)
        · exact .inl (Multiset.mem_map_of_mem _ (e.outQ.mem_items hqueued))
    | inr hfresh =>
        obtain ⟨m, hm, rfl⟩ := Multiset.mem_map.mp hfresh
        exact .inl (Multiset.mem_map_of_mem _ (Multiset.mem_filter.mp hm).1)
  sent := by
    have hlength := h.ledger.length_sent
    have hacked := h.ledger.acked_le
    refine ⟨acked, ?_, by omega⟩
    rw [h.ledger.sent]
    have hnumbered := (h.ledger.numbered.take e.outSeq).drop
      (show acked ≤ (log.take e.outSeq).length by
        rw [List.length_take, Nat.min_eq_left h.ledger.outSeq_le]
        exact hacked)
    rwa [Nat.zero_add] at hnumbered
  exchanged := by
    intro hready
    have hout := h.idle (by simp [hready])
    refine ⟨h.exchanged hready, ?_⟩
    apply List.eq_nil_of_length_eq_zero
    rw [h.ledger.length_sent, hout, Nat.sub_self]

end Lane

namespace Session

variable {s : Session}

theorem sound_of_reached (hreached : sessionMachine.Reached s) : Sound s :=
  hreached.invariant Sound (fun _ h => Fresh.sound h) fun _ _ _ h _ hstep => h.step hstep

/-- Every message that an end reads is the next one: none is old and none was skipped. -/
theorem next_of_reached (hreached : sessionMachine.Reached s) {x : Side} {m : Message}
    {rest : List Frame} (hwire : s.wire x = .message m :: rest) :
    m.seq = (s.endpoint x).inSeq + 1 := by
  obtain ⟨-, -, log, acked, -, hback⟩ := (sound_of_reached hreached).lanes x
  rw [hwire] at hback
  exact hback.seq_eq

/-- An end that waits for the number of its peer reads that number, and an end that does not
wait never finds one. -/
theorem framed_of_reached (hreached : sessionMachine.Reached s) {x : Side} {g : Frame}
    {rest : List Frame} (hwire : s.wire x = g :: rest) :
    if (s.endpoint x).state.Waiting then g = .inSeq (s.endpoint x.peer).inSeq
    else ∀ n, g ≠ .inSeq n := by
  obtain ⟨log, acked, hlane⟩ := sound_of_reached hreached x
  split
  · rename_i hwaiting
    exact (hlane.head_of_waiting hwaiting hwire).1
  · rename_i hwaiting
    rintro n rfl
    exact hlane.not_inSeq_mem hwaiting n (hwire ▸ List.mem_cons_self)

/-- A session that starts, with priority 127 for messages that ask for none. -/
def fresh : Session where
  endpoint _ := ⟨.down, .empty, [], 0, 0, 0, ⟨127, by decide⟩, [], []⟩
  wire _ := []
  linked := false

theorem fresh_fresh : Fresh fresh :=
  ⟨fun _ => rfl, fun _ => rfl, fun _ => rfl, fun _ => rfl, fun _ => rfl, fun _ => rfl,
    fun _ => rfl, fun _ => rfl, rfl⟩

/-- One side connects and both exchange their numbers. -/
def connects (x : Side) : List Action :=
  [.reconnect x, .readSeq x, .readSeq x.peer, .becomeOpen x, .becomeOpen x.peer]

end Session

end HwAsync.Connection
