/-
# Frame synchronisation

Whether the reader recovers the frames that were written, whatever the socket returns to
each read and whatever the throttlers answer.  It does for every sequence of frames whose
messages carry increasing numbers above `in_seq`.  An old message is decoded and dropped,
but the state stays behind its footer, so the next byte is not read as a tag.
-/

import HwAsync.Framing.Process
import Mathlib.Data.List.Forall2

namespace HwAsync.Framing

open HwAsync.Lib Wire

variable {Addr : Type} {w : Wire Addr}

/-! ## The property -/

/-- The reader has recovered the frames whose bytes it has used, and reads a tag next exactly
when it has used nothing of the frame behind them. -/
structure InStep (frames : List (Frame w)) (r : Receiver) : Prop where
  running : r.state ≠ .faulted ∧ r.state ≠ .stopped ∧ r.state ≠ .aborted
  position : ∃ done rest, frames = done ++ rest ∧ List.Forall₂ Recovers done r.received ∧
    (r.state = .opened ↔ r.io.unread = encodeAll rest)
  complete : r.io.unread = [] → List.Forall₂ Recovers frames r.received

/-- Every run keeps in step, and from each of its states the stream can be read to its end. -/
structure FramesRecovered (w : Wire Addr) (inSeq : UInt64) (frames : List (Frame w)) : Prop where
  inStep : ∀ r, (receiverMachine w inSeq (encodeAll frames)).Reached r → InStep frames r
  drains : ∀ r, (receiverMachine w inSeq (encodeAll frames)).Reached r →
    ∃ passes r', (receiverMachine w inSeq (encodeAll frames)).replay (fun _ _ => True) r passes =
      some r' ∧ r'.io.unread = []

/-- The number of a message is above `in_seq`, and directly above it where a gap is fatal. -/
def Taken (w : Wire Addr) (inSeq seq : UInt64) : Prop :=
  inSeq < seq ∧ (w.dieOnSkippedMessage = true → ¬ inSeq + 1 < seq)

instance (inSeq seq : UInt64) : Decidable (Taken w inSeq seq) :=
  inferInstanceAs (Decidable (_ ∧ _))

/-- No message of the sequence is old. -/
def NoneOld : UInt64 → List (Frame w) → Prop
  | _, [] => True
  | inSeq, .message m :: rest => Taken w inSeq m.header.seq ∧ NoneOld m.header.seq rest
  | inSeq, _ :: rest => NoneOld inSeq rest

/-! ## Where the reader is -/

/-- The buffers take all data that is left, and the read in progress is within the first of
them. -/
structure Buffers (dest : Bytes) (lengths : List ℕ) (left : Bytes) : Prop where
  pos : ∀ n ∈ lengths, 0 < n
  sum : left.length ≤ lengths.sum
  dest : dest ≠ [] → ∃ n more, lengths = n :: more ∧ dest.length < min n left.length

/-- What the receiver has, and what lies in front of it, when `rest` are the frames that it has
not recovered. -/
inductive At (r : Receiver) : List (Frame w) → Prop
  | opened {rest : List (Frame w)} (hstate : r.state = .opened) (hdest : r.io.dest = [])
      (hunread : r.io.unread = encodeAll rest) : At r rest
  | keepalive2 {t : UTime} {rest : List (Frame w)} (hstate : r.state = .openKeepalive2)
      (hfeature : w.msgrKeepalive2 = true) (hdest : r.io.dest.length < w.timespec.size)
      (hbytes : r.io.dest ++ r.io.unread =
        w.timespec.bytes (w.encodeTimeval t) ++ encodeAll rest) : At r (.keepalive t :: rest)
  | keepalive2Ack {t : UTime} {rest : List (Frame w)} (hstate : r.state = .openKeepalive2Ack)
      (hdest : r.io.dest.length < w.timespec.size)
      (hbytes : r.io.dest ++ r.io.unread =
        w.timespec.bytes (w.encodeTimeval t) ++ encodeAll rest) : At r (.keepaliveAck t :: rest)
  | ack {seq : UInt64} {rest : List (Frame w)} (hstate : r.state = .openTagAck)
      (hdest : r.io.dest.length < w.ackSeq.size)
      (hbytes : r.io.dest ++ r.io.unread = w.ackSeq.bytes seq ++ encodeAll rest) :
      At r (.ack seq :: rest)
  | header {m : MsgFrame w} {rest : List (Frame w)} (hstate : r.state = .messageHeader)
      (hdest : r.io.dest.length < w.headerSize)
      (hbytes : r.io.dest ++ r.io.unread =
        w.headerBytes (w.sentHeader m.header) ++ (body m ++ encodeAll rest)) :
      At r (.message m :: rest)
  | throttle {m : MsgFrame w} {rest : List (Frame w)}
      (hstate : r.state = .messageThrottleMessage ∨ r.state = .messageThrottleBytes ∨
        r.state = .messageThrottleDispatchQueue)
      (hheader : r.currentHeader = w.receivedHeader m.header)
      (hparts : r.front = [] ∧ r.middle = [] ∧ r.data = []) (hdest : r.io.dest = [])
      (hunread : r.io.unread = body m ++ encodeAll rest) : At r (.message m :: rest)
  | front {m : MsgFrame w} {rest : List (Frame w)} (hstate : r.state = .messageReadFront)
      (hheader : r.currentHeader = w.receivedHeader m.header)
      (hparts : r.front = [] ∧ r.middle = [] ∧ r.data = [])
      (hdest : r.io.dest ≠ [] → r.io.dest.length < m.front.length)
      (hbytes : r.io.dest ++ r.io.unread = body m ++ encodeAll rest) : At r (.message m :: rest)
  | middle {m : MsgFrame w} {rest : List (Frame w)} (hstate : r.state = .messageReadMiddle)
      (hheader : r.currentHeader = w.receivedHeader m.header)
      (hparts : r.front = m.front ∧ r.middle = [] ∧ r.data = [])
      (hdest : r.io.dest ≠ [] → r.io.dest.length < m.middle.length)
      (hbytes : r.io.dest ++ r.io.unread =
        m.middle ++ (m.data ++ (w.footerBytes m.footer ++ encodeAll rest))) :
      At r (.message m :: rest)
  | data {m : MsgFrame w} {rest : List (Frame w)} {left : Bytes}
      (hstate : r.state = .messageReadData)
      (hheader : r.currentHeader = w.receivedHeader m.header)
      (hparts : r.front = m.front ∧ r.middle = m.middle ∧ r.data ++ left = m.data)
      (hleft : r.msgLeft = left.length) (hbuffers : Buffers r.io.dest r.dataBlp left)
      (hbytes : r.io.dest ++ r.io.unread =
        left ++ (w.footerBytes m.footer ++ encodeAll rest)) : At r (.message m :: rest)
  | footer {m : MsgFrame w} {rest : List (Frame w)}
      (hstate : r.state = .messageReadFooterAndDispatch)
      (hheader : r.currentHeader = w.receivedHeader m.header)
      (hparts : r.front = m.front ∧ r.middle = m.middle ∧ r.data = m.data)
      (hdest : r.io.dest.length < w.footerSize)
      (hbytes : r.io.dest ++ r.io.unread = w.footerBytes m.footer ++ encodeAll rest) :
      At r (.message m :: rest)

/-- What was recovered of the frames, and that the messages so far were not old. -/
structure Recovered (frames : List (Frame w)) (start : UInt64) (received : List Received)
    (inSeq : UInt64) (rest : List (Frame w)) : Prop where
  split : ∃ done, frames = done ++ rest ∧ List.Forall₂ Recovers done received
  noneOld : NoneOld start frames ↔ NoneOld inSeq rest

/-- The receiver is in step, and no message so far was old. -/
def Inv (frames : List (Frame w)) (start : UInt64) (r : Receiver) : Prop :=
  ∃ rest, Recovered frames start r.received r.inSeq rest ∧ r.io.Ready ∧ At r rest

/-- `in_seq` behind a frame that is taken. -/
def Counts (inSeq : UInt64) : Frame w → UInt64 → Prop
  | .message m, inSeq' => Taken w inSeq m.header.seq ∧ inSeq' = m.header.seq
  | _, inSeq' => inSeq' = inSeq

/-- The receiver goes on with frames of which `P` holds, with what it has received and its
`in_seq`. -/
def Follows (P : List Received → UInt64 → List (Frame w) → Prop) (r : Receiver) : Prop :=
  ∃ rest, P r.received r.inSeq rest ∧ r.io.Ready ∧ At r rest

/-- `P` goes on behind every frame that is taken. -/
def MovesOn (P : List Received → UInt64 → List (Frame w) → Prop) : Prop :=
  ∀ ⦃received inSeq f rest e inSeq'⦄, P received inSeq (f :: rest) → Recovers f e →
    Counts inSeq f inSeq' → P (received ++ [e]) inSeq' rest

/-- A message that is not taken is decoded all the same. -/
inductive Lost (P : List Received → UInt64 → List (Frame w) → Prop) (received : List Received)
    (inSeq : UInt64) (r' : Receiver) : Prop
  | message {m : MsgFrame w} {rest : List (Frame w)} {e : Received}
      (h : P received inSeq (.message m :: rest)) (huntaken : ¬ Taken w inSeq m.header.seq)
      (hrecovers : Recovers (.message m) e) (hreceived : r'.received = received ++ [e])
      (hunread : r'.io.unread = encodeAll rest) (hstate : r'.state ≠ .opened)
      (haborts : (m.header.seq ≤ inSeq → w.reconnectSeq && w.dieOnOldMessage) →
        r'.state = .aborted) : Lost P received inSeq r'

namespace State

/-- How many passes the state may take before it reads. -/
def rank : State → ℕ
  | .messageThrottleMessage => 3
  | .messageThrottleBytes => 2
  | .messageThrottleDispatchQueue => 1
  | _ => 0

theorem rank_le (s : State) : s.rank ≤ 3 := by
  cases s <;> decide

end State

/-- What is still to be done. -/
def Receiver.size (r : Receiver) : ℕ := 4 * (r.io.dest ++ r.io.unread).length + r.state.rank

section

variable {frames : List (Frame w)} {start : UInt64}
  {P : List Received → UInt64 → List (Frame w) → Prop}

theorem noneOld_cons {inSeq inSeq' : UInt64} {f : Frame w} {rest : List (Frame w)}
    (h : Counts inSeq f inSeq') : NoneOld inSeq (f :: rest) ↔ NoneOld inSeq' rest := by
  cases f with
  | message m =>
      obtain ⟨htaken, rfl⟩ := h
      exact and_iff_right htaken
  | ack seq => exact h ▸ Iff.rfl
  | keepalive now => exact h ▸ Iff.rfl
  | keepaliveAck t => exact h ▸ Iff.rfl

/-- What was recovered goes on behind every frame that is taken. -/
theorem movesOn_recovered : MovesOn (Recovered frames start) := by
  intro received inSeq f rest e inSeq' h hrecovers hcounts
  obtain ⟨done, hframes, hdone⟩ := h.split
  refine ⟨⟨done ++ [f], by simp [hframes], ?_⟩, h.noneOld.trans (noneOld_cons hcounts)⟩
  exact List.rel_append hdone (.cons hrecovers .nil)

/-- A receiver that has recovered a frame and used its bytes, but does not read a tag. -/
theorem not_inStep_of_lost {done rest : List (Frame w)} {r : Receiver}
    (hframes : frames = done ++ rest) (hdone : List.Forall₂ Recovers done r.received)
    (hunread : r.io.unread = encodeAll rest) (hstate : r.state ≠ .opened) :
    ¬ InStep frames r := by
  intro h
  obtain ⟨done', rest', hframes', hdone', hopened⟩ := h.position
  have hlength : done.length = done'.length := hdone.length_eq.trans hdone'.length_eq.symm
  obtain ⟨-, rfl⟩ := List.append_inj (hframes.symm.trans hframes') hlength
  exact hstate (hopened.mpr hunread)

/-! ## One pass -/

/-- What a pass achieves: the receiver is still in step or has lost a frame after an old message,
and if the socket and the throttlers are generous there is less to do. -/
structure Steps (frames : List (Frame w)) (start : UInt64) (granted : Bool) (r r' : Receiver) :
    Prop where
  outcome : Inv frames start r' ∨ ¬ NoneOld start frames ∧ ¬ InStep frames r'
  size_le : r'.size ≤ r.size
  size_lt : granted = true → Inbound.Generous r.io.answers r.io.socket → r.io.unread ≠ [] →
    r'.size < r.size

/-- What a pass achieves where `P` goes on: the receiver goes on as well, or a message is lost,
and if the socket and the throttlers are generous there is less to do. -/
structure Advances (P : List Received → UInt64 → List (Frame w) → Prop) (granted : Bool)
    (r r' : Receiver) : Prop where
  outcome : Follows P r' ∨ Lost P r.received r.inSeq r'
  size_le : r'.size ≤ r.size
  size_lt : granted = true → Inbound.Generous r.io.answers r.io.socket → r.io.unread ≠ [] →
    r'.size < r.size

variable {granted : Bool} {r : Receiver}

/-- A state that reads nothing of its own falls through to the next. -/
theorem Advances.of_state {s : State} {r' : Receiver}
    (h : Advances P granted { r with state := s } r') (hrank : s.rank = r.state.rank) :
    Advances P granted r r' := by
  have hsize : ({ r with state := s } : Receiver).size = r.size := congrArg (_ + ·) hrank
  exact ⟨h.outcome, hsize ▸ h.size_le, hsize ▸ h.size_lt⟩

/-- What a pass that falls through achieves from there on. -/
theorem Advances.bounded {r' : Receiver} (h : Advances P granted r r') {rest : Bytes}
    (hdest : r.io.dest = []) (hunread : r.io.unread = rest) :
    (Follows P r' ∨ Lost P r.received r.inSeq r') ∧
      r'.size ≤ 4 * rest.length + 3 := by
  refine ⟨h.outcome, h.size_le.trans ?_⟩
  rw [Receiver.size, hdest, hunread, List.nil_append]
  exact Nat.add_le_add_left (State.rank_le _) _

/-- A read of bytes that lie in front of the receiver: either it waits for the rest of them, or
it goes on with them. -/
theorem readThen_advances {len : ℕ} {next : Receiver → Bytes → Receiver} {p rest : Bytes}
    (hready : r.io.Ready) (hdest : r.io.dest.length < len) (hlen : len < 2 ^ 32)
    (hp : p.length = len) (hbytes : r.io.dest ++ r.io.unread = p ++ rest)
    (hagain : ∀ io : Inbound, io.Ready → io.dest.length < len →
      io.dest ++ io.unread = p ++ rest → Follows P { r with io := io })
    (hnext : ∀ io : Inbound, io.Ready → io.dest = [] → io.unread = rest →
      let r' := next { r with io := io } p
      (Follows P r' ∨ Lost P r.received r.inSeq r') ∧
        r'.size ≤ 4 * rest.length + 3) :
    Advances P granted r (r.readThen w len next) := by
  have hsize : r.size = 4 * (len + rest.length) + r.state.rank := by
    rw [Receiver.size, hbytes, List.length_append, hp]
  have houtcome := Inbound.readUntil_spec hready hdest hlen w.recvMaxPrefetch_lt
  unfold Receiver.readThen
  generalize r.io.readUntil w.recvMaxPrefetch len = out at houtcome
  cases houtcome with
  | @complete q io hlength hconserved hdest' hoffset hgenerous =>
      rw [hbytes] at hconserved
      obtain ⟨rfl, hunread⟩ := List.append_inj hconserved (hlength.trans hp.symm)
      have hready' : io.Ready := ⟨by rw [hoffset, hdest']; rfl, fun h => absurd hdest' h⟩
      obtain ⟨hout, hle⟩ := hnext io hready' hdest' hunread
      have hlt : (next { r with io := io } q).size < r.size := by omega
      exact ⟨hout, hlt.le, fun _ _ _ => hlt⟩
  | @again io hready' hconserved hshort hgenerous =>
      rw [hbytes] at hconserved
      refine ⟨.inl (hagain io hready' hshort hconserved), ?_, fun _ hg _ => ?_⟩
      · show 4 * (io.dest ++ io.unread).length + r.state.rank ≤ r.size
        rw [hconserved, List.length_append, hp, hsize]
      · rw [hgenerous hg, List.append_nil] at hconserved
        rw [hconserved, List.length_append] at hshort
        omega

/-- A pass that reads a whole frame behind its tag. -/
theorem readThen_frame (hP : MovesOn P) {α : Type} {c : Packed α} {a : α} {f : Frame w}
    {rest : List (Frame w)} {e : α → Received} (h : P r.received r.inSeq (f :: rest))
    (hready : r.io.Ready) (hdest : r.io.dest.length < c.size)
    (hbytes : r.io.dest ++ r.io.unread = c.bytes a ++ encodeAll rest)
    (hrecovers : Recovers f (e a)) (hcounts : Counts r.inSeq f r.inSeq)
    (hagain : ∀ io : Inbound, io.dest.length < c.size →
      io.dest ++ io.unread = c.bytes a ++ encodeAll rest → At { r with io := io } (f :: rest)) :
    Advances P granted r (r.readThen w c.size fun r p =>
      { r.log (e (c.ofBytes p)) with state := .opened }) := by
  have hlen : c.size < 2 ^ 32 := lt_of_le_of_lt c.size_le (by decide)
  refine readThen_advances hready hdest hlen (c.length_bytes a) hbytes
    (fun io hio hshort hconserved => ⟨f :: rest, h, hio, hagain io hshort hconserved⟩)
    fun io hio hempty hunread => ⟨.inl ⟨rest, ?_, hio, .opened rfl hempty hunread⟩, ?_⟩
  · show P (r.received ++ [e (c.ofBytes (c.bytes a))]) r.inSeq rest
    rw [c.ofBytes_bytes]
    exact hP h hrecovers hcounts
  · show 4 * (io.dest ++ io.unread).length + 0 ≤ _
    rw [hempty, hunread, List.nil_append]
    exact Nat.le_add_right _ 3

theorem throttle_advances {asked : Bool} {next : State} {m : MsgFrame w} {rest : List (Frame w)}
    (h : P r.received r.inSeq (.message m :: rest)) (hready : r.io.Ready)
    (hat : At r (.message m :: rest)) (hnext : At { r with state := next } (.message m :: rest))
    (hrank : next.rank < r.state.rank) :
    Advances P granted r (r.throttle asked granted next) := by
  unfold Receiver.throttle
  split
  · rename_i hwaits
    refine ⟨.inl ⟨_, h, hready, hat⟩, le_rfl, fun hgranted _ _ => ?_⟩
    simp [hgranted] at hwaits
  · have hlt : ({ r with state := next } : Receiver).size < r.size :=
      Nat.add_lt_add_left hrank _
    exact ⟨.inl ⟨_, h, hready, hnext⟩, hlt.le, fun _ _ _ => hlt⟩

/-! ### Tags -/

theorem onTag_tag (r : Receiver) (t : Tag) : r.onTag w [w.tag t] =
    match t with
    | .keepalive => r.log .keepalive
    | .keepalive2 => { r with state := .openKeepalive2 }
    | .keepalive2Ack => { r with state := .openKeepalive2Ack }
    | .ack => { r with state := .openTagAck }
    | .msg => { r with state := .messageHeader }
    | .close => { r with state := .tagClose } := by
  cases t <;> simp [Receiver.onTag, w.tag_injective.eq_iff]

/-- A pass that reads the tag of a frame. -/
theorem readTag_advances {f : Frame w} {rest : List (Frame w)} {t : Tag} {tail : Bytes}
    (h : P r.received r.inSeq (f :: rest)) (hready : r.io.Ready)
    (hstate : r.state = .opened) (hdest : r.io.dest = [])
    (hunread : r.io.unread = encodeAll (f :: rest)) (hencode : encode f = w.tag t :: tail)
    (hnext : ∀ io : Inbound, io.Ready → io.dest = [] → io.unread = tail ++ encodeAll rest →
      let r' := ({ r with io := io } : Receiver).onTag w [w.tag t]
      Follows P r' ∧ r'.io = io) :
    Advances P granted r (r.readThen w 1 (Receiver.onTag w)) := by
  have hbytes : r.io.dest ++ r.io.unread = [w.tag t] ++ (tail ++ encodeAll rest) := by
    rw [hdest, hunread, encodeAll_cons, hencode]
    rfl
  refine readThen_advances hready (by rw [hdest]; decide) (by decide) rfl hbytes
    (fun io hio hshort hconserved => ?_) fun io hio hempty hrest => ?_
  · have hempty : io.dest = [] := List.eq_nil_of_length_eq_zero (by omega)
    rw [hempty, List.nil_append, ← hbytes, hdest, List.nil_append, hunread] at hconserved
    exact ⟨f :: rest, h, hio, .opened hstate hempty hconserved⟩
  · obtain ⟨hinv, hsame⟩ := hnext io hio hempty hrest
    refine ⟨.inl hinv, ?_⟩
    rw [Receiver.size, hsame, hempty, hrest, List.nil_append]
    exact Nat.add_le_add_left (State.rank_le _) _

theorem opened_advances (hP : MovesOn P) {rest : List (Frame w)}
    (h : P r.received r.inSeq rest) (hready : r.io.Ready)
    (hstate : r.state = .opened) (hdest : r.io.dest = []) (hunread : r.io.unread = encodeAll rest) :
    Advances P granted r (r.readThen w 1 (Receiver.onTag w)) := by
  cases rest with
  | nil =>
      have houtcome := @Inbound.readUntil_spec w.recvMaxPrefetch 1 r.io hready
        (by rw [hdest]; decide) (by decide) w.recvMaxPrefetch_lt
      unfold Receiver.readThen
      generalize r.io.readUntil w.recvMaxPrefetch 1 = out at houtcome
      cases houtcome with
      | @complete q io hlength hconserved hdest' hoffset hgenerous =>
          rw [hdest, hunread] at hconserved
          rw [(List.append_eq_nil_iff.mp hconserved).1] at hlength
          cases hlength
      | @again io hready' hconserved hshort hgenerous =>
          rw [hdest, hunread] at hconserved
          obtain ⟨hempty, hrest⟩ := List.append_eq_nil_iff.mp hconserved
          refine ⟨.inl ⟨[], h, hready', .opened hstate hempty hrest⟩, ?_, fun _ _ hne =>
            absurd hunread hne⟩
          simp [Receiver.size, hempty, hrest]
  | cons f rest =>
      cases f with
      | message m =>
          apply readTag_advances h hready hstate hdest hunread rfl
          intro io hio hempty hrest
          rw [onTag_tag]
          refine ⟨⟨_, h, hio, .header rfl ?_ ?_⟩, rfl⟩
          · rw [hempty]
            exact headerSize_pos
          · rw [hempty, List.nil_append, hrest, List.append_assoc]
      | ack seq =>
          apply readTag_advances h hready hstate hdest hunread rfl
          intro io hio hempty hrest
          rw [onTag_tag]
          refine ⟨⟨_, h, hio, .ack rfl ?_ ?_⟩, rfl⟩
          · rw [hempty]
            exact w.ackSeq.size_pos
          · rw [hempty, List.nil_append, hrest]
      | keepalive now =>
          cases hfeature : w.msgrKeepalive2 with
          | true =>
              have hencode : encode (.keepalive now : Frame w) =
                  w.tag .keepalive2 :: w.timespec.bytes (w.encodeTimeval now) := by
                simp [encode, appendKeepaliveOrAck, hfeature]
              refine readTag_advances h hready hstate hdest hunread hencode
                fun io hio hempty hrest => ?_
              rw [onTag_tag]
              refine ⟨⟨_, h, hio, .keepalive2 rfl hfeature ?_ ?_⟩, rfl⟩
              · rw [hempty]
                exact w.timespec.size_pos
              · rw [hempty, List.nil_append, hrest]
          | false =>
              have hencode : encode (.keepalive now : Frame w) = [w.tag .keepalive] := by
                simp [encode, appendKeepaliveOrAck, hfeature]
              refine readTag_advances h hready hstate hdest hunread hencode
                fun io hio hempty hrest => ?_
              rw [onTag_tag]
              have hrecovers : Recovers (Frame.keepalive now : Frame w) .keepalive := by
                simp [Recovers, hfeature]
              exact ⟨⟨rest, hP h hrecovers rfl, hio, .opened hstate hempty hrest⟩, rfl⟩
      | keepaliveAck t =>
          apply readTag_advances h hready hstate hdest hunread rfl
          intro io hio hempty hrest
          rw [onTag_tag]
          refine ⟨⟨_, h, hio, .keepalive2Ack rfl ?_ ?_⟩, rfl⟩
          · rw [hempty]
            exact w.timespec.size_pos
          · rw [hempty, List.nil_append, hrest]

/-! ### The end of a message -/

/-- The footer of a message that was sent is accepted, and the message decoded. -/
theorem onFooter_footerBytes {m : MsgFrame w}
    (hheader : r.currentHeader = w.receivedHeader m.header)
    (hparts : r.front = m.front ∧ r.middle = m.middle ∧ r.data = m.data) :
    r.onFooter w (w.footerBytes m.footer) =
      let e : Received := .message (w.receivedHeader m.header) m.front m.middle m.data
      (r.log e).checkSeq w e := by
  obtain ⟨hfront, hmiddle, hdata⟩ := hparts
  simp only [Receiver.onFooter, readFooter_footerBytes, flags_receivedFooter, if_neg m.complete,
    hheader, hfront, hmiddle, hdata, m.decodable, Bool.not_true, Bool.false_eq_true, if_false]

theorem checkSeq_of_taken (e : Received) (h : Taken w r.inSeq r.currentHeader.seq) :
    r.checkSeq w e =
      { r with
        inSeq := r.currentHeader.seq
        state := .opened
        dispatched := r.dispatched ++ [e] } := by
  obtain ⟨hlt, hskip⟩ := h
  simp only [Receiver.checkSeq]
  rw [if_neg (by simpa using hlt), if_neg]
  intro hand
  rw [Bool.and_eq_true, decide_eq_true_eq] at hand
  exact hskip hand.2 hand.1

theorem checkSeq_of_not_taken (e : Received) (h : ¬ Taken w r.inSeq r.currentHeader.seq)
    (hstate : r.state ≠ .opened) :
    (r.checkSeq w e).state ≠ .opened ∧ (r.checkSeq w e).received = r.received ∧
      (r.checkSeq w e).io = r.io ∧
      ((r.currentHeader.seq ≤ r.inSeq → w.reconnectSeq && w.dieOnOldMessage) →
        (r.checkSeq w e).state = .aborted) := by
  simp only [Receiver.checkSeq]
  split
  · rename_i hold
    split
    · exact ⟨by simp, rfl, rfl, fun _ => rfl⟩
    · rename_i hlives
      exact ⟨hstate, rfl, rfl, fun hdies => absurd (hdies hold) hlives⟩
  · rename_i hlt
    split
    · exact ⟨by simp, rfl, rfl, fun _ => rfl⟩
    · rename_i hgap
      refine absurd ⟨by simpa using hlt, fun hdie hskip => hgap ?_⟩ h
      rw [Bool.and_eq_true, decide_eq_true_eq]
      exact ⟨hskip, hdie⟩

theorem readFooter_advances (hP : MovesOn P) {m : MsgFrame w} {rest : List (Frame w)}
    (h : P r.received r.inSeq (.message m :: rest)) (hready : r.io.Ready)
    (hstate : r.state = .messageReadFooterAndDispatch)
    (hheader : r.currentHeader = w.receivedHeader m.header)
    (hparts : r.front = m.front ∧ r.middle = m.middle ∧ r.data = m.data)
    (hdest : r.io.dest.length < w.footerSize)
    (hbytes : r.io.dest ++ r.io.unread = w.footerBytes m.footer ++ encodeAll rest) :
    Advances P granted r (r.readFooter w) := by
  have hlen : w.footerSize < 2 ^ 32 := lt_of_le_of_lt footerSize_le (by decide)
  have hseq : (w.receivedHeader m.header).seq = m.header.seq := by
    rw [envelope_receivedHeader]
  refine readThen_advances hready hdest hlen (length_footerBytes _) hbytes
    (fun io hio hshort hconserved =>
      ⟨_, h, hio, .footer hstate hheader hparts hshort hconserved⟩)
    fun io hio hempty hrest => ?_
  have honFooter := @onFooter_footerBytes Addr w { r with io := io } m hheader hparts
  simp only [honFooter]
  set e : Received := .message (w.receivedHeader m.header) m.front m.middle m.data
  set r1 : Receiver := ({ r with io := io } : Receiver).log e
  have hrecovers : Recovers (.message m) e :=
    ⟨sameFields_receivedHeader m.header, rfl, rfl, rfl⟩
  have hseq1 : r1.currentHeader.seq = m.header.seq := by
    show r.currentHeader.seq = _
    rw [hheader, hseq]
  by_cases htaken : Taken w r.inSeq m.header.seq
  · rw [checkSeq_of_taken e (hseq1 ▸ htaken)]
    refine ⟨.inl ⟨rest, ?_, hio, .opened rfl hempty hrest⟩, ?_⟩
    · rw [hseq1]
      exact hP h hrecovers ⟨htaken, rfl⟩
    · show 4 * (io.dest ++ io.unread).length + 0 ≤ _
      rw [hempty, hrest, List.nil_append]
      exact Nat.le_add_right _ 3
  · have hnotOpened : r1.state ≠ .opened := by
      show r.state ≠ .opened
      rw [hstate]
      decide
    obtain ⟨hstate', hreceived', hio', haborts⟩ :=
      checkSeq_of_not_taken e (hseq1 ▸ htaken : ¬ Taken w r1.inSeq r1.currentHeader.seq) hnotOpened
    rw [hseq1] at haborts
    refine ⟨.inr (.message h htaken hrecovers hreceived' (by rw [hio']; exact hrest) hstate'
      haborts), ?_⟩
    rw [Receiver.size, hio']
    show 4 * (io.dest ++ io.unread).length + _ ≤ _
    rw [hempty, hrest, List.nil_append]
    exact Nat.add_le_add_left (State.rank_le _) _

/-! ### The data of a message -/

theorem Buffers.nil {dest : Bytes} {lengths : List ℕ} (h : Buffers dest lengths []) :
    dest = [] := by
  by_contra hne
  obtain ⟨n, more, -, hlt⟩ := h.dest hne
  rw [List.length_nil, Nat.min_zero] at hlt
  exact Nat.not_lt_zero _ hlt

/-- The loop reads the data, or as much of it as the socket has. -/
theorem dataLoop_spec {lengths : List ℕ} {left tail : Bytes} (hready : r.io.Ready)
    (hmsgLeft : r.msgLeft = left.length) (hbuffers : Buffers r.io.dest lengths left)
    (hleft : left.length < 2 ^ 32) (hbytes : r.io.dest ++ r.io.unread = left ++ tail) :
    ∃ io lengths' taken left', left = taken ++ left' ∧
      r.dataLoop w lengths = { r with
        io := io, data := r.data ++ taken, msgLeft := left'.length, dataBlp := lengths' } ∧
      io.Ready ∧ Buffers io.dest lengths' left' ∧ io.dest ++ io.unread = left' ++ tail ∧
      (Inbound.Generous r.io.answers r.io.socket →
        left' = [] ∧ Inbound.Generous io.answers io.socket) := by
  induction lengths generalizing r left with
  | nil =>
      obtain rfl : left = [] := List.eq_nil_of_length_eq_zero (Nat.le_zero.mp hbuffers.sum)
      rw [List.length_nil] at hmsgLeft
      refine ⟨r.io, [], [], [], rfl, ?_, hready, hbuffers, hbytes, fun h => ⟨rfl, h⟩⟩
      simp [Receiver.dataLoop, hmsgLeft]
  | cons n rest ih =>
      rw [Receiver.dataLoop]
      split
      · rename_i hzero
        obtain rfl : left = [] := List.eq_nil_of_length_eq_zero (hmsgLeft.symm.trans hzero)
        refine ⟨r.io, n :: rest, [], [], rfl, ?_, hready, hbuffers, hbytes, fun h => ⟨rfl, h⟩⟩
        simp [hzero]
      · rename_i hpos
        rw [hmsgLeft] at hpos
        have hn : 0 < n := hbuffers.pos n List.mem_cons_self
        have hshort : r.io.dest.length < min n left.length := by
          by_cases hempty : r.io.dest = []
          · rw [hempty]
            exact lt_min hn (Nat.pos_of_ne_zero hpos)
          · obtain ⟨n', more, heq, hlt⟩ := hbuffers.dest hempty
            cases heq
            exact hlt
        have houtcome :=
          Inbound.readUntil_spec hready hshort (by omega) w.recvMaxPrefetch_lt
        dsimp only
        rw [hmsgLeft]
        generalize r.io.readUntil w.recvMaxPrefetch (min n left.length) = out at houtcome
        have hsplit := List.take_append_drop (min n left.length) left
        have htake : (left.take (min n left.length)).length = min n left.length := by
          rw [List.length_take]
          omega
        have hdrop : (left.drop (min n left.length)).length = left.length - min n left.length :=
          List.length_drop
        cases houtcome with
        | @complete p io hlength hconserved hdest hoffset hgenerous =>
            rw [hbytes] at hconserved
            nth_rewrite 1 [← hsplit] at hconserved
            rw [List.append_assoc] at hconserved
            obtain ⟨hp, hunread⟩ := List.append_inj hconserved (hlength.trans htake.symm)
            have hsum := hbuffers.sum
            rw [List.sum_cons] at hsum
            have hbuffers' : Buffers io.dest rest (left.drop (min n left.length)) :=
              ⟨fun k hk => hbuffers.pos k (List.mem_cons_of_mem _ hk), by omega,
                fun hne => absurd hdest hne⟩
            obtain ⟨io', lengths', taken, left', hleft', hloop, hready', hbuffers'', hbytes',
              hgenerous'⟩ :=
              @ih { r with
                  io := io, data := r.data ++ p, msgLeft := left.length - min n left.length }
                (left.drop (min n left.length))
                ⟨by rw [hoffset, hdest]; rfl, fun h => absurd hdest h⟩ hdrop.symm hbuffers'
                (by omega) (by rw [hdest, List.nil_append]; exact hunread)
            refine ⟨io', lengths', p ++ taken, left', ?_, ?_, hready', hbuffers'', hbytes',
              fun h => hgenerous' (hgenerous h)⟩
            · rw [List.append_assoc, ← hleft', hp, hsplit]
            · exact hloop.trans (by rw [List.append_assoc])
        | @again io hready' hconserved hshort' hgenerous =>
            refine ⟨io, n :: rest, [], left, rfl, ?_, hready',
              ⟨hbuffers.pos, hbuffers.sum, fun _ => ⟨n, rest, rfl, hshort'⟩⟩,
              hconserved.trans hbytes, fun h => ?_⟩
            · simp
            · rw [hgenerous h, List.append_nil, hbytes] at hconserved
              rw [hconserved, List.length_append] at hshort'
              omega

theorem readData_advances (hP : MovesOn P) {m : MsgFrame w} {rest : List (Frame w)} {left : Bytes}
    (h : P r.received r.inSeq (.message m :: rest)) (hready : r.io.Ready)
    (hstate : r.state = .messageReadData)
    (hheader : r.currentHeader = w.receivedHeader m.header)
    (hparts : r.front = m.front ∧ r.middle = m.middle ∧ r.data ++ left = m.data)
    (hmsgLeft : r.msgLeft = left.length) (hbuffers : Buffers r.io.dest r.dataBlp left)
    (hbytes : r.io.dest ++ r.io.unread =
      left ++ (w.footerBytes m.footer ++ encodeAll rest)) :
    Advances P granted r (r.readData w) := by
  have hleft : left.length < 2 ^ 32 := by
    have hdata := congrArg List.length hparts.2.2
    rw [List.length_append, ← m.dataLen] at hdata
    have := m.header.dataLen.toNat_lt
    omega
  obtain ⟨io, lengths', taken, left', hsplit, hloop, hready', hbuffers', hbytes', hgenerous⟩ :=
    dataLoop_spec (w := w) hready hmsgLeft hbuffers hleft hbytes
  have hparts' : r.data ++ taken ++ left' = m.data := by
    rw [List.append_assoc, ← hsplit, hparts.2.2]
  have hsize : 4 * (io.dest ++ io.unread).length ≤ r.size := by
    rw [Receiver.size, hbytes, hbytes', hsplit]
    simp only [List.length_append]
    omega
  simp only [Receiver.readData, hloop, hstate]
  cases left' with
  | cons b left' =>
      rw [if_pos (.inr (Nat.succ_pos _))]
      refine ⟨.inl ⟨_, h, hready', .data rfl hheader ⟨hparts.1, hparts.2.1, hparts'⟩ rfl hbuffers'
        hbytes'⟩, hsize, fun _ hg _ => ?_⟩
      cases (hgenerous hg).1
  | nil =>
      rw [if_neg (by simp)]
      have hdest := hbuffers'.nil
      rw [List.append_nil] at hparts'
      rw [hdest, List.nil_append, List.nil_append] at hbytes'
      set r2 : Receiver :=
        { r with
          state := .messageReadFooterAndDispatch
          io := io
          data := r.data ++ taken
          msgLeft := 0
          dataBlp := lengths' }
      have hdest2 : r2.io.dest.length < w.footerSize := by
        show io.dest.length < _
        rw [hdest]
        exact footerSize_pos
      have hsteps : Advances P granted r2 (r2.readFooter w) :=
        readFooter_advances hP h hready' rfl hheader ⟨hparts.1, hparts.2.1, hparts'⟩ hdest2
          (by show io.dest ++ io.unread = _; rw [hdest, List.nil_append, hbytes'])
      have hunread : io.unread ≠ [] := by
        rw [hbytes']
        intro hnil
        have hlength := length_footerBytes (w := w) m.footer
        rw [(List.append_eq_nil_iff.mp hnil).1] at hlength
        exact footerSize_pos.ne hlength
      exact ⟨hsteps.outcome, hsteps.size_le.trans hsize, fun hgranted hg _ =>
        (hsteps.size_lt hgranted (hgenerous hg).2 hunread).trans_le hsize⟩

theorem alignedLengths_spec {pageSize len off : ℕ} (hpage : 0 < pageSize) (hlen : 0 < len) :
    (∀ n ∈ alignedLengths pageSize len off, 0 < n) ∧
      (alignedLengths pageSize len off).sum = len := by
  have hoff : off % pageSize < pageSize := Nat.mod_lt _ hpage
  have hmod : ∀ left, left % pageSize ≤ left := fun left => Nat.mod_le _ _
  simp only [alignedLengths]
  generalize hhead : (if off % pageSize ≠ 0 then min (pageSize - off % pageSize) len else 0) = head
  have hheadLe : head ≤ len := by
    rw [← hhead]
    split <;> omega
  have hrest := hmod (len - head)
  constructor
  · intro n hn
    rcases List.mem_append.mp hn with hn | hn
    · rcases List.mem_append.mp hn with hn | hn
      · split at hn
        · rename_i hpartial
          rw [if_pos hpartial] at hhead
          rw [List.mem_singleton.mp hn]
          omega
        · cases hn
      · split at hn
        · rw [List.mem_singleton.mp hn]
          assumption
        · cases hn
    · split at hn
      · rw [List.mem_singleton.mp hn]
        assumption
      · cases hn
  · have hfirst : (if off % pageSize ≠ 0 then [head] else []).sum = head := by
      split
      · exact List.sum_singleton
      · rename_i hwhole
        rw [if_neg hwhole] at hhead
        exact hhead
    have hone : ∀ n : ℕ, (if 0 < n then [n] else []).sum = n := by
      intro n
      split
      · exact List.sum_singleton
      · exact (Nat.eq_zero_of_not_pos ‹_›).symm
    rw [List.sum_append, List.sum_append, hfirst, hone, hone]
    omega

/-- The buffers of the data are not empty and take all of it. -/
theorem dataLengths_spec (h : Header) :
    (∀ n ∈ Receiver.dataLengths w h, 0 < n) ∧ h.dataLen.toNat ≤ (Receiver.dataLengths w h).sum := by
  simp only [Receiver.dataLengths]
  split
  · rename_i hzero
    exact ⟨nofun, hzero.le⟩
  · rename_i hlen
    split
    · rename_i posted hposted
      split
      · rename_i hless
        refine ⟨fun n hn => ?_, ?_⟩
        · cases List.mem_append.mp hn with
          | inl hmem => exact posted.2 n hmem
          | inr hmem =>
              rw [List.mem_singleton.mp hmem]
              exact Nat.sub_pos_of_lt hless
        · rw [List.sum_append, List.sum_singleton]
          omega
      · rename_i hmore
        exact ⟨posted.2, not_lt.mp hmore⟩
    · obtain ⟨hpos, hsum⟩ :=
        @alignedLengths_spec w.pageSize h.dataLen.toNat h.dataOff.toNat w.pageSize_pos
          (Nat.pos_of_ne_zero hlen)
      exact ⟨hpos, hsum.ge⟩

theorem prepareData_advances (hP : MovesOn P) {m : MsgFrame w} {rest : List (Frame w)}
    (h : P r.received r.inSeq (.message m :: rest)) (hready : r.io.Ready)
    (hrank : r.state.rank = 0)
    (hheader : r.currentHeader = w.receivedHeader m.header)
    (hparts : r.front = m.front ∧ r.middle = m.middle ∧ r.data = []) (hdest : r.io.dest = [])
    (hunread : r.io.unread = m.data ++ (w.footerBytes m.footer ++ encodeAll rest)) :
    Advances P granted r (r.prepareData w) := by
  obtain ⟨hpos, hsum⟩ := dataLengths_spec (w := w) r.currentHeader
  have hdataLen : r.currentHeader.dataLen.toNat = m.data.length := by
    rw [hheader, envelope_receivedHeader, m.dataLen]
  rw [hdataLen] at hsum
  set r1 : Receiver :=
    { r with
      dataBlp := Receiver.dataLengths w r.currentHeader
      msgLeft := r.currentHeader.dataLen.toNat
      state := .messageReadData }
  have hparts1 : r1.front = m.front ∧ r1.middle = m.middle ∧ r1.data ++ m.data = m.data :=
    ⟨hparts.1, hparts.2.1, by show r.data ++ m.data = _; rw [hparts.2.2, List.nil_append]⟩
  have hsteps : Advances P granted r1 (r1.readData w) :=
    readData_advances hP h hready rfl hheader hparts1 hdataLen
      ⟨hpos, hsum, fun hne => absurd hdest hne⟩
      (by show r.io.dest ++ r.io.unread = _; rw [hdest, List.nil_append, hunread])
  have hsize : r1.size = r.size := congrArg (_ + ·) hrank.symm
  exact ⟨hsteps.outcome, hsize ▸ hsteps.size_le, hsize ▸ hsteps.size_lt⟩

/-! ### The front and the middle of a message -/

/-- A part of a message is read, or skipped if it is empty. -/
theorem readPart_advances {len : ℕ} {store : Receiver → Bytes → Receiver}
    {next : Receiver → Receiver} {part tail : Bytes} (hlen : len = part.length)
    (hlt : len < 2 ^ 32) (hready : r.io.Ready)
    (hdest : r.io.dest ≠ [] → r.io.dest.length < part.length)
    (hbytes : r.io.dest ++ r.io.unread = part ++ tail)
    (hskip : part = [] → r.io.dest = [] → r.io.unread = tail →
      Advances P granted r (next r))
    (hagain : ∀ io : Inbound, io.Ready → io.dest.length < part.length →
      io.dest ++ io.unread = part ++ tail → Follows P { r with io := io })
    (hnext : ∀ io : Inbound, io.Ready → io.dest = [] → io.unread = tail →
      let r' := next (store { r with io := io } part)
      (Follows P r' ∨ Lost P r.received r.inSeq r') ∧
        r'.size ≤ 4 * tail.length + 3) :
    Advances P granted r (r.readPart w len store next) := by
  unfold Receiver.readPart
  split
  · rename_i hzero
    obtain rfl : part = [] := List.eq_nil_of_length_eq_zero (hlen.symm.trans hzero)
    have hempty : r.io.dest = [] := by
      by_contra hne
      exact Nat.not_lt_zero _ (hdest hne)
    rw [hempty, List.nil_append, List.nil_append] at hbytes
    exact hskip rfl hempty hbytes
  · rename_i hpos
    subst hlen
    have hshort : r.io.dest.length < part.length := by
      by_cases hempty : r.io.dest = []
      · rw [hempty]
        exact Nat.pos_of_ne_zero hpos
      · exact hdest hempty
    exact readThen_advances hready hshort hlt rfl hbytes hagain hnext

theorem readMiddle_advances (hP : MovesOn P) {m : MsgFrame w} {rest : List (Frame w)}
    (h : P r.received r.inSeq (.message m :: rest)) (hready : r.io.Ready)
    (hstate : r.state = .messageReadMiddle)
    (hheader : r.currentHeader = w.receivedHeader m.header)
    (hparts : r.front = m.front ∧ r.middle = [] ∧ r.data = [])
    (hdest : r.io.dest ≠ [] → r.io.dest.length < m.middle.length)
    (hbytes : r.io.dest ++ r.io.unread =
      m.middle ++ (m.data ++ (w.footerBytes m.footer ++ encodeAll rest))) :
    Advances P granted r (r.readMiddle w) := by
  have hlen : r.currentHeader.middleLen.toNat = m.middle.length := by
    rw [hheader, envelope_receivedHeader, m.middleLen]
  refine readPart_advances hlen (UInt32.toNat_lt _) hready hdest hbytes
    (fun hempty hdest0 hunread => ?_)
    (fun io hio hshort hconserved =>
      ⟨_, h, hio, .middle hstate hheader hparts (fun _ => hshort) hconserved⟩)
    fun io hio hempty hunread => ?_
  · have hsteps : Advances P granted { r with state := .messageReadDataPrepare }
        (({ r with state := .messageReadDataPrepare } : Receiver).prepareData w) :=
      prepareData_advances hP h hready rfl hheader
        ⟨hparts.1, hparts.2.1.trans hempty.symm, hparts.2.2⟩ hdest0 hunread
    exact hsteps.of_state (by rw [hstate]; rfl)
  · have hsteps : Advances P granted
        { r with io := io, middle := m.middle, state := .messageReadDataPrepare }
        (({ r with io := io, middle := m.middle, state := .messageReadDataPrepare } :
          Receiver).prepareData w) :=
      prepareData_advances hP h hio rfl hheader ⟨hparts.1, rfl, hparts.2.2⟩ hempty hunread
    exact hsteps.bounded hempty hunread

theorem readFront_advances (hP : MovesOn P) {m : MsgFrame w} {rest : List (Frame w)}
    (h : P r.received r.inSeq (.message m :: rest)) (hready : r.io.Ready)
    (hstate : r.state = .messageReadFront)
    (hheader : r.currentHeader = w.receivedHeader m.header)
    (hparts : r.front = [] ∧ r.middle = [] ∧ r.data = [])
    (hdest : r.io.dest ≠ [] → r.io.dest.length < m.front.length)
    (hbytes : r.io.dest ++ r.io.unread = body m ++ encodeAll rest) :
    Advances P granted r (r.readFront w) := by
  have hlen : r.currentHeader.frontLen.toNat = m.front.length := by
    rw [hheader, envelope_receivedHeader, m.frontLen]
  have hbytes' : r.io.dest ++ r.io.unread =
      m.front ++ (m.middle ++ (m.data ++ (w.footerBytes m.footer ++ encodeAll rest))) := by
    rw [hbytes, body]
    simp only [List.append_assoc]
  refine readPart_advances hlen (UInt32.toNat_lt _) hready hdest hbytes'
    (fun hempty hdest0 hunread => ?_)
    (fun io hio hshort hconserved =>
      ⟨_, h, hio, .front hstate hheader hparts (fun _ => hshort)
        (hconserved.trans (hbytes'.symm.trans hbytes))⟩)
    fun io hio hempty hunread => ?_
  · have hsteps : Advances P granted { r with state := .messageReadMiddle }
        (({ r with state := .messageReadMiddle } : Receiver).readMiddle w) :=
      readMiddle_advances hP h hready rfl hheader ⟨hparts.1.trans hempty.symm, hparts.2⟩
        (fun hne => absurd hdest0 hne)
        (by show r.io.dest ++ r.io.unread = _; rw [hdest0, List.nil_append, hunread])
    exact hsteps.of_state (by rw [hstate]; rfl)
  · have hsteps : Advances P granted
        { r with io := io, front := m.front, state := .messageReadMiddle }
        (({ r with io := io, front := m.front, state := .messageReadMiddle } :
          Receiver).readMiddle w) :=
      readMiddle_advances hP h hio rfl hheader ⟨rfl, hparts.2⟩ (fun hne => absurd hempty hne)
        (by show io.dest ++ io.unread = _; rw [hempty, List.nil_append, hunread])
    exact hsteps.bounded hempty hunread

/-! ## Runs -/

/-- One pass from a receiver that goes on with frames of which `P` holds. -/
theorem pass_advances (hP : MovesOn P) (h : Follows P r) :
    Advances P granted r (r.pass w granted) := by
  obtain ⟨rest, hrecovered, hready, hat⟩ := h
  cases hat with
  | opened hstate hdest hunread =>
      rw [Receiver.pass, hstate]
      exact opened_advances hP hrecovered hready hstate hdest hunread
  | @keepalive2 t rest hstate hfeature hdest hbytes =>
      rw [Receiver.pass, hstate]
      have hrecovers : Recovers (.keepalive t : Frame w)
          (.keepalive2 (w.ofTimespec (w.encodeTimeval t))) := by
        simp [Recovers, hfeature, w.ofTimespec_encodeTimeval]
      exact readThen_frame hP (e := fun ts => .keepalive2 (w.ofTimespec ts)) hrecovered hready hdest
        hbytes hrecovers rfl
        fun io hshort hconserved => .keepalive2 hstate hfeature hshort hconserved
  | @keepalive2Ack t rest hstate hdest hbytes =>
      rw [Receiver.pass, hstate]
      have hrecovers : Recovers (.keepaliveAck t : Frame w)
          (.keepalive2Ack (w.ofTimespec (w.encodeTimeval t))) :=
        w.ofTimespec_encodeTimeval t
      exact readThen_frame hP (e := fun ts => .keepalive2Ack (w.ofTimespec ts)) hrecovered hready
        hdest hbytes hrecovers rfl
        fun io hshort hconserved => .keepalive2Ack hstate hshort hconserved
  | @ack seq rest hstate hdest hbytes =>
      rw [Receiver.pass, hstate]
      exact readThen_frame hP (e := .ack) hrecovered hready hdest hbytes rfl rfl
        fun io hshort hconserved => .ack hstate hshort hconserved
  | @header m rest hstate hdest hbytes =>
      rw [Receiver.pass, hstate]
      have hlen : w.headerSize < 2 ^ 32 := lt_of_le_of_lt headerSize_le (by decide)
      refine readThen_advances hready hdest hlen (length_headerBytes _) hbytes
        (fun io hio hshort hconserved =>
          ⟨_, hrecovered, hio, .header hstate hshort hconserved⟩)
        fun io hio hempty hunread => ?_
      rw [Receiver.onHeader, readHeader_headerBytes]
      refine ⟨.inl ⟨_, hrecovered, hio, .throttle (.inl rfl) rfl ⟨rfl, rfl, rfl⟩ hempty hunread⟩,
        ?_⟩
      show 4 * (io.dest ++ io.unread).length + 3 ≤ _
      rw [hempty, hunread, List.nil_append]
  | @throttle m rest hstate hheader hparts hdest hunread =>
      have hat : At r (.message m :: rest) := .throttle hstate hheader hparts hdest hunread
      rcases hstate with hstate | hstate | hstate
      · rw [Receiver.pass, hstate]
        exact throttle_advances hrecovered hready hat
          (.throttle (.inr (.inl rfl)) hheader hparts hdest hunread) (by rw [hstate]; decide)
      · rw [Receiver.pass, hstate]
        exact throttle_advances hrecovered hready hat
          (.throttle (.inr (.inr rfl)) hheader hparts hdest hunread) (by rw [hstate]; decide)
      · rw [Receiver.pass, hstate]
        exact throttle_advances hrecovered hready hat
          (.front rfl hheader hparts (fun hne => absurd hdest hne)
            (by show r.io.dest ++ r.io.unread = _; rw [hdest, hunread, List.nil_append]))
          (by rw [hstate]; decide)
  | @front m rest hstate hheader hparts hdest hbytes =>
      rw [Receiver.pass, hstate]
      exact readFront_advances hP hrecovered hready hstate hheader hparts hdest hbytes
  | @middle m rest hstate hheader hparts hdest hbytes =>
      rw [Receiver.pass, hstate]
      exact readMiddle_advances hP hrecovered hready hstate hheader hparts hdest hbytes
  | @data m rest left hstate hheader hparts hleft hbuffers hbytes =>
      rw [Receiver.pass, hstate]
      exact readData_advances hP hrecovered hready hstate hheader hparts hleft hbuffers hbytes
  | @footer m rest hstate hheader hparts hdest hbytes =>
      rw [Receiver.pass, hstate]
      exact readFooter_advances hP hrecovered hready hstate hheader hparts hdest hbytes

/-- One pass from a receiver in step. -/
theorem pass_steps (h : Inv frames start r) : Steps frames start granted r (r.pass w granted) := by
  have hadvances : Advances (Recovered frames start) granted r (r.pass w granted) :=
    pass_advances movesOn_recovered h
  refine ⟨hadvances.outcome.imp_right fun hlost => ?_, hadvances.size_le, hadvances.size_lt⟩
  cases hlost with
  | @message m rest e h huntaken hrecovers hreceived hunread hstate haborts =>
      refine ⟨fun hnone => huntaken (h.noneOld.mp hnone).1, ?_⟩
      obtain ⟨done, hframes, hdone⟩ := h.split
      have hdone' : List.Forall₂ Recovers (done ++ [.message m]) (r.pass w granted).received := by
        rw [hreceived]
        exact List.rel_append hdone (.cons hrecovers .nil)
      exact not_inStep_of_lost (by simpa using hframes) hdone' hunread hstate

theorem length_body (m : MsgFrame w) :
    (body m).length = m.front.length + (m.middle.length + (m.data.length + w.footerSize)) := by
  simp only [body, List.length_append, length_footerBytes]

theorem length_message (m : MsgFrame w) (rest : List (Frame w)) :
    (encodeAll (.message m :: rest)).length =
      w.headerSize + (body m).length + 1 + (encodeAll rest).length := by
  simp only [encodeAll_cons, encode, writeMessage, List.length_append, List.length_cons,
    length_headerBytes]

/-- Inside a frame the receiver has used some of its bytes, and not all of them. -/
theorem At.unread_lt {rest : List (Frame w)} (h : At r rest) (hstate : r.state ≠ .opened) :
    0 < r.io.unread.length ∧ r.io.unread.length < (encodeAll rest).length := by
  have hfooter := footerSize_pos (w := w)
  cases h with
  | opened h => exact absurd h hstate
  | @keepalive2 t rest h hfeature hdest hbytes =>
      have hlength := congrArg List.length hbytes
      simp only [List.length_append, w.timespec.length_bytes] at hlength
      simp only [encodeAll_cons, encode, appendKeepaliveOrAck, hfeature, List.length_append,
        Bool.false_eq_true, if_false, if_true, List.length_cons, w.timespec.length_bytes]
      omega
  | @keepalive2Ack t rest h hdest hbytes =>
      have hlength := congrArg List.length hbytes
      simp only [List.length_append, w.timespec.length_bytes] at hlength
      simp only [encodeAll_cons, encode, appendKeepaliveOrAck, List.length_append, if_true,
        List.length_cons, w.timespec.length_bytes]
      omega
  | @ack seq rest h hdest hbytes =>
      have hlength := congrArg List.length hbytes
      simp only [List.length_append, w.ackSeq.length_bytes] at hlength
      simp only [encodeAll_cons, encode, List.length_append, List.length_cons,
        w.ackSeq.length_bytes]
      omega
  | @header m rest h hdest hbytes =>
      have hlength := congrArg List.length hbytes
      simp only [List.length_append, length_headerBytes] at hlength
      rw [length_message]
      omega
  | @throttle m rest h hheader hparts hdest hunread =>
      rw [hunread, length_message, List.length_append, length_body]
      omega
  | @front m rest h hheader hparts hdest hbytes =>
      have hlength := congrArg List.length hbytes
      rw [List.length_append, List.length_append, length_body] at hlength
      rw [length_message, length_body]
      by_cases hempty : r.io.dest = []
      · rw [hempty, List.length_nil] at hlength
        omega
      · have hshort := hdest hempty
        omega
  | @middle m rest h hheader hparts hdest hbytes =>
      have hlength := congrArg List.length hbytes
      simp only [List.length_append, length_footerBytes] at hlength
      rw [length_message, length_body]
      by_cases hempty : r.io.dest = []
      · rw [hempty, List.length_nil] at hlength
        omega
      · have hshort := hdest hempty
        omega
  | @data m rest left h hheader hparts hleft hbuffers hbytes =>
      have hlength := congrArg List.length hbytes
      have hdata := congrArg List.length hparts.2.2
      simp only [List.length_append, length_footerBytes] at hlength hdata
      rw [length_message, length_body]
      by_cases hempty : r.io.dest = []
      · rw [hempty, List.length_nil] at hlength
        omega
      · obtain ⟨n, more, -, hshort⟩ := hbuffers.dest hempty
        omega
  | @footer m rest h hheader hparts hdest hbytes =>
      have hlength := congrArg List.length hbytes
      simp only [List.length_append, length_footerBytes] at hlength
      rw [length_message, length_body]
      omega

theorem At.running {rest : List (Frame w)} (h : At r rest) :
    r.state ≠ .faulted ∧ r.state ≠ .stopped ∧ r.state ≠ .aborted := by
  cases h with
  | throttle h => rcases h with h | h | h <;> simp [h]
  | _ h => simp [h]

/-- When nothing is left to read, nothing is left to recover. -/
theorem Inv.drained (h : Inv frames start r) (hunread : r.io.unread = []) :
    List.Forall₂ Recovers frames r.received ∧ NoneOld start frames := by
  obtain ⟨rest, ⟨⟨done, hframes, hdone⟩, hnone⟩, -, hat⟩ := h
  have hstate : r.state = .opened := by
    by_contra hne
    have hpos := (hat.unread_lt hne).1
    rw [hunread] at hpos
    exact Nat.lt_irrefl 0 hpos
  have hrest : rest = [] := by
    cases hat with
    | opened _ _ h => exact encodeAll_eq_nil (h.symm.trans hunread)
    | throttle h => rw [hstate] at h; simp at h
    | _ h => rw [hstate] at h; cases h
  subst hrest
  rw [List.append_nil] at hframes
  exact ⟨hframes ▸ hdone, hnone.mpr trivial⟩

theorem Inv.inStep (h : Inv frames start r) : InStep frames r where
  running := by
    obtain ⟨rest, -, -, hat⟩ := h
    exact hat.running
  position := by
    obtain ⟨rest, ⟨⟨done, hframes, hdone⟩, -⟩, -, hat⟩ := h
    refine ⟨done, rest, hframes, hdone, fun hstate => ?_, fun hunread => ?_⟩
    · cases hat with
      | opened _ _ h => exact h
      | throttle h => rw [hstate] at h; simp at h
      | _ h => rw [hstate] at h; cases h
    · by_contra hne
      exact (hat.unread_lt hne).2.ne (congrArg List.length hunread)
  complete hunread := (h.drained hunread).1

/-- What the socket will answer is no part of where the receiver is. -/
theorem Follows.answers (h : Follows P r) (answers : List ℕ) :
    Follows P { r with io := { r.io with answers := answers } } := by
  obtain ⟨rest, hrecovered, hready, hat⟩ := h
  refine ⟨rest, hrecovered, ⟨hready.stateOffset, hready.recvBuf⟩, ?_⟩
  cases hat with
  | opened h hdest hunread => exact .opened h hdest hunread
  | keepalive2 h hfeature hdest hbytes => exact .keepalive2 h hfeature hdest hbytes
  | keepalive2Ack h hdest hbytes => exact .keepalive2Ack h hdest hbytes
  | ack h hdest hbytes => exact .ack h hdest hbytes
  | header h hdest hbytes => exact .header h hdest hbytes
  | throttle h hheader hparts hdest hunread => exact .throttle h hheader hparts hdest hunread
  | front h hheader hparts hdest hbytes => exact .front h hheader hparts hdest hbytes
  | middle h hheader hparts hdest hbytes => exact .middle h hheader hparts hdest hbytes
  | data h hheader hparts hleft hbuffers hbytes =>
      exact .data h hheader hparts hleft hbuffers hbytes
  | footer h hheader hparts hdest hbytes => exact .footer h hheader hparts hdest hbytes

theorem Inv.answers (h : Inv frames start r) (answers : List ℕ) :
    Inv frames start { r with io := { r.io with answers := answers } } :=
  Follows.answers h answers

theorem Receiver.Fresh.inv (h : r.Fresh start (encodeAll frames)) : Inv frames start r := by
  refine ⟨frames, ⟨⟨[], rfl, ?_⟩, ?_⟩, ⟨?_, fun _ => h.recvBuf⟩, .opened h.state h.dest ?_⟩
  · rw [h.received]
    exact .nil
  · rw [h.inSeq]
  · rw [h.stateOffset, h.dest]
    rfl
  · rw [Inbound.unread, h.recvBuf, h.socket, List.nil_append]

/-- A pass in which the socket returns what it has and every throttler grants. -/
def generous (r : Receiver) : Pass := ⟨List.replicate r.io.socket.length 1, true⟩

/-- Generous passes read the stream to its end, or until a frame is lost. -/
theorem drain (h : Inv frames start r) : ∃ passes r',
    (receiverMachine w start (encodeAll frames)).replay (fun _ _ => True) r passes = some r' ∧
      (Inv frames start r' ∧ r'.io.unread = [] ∨ ¬ NoneOld start frames ∧ ¬ InStep frames r') := by
  induction hsize : r.size using Nat.strong_induction_on generalizing r with
  | _ n ih =>
      by_cases hunread : r.io.unread = []
      · exact ⟨[], r, rfl, .inl ⟨h, hunread⟩⟩
      · have hsteps : Steps frames start true _ (r.step w (generous r)) :=
          pass_steps (h.answers (generous r).answers)
        have hlt : (r.step w (generous r)).size < r.size := by
          apply hsteps.size_lt rfl ?_ hunread
          exact ⟨List.length_replicate.ge, fun k hk => (List.eq_of_mem_replicate hk).symm ▸ one_pos⟩
        cases hsteps.outcome with
        | inr hlost => exact ⟨[generous r], _, rfl, .inr hlost⟩
        | inl hinv =>
            obtain ⟨passes, r', hreplay, hout⟩ := ih _ (hsize ▸ hlt) hinv rfl
            exact ⟨generous r :: passes, r', hreplay, hout⟩

end

/-! ## The result -/

variable {inSeq : UInt64} {frames : List (Frame w)}

theorem framesRecovered_of_noneOld (h : NoneOld inSeq frames) : FramesRecovered w inSeq frames := by
  have hinv : ∀ r, (receiverMachine w inSeq (encodeAll frames)).Reached r →
      Inv frames inSeq r := by
    intro r hreached
    apply hreached.invariant (Inv frames inSeq)
    · intro r (hfresh : r.Fresh inSeq _)
      exact hfresh.inv
    · intro r p r' hr _ hstep
      obtain rfl : r.step w p = r' := Option.some.inj hstep
      exact (pass_steps (hr.answers p.answers)).outcome.resolve_right fun hlost => hlost.1 h
  refine ⟨fun r hreached => (hinv r hreached).inStep, fun r hreached => ?_⟩
  obtain ⟨passes, r', hreplay, hout⟩ := drain (hinv r hreached)
  exact ⟨passes, r', hreplay, (hout.resolve_right fun hlost => hlost.1 h).2⟩

/-- A receiver in front of a stream. -/
def Receiver.before (inSeq : UInt64) (stream : Bytes) : Receiver :=
  ⟨.opened, ⟨[], 0, [], stream, []⟩, ⟨⟨0, 0, 0, 0, 0, 0, 0, 0, 0⟩, ⟨0, 0⟩, 0, 0, 0⟩, [], [], [], [],
    0, inSeq, [], []⟩

theorem Receiver.fresh_before (inSeq : UInt64) (stream : Bytes) :
    (before inSeq stream).Fresh inSeq stream :=
  ⟨rfl, rfl, rfl, rfl, rfl, rfl, rfl, rfl⟩

theorem noneOld_of_framesRecovered (h : FramesRecovered w inSeq frames) : NoneOld inSeq frames := by
  have hfresh := Receiver.fresh_before inSeq (encodeAll frames)
  obtain ⟨passes, r', hreplay, hout⟩ := drain hfresh.inv
  have hreached : (receiverMachine w inSeq (encodeAll frames)).Reached r' :=
    .of_replay (.start hfresh) hreplay
  cases hout with
  | inl hdrained => exact (hdrained.1.drained hdrained.2).2
  | inr hlost => exact absurd (h.inStep r' hreached) hlost.2

/-- **Frame synchronisation**, exactly when no message is old. -/
theorem framesRecovered_iff_noneOld (w : Wire Addr) (inSeq : UInt64) (frames : List (Frame w)) :
    FramesRecovered w inSeq frames ↔ NoneOld inSeq frames :=
  ⟨noneOld_of_framesRecovered, framesRecovered_of_noneOld⟩

/-! ## An old message

The structures in their documented layout, no check sums, and the newer formats. -/

namespace Layout

open FixedSize

def envelope : FixedSize Envelope :=
  (u64.pair (u64.pair (u16.pair (u16.pair (u16.pair (u32.pair (u32.pair (u32.pair u16)))))))).map
    (fun ⟨seq, tid, type, priority, version, front, middle, data, off⟩ =>
      ⟨seq, tid, type, priority, version, front, middle, data, off⟩)
    (fun e => (e.seq, e.tid, e.type, e.priority, e.version, e.frontLen, e.middleLen, e.dataLen,
      e.dataOff))
    fun _ => rfl

def entityName : FixedSize EntityName :=
  (u8.pair u64).map (fun ⟨type, num⟩ => ⟨type, num⟩) (fun n => (n.type, n.num)) fun _ => rfl

def entityInst : FixedSize (EntityInst UInt64) :=
  (entityName.pair u64).map (fun ⟨name, addr⟩ => ⟨name, addr⟩) (fun n => (n.name, n.addr))
    fun _ => rfl

def header : FixedSize Header :=
  (envelope.pair (entityName.pair (u16.pair (u16.pair u32)))).map
    (fun ⟨e, src, compat, reserved, crc⟩ => ⟨e, src, compat, reserved, crc⟩)
    (fun h => (h.toEnvelope, h.src, h.compatVersion, h.reserved, h.crc))
    fun _ => rfl

def oldHeader : FixedSize (OldHeader UInt64) :=
  (envelope.pair (entityInst.pair (entityInst.pair (u32.pair u32)))).map
    (fun ⟨e, src, origSrc, reserved, crc⟩ => ⟨e, src, origSrc, reserved, crc⟩)
    (fun h => (h.toEnvelope, h.src, h.origSrc, h.reserved, h.crc))
    fun _ => rfl

def footer : FixedSize Footer :=
  (u32.pair (u32.pair (u32.pair (u64.pair u8)))).map
    (fun ⟨front, middle, data, sig, flags⟩ => ⟨front, middle, data, sig, flags⟩)
    (fun f => (f.frontCrc, f.middleCrc, f.dataCrc, f.sig, f.flags))
    fun _ => rfl

def oldFooter : FixedSize OldFooter :=
  (u32.pair (u32.pair (u32.pair u8))).map
    (fun ⟨front, middle, data, flags⟩ => ⟨front, middle, data, flags⟩)
    (fun f => (f.frontCrc, f.middleCrc, f.dataCrc, f.flags))
    fun _ => rfl

def timespec : FixedSize Timespec :=
  (u32.pair u32).map (fun ⟨sec, nsec⟩ => ⟨sec, nsec⟩) (fun t => (t.tvSec, t.tvNsec)) fun _ => rfl

/-- The values of the tags. -/
def tag : Tag → UInt8
  | .close => 6
  | .msg => 7
  | .ack => 8
  | .keepalive => 9
  | .keepalive2 => 14
  | .keepalive2Ack => 15

theorem tag_injective : Function.Injective tag := by
  intro t t' h
  cases t <;> cases t' <;> first | rfl | cases h

/-- A connection with the newer formats and without check sums. -/
def plainWire : Wire UInt64 where
  nosrcaddr := true
  msgAuth := true
  msgrKeepalive2 := true
  reconnectSeq := true
  crcHeader := false
  crcData := false
  dieOnOldMessage := false
  dieOnSkippedMessage := false
  recvMaxPrefetch := 4096
  recvMaxPrefetch_lt := by decide
  tag := tag
  tag_injective := tag_injective
  header := ⟨header, by decide, by decide⟩
  oldHeader := ⟨oldHeader, by decide, by decide⟩
  footer := ⟨footer, by decide, by decide⟩
  oldFooter := ⟨oldFooter, by decide, by decide⟩
  timespec := ⟨timespec, by decide, by decide⟩
  ackSeq := ⟨u64, by decide, by decide⟩
  headerCrc _ := 0
  headerCrc_crc _ _ := rfl
  oldHeaderCrc _ := 0
  oldHeaderCrc_crc _ _ := rfl
  peerAddr := 0
  overlay _ := (0, 0)
  encodeTimeval t := ⟨t.sec, t.nsec⟩
  ofTimespec t := ⟨t.tvSec, t.tvNsec⟩
  ofTimespec_encodeTimeval _ := rfl
  rxBuffers _ := none
  pageSize := 4096
  pageSize_pos := by decide
  decodeMessage _ _ _ _ _ := true

/-- A message of two bytes with the given number. -/
def twoBytes (seq : UInt64) : MsgFrame plainWire where
  header := ⟨⟨seq, 0, 41, 127, 0, 2, 0, 0, 0⟩, ⟨4, 0⟩, 0, 0, 0⟩
  front := [1, 2]
  middle := []
  data := []
  footer := ⟨0, 0, 0, 0, 1⟩
  frontLen := rfl
  middleLen := rfl
  dataLen := rfl
  complete := by decide
  decodable := rfl

end Layout

/-- The acknowledgement behind an old message is not recovered. -/
theorem not_framesRecovered_old :
    ¬ FramesRecovered Layout.plainWire 5 [.message (Layout.twoBytes 3), .ack 9] := by
  intro h
  have hnone := noneOld_of_framesRecovered h
  exact absurd hnone.1.1 (by decide)

end HwAsync.Framing
