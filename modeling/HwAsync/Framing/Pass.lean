/-
# What a pass can do

A pass begins in one of the `STATE_OPEN*` and may fall through several of them.  This
module says where it can end, whatever the bytes are: behind a tag, in front of or inside
a message, at a failure, or at the end of a message, which is handed on or dropped.
-/

import HwAsync.Framing.Process

namespace HwAsync.Framing

variable {Addr : Type} {w : Wire Addr}

namespace State

/-- The value of a state in `RC_State`.  `fault` leaves the open states for one of the
connecting states or `STATE_STANDBY`, `_stop` for `STATE_CLOSED`. -/
def toNat : State → ℕ
  | .opened => 1
  | .openKeepalive2 => 2
  | .openKeepalive2Ack => 3
  | .openTagAck => 4
  | .messageHeader => 5
  | .messageThrottleMessage => 6
  | .messageThrottleBytes => 7
  | .messageThrottleDispatchQueue => 8
  | .messageReadFront => 9
  | .messageReadMiddle => 10
  | .messageReadDataPrepare => 11
  | .messageReadData => 12
  | .messageReadFooterAndDispatch => 13
  | .tagClose => 14
  | .faulted => 16
  | .stopped => 31
  | .aborted => 33

/-- The states over the parts of a message, from `s` on. -/
def ReadsFrom (s t : State) : Prop :=
  s.toNat ≤ t.toNat ∧ t.toNat ≤ messageReadFooterAndDispatch.toNat

instance (s t : State) : Decidable (ReadsFrom s t) := inferInstanceAs (Decidable (_ ∧ _))

/-- The states in which a message is read. -/
abbrev Reading (t : State) : Prop := ReadsFrom messageReadFront t

/-- The states in which no message has asked a throttler. -/
def Outside (s : State) : Prop :=
  s.toNat ≤ messageThrottleMessage.toNat ∨ messageReadFooterAndDispatch.toNat < s.toNat

instance (s : State) : Decidable s.Outside := inferInstanceAs (Decidable (_ ∨ _))

theorem Outside.not_reading {s : State} (h : s.Outside) : ¬ s.Reading := by
  rintro ⟨hfront, hfooter⟩
  rcases h with h | h
  · exact absurd (hfront.trans h) (by decide)
  · exact absurd hfooter (Nat.not_le.mpr h)

/-- The state in which a pass that began in `s` goes to `fail`: over the parts of a message
it falls through to the footer. -/
def failsIn (s : State) : State := if s.Reading then messageReadFooterAndDispatch else s

theorem failsIn_of_reading {s : State} (h : s.Reading) :
    s.failsIn = messageReadFooterAndDispatch := if_pos h

theorem failsIn_of_not_reading {s : State} (h : ¬ s.Reading) : s.failsIn = s := if_neg h

/-- The states that ask a throttler. -/
def Throttling (s : State) : Prop :=
  messageThrottleMessage.toNat ≤ s.toNat ∧ s.toNat < messageReadFront.toNat

instance (s : State) : Decidable s.Throttling := inferInstanceAs (Decidable (_ ∧ _))

theorem ReadsFrom.mono {s s' t : State} (h : ReadsFrom s' t) (hle : s.toNat ≤ s'.toNat) :
    ReadsFrom s t :=
  ⟨hle.trans h.1, h.2⟩

end State

namespace Receiver

/-- The message that is being read, and what was read before it, are the same. -/
structure SameMessage (r r' : Receiver) : Prop where
  currentHeader : r'.currentHeader = r.currentHeader
  inSeq : r'.inSeq = r.inSeq
  received : r'.received = r.received
  dispatched : r'.dispatched = r.dispatched

theorem SameMessage.trans {r r' r'' : Receiver} (h : SameMessage r r')
    (h' : SameMessage r' r'') : SameMessage r r'' where
  currentHeader := h'.currentHeader.trans h.currentHeader
  inSeq := h'.inSeq.trans h.inSeq
  received := h'.received.trans h.received
  dispatched := h'.dispatched.trans h.dispatched

/-- What the reading of a message comes to, from its state `s` on. -/
inductive Reads (s : State) (r r' : Receiver) : Prop
  | within (hstate : s.ReadsFrom r'.state) (hsame : SameMessage r r')
  | failed (hstate : r'.state = .faulted) (hsame : SameMessage r r')
  | handedOn (front middle data : Bytes) (hstate : r'.state = .opened)
      (hnew : r.inSeq < r.currentHeader.seq)
      (hreceived : r'.received =
        r.received ++ [.message r.currentHeader front middle data])
      (hdispatched : r'.dispatched =
        r.dispatched ++ [.message r.currentHeader front middle data])
  | dropped (front middle data : Bytes) (hstate : r'.state = .messageReadFooterAndDispatch)
      (hold : r.currentHeader.seq ≤ r.inSeq)
      (hheader : r'.currentHeader = r.currentHeader) (hinSeq : r'.inSeq = r.inSeq)
      (hreceived : r'.received =
        r.received ++ [.message r.currentHeader front middle data])
      (hdispatched : r'.dispatched = r.dispatched)
  | aborted (hstate : r'.state = .aborted)

/-- Reading may begin at an earlier state, with the same message. -/
theorem Reads.of_same {s s' : State} {r r₀ r' : Receiver} (h : Reads s' r r')
    (hsame : SameMessage r₀ r) (hle : s.toNat ≤ s'.toNat) : Reads s r₀ r' := by
  cases h with
  | within hstate h => exact .within (hstate.mono hle) (hsame.trans h)
  | failed hstate h => exact .failed hstate (hsame.trans h)
  | handedOn front middle data hstate hnew hreceived hdispatched =>
      rw [hsame.inSeq, hsame.currentHeader] at hnew
      rw [hsame.received, hsame.currentHeader] at hreceived
      rw [hsame.dispatched, hsame.currentHeader] at hdispatched
      exact .handedOn front middle data hstate hnew hreceived hdispatched
  | dropped front middle data hstate hold hheader hinSeq hreceived hdispatched =>
      rw [hsame.inSeq, hsame.currentHeader] at hold
      rw [hsame.currentHeader] at hheader
      rw [hsame.inSeq] at hinSeq
      rw [hsame.received, hsame.currentHeader] at hreceived
      rw [hsame.dispatched] at hdispatched
      exact .dropped front middle data hstate hold hheader hinSeq hreceived hdispatched
  | aborted hstate => exact .aborted hstate

/-- The end of a message. -/
theorem onFooter_reads (r : Receiver) (hstate : r.state = .messageReadFooterAndDispatch)
    (p : Bytes) : Reads .messageReadFooterAndDispatch r (r.onFooter w p) := by
  unfold onFooter
  dsimp only
  split
  · exact .failed rfl ⟨rfl, rfl, rfl, rfl⟩
  · split
    · exact .failed rfl ⟨rfl, rfl, rfl, rfl⟩
    · unfold checkSeq
      dsimp only
      split
      · rename_i hold
        split
        · exact .aborted rfl
        · exact .dropped _ _ _ hstate hold rfl rfl rfl rfl
      · rename_i hnew
        split
        · exact .aborted rfl
        · exact .handedOn _ _ _ rfl (UInt64.not_le.mp hnew) rfl rfl

/-- A read that goes on in the same state. -/
theorem readThen_reads {s : State} {len : ℕ} {next : Receiver → Bytes → Receiver} (r : Receiver)
    (hstate : s.ReadsFrom r.state)
    (hnext : ∀ io p, Reads s { r with io := io } (next { r with io := io } p)) :
    Reads s r (r.readThen w len next) := by
  unfold readThen
  split
  · exact .within hstate ⟨rfl, rfl, rfl, rfl⟩
  · exact (hnext _ _).of_same ⟨rfl, rfl, rfl, rfl⟩ le_rfl

theorem readFooter_reads (r : Receiver) (hstate : r.state = .messageReadFooterAndDispatch) :
    Reads .messageReadFooterAndDispatch r (r.readFooter w) :=
  readThen_reads r (by rw [hstate]; decide) fun io p =>
    onFooter_reads { r with io := io } hstate p

/-- The loop over the data keeps the message and, unless it runs over, the state. -/
theorem dataLoop_same (lengths : List ℕ) (r : Receiver) :
    SameMessage r (r.dataLoop w lengths) ∧
      ((r.dataLoop w lengths).state = r.state ∨ (r.dataLoop w lengths).state = .aborted) := by
  induction lengths generalizing r with
  | nil =>
      refine ⟨⟨rfl, rfl, rfl, rfl⟩, ?_⟩
      simp only [dataLoop]
      split
      · exact .inl rfl
      · exact .inr rfl
  | cons n rest ih =>
      simp only [dataLoop]
      split
      · exact ⟨⟨rfl, rfl, rfl, rfl⟩, .inl rfl⟩
      · split
        · exact ⟨⟨rfl, rfl, rfl, rfl⟩, .inl rfl⟩
        · obtain ⟨hsame, hstate⟩ := ih _
          exact ⟨⟨hsame.currentHeader, hsame.inSeq, hsame.received, hsame.dispatched⟩, hstate⟩

theorem readData_reads (r : Receiver) (hstate : r.state = .messageReadData) :
    Reads .messageReadData r (r.readData w) := by
  obtain ⟨hsame, hloop⟩ := dataLoop_same (w := w) r.dataBlp r
  unfold readData
  dsimp only
  split
  · rcases hloop with hloop | hloop
    · exact .within (by rw [hloop, hstate]; decide) hsame
    · exact .aborted hloop
  · apply (readFooter_reads _ rfl).of_same _ (by decide)
    exact ⟨hsame.currentHeader, hsame.inSeq, hsame.received, hsame.dispatched⟩

theorem prepareData_reads (r : Receiver) : Reads .messageReadDataPrepare r (r.prepareData w) :=
  (readData_reads _ rfl).of_same ⟨rfl, rfl, rfl, rfl⟩ (by decide)

theorem readMiddle_reads (r : Receiver) (hstate : r.state = .messageReadMiddle) :
    Reads .messageReadMiddle r (r.readMiddle w) := by
  have hnext (r' : Receiver) : Reads .messageReadMiddle r'
      (prepareData w { r' with state := .messageReadDataPrepare }) :=
    (prepareData_reads _).of_same ⟨rfl, rfl, rfl, rfl⟩ (by decide)
  unfold readMiddle readPart
  split
  · exact hnext r
  · apply readThen_reads r (by rw [hstate]; decide)
    intro io p
    exact (hnext _).of_same ⟨rfl, rfl, rfl, rfl⟩ le_rfl

theorem readFront_reads (r : Receiver) (hstate : r.state = .messageReadFront) :
    Reads .messageReadFront r (r.readFront w) := by
  have hnext (r' : Receiver) : Reads .messageReadFront r'
      (readMiddle w { r' with state := .messageReadMiddle }) :=
    (readMiddle_reads _ rfl).of_same ⟨rfl, rfl, rfl, rfl⟩ (by decide)
  unfold readFront readPart
  split
  · exact hnext r
  · apply readThen_reads r (by rw [hstate]; decide)
    intro io p
    exact (hnext _).of_same ⟨rfl, rfl, rfl, rfl⟩ le_rfl

/-- **The pass over a message.** -/
theorem pass_reads (r : Receiver) (granted : Bool) (hreading : r.state.Reading) :
    Reads r.state r (r.pass w granted) := by
  unfold pass
  cases hstate : r.state with
  | messageReadFront => exact readFront_reads r hstate
  | messageReadMiddle => exact readMiddle_reads r hstate
  | messageReadDataPrepare => exact prepareData_reads r
  | messageReadData => exact readData_reads r hstate
  | messageReadFooterAndDispatch => exact readFooter_reads r hstate
  | _ => exact absurd (hstate ▸ hreading) (by decide)

/-- A read outside of messages. -/
theorem readThen_outside {len : ℕ} {next : Receiver → Bytes → Receiver} (r : Receiver)
    (hstate : r.state.Outside)
    (hnext : ∀ io p, (next { r with io := io } p).state.Outside ∧
      (next { r with io := io } p).dispatched = r.dispatched) :
    (r.readThen w len next).state.Outside ∧ (r.readThen w len next).dispatched = r.dispatched := by
  unfold readThen
  split
  · exact ⟨hstate, rfl⟩
  · exact hnext _ _

/-- **The pass outside of messages.** -/
theorem pass_outside (r : Receiver) (granted : Bool) (houtside : r.state.Outside)
    (hasks : ¬ r.state.Throttling) :
    (r.pass w granted).state.Outside ∧ (r.pass w granted).dispatched = r.dispatched := by
  unfold pass
  cases hstate : r.state with
  | opened =>
      apply readThen_outside r houtside
      intro io p
      unfold onTag
      split_ifs
      · exact ⟨houtside, rfl⟩
      all_goals exact ⟨by simp [State.Outside, State.toNat, fail], rfl⟩
  | openKeepalive2 | openKeepalive2Ack | openTagAck =>
      exact readThen_outside r houtside fun io p =>
        ⟨by simp [State.Outside, State.toNat], rfl⟩
  | messageHeader =>
      apply readThen_outside r houtside
      intro io p
      unfold onHeader
      split
      · exact ⟨by simp [State.Outside, State.toNat, fail], rfl⟩
      · exact ⟨by simp [State.Outside, State.toNat], rfl⟩
  | tagClose => exact ⟨by simp [State.Outside, State.toNat], rfl⟩
  | faulted | stopped | aborted => exact ⟨houtside, rfl⟩
  | messageThrottleMessage => exact absurd (by rw [hstate]; decide) hasks
  | _ => exact absurd (hstate ▸ houtside) (by decide)

end Receiver

end HwAsync.Framing
