/-
# The debt of acknowledgements

Every message that `process` receives on a lossless connection raises `ack_left`.  `handle_write`
reads it, appends an acknowledgement, and subtracts what it read; it has left `write_lock` by then
and never took `lock`.  `was_session_reset` holds both of them when it sets `ack_left` to zero, and
still comes between.

The number of messages received since the last reset, and how many of them were subtracted, are kept
beside the variables of the source.  In every run that is not caught in between, `ack_left` is the
difference of the two.
-/

import HwAsync.Connect.Protocol
import HwAsync.Lib.Run

namespace HwAsync.Connection

open HwAsync.Lib HwAsync.Connect

/-- The threads: the one in `process`, the one in `handle_write`, and that of a connection which
accepts in place of this one. -/
inductive Thread
  | reader
  | writer
  | acceptor
  deriving DecidableEq, Repr

/-- The next statement of `handle_write`. -/
inductive Writer
  | outside
  /-- Inside of the loop, with `write_lock`. -/
  | next
  /-- `write_message`, without it. -/
  | write
  | load
  | append (left : UInt64)
  | subtract (left : UInt64)
  | trySend (left : UInt64)
  deriving DecidableEq, Repr

/-- The next statement of `was_session_reset`. -/
inductive Resetter
  | outside
  | clearSeq
  | clearAck
  | leave
  deriving DecidableEq, Repr

/-- A connection with its locks.  `acks` are the acknowledgements in `outcoming_bl`; `received` and
`subtracted` count since the last reset, and `stale` says if it was after `ack_left` was read. -/
structure AckRun where
  lossy : Bool
  lock : Option Thread
  writeLock : Option Thread
  canWrite : WriteStatus
  inSeq : UInt64
  ackLeft : UInt64
  acks : List UInt64
  writer : Writer
  resetter : Resetter
  received : ℕ
  subtracted : ℕ
  stale : Bool
  deriving DecidableEq, Repr

/-- What a thread does next. -/
inductive AckAction
  | acquire (t : Thread)
  | release (t : Thread)
  /-- The end of a message in `process`, with the number in its header. -/
  | receive (seq : UInt64)
  /-- `can_write` changes where the connection opens, fails or is replaced. -/
  | setCanWrite (t : Thread) (canWrite : WriteStatus)
  | beginWrite
  | sendNext
  /-- `write_message` returns: negative, zero or positive. -/
  | written (r : ℤ)
  | endLoop
  /-- The next statement behind the loop. -/
  | ack
  | beginReset
  /-- The next statement of `was_session_reset`. -/
  | reset
  deriving DecidableEq, Repr

namespace AckRun

/-- The statements of `handle_write` behind the loop. -/
def ackStep (r : AckRun) : Option AckRun :=
  match r.writer with
  | .load =>
      if r.ackLeft = 0 then some { r with writer := .outside }
      else some { r with writer := .append r.ackLeft, stale := false }
  | .append left => some { r with acks := r.acks ++ [r.inSeq], writer := .subtract left }
  | .subtract left =>
      some { r with
        ackLeft := r.ackLeft - left
        subtracted := r.subtracted + left.toNat
        writer := .trySend (r.ackLeft - left) }
  | .trySend _ => some { r with acks := [], writer := .outside }
  | _ => none

/-- The statements of `was_session_reset` about the numbers. -/
def resetStep (r : AckRun) : Option AckRun :=
  match r.resetter with
  | .outside => none
  | .clearSeq => some { r with inSeq := 0, resetter := .clearAck }
  | .clearAck =>
      some { r with
        ackLeft := 0
        received := 0
        subtracted := 0
        stale := true
        resetter := .leave }
  | .leave => some { r with canWrite := .nowrite, writeLock := none, resetter := .outside }

/-- Any thread takes its next statement; a lock that is held lets nobody in. -/
def step (r : AckRun) : AckAction → Option AckRun
  | .acquire t => if r.lock = none then some { r with lock := some t } else none
  | .release t =>
      if r.lock = some t ∧ r.resetter = .outside then some { r with lock := none } else none
  | .receive seq =>
      if r.lock = some .reader then
        if r.lossy then some { r with inSeq := seq }
        else some { r with inSeq := seq, ackLeft := r.ackLeft + 1, received := r.received + 1 }
      else none
  | .setCanWrite t canWrite =>
      if r.lock = some t ∧ r.writeLock = none then some { r with canWrite := canWrite } else none
  | .beginWrite =>
      if r.writer = .outside ∧ r.writeLock = none then
        if r.canWrite = .canwrite then
          some { r with writeLock := some .writer, writer := .next }
        else some r
      else none
  | .sendNext =>
      if r.writer = .next then some { r with writeLock := none, writer := .write } else none
  | .written result =>
      if r.writer = .write then
        if result < 0 then some { r with writer := .outside }
        else if r.writeLock = none then some { r with writeLock := some .writer, writer := .next }
        else none
      else none
  | .endLoop =>
      if r.writer = .next then some { r with writeLock := none, writer := .load } else none
  | .ack => r.ackStep
  | .beginReset =>
      if r.lock = some .acceptor ∧ r.writeLock = none then
        some { r with writeLock := some .acceptor, resetter := .clearSeq }
      else none
  | .reset => r.resetStep

/-- A new connection. -/
structure Fresh (r : AckRun) : Prop where
  lock : r.lock = none
  writeLock : r.writeLock = none
  inSeq : r.inSeq = 0
  ackLeft : r.ackLeft = 0
  writer : r.writer = .outside
  resetter : r.resetter = .outside
  received : r.received = 0
  subtracted : r.subtracted = 0

/-- Any interleaving. -/
def machine : Machine AckRun AckAction where
  start := Fresh
  step := step

/-- No more is owed than was received since the last reset, and no more was ever subtracted. -/
structure Owed (r : AckRun) : Prop where
  ackLeft_le : r.ackLeft.toNat ≤ r.received
  subtracted_le : r.subtracted ≤ r.received

/-- What the next statement of `handle_write` subtracts, if it is the subtraction. -/
def subtracting (r : AckRun) : Option UInt64 :=
  match r.writer with
  | .subtract left => some left
  | _ => none

/-- If there was a reset after `ack_left` was read, what is now subtracted has been received again
since. -/
def Repaid (r : AckRun) (a : AckAction) : Prop :=
  a = .ack → ∀ left ∈ r.subtracting, r.stale = true → left.toNat ≤ r.received

instance (r : AckRun) (a : AckAction) : Decidable (Repaid r a) :=
  @instDecidableForall _ _ _ (Option.decidableForallMem r.subtracting)

/-! ## The difference -/

/-- What the writer read and has not subtracted yet. -/
def loaded (r : AckRun) : Option UInt64 :=
  match r.writer with
  | .append left | .subtract left => some left
  | _ => none

/-- `ack_left` is the difference of what was received and what was subtracted.  What the writer has
read is part of it, unless there was a reset since; then nothing was subtracted since. -/
structure Balanced (r : AckRun) : Prop where
  subtracted_le : r.subtracted ≤ r.received
  ackLeft_eq : r.ackLeft.toNat = (r.received - r.subtracted) % 2 ^ 64
  fresh : ∀ left, r.loaded = some left → r.stale = false → left.toNat ≤ r.received - r.subtracted
  stale : ∀ left, r.loaded = some left → r.stale = true → r.subtracted = 0

variable {r t : AckRun} {a : AckAction}

theorem Balanced.owed (h : r.Balanced) : r.Owed := by
  refine ⟨?_, h.subtracted_le⟩
  rw [h.ackLeft_eq]
  exact (Nat.mod_le _ _).trans (Nat.sub_le _ _)

/-- A step that leaves the numbers alone, and with them what the writer has read, if anything. -/
theorem Balanced.of_eq (h : r.Balanced) (hreceived : t.received = r.received)
    (hsubtracted : t.subtracted = r.subtracted) (hackLeft : t.ackLeft = r.ackLeft)
    (hstale : t.stale = r.stale) (hloaded : t.loaded = none ∨ t.loaded = r.loaded) :
    t.Balanced := by
  have hsome : ∀ left, t.loaded = some left → r.loaded = some left := by
    intro left hleft
    rcases hloaded with hnone | hsame
    · rw [hnone] at hleft
      cases hleft
    · exact hsame.symm.trans hleft
  refine ⟨?_, ?_, fun left hleft hfresh => ?_, fun left hleft hold => ?_⟩
  · rw [hreceived, hsubtracted]
    exact h.subtracted_le
  · rw [hackLeft, hreceived, hsubtracted]
    exact h.ackLeft_eq
  · rw [hreceived, hsubtracted]
    exact h.fresh left (hsome left hleft) (hstale.symm.trans hfresh)
  · rw [hsubtracted]
    exact h.stale left (hsome left hleft) (hstale.symm.trans hold)

/-- Another message. -/
theorem Balanced.receive (h : r.Balanced) (seq : UInt64) :
    Balanced { r with inSeq := seq, ackLeft := r.ackLeft + 1, received := r.received + 1 } := by
  have hle := h.subtracted_le
  have heq := h.ackLeft_eq
  refine ⟨Nat.le_succ_of_le hle, ?_, fun left hleft hfresh => ?_, h.stale⟩
  · show (r.ackLeft + 1).toNat = (r.received + 1 - r.subtracted) % 2 ^ 64
    rw [UInt64.toNat_add, heq, show r.received + 1 - r.subtracted = r.received - r.subtracted + 1 by
      omega, Nat.mod_add_mod]
    rfl
  · have hbefore := h.fresh left hleft hfresh
    show left.toNat ≤ r.received + 1 - r.subtracted
    omega

/-- What is read is what is owed. -/
theorem Balanced.load (h : r.Balanced) :
    Balanced { r with writer := .append r.ackLeft, stale := false } := by
  refine ⟨h.subtracted_le, h.ackLeft_eq, fun left hleft _ => ?_, fun left _ hold => ?_⟩
  · obtain rfl : r.ackLeft = left := Option.some.inj hleft
    rw [h.ackLeft_eq]
    exact Nat.mod_le _ _
  · cases hold

/-- What is subtracted is still part of what is owed exactly if it is covered. -/
theorem Balanced.le_of_repaid (h : r.Balanced) {left : UInt64} (hleft : r.writer = .subtract left)
    (hrepaid : r.stale = true → left.toNat ≤ r.received) :
    left.toNat ≤ r.received - r.subtracted := by
  have hloaded : r.loaded = some left := by
    rw [loaded, hleft]
  cases hstale : r.stale with
  | false => exact h.fresh left hloaded hstale
  | true =>
      rw [h.stale left hloaded hstale, Nat.sub_zero]
      exact hrepaid hstale

theorem Balanced.subtract (h : r.Balanced) {left : UInt64}
    (hle : left.toNat ≤ r.received - r.subtracted) :
    Balanced { r with
      ackLeft := r.ackLeft - left
      subtracted := r.subtracted + left.toNat
      writer := .trySend (r.ackLeft - left) } := by
  have hbefore := h.subtracted_le
  refine ⟨?_, ?_, fun _ hnone => ?_, fun _ hnone => ?_⟩
  · show r.subtracted + left.toNat ≤ r.received
    omega
  · show (r.ackLeft - left).toNat = (r.received - (r.subtracted + left.toNat)) % 2 ^ 64
    have hlt : left.toNat < 2 ^ 64 := left.toNat_lt
    have heq := h.ackLeft_eq
    rw [UInt64.toNat_sub]
    omega
  · cases hnone
  · cases hnone

/-- A subtraction of more than was received wraps, and leaves more than was received. -/
theorem not_owed_of_not_repaid (h : r.Balanced) (hstep : r.step a = some t)
    (hrepaid : ¬ Repaid r a) : ¬ t.Owed := by
  simp only [Repaid, Classical.not_imp, not_forall, Nat.not_le] at hrepaid
  obtain ⟨rfl, left, hleft, hstale, hlt⟩ := hrepaid
  have hwriter : r.writer = .subtract left := by
    unfold subtracting at hleft
    split at hleft
    · rename_i hwriter
      rw [hwriter, Option.some.inj hleft]
    · cases hleft
  have hzero := h.stale left (by rw [loaded, hwriter]) hstale
  have hackLeft := h.ackLeft_eq
  have hbound : left.toNat < 2 ^ 64 := left.toNat_lt
  rw [hzero, Nat.sub_zero, Nat.mod_eq_of_lt (by omega)] at hackLeft
  simp only [step, ackStep, hwriter, Option.some.injEq] at hstep
  subst hstep
  intro howed
  have hle : (r.ackLeft - left).toNat ≤ r.received := howed.ackLeft_le
  rw [UInt64.toNat_sub, hackLeft] at hle
  omega

/-- The step lemma. -/
theorem Balanced.step (h : r.Balanced) (hrepaid : Repaid r a) (hstep : r.step a = some t) :
    t.Balanced := by
  cases a with
  | acquire thread =>
      simp only [AckRun.step, Option.ite_none_right_eq_some, Option.some.injEq] at hstep
      obtain ⟨-, rfl⟩ := hstep
      exact h.of_eq rfl rfl rfl rfl (.inr rfl)
  | release thread =>
      simp only [AckRun.step, Option.ite_none_right_eq_some, Option.some.injEq] at hstep
      obtain ⟨-, rfl⟩ := hstep
      exact h.of_eq rfl rfl rfl rfl (.inr rfl)
  | receive seq =>
      simp only [AckRun.step, Option.ite_none_right_eq_some] at hstep
      obtain ⟨-, hstep⟩ := hstep
      split at hstep
      · cases hstep
        exact h.of_eq rfl rfl rfl rfl (.inr rfl)
      · cases hstep
        exact h.receive seq
  | setCanWrite thread canWrite =>
      simp only [AckRun.step, Option.ite_none_right_eq_some, Option.some.injEq] at hstep
      obtain ⟨-, rfl⟩ := hstep
      exact h.of_eq rfl rfl rfl rfl (.inr rfl)
  | beginWrite =>
      simp only [AckRun.step, Option.ite_none_right_eq_some] at hstep
      obtain ⟨-, hstep⟩ := hstep
      split at hstep
      · cases hstep
        exact h.of_eq rfl rfl rfl rfl (.inl rfl)
      · cases hstep
        exact h
  | sendNext =>
      simp only [AckRun.step, Option.ite_none_right_eq_some, Option.some.injEq] at hstep
      obtain ⟨-, rfl⟩ := hstep
      exact h.of_eq rfl rfl rfl rfl (.inl rfl)
  | written result =>
      simp only [AckRun.step, Option.ite_none_right_eq_some] at hstep
      obtain ⟨-, hstep⟩ := hstep
      split at hstep
      · cases hstep
        exact h.of_eq rfl rfl rfl rfl (.inl rfl)
      · simp only [Option.ite_none_right_eq_some, Option.some.injEq] at hstep
        obtain ⟨-, rfl⟩ := hstep
        exact h.of_eq rfl rfl rfl rfl (.inl rfl)
  | endLoop =>
      simp only [AckRun.step, Option.ite_none_right_eq_some, Option.some.injEq] at hstep
      obtain ⟨-, rfl⟩ := hstep
      exact h.of_eq rfl rfl rfl rfl (.inl rfl)
  | ack =>
      simp only [AckRun.step, ackStep] at hstep
      split at hstep
      · split at hstep
        · cases hstep
          exact h.of_eq rfl rfl rfl rfl (.inl rfl)
        · cases hstep
          exact h.load
      · rename_i left hwriter
        cases hstep
        exact h.of_eq rfl rfl rfl rfl (.inr (by rw [loaded, loaded, hwriter]))
      · rename_i left hwriter
        cases hstep
        have hleft : left ∈ r.subtracting := by
          rw [subtracting, hwriter]
          rfl
        exact h.subtract (h.le_of_repaid hwriter (hrepaid rfl left hleft))
      · cases hstep
        exact h.of_eq rfl rfl rfl rfl (.inl rfl)
      · cases hstep
  | beginReset =>
      simp only [AckRun.step, Option.ite_none_right_eq_some, Option.some.injEq] at hstep
      obtain ⟨-, rfl⟩ := hstep
      exact h.of_eq rfl rfl rfl rfl (.inr rfl)
  | reset =>
      simp only [AckRun.step, resetStep] at hstep
      split at hstep
      · cases hstep
      · cases hstep
        exact h.of_eq rfl rfl rfl rfl (.inr rfl)
      · cases hstep
        refine ⟨le_rfl, rfl, fun _ _ hfresh => ?_, fun _ _ _ => rfl⟩
        exact absurd hfresh Bool.noConfusion
      · cases hstep
        exact h.of_eq rfl rfl rfl rfl (.inr rfl)

/-- **The debt.**  In every interleaving whose subtractions are repaid, no more is owed than was
received since the last reset; and the next step keeps to that exactly if it is repaid. -/
theorem owed_of_repaid (hreached : machine.ReachedUnder Repaid r) :
    r.Owed ∧ ∀ a t, r.step a = some t → (t.Owed ↔ Repaid r a) := by
  have hbalanced : r.Balanced := by
    apply hreached.invariant Balanced
    · rintro r ⟨-, -, -, hackLeft, hwriter, -, hreceived, hsubtracted⟩
      have hnone : r.loaded = none := by
        rw [loaded, hwriter]
      refine ⟨?_, ?_, fun left hleft => ?_, fun _ _ _ => hsubtracted⟩
      · rw [hreceived, hsubtracted]
      · rw [hackLeft, hreceived, hsubtracted]
        rfl
      · rw [hnone] at hleft
        cases hleft
    · exact fun r a t h hrepaid hstep => h.step hrepaid hstep
  refine ⟨hbalanced.owed, fun a t hstep => ⟨fun howed => ?_, fun hrepaid => ?_⟩⟩
  · by_contra hrepaid
    exact not_owed_of_not_repaid hbalanced hstep hrepaid howed
  · exact (hbalanced.step hrepaid hstep).owed

/-- A connection that is open, and has received one message that `handle_write` is about to
acknowledge when the reset comes. -/
def caught : List AckAction :=
  [.acquire .reader, .setCanWrite .reader .canwrite, .receive 1, .release .reader,
    .beginWrite, .endLoop, .ack, .ack, .acquire .acceptor, .beginReset, .reset, .reset, .reset,
    .release .acceptor]

/-- A new connection. -/
def new : AckRun := ⟨false, none, none, .nowrite, 0, 0, [], .outside, .outside, 0, 0, false⟩

theorem fresh_new : new.Fresh := ⟨rfl, rfl, rfl, rfl, rfl, rfl, rfl, rfl⟩

/-- The message is received again before the subtraction. -/
theorem owed_of_repaid_again :
    Owed ⟨false, none, none, .nowrite, 1, 0, [1], .trySend 0, .outside, 1, 1, true⟩ := by
  have hreplay : machine.replay Repaid new
      (caught ++ [.acquire .reader, .receive 1, .release .reader, .ack]) =
        some ⟨false, none, none, .nowrite, 1, 0, [1], .trySend 0, .outside, 1, 1, true⟩ := by
    decide +kernel
  exact (owed_of_repaid (.of_replay (.start fresh_new) hreplay)).1

/-- It is not, and the subtraction leaves 2^64 - 1. -/
theorem not_owed_caught :
    ∃ r, machine.Reached r ∧ r.ackLeft.toNat = 2 ^ 64 - 1 ∧ r.received = 0 ∧ ¬ r.Owed := by
  have hreplay : machine.replay (fun _ _ => True) new (caught ++ [.ack]) =
      some ⟨false, none, none, .nowrite, 0, .ofNat (2 ^ 64 - 1), [1],
        .trySend (.ofNat (2 ^ 64 - 1)), .outside, 0, 1, true⟩ := by
    decide +kernel
  refine ⟨_, .of_replay (.start fresh_new) hreplay, rfl, rfl, fun howed => ?_⟩
  exact absurd howed.subtracted_le (by decide)

end AckRun

end HwAsync.Connection
