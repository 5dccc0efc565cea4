/-
# Draining the input

File events are edge-triggered, so a call of `process` has to go on until a read reports
missing bytes or a throttler refuses.  Its loop goes on until a pass leaves the state as it
was.  The two differ in two places: a keepalive without a time is read from `STATE_OPEN`
into `STATE_OPEN`, and an old message leaves the state at its footer.
-/

import HwAsync.Framing.Pass
import HwAsync.Framing.Sync

namespace HwAsync.Framing

open HwAsync.Lib Wire

variable {Addr : Type} {w : Wire Addr}

/-! ## The property -/

/-- The connection is neither given up nor stopped. -/
def State.Running (s : State) : Prop := s ≠ .faulted ∧ s ≠ .stopped ∧ s ≠ .aborted

namespace Receiver

variable (w)

/-- `read_until` reports that bytes are missing. -/
def starves (len : ℕ) (r : Receiver) : Bool := (r.io.readUntil w.recvMaxPrefetch len).1.isNone

/-- One of the reads of the loop over the data reports that bytes are missing. -/
def dataStarves : List ℕ → Receiver → Bool
  | [], _ => false
  | n :: rest, r =>
      if r.msgLeft = 0 then false
      else
        let read := min n r.msgLeft
        match r.io.readUntil w.recvMaxPrefetch read with
        | (none, _) => true
        | (some p, io) =>
            dataStarves rest { r with io := io, data := r.data ++ p, msgLeft := r.msgLeft - read }

/-- Bytes are missing for the state, or the throttler that it asks refuses. -/
def blocked (r : Receiver) (granted : Bool) : Bool :=
  match r.state with
  | .opened => r.starves w 1
  | .openKeepalive2 | .openKeepalive2Ack => r.starves w w.timespec.size
  | .openTagAck => r.starves w w.ackSeq.size
  | .messageHeader => r.starves w w.headerSize
  | .messageThrottleMessage => !granted
  | .messageThrottleBytes | .messageThrottleDispatchQueue =>
      curMsgSize r.currentHeader != 0 && !granted
  | .messageReadFront =>
      r.currentHeader.frontLen.toNat != 0 && r.starves w r.currentHeader.frontLen.toNat
  | .messageReadMiddle =>
      r.currentHeader.middleLen.toNat != 0 && r.starves w r.currentHeader.middleLen.toNat
  | .messageReadData => r.dataStarves w r.dataBlp
  | .messageReadFooterAndDispatch => r.starves w w.footerSize
  | _ => false

/-- The receiver and the pass with which a call of `process` returns. -/
def lastPass : List Pass → Receiver → Option (Receiver × Pass)
  | [], _ => none
  | p :: passes, r =>
      let r' := r.step w p
      if r'.state = r.state then some (r, p) else lastPass passes r'

/-- A call that returns with this pass has drained its input. -/
structure Drains (r : Receiver) (p : Pass) : Prop where
  waits : { r with io := { r.io with answers := p.answers } }.blocked w p.granted
  recvBuf : p.granted = true → (r.step w p).io.recvBuf = []
  socket : p.granted = true → Inbound.Generous p.answers r.io.socket →
    (r.step w p).io.socket = []

end Receiver

/-- Every call of `process` that returns without `fault` or `_stop` has drained its input. -/
def CallsDrain (w : Wire Addr) (inSeq : UInt64) (frames : List (Frame w)) : Prop :=
  ∀ r, (receiverMachine w inSeq (encodeAll frames)).Reached r →
    ∀ passes r' p, r.lastPass w passes = some (r', p) → r'.state.Running → r'.Drains w p

/-- Every keepalive carries a time, and no message is old, unless that stops the process. -/
def NoneStalls : UInt64 → List (Frame w) → Prop
  | _, [] => True
  | inSeq, .message m :: rest =>
      (m.header.seq ≤ inSeq → w.reconnectSeq && w.dieOnOldMessage) ∧
        (Taken w inSeq m.header.seq → NoneStalls m.header.seq rest)
  | inSeq, .keepalive _ :: rest => w.msgrKeepalive2 = true ∧ NoneStalls inSeq rest
  | inSeq, _ :: rest => NoneStalls inSeq rest

/-! ## A pass that leaves the state as it was -/

namespace Receiver

variable {r : Receiver} {granted : Bool}

/-- A read that is complete goes on with what it read. -/
theorem readThen_of_not_starves {len : ℕ} (next : Receiver → Bytes → Receiver)
    (h : ¬ r.starves w len) : ∃ p io, r.io.readUntil w.recvMaxPrefetch len = (some p, io) ∧
      r.readThen w len next = next { r with io := io } p := by
  unfold readThen
  cases hread : r.io.readUntil w.recvMaxPrefetch len with
  | mk p io =>
      cases p with
      | none => simp [starves, hread] at h
      | some p => exact ⟨p, io, rfl, rfl⟩

/-- A read whose successor leaves the state was not complete. -/
theorem starves_of_stays {len : ℕ} {next : Receiver → Bytes → Receiver}
    (hnext : ∀ io p, (next { r with io := io } p).state ≠ r.state)
    (h : (r.readThen w len next).state = r.state) : r.starves w len = true := by
  by_contra hstarves
  obtain ⟨p, io, -, hgoes⟩ := readThen_of_not_starves next hstarves
  rw [hgoes] at h
  exact hnext io p h

/-- The loop over the data stops short only at a read that reports missing bytes. -/
theorem dataStarves_of_left {lengths : List ℕ} (hstate : r.state ≠ .aborted)
    (h : ¬ ((r.dataLoop w lengths).state = .aborted)) (hleft : 0 < (r.dataLoop w lengths).msgLeft) :
    r.dataStarves w lengths = true := by
  induction lengths generalizing r with
  | nil =>
      simp only [dataLoop] at h hleft
      rw [if_neg hleft.ne'] at h
      exact absurd rfl h
  | cons n rest ih =>
      simp only [dataLoop] at h hleft
      simp only [dataStarves]
      split
      · rename_i hzero
        rw [if_pos hzero] at hleft
        exact absurd hzero hleft.ne'
      · rename_i hpos
        rw [if_neg hpos] at h hleft
        cases hread : r.io.readUntil w.recvMaxPrefetch (min n r.msgLeft) with
        | mk p io =>
            rw [hread] at h hleft
            cases p with
            | none => rfl
            | some p => exact ih hstate h hleft

/-- Reading from a later state on does not end in an earlier one. -/
theorem Reads.state_ne {s t : State} {r' : Receiver} (h : Reads s r r') (ht : t.Reading)
    (hlt : t.toNat < s.toNat) (hs : s.toNat ≤ State.messageReadFooterAndDispatch.toNat) :
    r'.state ≠ t := by
  rintro rfl
  cases h with
  | within hstate => exact Nat.not_le.mpr hlt hstate.1
  | failed hstate => exact absurd ht (by rw [hstate]; decide)
  | handedOn front middle data hstate => exact absurd ht (by rw [hstate]; decide)
  | dropped front middle data hstate => exact absurd hs (Nat.not_le.mpr (hstate ▸ hlt))
  | aborted hstate => exact absurd ht (by rw [hstate]; decide)

/-- A part that is not empty was not complete if the state stays. -/
theorem readPart_stays {len : ℕ} {store : Receiver → Bytes → Receiver} {next : Receiver → Receiver}
    (hskip : (next r).state ≠ r.state)
    (hnext : ∀ io p, (next (store { r with io := io } p)).state ≠ r.state)
    (h : (r.readPart w len store next).state = r.state) : (len != 0 && r.starves w len) = true := by
  unfold readPart at h
  split at h
  · exact absurd h hskip
  · rename_i hlen
    rw [Bool.and_eq_true, bne_iff_ne]
    exact ⟨hlen, starves_of_stays hnext h⟩

/-- A throttler that leaves the state was asked and refused. -/
theorem throttle_stays {asked : Bool} {next : State} (hnext : next ≠ r.state)
    (h : (r.throttle asked granted next).state = r.state) : (asked && !granted) = true := by
  unfold throttle at h
  split at h
  · assumption
  · exact absurd h hnext

/-- The end of a message leaves the state only where the message is old. -/
theorem onFooter_stays {p : Bytes} (hstate : r.state = .messageReadFooterAndDispatch)
    (h : (r.onFooter w p).state = r.state) :
    r.currentHeader.seq ≤ r.inSeq ∧ ¬ (w.reconnectSeq && w.dieOnOldMessage) = true := by
  rw [hstate] at h
  unfold onFooter at h
  dsimp only at h
  split at h
  · cases h
  · split at h
    · cases h
    · unfold checkSeq at h
      dsimp only at h
      split at h
      · rename_i hold
        split at h
        · cases h
        · rename_i hlives
          exact ⟨hold, hlives⟩
      · split at h
        · cases h
        · cases h

/-- The two ways in which a pass reads something and ends in the state it began in. -/
inductive Stalls (w : Wire Addr) (r : Receiver) : Prop
  | bareKeepalive {io : Inbound} (hstate : r.state = .opened)
      (hread : r.io.readUntil w.recvMaxPrefetch 1 = (some [w.tag .keepalive], io))
  | oldMessage (hstate : r.state = .messageReadFooterAndDispatch)
      (hold : r.currentHeader.seq ≤ r.inSeq)
      (hlives : ¬ (w.reconnectSeq && w.dieOnOldMessage) = true)

theorem onTag_stays {p : Bytes} (hstate : r.state = .opened) (h : (r.onTag w p).state = r.state) :
    p = [w.tag .keepalive] := by
  by_contra hne
  rw [hstate] at h
  unfold onTag at h
  rw [if_neg hne] at h
  split_ifs at h
  cases h

/-- **A pass that leaves the state as it was** was blocked, up to the two exceptions. -/
theorem blocked_of_stays (hrunning : r.state.Running)
    (h : (r.pass w granted).state = r.state) : r.blocked w granted = true ∨ Stalls w r := by
  unfold pass at h
  unfold blocked
  cases hstate : r.state with
  | opened =>
      rw [hstate] at h
      by_cases hstarves : r.starves w 1 = true
      · exact .inl hstarves
      · obtain ⟨p, io, hread, hgoes⟩ := readThen_of_not_starves (onTag w) hstarves
        simp only [hgoes] at h
        obtain rfl := onTag_stays (r := { r with io := io }) hstate (h.trans hstate.symm)
        exact .inr (.bareKeepalive hstate hread)
  | openKeepalive2 | openKeepalive2Ack | openTagAck =>
      rw [hstate] at h
      exact .inl (starves_of_stays (fun io p => by simp [hstate]) (h.trans hstate.symm))
  | messageHeader =>
      rw [hstate] at h
      refine .inl (starves_of_stays (fun io p => ?_) (h.trans hstate.symm))
      unfold onHeader
      split <;> simp [hstate, fail]
  | messageThrottleMessage | messageThrottleBytes | messageThrottleDispatchQueue =>
      rw [hstate] at h
      exact .inl (throttle_stays (by simp [hstate]) (h.trans hstate.symm))
  | messageReadFront =>
      rw [hstate] at h
      refine .inl (readPart_stays ?_ ?_ (h.trans hstate.symm))
      · rw [hstate]
        exact (readMiddle_reads _ rfl).state_ne (by decide) (by decide) (by decide)
      · intro io p
        rw [hstate]
        exact (readMiddle_reads _ rfl).state_ne (by decide) (by decide) (by decide)
  | messageReadMiddle =>
      rw [hstate] at h
      refine .inl (readPart_stays ?_ ?_ (h.trans hstate.symm))
      · rw [hstate]
        exact (prepareData_reads _).state_ne (by decide) (by decide) (by decide)
      · intro io p
        rw [hstate]
        exact (prepareData_reads _).state_ne (by decide) (by decide) (by decide)
  | messageReadDataPrepare =>
      rw [hstate] at h
      exact absurd h ((readData_reads _ rfl).state_ne (by decide) (by decide) (by decide))
  | messageReadData =>
      rw [hstate] at h
      left
      simp only [readData] at h
      split at h
      · rename_i hstops
        have hlives : ¬ (r.dataLoop w r.dataBlp).state = .aborted := by
          rw [h]
          decide
        exact dataStarves_of_left (by rw [hstate]; decide) hlives (hstops.resolve_left hlives)
      · exact absurd h ((readFooter_reads _ rfl).state_ne (by decide) (by decide) (by decide))
  | messageReadFooterAndDispatch =>
      rw [hstate] at h
      by_cases hstarves : r.starves w w.footerSize = true
      · exact .inl hstarves
      · obtain ⟨p, io, -, hgoes⟩ := readThen_of_not_starves (onFooter w) hstarves
        simp only [readFooter, hgoes] at h
        obtain ⟨hold, hlives⟩ :=
          onFooter_stays (r := { r with io := io }) hstate (h.trans hstate.symm)
        exact .inr (.oldMessage hstate hold hlives)
  | tagClose =>
      rw [hstate] at h
      cases h
  | faulted => exact absurd hstate hrunning.1
  | stopped => exact absurd hstate hrunning.2.1
  | aborted => exact absurd hstate hrunning.2.2

end Receiver

/-! ## What a blocked pass leaves -/

theorem bulkLoop_recvBuf (left : ℕ) (dest : Bytes) (offset : ℕ) (socket : Bytes)
    (answers : List ℕ) : (Inbound.bulkLoop left dest offset socket answers).2.recvBuf = [] := by
  induction answers generalizing left dest offset socket with
  | nil => rfl
  | cons k answers ih =>
      simp only [Inbound.bulkLoop]
      split
      · rfl
      · split
        · rfl
        · exact ih _ _ _ _

theorem readSocket_recvBuf {prefetch len left : ℕ} {io : Inbound}
    (h : (io.readSocket prefetch len left).1 = false) :
    (io.readSocket prefetch len left).2.recvBuf = [] := by
  unfold Inbound.readSocket at h ⊢
  split
  · exact bulkLoop_recvBuf _ _ _ _ _
  · rename_i hshort
    simp only [if_neg hshort] at h
    split at h
    · cases h
    · rename_i hmissing
      simp only [if_neg hmissing]

/-- A read that reports missing bytes has emptied the prefetch buffer. -/
theorem readUntil_recvBuf {prefetch len : ℕ} {io io' : Inbound}
    (h : io.readUntil prefetch len = (none, io')) : io'.recvBuf = [] := by
  unfold Inbound.readUntil at h
  simp only at h
  split at h
  · cases h
  · rename_i hmissing
    rw [Bool.not_eq_true] at hmissing
    obtain rfl := (Prod.mk.inj h).2
    unfold Inbound.fill at hmissing ⊢
    split
    · rename_i hbuffered
      simp only [if_pos hbuffered] at hmissing
      split at hmissing
      · cases hmissing
      · rename_i hmore
        simp only [if_neg hmore]
        exact readSocket_recvBuf hmissing
    · rename_i hempty
      simp only [if_neg hempty] at hmissing
      exact readSocket_recvBuf hmissing

namespace Receiver

variable {r : Receiver} {granted : Bool}

/-- Nothing is left in the prefetch buffer and, if the socket was generous, in the socket. -/
structure Empties (r r' : Receiver) : Prop where
  recvBuf : r'.io.recvBuf = []
  socket : Inbound.Generous r.io.answers r.io.socket → r'.io.socket = []

theorem readThen_empties {len : ℕ} {next : Receiver → Bytes → Receiver} (hready : r.io.Ready)
    (hdest : r.io.dest.length < len) (hlen : len < 2 ^ 32) (h : r.starves w len = true) :
    Empties r (r.readThen w len next) := by
  have houtcome := Inbound.readUntil_spec hready hdest hlen w.recvMaxPrefetch_lt
  unfold starves at h
  unfold readThen
  cases hread : r.io.readUntil w.recvMaxPrefetch len with
  | mk p io =>
      rw [hread] at h houtcome
      cases houtcome with
      | complete => cases h
      | again hready' hconserved hshort hgenerous =>
          refine ⟨readUntil_recvBuf hread, fun hg => ?_⟩
          exact (List.append_eq_nil_iff.mp (hgenerous hg)).2

theorem readPart_empties {len : ℕ} {store : Receiver → Bytes → Receiver}
    {next : Receiver → Receiver} (hready : r.io.Ready)
    (hdest : r.io.dest ≠ [] → r.io.dest.length < len) (hlen : len < 2 ^ 32)
    (h : (len != 0 && r.starves w len) = true) : Empties r (r.readPart w len store next) := by
  rw [Bool.and_eq_true, bne_iff_ne] at h
  have hshort : r.io.dest.length < len := by
    by_cases hempty : r.io.dest = []
    · rw [hempty]
      exact Nat.pos_of_ne_zero h.1
    · exact hdest hempty
  unfold readPart
  rw [if_neg h.1]
  exact readThen_empties hready hshort hlen h.2

theorem dataLoop_empties {lengths : List ℕ} (h : r.dataStarves w lengths = true) :
    0 < (r.dataLoop w lengths).msgLeft ∧ (r.dataLoop w lengths).io.recvBuf = [] := by
  induction lengths generalizing r with
  | nil => cases h
  | cons n rest ih =>
      simp only [dataStarves] at h
      simp only [dataLoop]
      split at h
      · cases h
      · rename_i hpos
        rw [if_neg hpos]
        cases hread : r.io.readUntil w.recvMaxPrefetch (min n r.msgLeft) with
        | mk p io =>
            rw [hread] at h
            cases p with
            | none => exact ⟨Nat.pos_of_ne_zero hpos, readUntil_recvBuf hread⟩
            | some p => exact ih h

end Receiver

section

variable {P : List Received → UInt64 → List (Frame w) → Prop} {r : Receiver}

/-- A pass in front of missing bytes empties its input. -/
theorem pass_empties (h : Follows P r) (hblocked : r.blocked w true = true) :
    r.Empties (r.pass w true) := by
  obtain ⟨rest, -, hready, hat⟩ := h
  cases hat with
  | opened hstate hdest hunread =>
      simp only [Receiver.blocked, Receiver.pass, hstate] at hblocked ⊢
      exact Receiver.readThen_empties hready (by rw [hdest]; decide) (by decide) hblocked
  | keepalive2 hstate hfeature hdest hbytes =>
      simp only [Receiver.blocked, Receiver.pass, hstate] at hblocked ⊢
      exact Receiver.readThen_empties hready hdest
        (lt_of_le_of_lt w.timespec.size_le (by decide)) hblocked
  | keepalive2Ack hstate hdest hbytes =>
      simp only [Receiver.blocked, Receiver.pass, hstate] at hblocked ⊢
      exact Receiver.readThen_empties hready hdest
        (lt_of_le_of_lt w.timespec.size_le (by decide)) hblocked
  | ack hstate hdest hbytes =>
      simp only [Receiver.blocked, Receiver.pass, hstate] at hblocked ⊢
      exact Receiver.readThen_empties hready hdest
        (lt_of_le_of_lt w.ackSeq.size_le (by decide)) hblocked
  | header hstate hdest hbytes =>
      simp only [Receiver.blocked, Receiver.pass, hstate] at hblocked ⊢
      exact Receiver.readThen_empties hready hdest
        (lt_of_le_of_lt headerSize_le (by decide)) hblocked
  | throttle hstate hheader hparts hdest hunread =>
      rcases hstate with hstate | hstate | hstate <;>
        simp [Receiver.blocked, hstate] at hblocked
  | @front m rest hstate hheader hparts hdest hbytes =>
      have hlen : r.currentHeader.frontLen.toNat = m.front.length := by
        rw [hheader, envelope_receivedHeader, m.frontLen]
      simp only [Receiver.blocked, Receiver.pass, hstate] at hblocked ⊢
      exact Receiver.readPart_empties hready (fun hne => hlen ▸ hdest hne)
        (UInt32.toNat_lt _) hblocked
  | @middle m rest hstate hheader hparts hdest hbytes =>
      have hlen : r.currentHeader.middleLen.toNat = m.middle.length := by
        rw [hheader, envelope_receivedHeader, m.middleLen]
      simp only [Receiver.blocked, Receiver.pass, hstate] at hblocked ⊢
      exact Receiver.readPart_empties hready (fun hne => hlen ▸ hdest hne)
        (UInt32.toNat_lt _) hblocked
  | @data m rest left hstate hheader hparts hleft hbuffers hbytes =>
      simp only [Receiver.blocked, Receiver.pass, hstate] at hblocked ⊢
      obtain ⟨hpos, hrecvBuf⟩ := Receiver.dataLoop_empties hblocked
      rw [Receiver.readData]
      simp only [if_pos (Or.inr hpos)]
      refine ⟨hrecvBuf, fun hgenerous => ?_⟩
      have hlt : left.length < 2 ^ 32 := by
        have hdata := congrArg List.length hparts.2.2
        rw [List.length_append, ← m.dataLen] at hdata
        have hdataLen := m.header.dataLen.toNat_lt
        omega
      obtain ⟨io, lengths', taken, left', -, hloop, -, -, -, hall⟩ :=
        dataLoop_spec (w := w) hready hleft hbuffers hlt hbytes
      rw [hloop, (hall hgenerous).1] at hpos
      cases hpos
  | footer hstate hheader hparts hdest hbytes =>
      simp only [Receiver.blocked, Receiver.pass, hstate] at hblocked ⊢
      exact Receiver.readThen_empties hready hdest
        (lt_of_le_of_lt footerSize_le (by decide)) hblocked

/-! ## Every call drains its input -/

variable {inSeq : UInt64} {frames : List (Frame w)}

theorem NoneStalls.next {inSeq inSeq' : UInt64} {f : Frame w} {rest : List (Frame w)}
    (h : NoneStalls inSeq (f :: rest)) (hcounts : Counts inSeq f inSeq') :
    NoneStalls inSeq' rest := by
  cases f with
  | message m =>
      obtain ⟨htaken, rfl⟩ := hcounts
      exact h.2 htaken
  | keepalive now => exact hcounts ▸ h.2
  | ack seq => exact hcounts ▸ h
  | keepaliveAck t => exact hcounts ▸ h

/-- A receiver in front of frames none of which stalls. -/
abbrev Unstalled (w : Wire Addr) : Receiver → Prop :=
  Follows fun _ inSeq (rest : List (Frame w)) => NoneStalls inSeq rest

theorem movesOn_noneStalls :
    MovesOn fun _ inSeq (rest : List (Frame w)) => NoneStalls inSeq rest :=
  fun _ _ _ _ _ _ h _ hcounts => h.next hcounts

/-- One pass goes on in front of such frames, or the process is aborted. -/
theorem pass_unstalled {granted : Bool} (h : Unstalled w r) :
    Unstalled w (r.pass w granted) ∨ (r.pass w granted).state = .aborted := by
  refine (pass_advances movesOn_noneStalls h).outcome.imp_right fun hlost => ?_
  cases hlost with
  | message hnone _ _ _ _ _ haborts => exact haborts hnone.1

theorem unstalled_of_reached (h : NoneStalls inSeq frames)
    (hreached : (receiverMachine w inSeq (encodeAll frames)).Reached r) :
    Unstalled w r ∨ r.state = .aborted := by
  apply hreached.invariant fun r => Unstalled w r ∨ r.state = .aborted
  · intro r (hfresh : r.Fresh inSeq _)
    obtain ⟨rest, -, hready, hat⟩ := hfresh.inv
    refine .inl ⟨frames, ?_, ⟨by rw [hfresh.stateOffset, hfresh.dest]; rfl, fun _ =>
      hfresh.recvBuf⟩, .opened hfresh.state hfresh.dest ?_⟩
    · rw [hfresh.inSeq]
      exact h
    · rw [Inbound.unread, hfresh.recvBuf, hfresh.socket, List.nil_append]
  · intro r p r' hr _ hstep
    obtain rfl : r.step w p = r' := Option.some.inj hstep
    cases hr with
    | inl hr => exact pass_unstalled (hr.answers p.answers)
    | inr haborted =>
        right
        simp only [Receiver.step, Receiver.pass, haborted]

/-- Where none of the frames stalls, no pass does. -/
theorem not_stalls (h : Unstalled w r) : ¬ r.Stalls w := by
  obtain ⟨rest, hnone, hready, hat⟩ := h
  intro hstalls
  cases hstalls with
  | @bareKeepalive io hstate hread =>
      cases hat with
      | opened _ hdest hunread =>
          have houtcome := @Inbound.readUntil_spec w.recvMaxPrefetch 1 r.io hready
            (by rw [hdest]; decide) (by decide) w.recvMaxPrefetch_lt
          rw [hread] at houtcome
          cases houtcome with
          | complete hlength hconserved =>
              rw [hdest, hunread, List.nil_append] at hconserved
              cases rest with
              | nil => cases hconserved
              | cons f rest =>
                  cases f with
                  | keepalive now =>
                      have hbytes : w.tag .keepalive = w.tag .keepalive2 := by
                        simpa [encode, appendKeepaliveOrAck, hnone.1] using
                          congrArg List.head? hconserved
                      cases w.tag_injective hbytes
                  | message m =>
                      cases w.tag_injective (Option.some.inj (congrArg List.head? hconserved))
                  | ack seq =>
                      cases w.tag_injective (Option.some.inj (congrArg List.head? hconserved))
                  | keepaliveAck t =>
                      cases w.tag_injective (Option.some.inj (congrArg List.head? hconserved))
      | throttle hstate' => rw [hstate] at hstate'; simp at hstate'
      | _ hstate' => rw [hstate] at hstate'; cases hstate'
  | oldMessage hstate hold hlives =>
      cases hat with
      | @footer m rest _ hheader _ _ _ =>
          rw [hheader, envelope_receivedHeader] at hold
          exact hlives (hnone.1 hold)
      | throttle hstate' => rw [hstate] at hstate'; simp at hstate'
      | _ hstate' => rw [hstate] at hstate'; cases hstate'

/-- The receiver with which a call ends is reached, and its last pass leaves the state. -/
theorem lastPass_reached {passes : List Pass} {r' : Receiver} {p : Pass}
    (hreached : (receiverMachine w inSeq (encodeAll frames)).Reached r)
    (h : r.lastPass w passes = some (r', p)) :
    (receiverMachine w inSeq (encodeAll frames)).Reached r' ∧ (r'.step w p).state = r'.state := by
  induction passes generalizing r with
  | nil => cases h
  | cons q passes ih =>
      simp only [Receiver.lastPass] at h
      split at h
      · rename_i hstays
        cases h
        exact ⟨hreached, hstays⟩
      · exact ih (.step hreached trivial rfl) h

theorem callsDrain_of_noneStalls (h : NoneStalls inSeq frames) : CallsDrain w inSeq frames := by
  intro r hreached passes r' p hlast hrunning
  obtain ⟨hreached', hstays⟩ := lastPass_reached hreached hlast
  have hunstalled : Unstalled w r' :=
    (unstalled_of_reached h hreached').resolve_right hrunning.2.2
  let r₀ : Receiver := { r' with io := { r'.io with answers := p.answers } }
  have hanswers : Unstalled w r₀ := hunstalled.answers p.answers
  have hblocked : r₀.blocked w p.granted = true :=
    (Receiver.blocked_of_stays (r := r₀) hrunning hstays).resolve_right (not_stalls hanswers)
  have hempties (hgranted : p.granted = true) : r₀.Empties (r₀.pass w true) :=
    pass_empties hanswers (hgranted ▸ hblocked)
  refine ⟨hblocked, fun hgranted => ?_, fun hgranted hgenerous => ?_⟩
  · rw [Receiver.step, hgranted]
    exact (hempties hgranted).recvBuf
  · rw [Receiver.step, hgranted]
    exact (hempties hgranted).socket hgenerous

end

/-! ## Reading as much as one wants

A socket that returns one byte to each of `n` reads has exactly the next `n` bytes read. -/

namespace Inbound

/-- A stream of which nothing is read ahead. -/
def untouched (stream : Bytes) (answers : List ℕ) : Inbound := ⟨[], 0, [], stream, answers⟩

/-- One byte of a bulk read. -/
theorem bulkLoop_one {left : ℕ} {dest socket : Bytes} {answers : List ℕ} (b : UInt8)
    (hpos : 0 < left) (hleft : left < 2 ^ 32) :
    bulkLoop left dest dest.length (b :: socket) (1 :: answers) =
      if left = 1 then (true, ⟨dest ++ [b], 0, [], socket, answers⟩)
      else bulkLoop (left - 1) (dest ++ [b]) (dest ++ [b]).length socket answers := by
  have hone : min 1 (min left intMax) = 1 := by
    unfold intMax
    omega
  have hgot : (b :: socket).take (min 1 (min left intMax)) = [b] := by
    rw [hone]
    rfl
  have hcast := @castInt_eq_iff 1 left (by decide) hpos hleft
  simp only [bulkLoop, hgot, List.length_singleton, hcast, memcpy_length, List.length_append]
  simp [eq_comm]

theorem bulkLoop_ones {dest p more : Bytes} {k : ℕ} (hp : p ≠ []) (hlen : p.length < 2 ^ 32) :
    bulkLoop p.length dest dest.length (p ++ more) (List.replicate (p.length + k) 1) =
      (true, ⟨dest ++ p, 0, [], more, List.replicate k 1⟩) := by
  induction p generalizing dest with
  | nil => exact absurd rfl hp
  | cons b p ih =>
      rw [List.length_cons, Nat.add_right_comm, List.replicate_succ, List.cons_append,
        bulkLoop_one b (Nat.succ_pos _) hlen]
      cases p with
      | nil => simp
      | cons c p =>
          rw [if_neg (by simp), Nat.succ_sub_one,
            ih (List.cons_ne_nil c p) (Nat.lt_of_succ_lt hlen)]
          simp

/-- One byte of a read into the prefetch buffer. -/
theorem prefetchLoop_one {prefetch left : ℕ} {recvBuf socket : Bytes} {answers : List ℕ}
    (b : UInt8) (hpos : 0 < left) (hleft : left < 2 ^ 31) (hprefetch : 0 < prefetch) :
    prefetchLoop prefetch left recvBuf (b :: socket) (1 :: answers) =
      if left = 1 then (true, recvBuf ++ [b], socket, answers)
      else prefetchLoop prefetch (left - 1) (recvBuf ++ [b]) socket answers := by
  have hone : min 1 (min prefetch intMax) = 1 := by
    unfold intMax
    omega
  have hgot : (b :: socket).take (min 1 (min prefetch intMax)) = [b] := by
    rw [hone]
    rfl
  have hcast : left ≤ [b].length ↔ left = 1 := by
    rw [List.length_singleton]
    omega
  simp only [prefetchLoop, hgot, castInt_of_lt hleft, Int.ofNat_le, hcast]
  simp

theorem prefetchLoop_ones {prefetch k : ℕ} {recvBuf p more : Bytes} (hp : p ≠ [])
    (hlen : p.length < 2 ^ 31) (hprefetch : 0 < prefetch) :
    prefetchLoop prefetch p.length recvBuf (p ++ more) (List.replicate (p.length + k) 1) =
      (true, recvBuf ++ p, more, List.replicate k 1) := by
  induction p generalizing recvBuf with
  | nil => exact absurd rfl hp
  | cons b p ih =>
      rw [List.length_cons, Nat.add_right_comm, List.replicate_succ, List.cons_append,
        prefetchLoop_one b (Nat.succ_pos _) hlen hprefetch]
      cases p with
      | nil => simp
      | cons c p =>
          rw [if_neg (by simp), Nat.succ_sub_one,
            ih (List.cons_ne_nil c p) (Nat.lt_of_succ_lt hlen)]
          simp

theorem readUntil_ones {prefetch k : ℕ} {p more : Bytes} (hp : p ≠ []) (hlen : p.length < 2 ^ 32)
    (hprefetch : prefetch < 2 ^ 31) :
    (untouched (p ++ more) (List.replicate (p.length + k) 1)).readUntil prefetch p.length =
      (some p, untouched more (List.replicate k 1)) := by
  unfold readUntil fill untouched readSocket
  rw [if_neg (not_not.mpr rfl)]
  by_cases hbulk : prefetch < p.length
  · have hloop := @bulkLoop_ones [] p more k hp hlen
    simp only [Nat.sub_zero, if_pos hbulk]
    rw [List.length_nil] at hloop
    rw [hloop]
    rfl
  · have hpos : 0 < p.length := List.length_pos_of_ne_nil hp
    have hloop := @prefetchLoop_ones prefetch k [] p more hp (by omega) (by omega)
    simp only [Nat.sub_zero, if_neg hbulk, hloop]
    simp [memcpy]

theorem readUntil_dry (prefetch len : ℕ) (stream : Bytes) :
    (untouched stream []).readUntil prefetch len = (none, untouched stream []) := by
  unfold readUntil fill untouched readSocket
  rw [if_neg (not_not.mpr rfl)]
  split
  · simp [bulkLoop]
  · simp [prefetchLoop, memcpy]

end Inbound

namespace Receiver

variable {r : Receiver} {p more : Bytes} {k : ℕ}

open Inbound

theorem readThen_ones {next : Receiver → Bytes → Receiver} (hp : p ≠ []) (hlen : p.length < 2 ^ 32)
    (hio : r.io = untouched (p ++ more) (List.replicate (p.length + k) 1)) :
    r.readThen w p.length next = next { r with io := untouched more (List.replicate k 1) } p := by
  unfold readThen
  rw [hio, readUntil_ones hp hlen w.recvMaxPrefetch_lt]

theorem not_starves_ones (hp : p ≠ []) (hlen : p.length < 2 ^ 32)
    (hio : r.io = untouched (p ++ more) (List.replicate p.length 1)) :
    r.starves w p.length = false := by
  have hread := @readUntil_ones w.recvMaxPrefetch 0 p more hp hlen w.recvMaxPrefetch_lt
  rw [Nat.add_zero] at hread
  unfold starves
  rw [hio, hread]
  rfl

theorem readPart_ones {store : Receiver → Bytes → Receiver} {next : Receiver → Receiver} {len : ℕ}
    (hlen : len = p.length) (hlt : len < 2 ^ 32)
    (hio : r.io = untouched (p ++ more) (List.replicate (p.length + k) 1))
    (hstore : p = [] → store r [] = r) :
    r.readPart w len store next =
      next (store { r with io := untouched more (List.replicate k 1) } p) := by
  unfold readPart
  subst hlen
  split
  · rename_i hzero
    obtain rfl : p = [] := List.eq_nil_of_length_eq_zero hzero
    have hio' : untouched more (List.replicate k 1) = r.io := by simpa using hio.symm
    have hsame : ({ r with io := untouched more (List.replicate k 1) } : Receiver) = r := by
      rw [hio']
    rw [hsame, hstore rfl]
  · rename_i hpos
    exact readThen_ones (fun h => hpos (h ▸ rfl)) hlt hio

theorem dataLoop_ones {lengths : List ℕ} (hpos : ∀ n ∈ lengths, 0 < n)
    (hsum : p.length ≤ lengths.sum) (hlt : p.length < 2 ^ 32) (hleft : r.msgLeft = p.length)
    (hio : r.io = untouched (p ++ more) (List.replicate (p.length + k) 1)) :
    ∃ lengths', r.dataLoop w lengths =
      { r with
        io := untouched more (List.replicate k 1)
        data := r.data ++ p
        msgLeft := 0
        dataBlp := lengths' } := by
  induction lengths generalizing r p with
  | nil =>
      obtain rfl : p = [] := List.eq_nil_of_length_eq_zero (Nat.le_zero.mp hsum)
      refine ⟨[], ?_⟩
      have hio' : untouched more (List.replicate k 1) = r.io := by simpa using hio.symm
      have hleft' : r.msgLeft = 0 := hleft
      simp [dataLoop, hleft', hio']
  | cons n rest ih =>
      rw [dataLoop]
      split
      · rename_i hzero
        obtain rfl : p = [] := List.eq_nil_of_length_eq_zero (hleft.symm.trans hzero)
        have hio' : untouched more (List.replicate k 1) = r.io := by simpa using hio.symm
        exact ⟨n :: rest, by simp [hzero, hio']⟩
      · rename_i hne
        rw [hleft] at hne
        have hn : 0 < n := hpos n List.mem_cons_self
        set read := min n p.length with hread
        have htake : (p.take read).length = read := by
          rw [List.length_take]
          omega
        have hdrop : (p.drop read).length = p.length - read := List.length_drop
        have hsplit : r.io = untouched (p.take read ++ (p.drop read ++ more))
            (List.replicate ((p.take read).length + ((p.drop read).length + k)) 1) := by
          rw [hio, ← List.append_assoc, List.take_append_drop, htake, hdrop]
          congr 2
          omega
        have hfull := @readUntil_ones w.recvMaxPrefetch ((p.drop read).length + k) (p.take read)
          (p.drop read ++ more) (fun h => by rw [h, List.length_nil] at htake; omega) (by omega)
          w.recvMaxPrefetch_lt
        rw [htake] at hfull
        rw [htake] at hsplit
        dsimp only
        rw [hleft, ← hread, hsplit, hfull]
        have hsum' := hsum
        rw [List.sum_cons] at hsum'
        obtain ⟨lengths', hloop⟩ := @ih
          { r with
            io := untouched (p.drop read ++ more) (List.replicate ((p.drop read).length + k) 1)
            data := r.data ++ p.take read
            msgLeft := p.length - read }
          (p.drop read) (fun m hm => hpos m (List.mem_cons_of_mem n hm)) (by omega) (by omega)
          hdrop.symm rfl
        refine ⟨lengths', hloop.trans ?_⟩
        simp only [List.append_assoc, List.take_append_drop]

/-- A pass with the given answers. -/
theorem step_untouched {stream : Bytes} (hio : r.io = untouched stream []) (p : Pass) :
    r.step w p = ({ r with io := untouched stream p.answers } : Receiver).pass w p.granted := by
  rw [step, hio]
  rfl

/-- The tag of a frame is read. -/
theorem step_tag {t : Tag} (hstate : r.state = .opened)
    (hio : r.io = untouched (w.tag t :: more) []) :
    r.step w ⟨[1], true⟩ =
      ({ r with io := untouched more [] } : Receiver).onTag w [w.tag t] := by
  have hlen : [w.tag t].length < 2 ^ 32 := Nat.one_lt_two_pow (by decide)
  rw [step_untouched hio]
  simp only [pass, hstate]
  exact readThen_ones (p := [w.tag t]) (k := 0) (List.cons_ne_nil _ _) hlen rfl

/-- Everything in front of the footer was read, and nothing of the footer. -/
structure BeforeFooter (m : MsgFrame w) (rest : Bytes) (inSeq : UInt64) (r : Receiver) : Prop where
  state : r.state = .messageReadFooterAndDispatch
  io : r.io = untouched (w.footerBytes m.footer ++ rest) []
  currentHeader : r.currentHeader = w.receivedHeader m.header
  parts : r.front = m.front ∧ r.middle = m.middle ∧ r.data = m.data
  inSeq : r.inSeq = inSeq

variable {m : MsgFrame w} {rest : Bytes} {inSeq : UInt64}

theorem prepareData_ones (hinSeq : r.inSeq = inSeq)
    (hheader : r.currentHeader = w.receivedHeader m.header)
    (hparts : r.front = m.front ∧ r.middle = m.middle ∧ r.data = [])
    (hio : r.io = untouched (m.data ++ (w.footerBytes m.footer ++ rest))
      (List.replicate m.data.length 1)) :
    BeforeFooter m rest inSeq (r.prepareData w) := by
  obtain ⟨hpos, hsum⟩ := dataLengths_spec (w := w) r.currentHeader
  have hdataLen : r.currentHeader.dataLen.toNat = m.data.length := by
    rw [hheader, envelope_receivedHeader, m.dataLen]
  have hlt : m.data.length < 2 ^ 32 := hdataLen ▸ UInt32.toNat_lt _
  rw [hdataLen] at hsum
  obtain ⟨lengths', hloop⟩ := dataLoop_ones (w := w) (k := 0)
    (r := { r with
      dataBlp := dataLengths w r.currentHeader
      msgLeft := r.currentHeader.dataLen.toNat
      state := .messageReadData }) hpos hsum hlt hdataLen hio
  rw [prepareData, readData]
  simp only [hloop]
  rw [if_neg (by simp), readFooter, readThen]
  simp only [List.replicate_zero, readUntil_dry]
  exact ⟨rfl, rfl, hheader, ⟨hparts.1, hparts.2.1, by simp [hparts.2.2]⟩, hinSeq⟩

theorem readMiddle_ones (hinSeq : r.inSeq = inSeq)
    (hheader : r.currentHeader = w.receivedHeader m.header)
    (hparts : r.front = m.front ∧ r.middle = [] ∧ r.data = [])
    (hio : r.io = untouched (m.middle ++ (m.data ++ (w.footerBytes m.footer ++ rest)))
      (List.replicate (m.middle.length + m.data.length) 1)) :
    BeforeFooter m rest inSeq (r.readMiddle w) := by
  have hlen : r.currentHeader.middleLen.toNat = m.middle.length := by
    rw [hheader, envelope_receivedHeader, m.middleLen]
  unfold readMiddle
  rw [readPart_ones hlen (UInt32.toNat_lt _) hio fun _ => by rw [← hparts.2.1]]
  apply prepareData_ones
  · exact hinSeq
  · exact hheader
  · exact ⟨hparts.1, rfl, hparts.2.2⟩
  · rfl

theorem readFront_ones (hinSeq : r.inSeq = inSeq)
    (hheader : r.currentHeader = w.receivedHeader m.header)
    (hparts : r.front = [] ∧ r.middle = [] ∧ r.data = [])
    (hio : r.io = untouched (body m ++ rest)
      (List.replicate (m.front.length + (m.middle.length + m.data.length)) 1)) :
    BeforeFooter m rest inSeq (r.readFront w) := by
  have hlen : r.currentHeader.frontLen.toNat = m.front.length := by
    rw [hheader, envelope_receivedHeader, m.frontLen]
  have hbody : body m ++ rest =
      m.front ++ (m.middle ++ (m.data ++ (w.footerBytes m.footer ++ rest))) := by
    simp only [body, List.append_assoc]
  rw [hbody] at hio
  unfold readFront
  rw [readPart_ones hlen (UInt32.toNat_lt _) hio fun _ => by rw [← hparts.1]]
  apply readMiddle_ones
  · exact hinSeq
  · exact hheader
  · exact ⟨rfl, hparts.2⟩
  · rfl

theorem footerBytes_ne_nil (f : Footer) : w.footerBytes f ≠ [] := by
  apply List.ne_nil_of_length_pos
  rw [length_footerBytes]
  exact footerSize_pos

theorem length_footerBytes_lt (f : Footer) : (w.footerBytes f).length < 2 ^ 32 := by
  rw [length_footerBytes]
  exact lt_of_le_of_lt footerSize_le (by decide)

/-- The footer is read, and the number of the message checked. -/
theorem BeforeFooter.step (h : BeforeFooter m rest inSeq r) :
    r.step w ⟨List.replicate w.footerSize 1, true⟩ =
      let e : Received := .message (w.receivedHeader m.header) m.front m.middle m.data
      (({ r with io := untouched rest [] } : Receiver).log e).checkSeq w e := by
  let r₀ : Receiver :=
    { r with io := untouched (w.footerBytes m.footer ++ rest) (List.replicate w.footerSize 1) }
  have hpass : r₀.pass w true = r₀.readFooter w := by
    have hstate : r₀.state = .messageReadFooterAndDispatch := h.state
    rw [pass, hstate]
  have hread : r₀.readFooter w =
      ({ r with io := untouched rest [] } : Receiver).onFooter w (w.footerBytes m.footer) := by
    rw [Receiver.readFooter, ← length_footerBytes m.footer]
    apply readThen_ones (k := 0) (footerBytes_ne_nil _) (length_footerBytes_lt _)
    rw [length_footerBytes]
    rfl
  rw [step_untouched h.io]
  apply hpass.trans
  apply hread.trans
  exact onFooter_footerBytes h.currentHeader h.parts

end Receiver

section

open Receiver Inbound

variable {inSeq : UInt64} {frames : List (Frame w)} {r : Receiver}

/-- A message can be read up to its footer. -/
theorem reached_footer {m : MsgFrame w} {rest : Bytes}
    (hreached : (receiverMachine w inSeq (encodeAll frames)).Reached r)
    (hstate : r.state = .messageHeader)
    (hio : r.io = untouched (w.headerBytes (w.sentHeader m.header) ++ (body m ++ rest)) []) :
    ∃ r', (receiverMachine w inSeq (encodeAll frames)).Reached r' ∧
      BeforeFooter m rest r.inSeq r' := by
  have hheader : w.headerBytes (w.sentHeader m.header) ≠ [] := by
    apply List.ne_nil_of_length_pos
    rw [length_headerBytes]
    exact headerSize_pos
  have hlen : (w.headerBytes (w.sentHeader m.header)).length < 2 ^ 32 := by
    rw [length_headerBytes]
    exact lt_of_le_of_lt headerSize_le (by decide)
  let r₁ : Receiver :=
    { r with
      front := []
      middle := []
      data := []
      currentHeader := w.receivedHeader m.header
      state := .messageThrottleMessage
      io := untouched (body m ++ rest) [] }
  have hr₁ : r.step w ⟨List.replicate w.headerSize 1, true⟩ = r₁ := by
    rw [step_untouched hio, ← length_headerBytes (w.sentHeader m.header)]
    simp only [Receiver.pass, hstate]
    rw [← length_headerBytes (w.sentHeader m.header),
      readThen_ones (k := 0) hheader hlen rfl, onHeader, readHeader_headerBytes]
    rfl
  have hreached₁ : (receiverMachine w inSeq (encodeAll frames)).Reached r₁ :=
    hr₁ ▸ .step hreached trivial rfl
  let n := m.front.length + (m.middle.length + m.data.length)
  have hreached₂ : (receiverMachine w inSeq (encodeAll frames)).Reached
      { r₁ with state := .messageThrottleBytes } := .step (a := ⟨[], true⟩) hreached₁ trivial rfl
  have hreached₃ : (receiverMachine w inSeq (encodeAll frames)).Reached
      { r₁ with state := .messageThrottleDispatchQueue } := by
    refine .step (a := ⟨[], true⟩) hreached₂ trivial ?_
    simp [receiverMachine, step, Receiver.pass, throttle, r₁, untouched]
  have hreached₄ : (receiverMachine w inSeq (encodeAll frames)).Reached
      { r₁ with state := .messageReadFront } := by
    refine .step (a := ⟨[], true⟩) hreached₃ trivial ?_
    simp [receiverMachine, step, Receiver.pass, throttle, r₁, untouched]
  refine ⟨_, .step (a := ⟨List.replicate n 1, true⟩) hreached₄ trivial rfl, ?_⟩
  have hfront : BeforeFooter m rest r.inSeq
      (({ r₁ with
          state := .messageReadFront
          io := untouched (body m ++ rest) (List.replicate n 1) } : Receiver).readFront w) :=
    readFront_ones rfl rfl ⟨rfl, rfl, rfl⟩ rfl
  exact hfront

/-- The tag of a frame can be read. -/
theorem reached_tag {t : Tag} {more : Bytes}
    (hreached : (receiverMachine w inSeq (encodeAll frames)).Reached r) (hstate : r.state = .opened)
    (hio : r.io = untouched (w.tag t :: more) []) :
    (receiverMachine w inSeq (encodeAll frames)).Reached
      (({ r with io := untouched more [] } : Receiver).onTag w [w.tag t]) := by
  rw [← step_tag hstate hio]
  exact .step hreached trivial rfl

/-- What lies behind a tag can be read. -/
theorem reached_packed {α : Type} {c : Packed α} {a : α} {e : α → Received} (more : Bytes)
    (hreached : (receiverMachine w inSeq (encodeAll frames)).Reached r)
    (hio : r.io = untouched (c.bytes a ++ more) [])
    (hpass : ∀ io, ({ r with io := io } : Receiver).pass w true =
      ({ r with io := io } : Receiver).readThen w c.size fun r p =>
        { r.log (e (c.ofBytes p)) with state := .opened }) :
    (receiverMachine w inSeq (encodeAll frames)).Reached
      { r with
        io := untouched more []
        received := r.received ++ [e a]
        state := .opened } := by
  have hne : c.bytes a ≠ [] := by
    apply List.ne_nil_of_length_pos
    rw [c.length_bytes]
    exact c.size_pos
  have hlen : (c.bytes a).length < 2 ^ 32 := by
    rw [c.length_bytes]
    exact lt_of_le_of_lt c.size_le (by decide)
  have hread : r.step w ⟨List.replicate c.size 1, true⟩ =
      { r with
        io := untouched more []
        received := r.received ++ [e a]
        state := .opened } := by
    rw [step_untouched hio, hpass, ← c.length_bytes a, readThen_ones (k := 0) hne hlen rfl,
      c.ofBytes_bytes]
    rfl
  exact hread ▸ .step hreached trivial rfl

/-- A call whose only pass reads something and leaves the state as it was. -/
theorem not_callsDrain_of_stays {p : Pass}
    (hreached : (receiverMachine w inSeq (encodeAll frames)).Reached r) (hrunning : r.state.Running)
    (hstays : (r.step w p).state = r.state)
    (hreads : ({ r with io := { r.io with answers := p.answers } } : Receiver).blocked w p.granted =
      false) : ¬ CallsDrain w inSeq frames := by
  intro h
  have hlast : r.lastPass w [p] = some (r, p) := by
    simp only [lastPass, hstays, if_true]
  have hwaits := (h r hreached [p] r p hlast hrunning).waits
  rw [hreads] at hwaits
  cases hwaits

/-- A keepalive without a time is read into the state that it is read from. -/
theorem not_callsDrain_of_bare {more : Bytes}
    (hreached : (receiverMachine w inSeq (encodeAll frames)).Reached r) (hstate : r.state = .opened)
    (hio : r.io = untouched (w.tag .keepalive :: more) []) : ¬ CallsDrain w inSeq frames := by
  apply not_callsDrain_of_stays (p := ⟨[1], true⟩) hreached
  · rw [hstate]
    simp [State.Running]
  · rw [step_tag hstate hio, onTag_tag]
    rfl
  · have hlen : [w.tag .keepalive].length < 2 ^ 32 := Nat.one_lt_two_pow (by decide)
    simp only [blocked, hstate]
    apply not_starves_ones (p := [w.tag .keepalive]) (List.cons_ne_nil _ _) hlen
    rw [hio]
    rfl

/-- An old message is decoded in the state that the pass over its footer began in. -/
theorem not_callsDrain_of_old {m : MsgFrame w} {rest : Bytes} {seq : UInt64}
    (hreached : (receiverMachine w inSeq (encodeAll frames)).Reached r)
    (hfooter : BeforeFooter m rest seq r) (hold : m.header.seq ≤ seq)
    (hlives : ¬ (w.reconnectSeq && w.dieOnOldMessage) = true) : ¬ CallsDrain w inSeq frames := by
  apply not_callsDrain_of_stays (p := ⟨List.replicate w.footerSize 1, true⟩) hreached
  · rw [hfooter.state]
    simp [State.Running]
  · have hseq : r.currentHeader.seq ≤ r.inSeq := by
      rw [hfooter.currentHeader, envelope_receivedHeader, hfooter.inSeq]
      exact hold
    rw [hfooter.step]
    simp only [checkSeq, log, if_pos hseq, if_neg hlives]
  · have hio : ({ r.io with answers := List.replicate w.footerSize 1 } : Inbound) =
        untouched (w.footerBytes m.footer ++ rest) (List.replicate w.footerSize 1) := by
      rw [hfooter.io]
      rfl
    simp only [blocked, hfooter.state, hio]
    rw [← length_footerBytes m.footer]
    exact not_starves_ones (footerBytes_ne_nil _) (length_footerBytes_lt _) rfl

/-- Where every call drains its input, none of the frames in front of the receiver stalls. -/
theorem noneStalls_of_reached (h : CallsDrain w inSeq frames) {rest : List (Frame w)}
    (hreached : (receiverMachine w inSeq (encodeAll frames)).Reached r) (hstate : r.state = .opened)
    (hio : r.io = untouched (encodeAll rest) []) : NoneStalls r.inSeq rest := by
  induction rest generalizing r with
  | nil => trivial
  | cons f rest ih =>
      cases f with
      | ack seq =>
          have htag := reached_tag (t := .ack) hreached hstate hio
          simp only [onTag_tag] at htag
          have hframe := reached_packed (c := w.ackSeq) (a := seq) (e := .ack)
            (encodeAll rest) htag rfl fun _ => rfl
          have hnone := ih hframe rfl rfl
          exact hnone
      | keepaliveAck t =>
          have htag := reached_tag (t := .keepalive2Ack) hreached hstate hio
          simp only [onTag_tag] at htag
          have hframe := reached_packed (c := w.timespec) (a := w.encodeTimeval t)
            (e := fun ts => .keepalive2Ack (w.ofTimespec ts)) (encodeAll rest) htag rfl
            fun _ => rfl
          have hnone := ih hframe rfl rfl
          exact hnone
      | keepalive now =>
          cases hfeature : w.msgrKeepalive2 with
          | false =>
              have hbare : r.io = untouched (w.tag .keepalive :: encodeAll rest) [] := by
                rw [hio, encodeAll_cons]
                simp [encode, appendKeepaliveOrAck, hfeature]
              exact absurd h (not_callsDrain_of_bare hreached hstate hbare)
          | true =>
              have htimed : r.io = untouched (w.tag .keepalive2 ::
                  (w.timespec.bytes (w.encodeTimeval now) ++ encodeAll rest)) [] := by
                rw [hio, encodeAll_cons]
                simp [encode, appendKeepaliveOrAck, hfeature]
              have htag := reached_tag hreached hstate htimed
              simp only [onTag_tag] at htag
              have hframe := reached_packed (c := w.timespec) (a := w.encodeTimeval now)
                (e := fun ts => .keepalive2 (w.ofTimespec ts)) (encodeAll rest) htag rfl
                fun _ => rfl
              have hnone := ih hframe rfl rfl
              exact ⟨hfeature, hnone⟩
      | message m =>
          have hmessage : r.io = untouched (w.tag .msg ::
              (w.headerBytes (w.sentHeader m.header) ++ (body m ++ encodeAll rest))) [] := by
            rw [hio, encodeAll_cons]
            simp [encode, writeMessage]
          have htag := reached_tag hreached hstate hmessage
          simp only [onTag_tag] at htag
          obtain ⟨r', hreached', hfooter⟩ := reached_footer htag rfl rfl
          refine ⟨fun hold => ?_, fun htaken => ?_⟩
          · by_contra hlives
            exact not_callsDrain_of_old hreached' hfooter hold hlives h
          · have hseq : r'.currentHeader.seq = m.header.seq := by
              rw [hfooter.currentHeader, envelope_receivedHeader]
            have hinSeq : r'.inSeq = r.inSeq := hfooter.inSeq
            have hlast : (r'.step w ⟨List.replicate w.footerSize 1, true⟩).state = .opened ∧
                (r'.step w ⟨List.replicate w.footerSize 1, true⟩).io =
                  untouched (encodeAll rest) [] ∧
                (r'.step w ⟨List.replicate w.footerSize 1, true⟩).inSeq = m.header.seq := by
              rw [hfooter.step]
              simp only
              rw [checkSeq_of_taken _ (by simpa [log, hseq, hinSeq] using htaken)]
              exact ⟨rfl, rfl, hseq⟩
            obtain ⟨hopened, hio', hinSeq'⟩ := hlast
            rw [← hinSeq']
            exact ih (.step hreached' trivial rfl) hopened hio'

theorem noneStalls_of_callsDrain (h : CallsDrain w inSeq frames) : NoneStalls inSeq frames := by
  have hfresh := fresh_before inSeq (encodeAll frames)
  exact noneStalls_of_reached h (.start hfresh) rfl rfl

/-- **Draining**, exactly when no frame stalls. -/
theorem callsDrain_iff_noneStalls (w : Wire Addr) (inSeq : UInt64) (frames : List (Frame w)) :
    CallsDrain w inSeq frames ↔ NoneStalls inSeq frames :=
  ⟨noneStalls_of_callsDrain, callsDrain_of_noneStalls⟩

end

/-- The call that reads the footer of an old message returns in front of an acknowledgement. -/
theorem not_callsDrain_old :
    ¬ CallsDrain Layout.plainWire 5 [.message (Layout.twoBytes 3), .ack 9] := by
  intro h
  have hnone := noneStalls_of_callsDrain h
  exact absurd (hnone.1 (by decide)) (by decide)

end HwAsync.Framing
