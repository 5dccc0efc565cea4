/-
# The bytes of a message and its charge

Before a message is read, its three lengths are added up and asked of the throttlers.  The lengths
come from the peer and are 32 bits wide, and so is their sum, while the states that read the message
use each of them on its own.

What these states read and allocate is computed here from the header, and compared with the charge.
Then the receiver is shown to buffer no more than that, whatever bytes arrive.
-/

import HwAsync.Framing.Throttle
import Mathlib.Data.UInt

namespace HwAsync.Framing

open HwAsync.Lib

variable {Addr : Type}

/-! ## What a header makes the connection read -/

namespace Receiver

/-- The buffer of a part; an empty one has none. -/
def partLengths (len : ℕ) : List ℕ := if len = 0 then [] else [len]

/-- The reads of `STATE_OPEN_MESSAGE_READ_DATA` into buffers of these lengths. -/
def readLengths : ℕ → List ℕ → List ℕ
  | _, [] => []
  | msgLeft, n :: rest =>
      if msgLeft = 0 then [] else min n msgLeft :: readLengths (msgLeft - min n msgLeft) rest

/-- The new buffers of `STATE_OPEN_MESSAGE_READ_DATA_PREPARE`. -/
def newLengths (w : Wire Addr) (h : Header) : List ℕ :=
  let dataLen := h.dataLen.toNat
  if dataLen = 0 then []
  else
    match w.rxBuffers h.tid with
    | some posted => if posted.1.sum < dataLen then [dataLen - posted.1.sum] else []
    | none => alignedLengths w.pageSize dataLen h.dataOff.toNat

/-- What the three states read of a message. -/
def payload (w : Wire Addr) (h : Header) : List ℕ :=
  partLengths h.frontLen.toNat ++ partLengths h.middleLen.toNat ++
    readLengths h.dataLen.toNat (dataLengths w h)

/-- The buffers that they allocate for it. -/
def allocated (w : Wire Addr) (h : Header) : List ℕ :=
  partLengths h.frontLen.toNat ++ partLengths h.middleLen.toNat ++ newLengths w h

/-- The sum of the three lengths. -/
def lengths (h : Header) : ℕ := h.frontLen.toNat + h.middleLen.toNat + h.dataLen.toNat

theorem sum_partLengths (len : ℕ) : (partLengths len).sum = len := by
  unfold partLengths
  split
  · rename_i hzero
    exact hzero.symm
  · exact List.sum_singleton

/-- Buffers that take all of the data are read into until it is there. -/
theorem sum_readLengths {msgLeft : ℕ} {buffers : List ℕ} (h : msgLeft ≤ buffers.sum) :
    (readLengths msgLeft buffers).sum = msgLeft := by
  induction buffers generalizing msgLeft with
  | nil => exact (Nat.le_zero.mp h).symm
  | cons n rest ih =>
      rw [readLengths]
      split
      · rename_i hzero
        exact hzero.symm
      · rw [List.sum_cons] at h
        rw [List.sum_cons, ih (by omega)]
        omega

theorem sum_payload (w : Wire Addr) (h : Header) : (payload w h).sum = lengths h := by
  rw [payload, List.sum_append, List.sum_append, sum_partLengths, sum_partLengths,
    sum_readLengths (dataLengths_spec h).2, lengths]

theorem sum_newLengths_le (w : Wire Addr) (h : Header) :
    (newLengths w h).sum ≤ h.dataLen.toNat := by
  simp only [newLengths]
  split
  · exact Nat.zero_le _
  · rename_i hlen
    split
    · split
      · rw [List.sum_singleton]
        exact Nat.sub_le _ _
      · exact Nat.zero_le _
    · exact (alignedLengths_spec w.pageSize_pos (Nat.pos_of_ne_zero hlen)).2.le

/-- No more is allocated than is read. -/
theorem sum_allocated_le (w : Wire Addr) (h : Header) :
    (allocated w h).sum ≤ (payload w h).sum := by
  rw [sum_payload, allocated, List.sum_append, List.sum_append, sum_partLengths, sum_partLengths,
    lengths]
  exact Nat.add_le_add_left (sum_newLengths_le w h) _

/-- `cur_msg_size` is the sum that is left in 32 bits. -/
theorem toNat_curMsgSize (h : Header) : (curMsgSize h).toNat = lengths h % 2 ^ 32 := by
  rw [curMsgSize, UInt32.toNat_add, UInt32.toNat_add, Nat.mod_add_mod, lengths]

end Receiver

/-! ## The charge -/

/-- What the throttlers are asked for covers what is read and allocated: the one of the dispatch
queue, and the one of the policy if there is one. -/
structure Policy.Covers (policy : Policy) (w : Wire Addr) (h : Header) : Prop where
  dispatch : ∀ total ∈ [(Receiver.payload w h).sum, (Receiver.allocated w h).sum],
    total ≤ policy.charge (Receiver.curMsgSize h).toNat .dispatch
  bytes : policy.throttlerBytes = true →
    ∀ total ∈ [(Receiver.payload w h).sum, (Receiver.allocated w h).sum],
      total ≤ policy.charge (Receiver.curMsgSize h).toNat .bytes

/-- **The charge of a message.**  It covers the message exactly if the sum of the three lengths fits
in 32 bits. -/
theorem covers_iff (policy : Policy) (w : Wire Addr) (h : Header) :
    policy.Covers w h ↔
      h.frontLen.toNat + h.middleLen.toNat + h.dataLen.toNat < 2 ^ 32 := by
  have hpayload := Receiver.sum_payload w h
  have hallocated := Receiver.sum_allocated_le w h
  have hsize := Receiver.toNat_curMsgSize h
  constructor
  · intro hcovers
    have hle : Receiver.lengths h ≤ (Receiver.curMsgSize h).toNat :=
      hpayload ▸ hcovers.dispatch _ List.mem_cons_self
    exact lt_of_le_of_lt hle (Receiver.curMsgSize h).toNat_lt
  · intro hfits
    have hexact : (Receiver.curMsgSize h).toNat = Receiver.lengths h :=
      hsize.trans (Nat.mod_eq_of_lt hfits)
    have hall : ∀ total ∈ [(Receiver.payload w h).sum, (Receiver.allocated w h).sum],
        total ≤ (Receiver.curMsgSize h).toNat := by
      intro total hmem
      rw [hexact, ← hpayload]
      rcases List.mem_pair.mp hmem with rfl | rfl
      · exact le_rfl
      · exact hallocated
    exact ⟨hall, fun hbytes total hmem => by
      rw [Policy.charge, if_pos hbytes]
      exact hall total hmem⟩

/-- Two parts of two gigabytes each are charged nothing. -/
theorem not_covers_wrapped :
    ¬ ThrottleRun.bothThrottlers.Covers Layout.plainWire
      ⟨⟨1, 0, 41, 127, 0, 2 ^ 31, 2 ^ 31, 0, 0⟩, ⟨4, 0⟩, 0, 0, 0⟩ := by
  intro hcovers
  have hle := hcovers.dispatch _ List.mem_cons_self
  rw [Receiver.sum_payload] at hle
  exact absurd hle (by decide)

/-! ## What is buffered -/

namespace Receiver

/-- The bytes of the message in hand that are in memory. -/
def buffered (r : Receiver) : ℕ :=
  r.front.length + r.middle.length + r.data.length +
    if r.state = .messageReadFooterAndDispatch then 0 else r.io.dest.length

/-- The lengths of the reads between messages. -/
def tagLength (w : Wire Addr) : State → ℕ
  | .opened => 1
  | .openKeepalive2 | .openKeepalive2Ack => w.timespec.size
  | .openTagAck => w.ackSeq.size
  | .messageHeader => w.headerSize
  | _ => 0

/-- What the receiver has of a message in each state. -/
inductive Stage (w : Wire Addr) (r : Receiver) : Prop
  | between (hstate : ¬ r.state.Reading ∧ ¬ r.state.Throttling) (hready : r.io.Ready)
      (hdest : r.io.dest ≠ [] → r.io.dest.length < tagLength w r.state)
  | throttle (hstate : r.state.Throttling) (hready : r.io.Ready)
      (hparts : r.front = [] ∧ r.middle = [] ∧ r.data = []) (hdest : r.io.dest = [])
  | front (hstate : r.state = .messageReadFront) (hready : r.io.Ready)
      (hparts : r.front = [] ∧ r.middle = [] ∧ r.data = [])
      (hdest : r.io.dest ≠ [] → r.io.dest.length < r.currentHeader.frontLen.toNat)
  | middle (hstate : r.state = .messageReadMiddle) (hready : r.io.Ready)
      (hfront : r.front.length = r.currentHeader.frontLen.toNat)
      (hparts : r.middle = [] ∧ r.data = [])
      (hdest : r.io.dest ≠ [] → r.io.dest.length < r.currentHeader.middleLen.toNat)
  | prepare (hstate : r.state = .messageReadDataPrepare) (hready : r.io.Ready)
      (hfront : r.front.length = r.currentHeader.frontLen.toNat)
      (hmiddle : r.middle.length = r.currentHeader.middleLen.toNat) (hdata : r.data = [])
      (hdest : r.io.dest = [])
  | data (hstate : r.state = .messageReadData) (hready : r.io.Ready)
      (hfront : r.front.length = r.currentHeader.frontLen.toNat)
      (hmiddle : r.middle.length = r.currentHeader.middleLen.toNat)
      (hdata : r.data.length + r.msgLeft = r.currentHeader.dataLen.toNat)
      (hpos : ∀ n ∈ r.dataBlp, 0 < n)
      (hdest : r.io.dest ≠ [] →
        ∃ n more, r.dataBlp = n :: more ∧ r.io.dest.length < min n r.msgLeft)
  | footer (hstate : r.state = .messageReadFooterAndDispatch) (hready : r.io.Ready)
      (hfront : r.front.length = r.currentHeader.frontLen.toNat)
      (hmiddle : r.middle.length = r.currentHeader.middleLen.toNat)
      (hdata : r.data.length = r.currentHeader.dataLen.toNat)
      (hdest : r.io.dest ≠ [] → r.io.dest.length < w.footerSize)
  | closed (hstate : r.state = .faulted ∨ r.state = .stopped ∨ r.state = .aborted)

variable {w : Wire Addr} {r : Receiver}

/-- Inside of a message no more is buffered than its three lengths say. -/
theorem Stage.buffered_le (h : r.Stage w) (hreading : r.state.Reading) :
    r.buffered ≤ lengths r.currentHeader := by
  have hdestLe : ∀ {n : ℕ}, (r.io.dest ≠ [] → r.io.dest.length < n) → r.io.dest.length ≤ n := by
    intro n hshort
    by_cases hempty : r.io.dest = []
    · simp [hempty]
    · exact (hshort hempty).le
  unfold buffered lengths
  cases h with
  | between hstate => exact absurd hreading hstate.1
  | throttle hstate =>
      obtain ⟨-, hlt⟩ := hstate
      exact absurd hreading.1 (Nat.not_le.mpr hlt)
  | front hstate hready hparts hdest =>
      have hle := hdestLe hdest
      obtain ⟨hfront, hmiddle, hdata⟩ := hparts
      simp only [hstate, hfront, hmiddle, hdata, List.length_nil, reduceCtorEq, if_false]
      omega
  | middle hstate hready hfront hparts hdest =>
      have hle := hdestLe hdest
      obtain ⟨hmiddle, hdata⟩ := hparts
      simp only [hstate, hfront, hmiddle, hdata, List.length_nil, reduceCtorEq, if_false]
      omega
  | prepare hstate hready hfront hmiddle hdata hdest =>
      simp only [hstate, hfront, hmiddle, hdata, hdest, List.length_nil, reduceCtorEq, if_false]
      omega
  | data hstate hready hfront hmiddle hdata hpos hdest =>
      have hle : r.io.dest.length ≤ r.msgLeft := by
        apply hdestLe
        intro hne
        obtain ⟨n, more, -, hlt⟩ := hdest hne
        exact hlt.trans_le (min_le_right _ _)
      simp only [hstate, hfront, hmiddle, reduceCtorEq, if_false]
      omega
  | footer hstate hready hfront hmiddle hdata hdest =>
      simp only [hstate, hfront, hmiddle, hdata, if_true]
      omega
  | closed hstate =>
      rcases hstate with h | h | h <;> rw [h] at hreading <;> exact absurd hreading (by decide)

/-- A read that goes on in the same state or completes. -/
theorem readThen_stage {len : ℕ} {next : Receiver → Bytes → Receiver} (hready : r.io.Ready)
    (hpos : 0 < len) (hlen : len < 2 ^ 32) (hdest : r.io.dest ≠ [] → r.io.dest.length < len)
    (hagain : ∀ io, io.Ready → io.dest.length < len → Stage w { r with io := io })
    (hnext : ∀ io p, io.Ready → io.dest = [] → p.length = len →
      Stage w (next { r with io := io } p)) :
    Stage w (r.readThen w len next) := by
  have hshort : r.io.dest.length < len := by
    by_cases hempty : r.io.dest = []
    · rw [hempty]
      exact hpos
    · exact hdest hempty
  have houtcome := Inbound.readUntil_spec hready hshort hlen w.recvMaxPrefetch_lt
  unfold readThen
  generalize r.io.readUntil w.recvMaxPrefetch len = out at houtcome
  cases houtcome with
  | @complete p io hlength hconserved hdest' hoffset hgenerous =>
      exact hnext io p ⟨by rw [hoffset, hdest']; rfl, fun h => absurd hdest' h⟩ hdest' hlength
  | @again io hready' hconserved hshort' hgenerous => exact hagain io hready' hshort'

/-- In front of a tag nothing is in the way. -/
theorem Stage.opened (hstate : r.state = .opened) (hready : r.io.Ready) (hdest : r.io.dest = []) :
    Stage w r :=
  .between (by rw [hstate]; decide) hready fun hne => absurd hdest hne

theorem onFooter_stage (p : Bytes) (hstate : r.state = .messageReadFooterAndDispatch)
    (hready : r.io.Ready) (hfront : r.front.length = r.currentHeader.frontLen.toNat)
    (hmiddle : r.middle.length = r.currentHeader.middleLen.toNat)
    (hdata : r.data.length = r.currentHeader.dataLen.toNat) (hdest : r.io.dest = []) :
    Stage w (r.onFooter w p) := by
  unfold onFooter
  dsimp only
  split
  · exact .closed (.inl rfl)
  · split
    · exact .closed (.inl rfl)
    · unfold checkSeq
      dsimp only
      split
      · split
        · exact .closed (.inr (.inr rfl))
        · -- an old message leaves its parts where they are
          exact .footer hstate hready hfront hmiddle hdata fun hne => absurd hdest hne
      · split
        · exact .closed (.inr (.inr rfl))
        · exact .opened rfl hready hdest

theorem readFooter_stage (hstate : r.state = .messageReadFooterAndDispatch) (hready : r.io.Ready)
    (hfront : r.front.length = r.currentHeader.frontLen.toNat)
    (hmiddle : r.middle.length = r.currentHeader.middleLen.toNat)
    (hdata : r.data.length = r.currentHeader.dataLen.toNat)
    (hdest : r.io.dest ≠ [] → r.io.dest.length < w.footerSize) : Stage w (r.readFooter w) := by
  have hsize : w.footerSize < 2 ^ 32 := lt_of_le_of_lt Wire.footerSize_le (by decide)
  apply readThen_stage hready Wire.footerSize_pos hsize hdest
  · intro io hready' hshort
    exact .footer hstate hready' hfront hmiddle hdata fun _ => hshort
  · intro io p hready' hdest' hlength
    exact onFooter_stage p hstate hready' hfront hmiddle hdata hdest'

/-- The loop over the data keeps what the stage says, over the buffers that are left. -/
theorem dataLoop_stage {buffers : List ℕ} (hstate : r.state = .messageReadData)
    (hready : r.io.Ready) (hfront : r.front.length = r.currentHeader.frontLen.toNat)
    (hmiddle : r.middle.length = r.currentHeader.middleLen.toNat)
    (hdata : r.data.length + r.msgLeft = r.currentHeader.dataLen.toNat)
    (hpos : ∀ n ∈ buffers, 0 < n)
    (hdest : r.io.dest ≠ [] → ∃ n more, buffers = n :: more ∧ r.io.dest.length < min n r.msgLeft) :
    Stage w (r.dataLoop w buffers) ∧
      ((r.dataLoop w buffers).state = .aborted ∨
        (r.dataLoop w buffers).state = .messageReadData) := by
  induction buffers generalizing r with
  | nil =>
      have hempty : r.io.dest = [] := by
        by_contra hne
        obtain ⟨n, more, hnil, -⟩ := hdest hne
        exact List.cons_ne_nil n more hnil.symm
      rw [dataLoop]
      split
      · exact ⟨.data hstate hready hfront hmiddle hdata (fun n hn => absurd hn List.not_mem_nil)
          fun hne => absurd hempty hne, .inr hstate⟩
      · exact ⟨.closed (.inr (.inr rfl)), .inl rfl⟩
  | cons n rest ih =>
      rw [dataLoop]
      split
      · exact ⟨.data hstate hready hfront hmiddle hdata hpos hdest, .inr hstate⟩
      · rename_i hleft
        have hn : 0 < n := hpos n List.mem_cons_self
        have hlt : r.currentHeader.dataLen.toNat < 2 ^ 32 := r.currentHeader.dataLen.toNat_lt
        have hshort : r.io.dest.length < min n r.msgLeft := by
          by_cases hempty : r.io.dest = []
          · rw [hempty]
            exact lt_min hn (Nat.pos_of_ne_zero hleft)
          · obtain ⟨n', more, heq, hlt⟩ := hdest hempty
            cases heq
            exact hlt
        have houtcome :=
          Inbound.readUntil_spec hready hshort (by omega) w.recvMaxPrefetch_lt
        dsimp only
        generalize r.io.readUntil w.recvMaxPrefetch (min n r.msgLeft) = out at houtcome
        cases houtcome with
        | @complete p io hlength hconserved hdest' hoffset hgenerous =>
            have hready' : io.Ready := ⟨by rw [hoffset, hdest']; rfl, fun h => absurd hdest' h⟩
            have hdata' : (r.data ++ p).length + (r.msgLeft - min n r.msgLeft) =
                r.currentHeader.dataLen.toNat := by
              rw [List.length_append, hlength]
              omega
            exact @ih { r with
                io := io, data := r.data ++ p, msgLeft := r.msgLeft - min n r.msgLeft }
              hstate hready' hfront hmiddle hdata'
              (fun k hk => hpos k (List.mem_cons_of_mem _ hk)) fun hne => absurd hdest' hne
        | @again io hready' hconserved hshort' hgenerous =>
            exact ⟨.data hstate hready' hfront hmiddle hdata hpos fun _ => ⟨n, rest, rfl, hshort'⟩,
              .inr hstate⟩

theorem readData_stage (hstate : r.state = .messageReadData) (h : Stage w r) :
    Stage w (r.readData w) := by
  have hloop : Stage w (r.dataLoop w r.dataBlp) ∧
      ((r.dataLoop w r.dataBlp).state = .aborted ∨
        (r.dataLoop w r.dataBlp).state = .messageReadData) := by
    cases h with
    | data _ hready hfront hmiddle hdata hpos hdest =>
        exact dataLoop_stage hstate hready hfront hmiddle hdata hpos hdest
    | between hother => exact absurd (by rw [hstate]; decide) hother.1
    | throttle hother => exact absurd (hstate ▸ hother) (by decide)
    | closed hother =>
        rcases hother with h | h | h <;> exact absurd (hstate.symm.trans h) (by decide)
    | front hother | middle hother | prepare hother | footer hother =>
        exact absurd (hstate.symm.trans hother) (by decide)
  obtain ⟨hstage, hkept⟩ := hloop
  unfold readData
  dsimp only
  split
  · exact hstage
  · rename_i hdone
    rw [not_or, Nat.not_lt, Nat.le_zero] at hdone
    obtain ⟨halive, hleft⟩ := hdone
    have hstate' := hkept.resolve_left halive
    generalize r.dataLoop w r.dataBlp = r' at hstage hstate' hleft
    cases hstage with
    | data _ hready hfront hmiddle hdata hpos hdest =>
        refine readFooter_stage rfl hready hfront hmiddle ?_ ?_
        · rw [hleft, Nat.add_zero] at hdata
          exact hdata
        · intro hne
          obtain ⟨n, more, -, hlt⟩ := hdest hne
          rw [hleft, Nat.min_zero] at hlt
          exact absurd hlt (Nat.not_lt_zero _)
    | between hother => exact absurd (by rw [hstate']; decide) hother.1
    | throttle hother => exact absurd (hstate' ▸ hother) (by decide)
    | closed hother =>
        rcases hother with h | h | h <;> exact absurd (hstate'.symm.trans h) (by decide)
    | front hother | middle hother | prepare hother | footer hother =>
        exact absurd (hstate'.symm.trans hother) (by decide)

theorem prepareData_stage (hready : r.io.Ready)
    (hfront : r.front.length = r.currentHeader.frontLen.toNat)
    (hmiddle : r.middle.length = r.currentHeader.middleLen.toNat) (hdata : r.data = [])
    (hdest : r.io.dest = []) : Stage w (r.prepareData w) := by
  apply readData_stage rfl
  refine .data rfl hready hfront hmiddle ?_ (dataLengths_spec r.currentHeader).1
    fun hne => absurd hdest hne
  show r.data.length + r.currentHeader.dataLen.toNat = _
  rw [hdata, List.length_nil, Nat.zero_add]

theorem readMiddle_stage (hstate : r.state = .messageReadMiddle) (hready : r.io.Ready)
    (hfront : r.front.length = r.currentHeader.frontLen.toNat)
    (hparts : r.middle = [] ∧ r.data = [])
    (hdest : r.io.dest ≠ [] → r.io.dest.length < r.currentHeader.middleLen.toNat) :
    Stage w (r.readMiddle w) := by
  obtain ⟨hmiddle, hdata⟩ := hparts
  unfold readMiddle readPart
  split
  · rename_i hzero
    have hempty : r.io.dest = [] := by
      by_contra hne
      exact absurd (hzero ▸ hdest hne) (Nat.not_lt_zero _)
    exact prepareData_stage hready hfront (by rw [hmiddle, hzero]; rfl) hdata hempty
  · rename_i hpos
    apply readThen_stage hready (Nat.pos_of_ne_zero hpos) r.currentHeader.middleLen.toNat_lt hdest
    · intro io hready' hshort
      exact .middle hstate hready' hfront ⟨hmiddle, hdata⟩ fun _ => hshort
    · intro io p hready' hdest' hlength
      exact prepareData_stage hready' hfront hlength hdata hdest'

theorem readFront_stage (hstate : r.state = .messageReadFront) (hready : r.io.Ready)
    (hparts : r.front = [] ∧ r.middle = [] ∧ r.data = [])
    (hdest : r.io.dest ≠ [] → r.io.dest.length < r.currentHeader.frontLen.toNat) :
    Stage w (r.readFront w) := by
  obtain ⟨hfront, hrest⟩ := hparts
  unfold readFront readPart
  split
  · rename_i hzero
    have hempty : r.io.dest = [] := by
      by_contra hne
      exact absurd (hzero ▸ hdest hne) (Nat.not_lt_zero _)
    exact readMiddle_stage rfl hready (by rw [hfront, hzero]; rfl) hrest
      fun hne => absurd hempty hne
  · rename_i hpos
    apply readThen_stage hready (Nat.pos_of_ne_zero hpos) r.currentHeader.frontLen.toNat_lt hdest
    · intro io hready' hshort
      exact .front hstate hready' ⟨hfront, hrest⟩ fun _ => hshort
    · intro io p hready' hdest' hlength
      exact readMiddle_stage rfl hready' hlength hrest fun hne => absurd hdest' hne

/-- A read between messages, with what is behind it. -/
theorem between_stage (next : Receiver → Bytes → Receiver) (hready : r.io.Ready)
    (hstate : ¬ r.state.Reading ∧ ¬ r.state.Throttling)
    (hdest : r.io.dest ≠ [] → r.io.dest.length < tagLength w r.state)
    (hpos : 0 < tagLength w r.state) (hlen : tagLength w r.state < 2 ^ 32)
    (hnext : ∀ io p, io.Ready → io.dest = [] → Stage w (next { r with io := io } p)) :
    Stage w (r.readThen w (tagLength w r.state) next) :=
  readThen_stage hready hpos hlen hdest
    (fun _ hready' hshort => .between hstate hready' fun _ => hshort)
    fun io p hready' hdest' _ => hnext io p hready' hdest'

theorem onTag_stage (p : Bytes) (hstate : r.state = .opened) (hready : r.io.Ready)
    (hdest : r.io.dest = []) : Stage w (r.onTag w p) := by
  unfold onTag
  split_ifs
  · exact .opened hstate hready hdest
  · exact .between (by dsimp only; decide) hready fun hne => absurd hdest hne
  · exact .between (by dsimp only; decide) hready fun hne => absurd hdest hne
  · exact .between (by dsimp only; decide) hready fun hne => absurd hdest hne
  · exact .between (by dsimp only; decide) hready fun hne => absurd hdest hne
  · exact .between (by dsimp only; decide) hready fun hne => absurd hdest hne
  · exact .closed (.inl rfl)

theorem onHeader_stage (p : Bytes) (hready : r.io.Ready) (hdest : r.io.dest = []) :
    Stage w (r.onHeader w p) := by
  unfold onHeader
  split
  · exact .closed (.inl rfl)
  · exact .throttle (by dsimp only; decide) hready ⟨rfl, rfl, rfl⟩ hdest

theorem throttle_stage {asked granted : Bool} {next : State} (hstate : r.state.Throttling)
    (hready : r.io.Ready) (hparts : r.front = [] ∧ r.middle = [] ∧ r.data = [])
    (hdest : r.io.dest = []) (hnext : next.Throttling ∨ next = .messageReadFront) :
    Stage w (r.throttle asked granted next) := by
  unfold throttle
  split
  · exact .throttle hstate hready hparts hdest
  · rcases hnext with hnext | rfl
    · exact .throttle hnext hready hparts hdest
    · exact .front rfl hready hparts fun hne => absurd hdest hne

theorem tagLength_lt (s : State) : tagLength w s < 2 ^ 32 := by
  have hsmall : ∀ {n : ℕ}, n ≤ 4096 → n < 2 ^ 32 := fun h => lt_of_le_of_lt h (by decide)
  cases s with
  | openKeepalive2 | openKeepalive2Ack => exact hsmall w.timespec.size_le
  | openTagAck => exact hsmall w.ackSeq.size_le
  | messageHeader => exact hsmall Wire.headerSize_le
  | opened => exact (by decide : 1 < 2 ^ 32)
  | _ => exact (by decide : 0 < 2 ^ 32)

/-- **The step lemma.**  A pass keeps what the stages say. -/
theorem Stage.pass (h : Stage w r) (granted : Bool) : Stage w (r.pass w granted) := by
  unfold Receiver.pass
  cases h with
  | between hstate hready hdest =>
      have hlen := tagLength_lt (w := w) r.state
      cases hr : r.state with
      | opened =>
          have h := between_stage (onTag w) hready hstate hdest
            (by rw [hr]; exact Nat.one_pos) hlen
            fun io p hready' hdest' => onTag_stage p hr hready' hdest'
          rwa [hr] at h
      | openKeepalive2 =>
          have h := between_stage (w := w)
            (fun r p =>
              { r.log (.keepalive2 (w.ofTimespec (w.timespec.ofBytes p))) with state := .opened })
            hready hstate hdest (by rw [hr]; exact w.timespec.size_pos) hlen
            fun io p hready' hdest' => .opened rfl hready' hdest'
          rwa [hr] at h
      | openKeepalive2Ack =>
          have h := between_stage (w := w)
            (fun r p =>
              { r.log (.keepalive2Ack (w.ofTimespec (w.timespec.ofBytes p))) with
                state := .opened })
            hready hstate hdest (by rw [hr]; exact w.timespec.size_pos) hlen
            fun io p hready' hdest' => .opened rfl hready' hdest'
          rwa [hr] at h
      | openTagAck =>
          have h := between_stage (w := w)
            (fun r p => { r.log (.ack (w.ackSeq.ofBytes p)) with state := .opened })
            hready hstate hdest (by rw [hr]; exact w.ackSeq.size_pos) hlen
            fun io p hready' hdest' => .opened rfl hready' hdest'
          rwa [hr] at h
      | messageHeader =>
          have h := between_stage (onHeader w) hready hstate hdest
            (by rw [hr]; exact Wire.headerSize_pos) hlen
            fun io p hready' hdest' => onHeader_stage p hready' hdest'
          rwa [hr] at h
      | tagClose => exact .closed (.inr (.inl rfl))
      | faulted | stopped | aborted => exact .between hstate hready hdest
      | _ => rw [hr] at hstate; exact absurd hstate (by decide)
  | throttle hstate hready hparts hdest =>
      cases hr : r.state with
      | messageThrottleMessage =>
          exact throttle_stage hstate hready hparts hdest (.inl (by decide))
      | messageThrottleBytes =>
          exact throttle_stage hstate hready hparts hdest (.inl (by decide))
      | messageThrottleDispatchQueue =>
          exact throttle_stage hstate hready hparts hdest (.inr rfl)
      | _ => rw [hr] at hstate; exact absurd hstate (by decide)
  | front hstate hready hparts hdest =>
      rw [hstate]
      exact readFront_stage hstate hready hparts hdest
  | middle hstate hready hfront hparts hdest =>
      rw [hstate]
      exact readMiddle_stage hstate hready hfront hparts hdest
  | prepare hstate hready hfront hmiddle hdata hdest =>
      rw [hstate]
      exact prepareData_stage hready hfront hmiddle hdata hdest
  | data hstate hready hfront hmiddle hdata hpos hdest =>
      rw [hstate]
      exact readData_stage hstate (.data hstate hready hfront hmiddle hdata hpos hdest)
  | footer hstate hready hfront hmiddle hdata hdest =>
      rw [hstate]
      exact readFooter_stage hstate hready hfront hmiddle hdata hdest
  | closed hstate =>
      have hover : Stage w r := .closed hstate
      rcases hstate with hr | hr | hr <;> rw [hr] <;> exact hover

/-- The socket may have other answers for the next reads. -/
theorem Stage.answers (h : Stage w r) (answers : List ℕ) :
    Stage w { r with io := { r.io with answers := answers } } := by
  have hsame : r.io.Ready → Inbound.Ready { r.io with answers := answers } :=
    fun hready => ⟨hready.stateOffset, hready.recvBuf⟩
  cases h with
  | between hstate hready hdest => exact .between hstate (hsame hready) hdest
  | throttle hstate hready hparts hdest => exact .throttle hstate (hsame hready) hparts hdest
  | front hstate hready hparts hdest => exact .front hstate (hsame hready) hparts hdest
  | middle hstate hready hfront hparts hdest =>
      exact .middle hstate (hsame hready) hfront hparts hdest
  | prepare hstate hready hfront hmiddle hdata hdest =>
      exact .prepare hstate (hsame hready) hfront hmiddle hdata hdest
  | data hstate hready hfront hmiddle hdata hpos hdest =>
      exact .data hstate (hsame hready) hfront hmiddle hdata hpos hdest
  | footer hstate hready hfront hmiddle hdata hdest =>
      exact .footer hstate (hsame hready) hfront hmiddle hdata hdest
  | closed hstate => exact .closed hstate

theorem stage_before (w : Wire Addr) (inSeq : UInt64) (stream : Bytes) :
    Stage w (.before inSeq stream) := .opened rfl ⟨rfl, fun _ => rfl⟩ rfl

end Receiver

/-! ## The runs -/

namespace ThrottleRun

variable {w : Wire Addr} {policy : Policy} {r t : ThrottleRun}

theorem stage_step {a : ThrottleAction} (h : r.receiver.Stage w)
    (hstep : r.step w policy a = some t) : t.receiver.Stage w := by
  simp only [ThrottleRun.step] at hstep
  split at hstep
  · cases hstep
  · cases a with
    | pass p =>
        obtain rfl := Option.some.inj hstep
        exact (h.answers p.answers).pass _
    | fault | replace =>
        obtain ⟨-, hnext⟩ := Option.ite_none_left_eq_some.mp hstep
        obtain rfl := Option.some.inj hnext
        exact .closed (.inl rfl)
    | stop =>
        obtain ⟨-, hnext⟩ := Option.ite_none_left_eq_some.mp hstep
        obtain rfl := Option.some.inj hnext
        exact .closed (.inr (.inl rfl))
    | reopen inSeq stream =>
        obtain ⟨-, hnext⟩ := Option.ite_none_right_eq_some.mp hstep
        obtain rfl := Option.some.inj hnext
        exact Receiver.stage_before w inSeq stream
    | leaveQueue i | destroy i =>
        simp only at hstep
        split at hstep
        · cases hstep
        · obtain rfl := Option.some.inj hstep
          exact h

/-- The budgets over a connection that begins in front of a stream. -/
def streamMachine (w : Wire Addr) (policy : Policy) : Machine ThrottleRun ThrottleAction where
  start r := ∃ inSeq stream, r.receiver = .before inSeq stream
  step := step w policy

/-- The run lemma. -/
theorem stage_of_reached (hreached : (streamMachine w policy).Reached r) : r.receiver.Stage w := by
  apply hreached.invariant fun r => r.receiver.Stage w
  · rintro r ⟨inSeq, stream, hbefore⟩
    rw [hbefore]
    exact Receiver.stage_before w inSeq stream
  · exact fun r a t h _ hstep => stage_step h hstep

/-- **The memory of a message.**  In every run over any stream, a connection inside of a message
has no more of it than the states read, and a charge that covers the message covers that. -/
theorem buffered_le_of_reached (hreached : (streamMachine w policy).Reached r)
    (hreading : r.receiver.state.Reading) :
    r.receiver.buffered ≤ (Receiver.payload w r.receiver.currentHeader).sum ∧
      (policy.Covers w r.receiver.currentHeader →
        r.receiver.buffered ≤ r.receiver.charge policy .dispatch) := by
  have hle : r.receiver.buffered ≤ (Receiver.payload w r.receiver.currentHeader).sum := by
    rw [Receiver.sum_payload]
    exact (stage_of_reached hreached).buffered_le hreading
  exact ⟨hle, fun hcovers => hle.trans (hcovers.dispatch _ List.mem_cons_self)⟩

end ThrottleRun

end HwAsync.Framing
