/-
# A stream that is still being written

The receivers of `Framing.Process` stand in front of everything that is ever said to them.  On a
socket more arrives while they read.  What a receiver does with a part of a stream is what it would
do in front of the whole of it if the socket answered its reads with no more than that part: so
whatever holds of every run in front of the whole stream holds here.
-/

import HwAsync.Framing.Pass
import HwAsync.Framing.Sync

namespace HwAsync.Framing

/-! ## Reads -/

namespace Inbound

/-- The same reader, with `rest` in the socket as well, which answers as `answers` say. -/
def extend (io : Inbound) (rest : Bytes) (answers : List ℕ) : Inbound :=
  { io with socket := io.socket ++ rest, answers := answers }

@[simp] theorem extend_dest (io : Inbound) (rest : Bytes) (answers : List ℕ) :
    (io.extend rest answers).dest = io.dest := rfl

theorem unread_extend (io : Inbound) (rest : Bytes) (answers : List ℕ) :
    (io.extend rest answers).unread = io.unread ++ rest := by
  simp [extend, unread]

theorem Ready.extend {io : Inbound} (h : io.Ready) (rest : Bytes) (answers : List ℕ) :
    (io.extend rest answers).Ready := ⟨h.stateOffset, h.recvBuf⟩

variable {prefetch len left offset : ℕ} {dest recvBuf socket rest : Bytes} {answers : List ℕ}

/-- A longer socket may return as little as a shorter one. -/
theorem take_extend (k n : ℕ) (socket rest : Bytes) :
    (socket ++ rest).take (min (min k socket.length) n) = socket.take (min k n) := by
  rw [List.take_append_of_le_length (by omega), List.take_eq_take_iff]
  omega

theorem drop_extend (k : ℕ) (socket rest : Bytes) :
    (socket ++ rest).drop (socket.take k).length = socket.drop (socket.take k).length ++ rest := by
  apply List.drop_append_of_le_length
  rw [List.length_take]
  omega

/-- The answers of the longer socket are those of the shorter one, cut to what that has; further
ones are left over if the loop has all that it wants. -/
theorem bulkLoop_extend (left : ℕ) (dest : Bytes) (offset : ℕ) (socket rest : Bytes)
    (answers : List ℕ) : ∃ asked, ∀ more,
      ((bulkLoop left dest offset socket answers).1 = true ∨ more = []) →
        bulkLoop left dest offset (socket ++ rest) (asked ++ more) =
          ((bulkLoop left dest offset socket answers).1,
            (bulkLoop left dest offset socket answers).2.extend rest more) := by
  induction answers generalizing left dest offset socket with
  | nil =>
      refine ⟨[], fun more hmore => ?_⟩
      obtain rfl : more = [] := hmore.resolve_left Bool.false_ne_true
      rfl
  | cons k answers ih =>
      by_cases hall : ((socket.take (min k (min left intMax))).length : ℤ) = castInt left
      · refine ⟨[min k socket.length], fun more _ => ?_⟩
        simp only [List.singleton_append, bulkLoop, take_extend, drop_extend, if_pos hall]
        rfl
      · by_cases hnone : (socket.take (min k (min left intMax))).length = 0
        · refine ⟨[min k socket.length], fun more hmore => ?_⟩
          simp only [bulkLoop, if_neg hall, if_pos hnone] at hmore
          obtain rfl : more = [] := hmore.resolve_left Bool.false_ne_true
          simp only [List.append_nil, bulkLoop, take_extend, drop_extend, if_neg hall,
            if_pos hnone]
          rfl
        · obtain ⟨asked, hasked⟩ := ih (left - (socket.take (min k (min left intMax))).length)
            (memcpy dest offset (socket.take (min k (min left intMax))))
            (offset + (socket.take (min k (min left intMax))).length)
            (socket.drop (socket.take (min k (min left intMax))).length)
          refine ⟨min k socket.length :: asked, fun more hmore => ?_⟩
          simp only [bulkLoop, if_neg hall, if_neg hnone] at hmore
          simp only [List.cons_append, bulkLoop, take_extend, drop_extend, if_neg hall,
            if_neg hnone]
          exact hasked more hmore

theorem prefetchLoop_extend (prefetch left : ℕ) (recvBuf socket rest : Bytes)
    (answers : List ℕ) : ∃ asked, ∀ more,
      ((prefetchLoop prefetch left recvBuf socket answers).1 = true ∨ more = []) →
        prefetchLoop prefetch left recvBuf (socket ++ rest) (asked ++ more) =
          ((prefetchLoop prefetch left recvBuf socket answers).1,
            (prefetchLoop prefetch left recvBuf socket answers).2.1,
            (prefetchLoop prefetch left recvBuf socket answers).2.2.1 ++ rest, more) := by
  induction answers generalizing left recvBuf socket with
  | nil =>
      refine ⟨[], fun more hmore => ?_⟩
      obtain rfl : more = [] := hmore.resolve_left Bool.false_ne_true
      rfl
  | cons k answers ih =>
      by_cases hall : castInt left ≤ (socket.take (min k (min prefetch intMax))).length
      · refine ⟨[min k socket.length], fun more _ => ?_⟩
        simp only [List.singleton_append, prefetchLoop, take_extend, drop_extend, if_pos hall]
      · by_cases hnone : (socket.take (min k (min prefetch intMax))).length = 0
        · refine ⟨[min k socket.length], fun more hmore => ?_⟩
          simp only [prefetchLoop, if_neg hall, if_pos hnone] at hmore
          obtain rfl : more = [] := hmore.resolve_left Bool.false_ne_true
          simp only [List.append_nil, prefetchLoop, take_extend, drop_extend, if_neg hall,
            if_pos hnone]
        · obtain ⟨asked, hasked⟩ := ih (left - (socket.take (min k (min prefetch intMax))).length)
            (recvBuf ++ socket.take (min k (min prefetch intMax)))
            (socket.drop (socket.take (min k (min prefetch intMax))).length)
          refine ⟨min k socket.length :: asked, fun more hmore => ?_⟩
          simp only [prefetchLoop, if_neg hall, if_neg hnone] at hmore
          simp only [List.cons_append, prefetchLoop, take_extend, drop_extend, if_neg hall,
            if_neg hnone]
          exact hasked more hmore

theorem readSocket_extend (prefetch len left : ℕ) (io : Inbound) (rest : Bytes) :
    ∃ asked, ∀ more, ((readSocket prefetch len left io).1 = true ∨ more = []) →
      readSocket prefetch len left (io.extend rest (asked ++ more)) =
        ((readSocket prefetch len left io).1,
          (readSocket prefetch len left io).2.extend rest more) := by
  unfold readSocket
  by_cases hlarge : prefetch < len
  · simp only [if_pos hlarge]
    exact bulkLoop_extend left io.dest io.stateOffset io.socket rest io.answers
  · simp only [if_neg hlarge]
    obtain ⟨asked, hasked⟩ := prefetchLoop_extend prefetch left [] io.socket rest io.answers
    refine ⟨asked, fun more hmore => ?_⟩
    cases hdone : (prefetchLoop prefetch left [] io.socket io.answers).1 with
    | true =>
        have hloop := hasked more (.inl hdone)
        simp only [extend, hloop, hdone, if_true]
    | false =>
        obtain rfl : more = [] := by
          rw [hdone] at hmore
          exact hmore.resolve_left Bool.false_ne_true
        have hloop := hasked [] (.inr rfl)
        simp only [extend, hloop, hdone, Bool.false_eq_true, if_false]

theorem fill_extend (prefetch len : ℕ) (io : Inbound) (rest : Bytes) :
    ∃ asked, ∀ more, ((io.fill prefetch len).1 = true ∨ more = []) →
      (io.extend rest (asked ++ more)).fill prefetch len =
        ((io.fill prefetch len).1, (io.fill prefetch len).2.extend rest more) := by
  by_cases hbuffered : io.recvBuf ≠ []
  · have hbuffered' (more : List ℕ) : (io.extend rest more).recvBuf ≠ [] := hbuffered
    by_cases henough : len - io.stateOffset - (io.recvBuf.take (len - io.stateOffset)).length = 0
    · have henough' (more : List ℕ) :
          len - (io.extend rest more).stateOffset -
            ((io.extend rest more).recvBuf.take
              (len - (io.extend rest more).stateOffset)).length = 0 := henough
      refine ⟨[], fun more _ => ?_⟩
      simp only [fill, if_pos hbuffered, if_pos henough]
      rw [if_pos (hbuffered' _), if_pos (henough' _)]
      rfl
    · obtain ⟨asked, hasked⟩ := readSocket_extend prefetch len
        (len - io.stateOffset - (io.recvBuf.take (len - io.stateOffset)).length)
        { io with
          dest := memcpy io.dest 0 (io.recvBuf.take (len - io.stateOffset))
          stateOffset := io.stateOffset + (io.recvBuf.take (len - io.stateOffset)).length
          recvBuf := [] } rest
      have henough' (more : List ℕ) :
          ¬ len - (io.extend rest more).stateOffset -
            ((io.extend rest more).recvBuf.take
              (len - (io.extend rest more).stateOffset)).length = 0 := henough
      refine ⟨asked, fun more hmore => ?_⟩
      simp only [fill, if_pos hbuffered, if_neg henough] at hmore ⊢
      rw [if_pos (hbuffered' _), if_neg (henough' _)]
      exact hasked more hmore
  · have hbuffered' (more : List ℕ) : ¬ (io.extend rest more).recvBuf ≠ [] := hbuffered
    obtain ⟨asked, hasked⟩ := readSocket_extend prefetch len (len - io.stateOffset) io rest
    refine ⟨asked, fun more hmore => ?_⟩
    simp only [fill, if_neg hbuffered] at hmore ⊢
    rw [if_neg (hbuffered' _)]
    exact hasked more hmore

/-- **A read in front of a part of the stream** is a read in front of the whole of it. -/
theorem readUntil_extend (prefetch len : ℕ) (io : Inbound) (rest : Bytes) :
    ∃ asked, ∀ more, ((io.readUntil prefetch len).1 ≠ none ∨ more = []) →
      (io.extend rest (asked ++ more)).readUntil prefetch len =
        ((io.readUntil prefetch len).1, (io.readUntil prefetch len).2.extend rest more) := by
  obtain ⟨asked, hasked⟩ := fill_extend prefetch len io rest
  refine ⟨asked, fun more hmore => ?_⟩
  unfold readUntil at hmore ⊢
  cases hdone : (io.fill prefetch len).1 with
  | true =>
      have hfill := hasked more (.inl hdone)
      simp only [hfill, hdone, if_true]
      rfl
  | false =>
      obtain rfl : more = [] := by
        simp only [hdone, Bool.false_eq_true, if_false, ne_eq, not_true_eq_false] at hmore
        exact hmore.resolve_left id
      have hfill := hasked [] (.inr rfl)
      simp only [hfill, hdone, Bool.false_eq_true, if_false]

end Inbound

/-! ## Passes -/

namespace Receiver

/-- The same receiver, with `rest` in the socket as well. -/
def extend (r : Receiver) (rest : Bytes) (answers : List ℕ) : Receiver :=
  { r with io := r.io.extend rest answers }

/-- What `f` does in front of a part of a stream, it does in front of the whole of it. -/
def Live (rest : Bytes) (f : Receiver → Receiver) (r : Receiver) : Prop :=
  ∃ asked left, f (r.extend rest asked) = (f r).extend rest left

variable {Addr : Type} {w : Wire Addr} {rest : Bytes}

theorem readThen_live {len : ℕ} {next : Receiver → Bytes → Receiver} (r : Receiver)
    (hnext : ∀ io p, Live rest (fun r => next r p) { r with io := io }) :
    Live rest (readThen w len next) r := by
  obtain ⟨asked, hasked⟩ := Inbound.readUntil_extend w.recvMaxPrefetch len r.io rest
  unfold Live readThen
  cases hread : r.io.readUntil w.recvMaxPrefetch len with
  | mk p io =>
      rw [hread] at hasked
      cases p with
      | none =>
          have hblocked := hasked [] (.inr rfl)
          rw [List.append_nil] at hblocked
          refine ⟨asked, [], ?_⟩
          simp only [extend, hblocked]
      | some p =>
          obtain ⟨more, left, hmore⟩ := hnext io p
          have hdone := hasked more (.inl (Option.some_ne_none p))
          refine ⟨asked ++ more, left, ?_⟩
          simp only [extend, hdone]
          exact hmore

/-- A function that does not read. -/
theorem live_of_extend {f : Receiver → Receiver} {r : Receiver}
    (h : f (r.extend rest []) = (f r).extend rest []) : Live rest f r := ⟨[], [], h⟩

theorem onTag_live (r : Receiver) (p : Bytes) : Live rest (fun r => r.onTag w p) r := by
  apply live_of_extend
  unfold onTag
  split_ifs <;> rfl

theorem onHeader_live (r : Receiver) (p : Bytes) : Live rest (fun r => r.onHeader w p) r := by
  apply live_of_extend
  unfold onHeader
  cases w.readHeader p <;> rfl

theorem checkSeq_extend (r : Receiver) (e : Received) :
    ((r.extend rest []).log e).checkSeq w e = ((r.log e).checkSeq w e).extend rest [] := by
  have hseq : ((r.extend rest []).log e).currentHeader.seq = (r.log e).currentHeader.seq := rfl
  have hinSeq : ((r.extend rest []).log e).inSeq = (r.log e).inSeq := rfl
  unfold checkSeq
  rw [hseq, hinSeq]
  dsimp only
  split_ifs <;> rfl

theorem onFooter_live (r : Receiver) (p : Bytes) : Live rest (fun r => r.onFooter w p) r := by
  apply live_of_extend
  unfold onFooter
  dsimp only
  have hheader : (r.extend rest []).currentHeader = r.currentHeader := rfl
  have hparts : (r.extend rest []).front = r.front ∧ (r.extend rest []).middle = r.middle ∧
    (r.extend rest []).data = r.data := ⟨rfl, rfl, rfl⟩
  rw [hheader, hparts.1, hparts.2.1, hparts.2.2]
  split_ifs
  · rfl
  · rfl
  · exact checkSeq_extend _ _

theorem readFooter_live (r : Receiver) : Live rest (readFooter w) r :=
  readThen_live r fun _ _ => onFooter_live _ _

/-- `readData` behind the loop. -/
def afterLoop (w : Wire Addr) (r : Receiver) : Receiver :=
  if r.state = .aborted ∨ 0 < r.msgLeft then r
  else { r with state := .messageReadFooterAndDispatch }.readFooter w

theorem afterLoop_live (r : Receiver) : Live rest (afterLoop w) r := by
  unfold Live afterLoop
  by_cases hends : r.state = .aborted ∨ 0 < r.msgLeft
  · have hends' : (r.extend rest []).state = .aborted ∨ 0 < (r.extend rest []).msgLeft := hends
    exact ⟨[], [], by rw [if_pos hends, if_pos hends']⟩
  · obtain ⟨asked, left, h⟩ :
        Live rest (readFooter w) { r with state := .messageReadFooterAndDispatch } :=
      readFooter_live _
    have hends' : ¬ ((r.extend rest asked).state = .aborted ∨ 0 < (r.extend rest asked).msgLeft) :=
      hends
    refine ⟨asked, left, ?_⟩
    rw [if_neg hends, if_neg hends']
    exact h

theorem dataLoop_live (lengths : List ℕ) (r : Receiver) :
    Live rest (fun r => afterLoop w (r.dataLoop w lengths)) r := by
  induction lengths generalizing r with
  | nil => exact afterLoop_live (r.dataLoop w [])
  | cons n lengths ih =>
      by_cases hdone : r.msgLeft = 0
      · obtain ⟨asked, left, h⟩ : Live rest (afterLoop w) (r.dataLoop w (n :: lengths)) :=
          afterLoop_live _
        have hdone' : (r.extend rest asked).msgLeft = 0 := hdone
        refine ⟨asked, left, ?_⟩
        simp only [dataLoop, if_pos hdone, if_pos hdone'] at h ⊢
        exact h
      · have hdone' (more : List ℕ) : ¬ (r.extend rest more).msgLeft = 0 := hdone
        obtain ⟨asked, hasked⟩ :=
          Inbound.readUntil_extend w.recvMaxPrefetch (min n r.msgLeft) r.io rest
        unfold Live
        simp only [dataLoop, if_neg hdone, if_neg (hdone' _)]
        cases hread : r.io.readUntil w.recvMaxPrefetch (min n r.msgLeft) with
        | mk p io =>
            rw [hread] at hasked
            cases p with
            | none =>
                have hblocked := hasked [] (.inr rfl)
                have hleft : 0 < r.msgLeft := Nat.pos_of_ne_zero hdone
                rw [List.append_nil] at hblocked
                refine ⟨asked, [], ?_⟩
                simp only [extend, hblocked, afterLoop, if_pos (Or.inr hleft)]
            | some p =>
                obtain ⟨more, left, hmore⟩ :=
                  ih { r with
                    io := io
                    data := r.data ++ p
                    msgLeft := r.msgLeft - min n r.msgLeft }
                have hread' := hasked more (.inl (Option.some_ne_none p))
                refine ⟨asked ++ more, left, ?_⟩
                simp only [extend, hread']
                exact hmore

theorem readData_live (r : Receiver) : Live rest (readData w) r :=
  dataLoop_live r.dataBlp r

theorem prepareData_live (r : Receiver) : Live rest (prepareData w) r :=
  readData_live (w := w)
    { r with
      dataBlp := dataLengths w r.currentHeader
      msgLeft := r.currentHeader.dataLen.toNat
      state := .messageReadData }

theorem readPart_live {len : ℕ} {store : Receiver → Bytes → Receiver} {next : Receiver → Receiver}
    (r : Receiver)
    (hstore : ∀ r answers p, store (r.extend rest answers) p = (store r p).extend rest answers)
    (hnext : ∀ r, Live rest next r) : Live rest (readPart w len store next) r := by
  unfold Live readPart
  by_cases hempty : len = 0
  · simp only [if_pos hempty]
    exact hnext r
  · simp only [if_neg hempty]
    refine readThen_live r fun io p => ?_
    obtain ⟨asked, left, h⟩ := hnext (store { r with io := io } p)
    refine ⟨asked, left, ?_⟩
    rw [← h, ← hstore]

theorem readMiddle_live (r : Receiver) : Live rest (readMiddle w) r := by
  show Live rest (readPart w r.currentHeader.middleLen.toNat (fun r p => { r with middle := p })
    fun r => { r with state := .messageReadDataPrepare }.prepareData w) r
  exact readPart_live r (fun _ _ _ => rfl) fun r =>
    prepareData_live { r with state := .messageReadDataPrepare }

theorem readFront_live (r : Receiver) : Live rest (readFront w) r := by
  show Live rest (readPart w r.currentHeader.frontLen.toNat (fun r p => { r with front := p })
    fun r => { r with state := .messageReadMiddle }.readMiddle w) r
  exact readPart_live r (fun _ _ _ => rfl) fun r =>
    readMiddle_live { r with state := .messageReadMiddle }

/-- A throttler does not read. -/
theorem throttle_live (asked : Header → Bool) (granted : Bool) (next : State) (r : Receiver) :
    Live rest (fun r => r.throttle (asked r.currentHeader) granted next) r := by
  apply live_of_extend
  have hheader : (r.extend rest []).currentHeader = r.currentHeader := rfl
  unfold throttle
  rw [hheader]
  split <;> rfl

/-- A pass in one of the states. -/
theorem pass_live_of_state {s : State} {granted : Bool} {f : Receiver → Receiver} (r : Receiver)
    (hstate : r.state = s) (hpass : ∀ r : Receiver, r.state = s → r.pass w granted = f r)
    (hlive : Live rest f r) : Live rest (fun r => r.pass w granted) r := by
  obtain ⟨asked, left, h⟩ := hlive
  refine ⟨asked, left, ?_⟩
  show (r.extend rest asked).pass w granted = (r.pass w granted).extend rest left
  rw [hpass (r.extend rest asked) hstate, hpass r hstate]
  exact h

theorem pass_live (r : Receiver) (granted : Bool) : Live rest (fun r => r.pass w granted) r := by
  cases hstate : r.state with
  | opened =>
      exact pass_live_of_state r hstate (fun r h => by rw [pass, h])
        (readThen_live r fun _ _ => onTag_live _ _)
  | openKeepalive2 | openKeepalive2Ack | openTagAck =>
      exact pass_live_of_state r hstate (fun r h => by rw [pass, h])
        (readThen_live r fun _ _ => live_of_extend rfl)
  | messageHeader =>
      exact pass_live_of_state r hstate (fun r h => by rw [pass, h])
        (readThen_live r fun _ _ => onHeader_live _ _)
  | messageThrottleMessage =>
      exact pass_live_of_state r hstate (fun r h => by rw [pass, h])
        (throttle_live (fun _ => true) granted .messageThrottleBytes r)
  | messageThrottleBytes =>
      exact pass_live_of_state r hstate (fun r h => by rw [pass, h])
        (throttle_live (fun h => curMsgSize h != 0) granted .messageThrottleDispatchQueue r)
  | messageThrottleDispatchQueue =>
      exact pass_live_of_state r hstate (fun r h => by rw [pass, h])
        (throttle_live (fun h => curMsgSize h != 0) granted .messageReadFront r)
  | messageReadFront =>
      exact pass_live_of_state r hstate (fun r h => by rw [pass, h]) (readFront_live r)
  | messageReadMiddle =>
      exact pass_live_of_state r hstate (fun r h => by rw [pass, h]) (readMiddle_live r)
  | messageReadDataPrepare =>
      exact pass_live_of_state r hstate (fun r h => by rw [pass, h]) (prepareData_live r)
  | messageReadData =>
      exact pass_live_of_state r hstate (fun r h => by rw [pass, h]) (readData_live r)
  | messageReadFooterAndDispatch =>
      exact pass_live_of_state r hstate (fun r h => by rw [pass, h]) (readFooter_live r)
  | tagClose =>
      exact pass_live_of_state r hstate (fun r h => by rw [pass, h]) (live_of_extend rfl)
  | faulted | stopped | aborted =>
      exact pass_live_of_state r hstate (fun r h => by rw [pass, h]) (live_of_extend rfl)

/-- **A pass in front of a part of the stream** is a pass in front of the whole of it. -/
theorem step_extend (r : Receiver) (p : Pass) (rest : Bytes) :
    ∃ asked left, (r.extend rest asked).pass w p.granted = (r.step w p).extend rest left :=
  pass_live { r with io := { r.io with answers := p.answers } } p.granted

end Receiver

/-! ## More frames -/

section Frames

open Receiver Wire

variable {Addr : Type} {w : Wire Addr} {r : Receiver} {rest : List (Frame w)}

theorem encodeAll_append (frames more : List (Frame w)) :
    encodeAll (frames ++ more) = encodeAll frames ++ encodeAll more := List.flatMap_append

theorem Receiver.extend_extend (r : Receiver) (a b : Bytes) (answers answers' : List ℕ) :
    (r.extend a answers).extend b answers' = r.extend (a ++ b) answers' := by
  simp [extend, Inbound.extend]

/-- Frames that are written are behind those that the receiver has not recovered. -/
theorem At.extend (h : At r rest) (more : List (Frame w)) (answers : List ℕ) :
    At (r.extend (encodeAll more) answers) (rest ++ more) := by
  have hunread : (r.extend (encodeAll more) answers).io.unread = r.io.unread ++ encodeAll more :=
    Inbound.unread_extend _ _ _
  have hbytes (front : Bytes) (rest : List (Frame w))
      (h : r.io.dest ++ r.io.unread = front ++ encodeAll rest) :
      r.io.dest ++ (r.extend (encodeAll more) answers).io.unread =
        front ++ encodeAll (rest ++ more) := by
    rw [hunread, ← List.append_assoc, h, encodeAll_append, List.append_assoc]
  cases h with
  | opened hstate hdest h =>
      exact .opened hstate hdest (by rw [hunread, h, encodeAll_append])
  | keepalive2 hstate hfeature hdest h => exact .keepalive2 hstate hfeature hdest (hbytes _ _ h)
  | keepalive2Ack hstate hdest h => exact .keepalive2Ack hstate hdest (hbytes _ _ h)
  | ack hstate hdest h => exact .ack hstate hdest (hbytes _ _ h)
  | header hstate hdest h =>
      rw [← List.append_assoc] at h
      exact .header hstate hdest ((hbytes _ _ h).trans (List.append_assoc _ _ _))
  | @throttle m rest hstate hheader hparts hdest h =>
      have hbody : (r.extend (encodeAll more) answers).io.unread =
          body m ++ encodeAll (rest ++ more) := by
        rw [hunread, h, encodeAll_append, List.append_assoc]
      exact .throttle hstate hheader hparts hdest hbody
  | front hstate hheader hparts hdest h => exact .front hstate hheader hparts hdest (hbytes _ _ h)
  | @middle m rest hstate hheader hparts hdest h =>
      have hrest := hbytes (m.middle ++ (m.data ++ w.footerBytes m.footer)) rest
        (by simpa only [List.append_assoc] using h)
      simp only [List.append_assoc] at hrest
      exact .middle hstate hheader hparts hdest hrest
  | @data m rest left hstate hheader hparts hleft hbuffers h =>
      have hrest := hbytes (left ++ w.footerBytes m.footer) rest
        (by simpa only [List.append_assoc] using h)
      simp only [List.append_assoc] at hrest
      exact .data hstate hheader hparts hleft hbuffers hrest
  | footer hstate hheader hparts hdest h =>
      exact .footer hstate hheader hparts hdest (hbytes _ _ h)

/-- What the socket will answer is no part of where the receiver is. -/
theorem At.of_answers {answers : List ℕ} {missing : Bytes} (h : At (r.extend missing answers) rest)
    (answers' : List ℕ) : At (r.extend missing answers') rest := by
  have hextend := h.extend [] answers'
  rw [Receiver.extend_extend, List.append_nil] at hextend
  have hmissing : missing ++ encodeAll ([] : List (Frame w)) = missing := List.append_nil _
  rwa [hmissing] at hextend

/-- When nothing is left to read, nothing is left to recover. -/
theorem At.eq_nil (h : At r rest) (hunread : r.io.unread = []) : rest = [] := by
  have hstate : r.state = .opened := by
    by_contra hne
    have hpos := (h.unread_lt hne).1
    rw [hunread] at hpos
    exact Nat.lt_irrefl 0 hpos
  cases h with
  | opened _ _ h => exact encodeAll_eq_nil (h.symm.trans hunread)
  | throttle h =>
      rw [hstate] at h
      rcases h with h | h | h <;> cases h
  | _ h =>
      rw [hstate] at h
      cases h

end Frames

/-! ## What a pass recovers -/

def Received.isMessage : Received → Bool
  | .message .. => true
  | _ => false

namespace Receiver

variable {Addr : Type} {w : Wire Addr}

/-- What was recovered since, and that messages were dispatched: but an old message is not, and then
`in_seq` stays. -/
structure News (r r' : Receiver) (new : List Received) : Prop where
  received : r'.received = r.received ++ new
  dispatched : r'.dispatched = r.dispatched ++ new.filter Received.isMessage ∨
    r'.inSeq = r.inSeq ∧ ∃ e ∈ new, e.isMessage

theorem SameMessage.news {r r' : Receiver} (h : SameMessage r r') : News r r' [] where
  received := h.received.trans (List.append_nil _).symm
  dispatched := .inl (h.dispatched.trans (List.append_nil _).symm)

theorem Reads.news {s : State} {r r' : Receiver} (h : Reads s r r') (hruns : r'.state ≠ .aborted) :
    ∃ new, News r r' new := by
  cases h with
  | within _ hsame => exact ⟨[], hsame.news⟩
  | failed _ hsame => exact ⟨[], hsame.news⟩
  | handedOn front middle data _ _ hreceived hdispatched =>
      exact ⟨_, hreceived, .inl hdispatched⟩
  | dropped front middle data _ _ _ hinSeq hreceived _ =>
      exact ⟨_, hreceived, .inr ⟨hinSeq, _, List.mem_singleton_self _, rfl⟩⟩
  | aborted hstate => exact absurd hstate hruns

/-- What is no message. -/
theorem news_of_not_message {r r' : Receiver} {e : Received} (he : e.isMessage = false)
    (hreceived : r'.received = r.received ++ [e]) (hdispatched : r'.dispatched = r.dispatched) :
    News r r' [e] where
  received := hreceived
  dispatched := by
    refine .inl ?_
    rw [List.filter_singleton, he, hdispatched]
    exact (List.append_nil _).symm

theorem throttle_same (r : Receiver) (asked granted : Bool) (next : State) :
    SameMessage r (r.throttle asked granted next) := by
  unfold throttle
  split
  · exact ⟨rfl, rfl, rfl, rfl⟩
  · exact ⟨rfl, rfl, rfl, rfl⟩

theorem readThen_news {len : ℕ} {next : Receiver → Bytes → Receiver} (r : Receiver)
    (hnext : ∀ io p, ∃ new, News { r with io := io } (next { r with io := io } p) new) :
    ∃ new, News r (r.readThen w len next) new := by
  unfold readThen
  split
  · exact ⟨[], (List.append_nil _).symm, .inl (List.append_nil _).symm⟩
  · obtain ⟨new, hreceived, hdispatched⟩ := hnext _ _
    exact ⟨new, hreceived, hdispatched⟩

theorem pass_news (r : Receiver) (granted : Bool) (hruns : (r.pass w granted).state ≠ .aborted) :
    ∃ new, News r (r.pass w granted) new := by
  by_cases hreading : r.state.Reading
  · exact (pass_reads r granted hreading).news hruns
  · unfold pass
    cases hstate : r.state with
    | opened =>
        refine readThen_news r fun io p => ?_
        unfold onTag
        split_ifs
        · exact ⟨_, news_of_not_message rfl rfl rfl⟩
        all_goals exact ⟨[], SameMessage.news ⟨rfl, rfl, rfl, rfl⟩⟩
    | openKeepalive2 | openKeepalive2Ack | openTagAck =>
        exact readThen_news r fun io p => ⟨_, news_of_not_message rfl rfl rfl⟩
    | messageHeader =>
        refine readThen_news r fun io p => ?_
        unfold onHeader
        split
        · exact ⟨[], SameMessage.news ⟨rfl, rfl, rfl, rfl⟩⟩
        · exact ⟨[], (List.append_nil _).symm, .inl (List.append_nil _).symm⟩
    | messageThrottleMessage | messageThrottleBytes | messageThrottleDispatchQueue =>
        exact ⟨[], (throttle_same r ..).news⟩
    | tagClose | faulted | stopped | aborted =>
        exact ⟨[], SameMessage.news ⟨rfl, rfl, rfl, rfl⟩⟩
    | _ => exact absurd (hstate ▸ hreading) (by decide)

end Receiver

end HwAsync.Framing
