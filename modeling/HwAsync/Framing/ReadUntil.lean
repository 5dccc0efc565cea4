/-
# Reading a given number of bytes from a socket

`read_until` collects `len` bytes at a destination, over as many calls as the
socket needs.  Short reads go through a prefetch buffer, which may be left with
bytes behind those asked for; the next call takes them from there.

The specification is conservation: what lies at the destination, in the prefetch
buffer and in the socket, one behind the other, is the stream that has not been
used yet, and a call that completes takes its first `len` bytes off it.
-/

import Mathlib.Algebra.Group.Nat.Defs
import Mathlib.Data.Int.Basic
import Mathlib.Data.List.Basic
import Mathlib.Tactic.Common

namespace HwAsync.Framing

abbrev Bytes := List UInt8

/-- `INT_MAX`, which also bounds what one read of a socket transfers. -/
def intMax : ℕ := 2 ^ 31 - 1

/-- `static_cast<int>` of an unsigned number. -/
def castInt (n : ℕ) : ℤ := Int.bmod n 4294967296

theorem castInt_eq_iff {n left : ℕ} (hn : n ≤ intMax) (hle : n ≤ left) (hleft : left < 2 ^ 32) :
    (n : ℤ) = castInt left ↔ n = left := by
  unfold intMax at hn
  unfold castInt
  rw [Int.bmod_def]
  split <;> omega

theorem castInt_of_lt {n : ℕ} (h : n < 2 ^ 31) : castInt n = n := by
  unfold castInt
  rw [Int.bmod_def]
  split <;> omega

/-- `memcpy(p + start, src)`. -/
def memcpy (p : Bytes) (start : ℕ) (src : Bytes) : Bytes :=
  p.take start ++ src ++ p.drop (start + src.length)

theorem memcpy_length (p src : Bytes) : memcpy p p.length src = p ++ src := by
  simp [memcpy]

/-- The destination of the read in progress with `state_offset`, the bytes between
`recv_start` and `recv_end`, and the socket: the bytes of the peer that were not read yet, and
how many of them each of the next reads may return, none of them standing for `EAGAIN`. -/
structure Inbound where
  dest : Bytes
  stateOffset : ℕ
  recvBuf : Bytes
  socket : Bytes
  answers : List ℕ

namespace Inbound

/-- The loop of `read_until` for more than the prefetch buffer takes. -/
def bulkLoop (left : ℕ) (dest : Bytes) (offset : ℕ) (socket : Bytes) :
    List ℕ → Bool × Inbound
  | [] => (false, ⟨dest, offset, [], socket, []⟩)
  | k :: answers =>
      let got := socket.take (min k (min left intMax))
      let dest' := memcpy dest offset got
      let socket' := socket.drop got.length
      if (got.length : ℤ) = castInt left then (true, ⟨dest', 0, [], socket', answers⟩)
      else if got.length = 0 then (false, ⟨dest', offset, [], socket', answers⟩)
      else bulkLoop (left - got.length) dest' (offset + got.length) socket' answers

/-- The loop of `read_until` that fills the prefetch buffer. -/
def prefetchLoop (prefetch left : ℕ) (recvBuf socket : Bytes) :
    List ℕ → Bool × Bytes × Bytes × List ℕ
  | [] => (false, recvBuf, socket, [])
  | k :: answers =>
      let got := socket.take (min k (min prefetch intMax))
      let socket' := socket.drop got.length
      if castInt left ≤ got.length then (true, recvBuf ++ got, socket', answers)
      else if got.length = 0 then (false, recvBuf ++ got, socket', answers)
      else prefetchLoop prefetch (left - got.length) (recvBuf ++ got) socket' answers

/-- `read_until` from the comment "nothing left in the prefetch buffer" on. -/
def readSocket (prefetch len left : ℕ) (io : Inbound) : Bool × Inbound :=
  if prefetch < len then bulkLoop left io.dest io.stateOffset io.socket io.answers
  else
    let r := prefetchLoop prefetch left [] io.socket io.answers
    let need := len - io.stateOffset
    if r.1 then
      (true, ⟨memcpy io.dest io.stateOffset (r.2.1.take need), 0, r.2.1.drop need, r.2.2.1,
        r.2.2.2⟩)
    else
      (false, ⟨memcpy io.dest io.stateOffset r.2.1, io.stateOffset + r.2.1.length, [], r.2.2.1,
        r.2.2.2⟩)

/-- `read_until`: whether the destination is complete. -/
def fill (prefetch len : ℕ) (io : Inbound) : Bool × Inbound :=
  let left := len - io.stateOffset
  if io.recvBuf ≠ [] then
    let taken := io.recvBuf.take left
    let io' := { io with dest := memcpy io.dest 0 taken, recvBuf := io.recvBuf.drop left }
    if left - taken.length = 0 then (true, io')
    else
      readSocket prefetch len (left - taken.length)
        { io' with stateOffset := io.stateOffset + taken.length, recvBuf := [] }
  else readSocket prefetch len left io

/-- `read_until` and, if it is complete, the destination; the next read has its own. -/
def readUntil (prefetch len : ℕ) (io : Inbound) : Option Bytes × Inbound :=
  let r := io.fill prefetch len
  if r.1 then (some r.2.dest, { r.2 with dest := [] }) else (none, r.2)

/-- The bytes behind the destination. -/
def unread (io : Inbound) : Bytes := io.recvBuf ++ io.socket

/-- Between two calls: a destination that is not complete has emptied the prefetch buffer. -/
structure Ready (io : Inbound) : Prop where
  stateOffset : io.stateOffset = io.dest.length
  recvBuf : io.dest ≠ [] → io.recvBuf = []

/-- The socket returns something to every read until it has nothing left. -/
def Generous (answers : List ℕ) (socket : Bytes) : Prop :=
  socket.length ≤ answers.length ∧ ∀ k ∈ answers, 0 < k

end Inbound

/-! ## The loops -/

theorem take_append_drop_length (n : ℕ) (l : Bytes) :
    l.take n ++ l.drop (l.take n).length = l := by
  rw [List.length_take]
  by_cases h : n ≤ l.length
  · rw [Nat.min_eq_left h, List.take_append_drop]
  · rw [List.take_of_length_le (by omega), Nat.min_eq_right (by omega), List.drop_length,
      List.append_nil]

namespace Inbound

/-- One answer of a generous socket. -/
theorem Generous.next {k n : ℕ} {answers : List ℕ} {socket : Bytes}
    (h : Generous (k :: answers) socket) (hn : 0 < n) :
    let got := socket.take (min k n)
    Generous answers (socket.drop got.length) ∧ (got.length = 0 → socket = []) := by
  obtain ⟨hlength, hpos⟩ := h
  have hk := hpos k List.mem_cons_self
  rw [List.length_cons] at hlength
  have hgot : (socket.take (min k n)).length = min (min k n) socket.length := List.length_take
  refine ⟨⟨?_, fun j hj => hpos j (List.mem_cons_of_mem _ hj)⟩, fun hzero => ?_⟩
  · rw [List.length_drop, hgot]
    omega
  · apply List.eq_nil_of_length_eq_zero
    omega

/-- What a loop leaves, in terms of where it started. -/
structure Looped (dest socket : Bytes) (answers : List ℕ) (left : ℕ) (done : Bool)
    (dest' socket' : Bytes) (answers' : List ℕ) : Prop where
  conserved : dest' ++ socket' = dest ++ socket
  full : done = true → dest.length + left ≤ dest'.length
  short : done = false → dest'.length < dest.length + left
  generous : Generous answers socket →
    Generous answers' socket' ∧ (done = false → socket' = [])

namespace Looped

variable {dest socket dest' socket' : Bytes} {answers answers' : List ℕ} {left k n : ℕ}
  {done : Bool}

/-- The socket has no answer left. -/
theorem nil (hpos : 0 < left) : Looped dest socket [] left false dest socket [] where
  conserved := rfl
  full h := by cases h
  short _ := Nat.lt_add_of_pos_right hpos
  generous h := ⟨h, fun _ => List.eq_nil_of_length_eq_zero (Nat.le_zero.mp h.1)⟩

/-- The loop ends at an answer. -/
theorem last {got : Bytes} (hgot : got = socket.take (min k n)) (hn : 0 < n)
    (hfull : done = true → left ≤ got.length) (hshort : done = false → got.length = 0)
    (hpos : 0 < left) :
    Looped dest socket (k :: answers) left done (dest ++ got) (socket.drop got.length)
      answers where
  conserved := by rw [List.append_assoc, hgot, take_append_drop_length]
  full h := by
    rw [List.length_append]
    exact Nat.add_le_add_left (hfull h) _
  short h := by
    rw [List.length_append, hshort h]
    exact Nat.lt_add_of_pos_right hpos
  generous h := by
    obtain ⟨hnext, hempty⟩ := h.next hn
    rw [← hgot] at hnext hempty
    refine ⟨hnext, fun hdone => ?_⟩
    rw [hempty (hshort hdone), List.drop_nil]

/-- The loop goes on behind an answer. -/
theorem cons {got : Bytes} (hgot : got = socket.take (min k n)) (hn : 0 < n)
    (hlt : got.length < left)
    (h : Looped (dest ++ got) (socket.drop got.length) answers (left - got.length) done dest'
      socket' answers') : Looped dest socket (k :: answers) left done dest' socket' answers' where
  conserved := by rw [h.conserved, List.append_assoc, hgot, take_append_drop_length]
  full hdone := by
    have hfull := h.full hdone
    rw [List.length_append] at hfull
    omega
  short hdone := by
    have hshort := h.short hdone
    rw [List.length_append] at hshort
    omega
  generous hgenerous := by
    obtain ⟨hnext, -⟩ := hgenerous.next hn
    rw [← hgot] at hnext
    exact h.generous hnext

end Looped

theorem bulkLoop_spec {left offset : ℕ} {dest socket : Bytes} {answers : List ℕ}
    (hoffset : offset = dest.length) (hpos : 0 < left) (hleft : left < 2 ^ 32) :
    let r := bulkLoop left dest offset socket answers
    Looped dest socket answers left r.1 r.2.dest r.2.socket r.2.answers ∧ r.2.recvBuf = [] ∧
      r.2.dest.length ≤ dest.length + left ∧
      r.2.stateOffset = if r.1 then 0 else r.2.dest.length := by
  induction answers generalizing left dest offset socket with
  | nil => exact ⟨.nil hpos, rfl, Nat.le_add_right _ _, hoffset⟩
  | cons k answers ih =>
      have hmin : 0 < min left intMax := lt_min hpos (by decide)
      have hle : (socket.take (min k (min left intMax))).length ≤ min left intMax := by
        rw [List.length_take]
        omega
      have hcast := castInt_eq_iff (le_trans hle (min_le_right _ _))
        (le_trans hle (min_le_left _ _)) hleft
      simp only [bulkLoop, hcast, hoffset, memcpy_length]
      generalize hgot : socket.take (min k (min left intMax)) = got at hle
      have hgotle : got.length ≤ left := le_trans hle (min_le_left _ _)
      split
      · rename_i hdone
        refine ⟨.last hgot.symm hmin (fun _ => le_of_eq hdone.symm) nofun hpos, rfl, ?_, rfl⟩
        rw [List.length_append]
        omega
      · split
        · rename_i hzero
          obtain rfl : got = [] := List.eq_nil_of_length_eq_zero hzero
          refine ⟨.last hgot.symm hmin nofun (fun _ => rfl) hpos, rfl, ?_, ?_⟩
          · simp
          · simp
        · have hlt : got.length < left := by omega
          obtain ⟨hlooped, hrecvBuf, hlength, hstate⟩ :=
            @ih (left - got.length) (dest.length + got.length) (dest ++ got)
              (socket.drop got.length) List.length_append.symm (by omega) (by omega)
          refine ⟨.cons hgot.symm hmin hlt hlooped, hrecvBuf, ?_, hstate⟩
          rw [List.length_append] at hlength
          omega

theorem prefetchLoop_spec {prefetch left : ℕ} {recvBuf socket : Bytes} {answers : List ℕ}
    (hpos : 0 < left) (hleft : left < 2 ^ 31) (hprefetch : 0 < prefetch) :
    let r := prefetchLoop prefetch left recvBuf socket answers
    Looped recvBuf socket answers left r.1 r.2.1 r.2.2.1 r.2.2.2 := by
  induction answers generalizing left recvBuf socket with
  | nil => exact .nil hpos
  | cons k answers ih =>
      have hmin : 0 < min prefetch intMax := lt_min hprefetch (by decide)
      simp only [prefetchLoop, castInt_of_lt hleft, Int.ofNat_le]
      generalize hgot : socket.take (min k (min prefetch intMax)) = got
      split
      · rename_i hdone
        exact .last hgot.symm hmin (fun _ => hdone) nofun hpos
      · split
        · rename_i hzero
          exact .last hgot.symm hmin nofun (fun _ => hzero) hpos
        · exact .cons hgot.symm hmin (by omega) (ih (by omega) (by omega))

/-- What a call of `read_until` does. -/
inductive ReadOutcome (io : Inbound) (len : ℕ) : Option Bytes × Inbound → Prop
  | complete {p : Bytes} {io' : Inbound} (hlength : p.length = len)
      (hconserved : p ++ io'.unread = io.dest ++ io.unread) (hdest : io'.dest = [])
      (hoffset : io'.stateOffset = 0)
      (hgenerous : Generous io.answers io.socket → Generous io'.answers io'.socket) :
      ReadOutcome io len (some p, io')
  | again {io' : Inbound} (hready : io'.Ready)
      (hconserved : io'.dest ++ io'.unread = io.dest ++ io.unread) (hshort : io'.dest.length < len)
      (hgenerous : Generous io.answers io.socket → io'.unread = []) :
      ReadOutcome io len (none, io')

section ReadUntil

variable {prefetch len left : ℕ} {io : Inbound}

/-- The part that reads the socket, with nothing in the prefetch buffer. -/
theorem readSocket_spec (hoffset : io.stateOffset = io.dest.length) (hrecvBuf : io.recvBuf = [])
    (hleft : left = len - io.dest.length) (hshort : io.dest.length < len)
    (hlen : len < 2 ^ 32) (hprefetch : prefetch < 2 ^ 31) :
    let r := io.readSocket prefetch len left
    r.2.dest ++ r.2.unread = io.dest ++ io.unread ∧
      (r.1 = true → r.2.dest.length = len ∧ r.2.stateOffset = 0) ∧
      (r.1 = false → r.2.Ready ∧ r.2.dest.length < len) ∧
      (Generous io.answers io.socket →
        Generous r.2.answers r.2.socket ∧ (r.1 = false → r.2.unread = [])) := by
  unfold readSocket
  split
  · obtain ⟨hlooped, hempty, hlength, hstate⟩ :=
      @bulkLoop_spec left io.stateOffset io.dest io.socket io.answers hoffset (by omega)
        (by omega)
    refine ⟨?_, fun hdone => ⟨?_, ?_⟩, fun hdone => ⟨⟨?_, fun _ => hempty⟩, ?_⟩, fun h => ⟨?_, ?_⟩⟩
    · rw [unread, hempty, List.nil_append, hlooped.conserved, unread, hrecvBuf, List.nil_append]
    · have hfull := hlooped.full hdone
      omega
    · rw [hstate, if_pos hdone]
    · rw [hstate, if_neg (by rw [hdone]; decide)]
    · have hshort' := hlooped.short hdone
      omega
    · exact (hlooped.generous h).1
    · intro hdone
      rw [unread, hempty, (hlooped.generous h).2 hdone, List.nil_append]
  · have hlooped := @prefetchLoop_spec prefetch left [] io.socket io.answers (by omega) (by omega)
      (by omega)
    simp only [hoffset, memcpy_length, ← hleft]
    generalize prefetchLoop prefetch left [] io.socket io.answers = r at hlooped
    have hconserved := hlooped.conserved
    rw [List.nil_append] at hconserved
    split
    · rename_i hdone
      have hfull := hlooped.full hdone
      rw [List.length_nil, Nat.zero_add] at hfull
      refine ⟨?_, fun _ => ⟨?_, rfl⟩, nofun, fun h => ⟨(hlooped.generous h).1,
        nofun⟩⟩
      · rw [unread, List.append_assoc, ← List.append_assoc (r.2.1.take left),
          List.take_append_drop, hconserved, unread, hrecvBuf, List.nil_append]
      · rw [List.length_append, List.length_take, Nat.min_eq_left hfull]
        omega
    · rename_i hdone
      rw [Bool.not_eq_true] at hdone
      have hshort' := hlooped.short hdone
      rw [List.length_nil, Nat.zero_add] at hshort'
      refine ⟨?_, nofun, fun _ => ⟨⟨?_, fun _ => rfl⟩, ?_⟩, fun h =>
        ⟨(hlooped.generous h).1, fun _ => ?_⟩⟩
      · rw [unread, List.nil_append, List.append_assoc, hconserved, unread, hrecvBuf,
          List.nil_append]
      · exact List.length_append.symm
      · rw [List.length_append]
        omega
      · exact (hlooped.generous h).2 hdone

theorem readUntil_spec (hready : io.Ready) (hshort : io.dest.length < len) (hlen : len < 2 ^ 32)
    (hprefetch : prefetch < 2 ^ 31) : ReadOutcome io len (io.readUntil prefetch len) := by
  have hfill : let r := io.fill prefetch len
      r.2.dest ++ r.2.unread = io.dest ++ io.unread ∧
        (r.1 = true → r.2.dest.length = len ∧ r.2.stateOffset = 0) ∧
        (r.1 = false → r.2.Ready ∧ r.2.dest.length < len) ∧
        (Generous io.answers io.socket →
          Generous r.2.answers r.2.socket ∧ (r.1 = false → r.2.unread = [])) := by
    unfold fill
    split
    · rename_i hbuffered
      obtain hdest : io.dest = [] := by
        by_contra hne
        exact hbuffered (hready.recvBuf hne)
      have hoffset : io.stateOffset = 0 := by rw [hready.stateOffset, hdest]; rfl
      simp only [hoffset, Nat.sub_zero, Nat.zero_add, hdest]
      have hmemcpy : memcpy [] 0 (io.recvBuf.take len) = io.recvBuf.take len := by simp [memcpy]
      rw [hmemcpy]
      split
      · rename_i hdone
        have hlength : (io.recvBuf.take len).length = len := by
          rw [List.length_take] at hdone ⊢
          omega
        refine ⟨?_, fun _ => ⟨hlength, rfl⟩, nofun, fun h => ⟨h, nofun⟩⟩
        rw [unread, List.nil_append, unread, ← List.append_assoc, List.take_append_drop]
      · rename_i hmore
        have hall : io.recvBuf.take len = io.recvBuf := by
          apply List.take_of_length_le
          rw [List.length_take] at hmore
          omega
        rw [hall] at hmore ⊢
        have h := @readSocket_spec prefetch len (len - io.recvBuf.length)
          { io with dest := io.recvBuf, stateOffset := io.recvBuf.length, recvBuf := [] } rfl rfl
          rfl (by show io.recvBuf.length < len; omega) hlen hprefetch
        exact h
    · rename_i hempty
      rw [not_not] at hempty
      exact readSocket_spec hready.stateOffset hempty (by rw [hready.stateOffset]) hshort hlen
        hprefetch
  obtain ⟨hconserved, hdone, hagain, hgenerous⟩ := hfill
  simp only [readUntil]
  split
  · rename_i hfull
    exact .complete (hdone hfull).1 hconserved rfl (hdone hfull).2 fun h => (hgenerous h).1
  · rename_i hfull
    rw [Bool.not_eq_true] at hfull
    exact .again (hagain hfull).1 hconserved (hagain hfull).2 fun h => (hgenerous h).2 hfull

end ReadUntil

end Inbound

end HwAsync.Framing
