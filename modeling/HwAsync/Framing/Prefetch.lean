/-
# The memory of `read_until`

`read_until` copies between three places: the socket, the prefetch buffer `recv_buf` of twice
`recv_max_prefetch` bytes, and the destination of the request.  Where the bytes of a request are is
kept in three counters between the calls, and each copy starts somewhere else.

Here both buffers are memory of a fixed size, and an access beyond it is a trap.  The counters are
taken to be wide enough for the size of the prefetch buffer.  On its memory a call does what
`Inbound.fill` does on lists of bytes.
-/

import HwAsync.Framing.ReadUntil
import HwAsync.Lib.Run

namespace HwAsync.Framing

open HwAsync.Lib

/-! ## Memory -/

/-- The `n` bytes from `start` on, inside the memory. -/
def load (m : Bytes) (start n : ℕ) : Option Bytes :=
  if start + n ≤ m.length then some ((m.drop start).take n) else none

/-- `memcpy(m + start, src)`, inside the memory. -/
def store (m : Bytes) (start : ℕ) (src : Bytes) : Option Bytes :=
  if start + src.length ≤ m.length then some (memcpy m start src) else none

/-- The socket was not asked what the call asks it, or an access was out of range. -/
inductive ReadTrap
  | noAnswer
  | outOfRange
  deriving DecidableEq, Repr

/-! ## Reading the socket -/

/-- What the socket answers during a call of `read_bulk`: `-EINTR` so many times, and then bytes, or
`-EAGAIN`. -/
structure BulkAnswer where
  interrupts : ℕ
  bytes : Option Bytes
  deriving DecidableEq, Repr

/-- `cs.read` and what `read_bulk` makes of it. -/
def readAgain (len : ℕ) (bytes : Option Bytes) : ℕ → Except ReadTrap Bytes
  | 0 =>
      match bytes with
      | none => .ok []
      | some got => if 0 < got.length ∧ got.length ≤ len then .ok got else .error .noAnswer
  | interrupts + 1 => readAgain len bytes interrupts

/-- `read_bulk`, with the bytes that it writes to `buf`. -/
def readBulk (len : ℕ) (a : BulkAnswer) : Except ReadTrap Bytes :=
  readAgain (len % 2 ^ 32) a.bytes a.interrupts

/-- How a loop ends: with the request complete, or at an `EAGAIN`.  `offset` is how far the memory
is written, and `taken` is what came from the socket. -/
structure LoopEnd where
  complete : Bool
  memory : Bytes
  offset : ℕ
  taken : Bytes

/-- The loop for large requests, which writes to the destination. -/
def largeLoop (p : Bytes) (stateOffset left : ℕ) (taken : Bytes) :
    List BulkAnswer → Except ReadTrap LoopEnd
  | [] => .error .noAnswer
  | a :: answers =>
      match readBulk left a with
      | .error trap => .error trap
      | .ok got =>
          match store p stateOffset got with
          | none => .error .outOfRange
          | some p =>
              if (got.length : ℤ) = castInt left then .ok ⟨true, p, 0, taken ++ got⟩
              else if got.length = 0 then .ok ⟨false, p, stateOffset + got.length, taken ++ got⟩
              else largeLoop p (stateOffset + got.length) (left - got.length) (taken ++ got) answers

/-- The loop that writes to the prefetch buffer. -/
def smallLoop (prefetch : ℕ) (recvBuf : Bytes) (recvEnd left : ℕ) (taken : Bytes) :
    List BulkAnswer → Except ReadTrap LoopEnd
  | [] => .error .noAnswer
  | a :: answers =>
      match readBulk prefetch a with
      | .error trap => .error trap
      | .ok got =>
          match store recvBuf recvEnd got with
          | none => .error .outOfRange
          | some recvBuf =>
              if castInt left ≤ got.length then
                .ok ⟨true, recvBuf, recvEnd + got.length, taken ++ got⟩
              else if got.length = 0 then
                .ok ⟨false, recvBuf, recvEnd + got.length, taken ++ got⟩
              else
                smallLoop prefetch recvBuf (recvEnd + got.length) (left - got.length)
                  (taken ++ got) answers

/-! ## `read_until` -/

/-- The members that `read_until` works with. -/
structure Reader where
  recvBuf : Bytes
  recvStart : ℕ
  recvEnd : ℕ
  stateOffset : ℕ

/-- What a call returns and leaves. -/
structure ReadReturn where
  ret : ℕ
  p : Bytes
  reader : Reader
  taken : Bytes

/-- `a - b` for `uint64_t`. -/
def sub64 (a b : ℕ) : ℕ := (a + 2 ^ 64 - b) % 2 ^ 64

namespace Reader

/-- `read_until` from the comment "nothing left in the prefetch buffer" on. -/
def readRest (prefetch len left : ℕ) (p : Bytes) (answers : List BulkAnswer) (s : Reader) :
    Except ReadTrap ReadReturn :=
  if prefetch < len then
    match largeLoop p s.stateOffset left [] answers with
    | .error trap => .error trap
    | .ok r =>
        .ok ⟨if r.complete then 0 else sub64 len r.offset, r.memory, ⟨s.recvBuf, 0, 0, r.offset⟩,
          r.taken⟩
  else
    match smallLoop prefetch s.recvBuf 0 left [] answers with
    | .error trap => .error trap
    | .ok r =>
        let need := if r.complete then sub64 len s.stateOffset else r.offset
        match load r.memory 0 need with
        | none => .error .outOfRange
        | some bytes =>
            match store p s.stateOffset bytes with
            | none => .error .outOfRange
            | some p =>
                if r.complete then .ok ⟨0, p, ⟨r.memory, need, r.offset, 0⟩, r.taken⟩
                else
                  .ok ⟨sub64 len (s.stateOffset + need), p,
                    ⟨r.memory, 0, 0, s.stateOffset + need⟩, r.taken⟩

/-- `read_until`. -/
def readUntil (prefetch len : ℕ) (p : Bytes) (answers : List BulkAnswer) (s : Reader) :
    Except ReadTrap ReadReturn :=
  let left := sub64 len s.stateOffset
  if s.recvStart < s.recvEnd then
    let toRead := min (s.recvEnd - s.recvStart) left
    match load s.recvBuf s.recvStart toRead with
    | none => .error .outOfRange
    | some bytes =>
        match store p 0 bytes with
        | none => .error .outOfRange
        | some p =>
            let s1 := { s with recvStart := s.recvStart + toRead }
            if left - toRead = 0 then .ok ⟨0, p, s1, []⟩
            else
              { s1 with stateOffset := s1.stateOffset + toRead }.readRest prefetch len
                (left - toRead) p answers
  else s.readRest prefetch len left p answers

end Reader

/-! ## Requests -/

/-- A connection that reads.  `request` is the destination of the request that has not returned 0
yet, and `missing` what its last call returned; `finished` has the lengths and the destinations of
the requests before it, `received` what was read from the socket. -/
structure ReadRun where
  reader : Reader
  request : Option Bytes
  missing : Option ℕ
  finished : List (ℕ × Bytes)
  received : Bytes
  trapped : Bool

/-- A request for as many bytes as its destination has, and its calls. -/
inductive ReadAction
  | request (p : Bytes)
  | call (answers : List BulkAnswer)

namespace ReadRun

/-- Before the first request. -/
structure Fresh (prefetch : ℕ) (r : ReadRun) : Prop where
  length_recvBuf : r.reader.recvBuf.length = 2 * prefetch
  recvStart : r.reader.recvStart = 0
  recvEnd : r.reader.recvEnd = 0
  stateOffset : r.reader.stateOffset = 0
  request : r.request = none
  missing : r.missing = none
  finished : r.finished = []
  received : r.received = []
  trapped : r.trapped = false

/-- What a call leaves. -/
def returned (r : ReadRun) (len : ℕ) (out : ReadReturn) : ReadRun :=
  { r with
    reader := out.reader
    request := if out.ret = 0 then none else some out.p
    missing := if out.ret = 0 then none else some out.ret
    finished := if out.ret = 0 then r.finished ++ [(len, out.p)] else r.finished
    received := r.received ++ out.taken }

end ReadRun

/-- Requests one after the other, each repeated until it returns 0. -/
def readMachine (prefetch : ℕ) : Machine ReadRun ReadAction where
  start := ReadRun.Fresh prefetch
  step r
    | .request p =>
        if r.request = none ∧ 0 < p.length ∧ p.length < 2 ^ 31 then
          some { r with request := some p, missing := none }
        else none
    | .call answers =>
        match r.request with
        | none => none
        | some p =>
            match r.reader.readUntil prefetch p.length p answers with
            | .error .noAnswer => none
            | .error .outOfRange => some { r with trapped := true }
            | .ok out => some (r.returned p.length out)

namespace ReadRun

/-- The bytes of the requests that returned 0. -/
def output (r : ReadRun) : Bytes := r.finished.flatMap Prod.snd

/-- No access was out of range, the finished requests got consecutive bytes of the stream, as many
as they asked for, what the last call of an unfinished one returned is how many bytes it misses,
and the counters are in order. -/
structure Reassembled (prefetch : ℕ) (r : ReadRun) : Prop where
  trapped : r.trapped = false
  length_eq : ∀ f ∈ r.finished, f.2.length = f.1
  output_prefix : r.output <+: r.received
  missing_eq : ∀ n, r.missing = some n → ∃ p, r.request = some p ∧ 0 < n ∧ n ≤ p.length ∧
    r.received = r.output ++ p.take (p.length - n)
  start_le : r.reader.recvStart ≤ r.reader.recvEnd
  end_le : r.reader.recvEnd ≤ 2 * prefetch
  empty_of_offset : 0 < r.reader.stateOffset → r.reader.recvStart = r.reader.recvEnd

end ReadRun

/-! ## What a part leaves -/

/-- An outcome that is not an access out of range, and satisfies `P` if there is one. -/
inductive Safe {α : Type} (P : α → Prop) : Except ReadTrap α → Prop
  | ok {a : α} (h : P a) : Safe P (.ok a)
  | noAnswer : Safe P (.error .noAnswer)

theorem Safe.imp {α : Type} {P Q : α → Prop} (hpq : ∀ a, P a → Q a) {r : Except ReadTrap α}
    (h : Safe P r) : Safe Q r := by
  cases h with
  | ok h => exact .ok (hpq _ h)
  | noAnswer => exact .noAnswer

theorem load_eq {m : Bytes} {start n : ℕ} (hle : start + n ≤ m.length) :
    load m start n = some ((m.drop start).take n) := if_pos hle

theorem store_eq {m : Bytes} {start : ℕ} {src : Bytes} (hle : start + src.length ≤ m.length) :
    store m start src = some (memcpy m start src) := if_pos hle

theorem length_memcpy {m : Bytes} {start : ℕ} {src : Bytes} (hle : start + src.length ≤ m.length) :
    (memcpy m start src).length = m.length := by
  unfold memcpy
  rw [List.length_append, List.length_append, List.length_take, List.length_drop]
  omega

/-- What lies before the end of the copied bytes afterwards. -/
theorem take_memcpy {m : Bytes} {start : ℕ} {src : Bytes} (hle : start + src.length ≤ m.length) :
    (memcpy m start src).take (start + src.length) = m.take start ++ src := by
  have hlength : (m.take start ++ src).length = start + src.length := by
    rw [List.length_append, List.length_take]
    omega
  unfold memcpy
  rw [← hlength, List.take_left]

theorem memcpy_zero {m src : Bytes} (hlength : src.length = m.length) : memcpy m 0 src = src := by
  have hle : 0 + src.length ≤ m.length := by omega
  have htake := take_memcpy hle
  rwa [List.take_of_length_le (by rw [length_memcpy hle]; omega), List.take_zero,
    List.nil_append] at htake

/-- A read returns at most as many bytes as it asks for. -/
theorem readBulk_safe {len : ℕ} (hlen : len < 2 ^ 32) (a : BulkAnswer) :
    Safe (fun got => got.length ≤ len) (readBulk len a) := by
  have hagain (n : ℕ) : Safe (fun got => got.length ≤ len) (readAgain len a.bytes n) := by
    induction n with
    | zero =>
        unfold readAgain
        split
        · exact .ok (Nat.zero_le _)
        · split
          · rename_i hle
            exact .ok hle.2
          · exact .noAnswer
    | succ n ih => exact ih
  unfold readBulk
  rw [Nat.mod_eq_of_lt hlen]
  exact hagain a.interrupts

theorem sub64_of_le {a b : ℕ} (hle : b ≤ a) (ha : a < 2 ^ 64) : sub64 a b = a - b := by
  unfold sub64
  rw [show a + 2 ^ 64 - b = a - b + 2 ^ 64 by omega, Nat.add_mod_right,
    Nat.mod_eq_of_lt (by omega)]

/-- What a loop has done that took `got` from the socket: it lies in the memory from `offset` on. -/
structure Wrote (memory : Bytes) (offset : ℕ) (taken got : Bytes) (r : LoopEnd) : Prop where
  taken_eq : r.taken = taken ++ got
  length_eq : r.memory.length = memory.length
  le : offset + got.length ≤ memory.length
  take_eq : r.memory.take (offset + got.length) = memory.take offset ++ got

namespace Wrote

variable {memory taken got more : Bytes} {offset : ℕ} {r : LoopEnd}

/-- The last round of a loop. -/
theorem last {complete : Bool} {offset' : ℕ} (hle : offset + got.length ≤ memory.length) :
    Wrote memory offset taken got ⟨complete, memcpy memory offset got, offset', taken ++ got⟩ where
  taken_eq := rfl
  length_eq := length_memcpy hle
  le := hle
  take_eq := take_memcpy hle

/-- A round before the others. -/
theorem cons (hle : offset + got.length ≤ memory.length)
    (h : Wrote (memcpy memory offset got) (offset + got.length) (taken ++ got) more r) :
    Wrote memory offset taken (got ++ more) r where
  taken_eq := by rw [h.taken_eq, List.append_assoc]
  length_eq := by rw [h.length_eq, length_memcpy hle]
  le := by
    have hmore := h.le
    rw [length_memcpy hle] at hmore
    rw [List.length_append]
    omega
  take_eq := by
    rw [List.length_append, ← Nat.add_assoc, h.take_eq, take_memcpy hle, List.append_assoc]

/-- What was written from the start of the memory on. -/
theorem take_length (h : Wrote memory 0 [] got r) : r.memory.take got.length = got := by
  have htake := h.take_eq
  rwa [Nat.zero_add, List.take_zero, List.nil_append] at htake

end Wrote

/-- The loop for large requests stays inside the destination. -/
theorem largeLoop_safe (answers : List BulkAnswer) {p taken : Bytes} {stateOffset left : ℕ}
    (hpos : 0 < left) (hleft : left < 2 ^ 31) (hfit : stateOffset + left = p.length) :
    Safe (fun r => ∃ got, Wrote p stateOffset taken got r ∧
      if r.complete then got.length = left ∧ r.offset = 0
      else got.length < left ∧ r.offset = stateOffset + got.length)
      (largeLoop p stateOffset left taken answers) := by
  induction answers generalizing p taken stateOffset left with
  | nil => exact .noAnswer
  | cons a answers ih =>
      have hread := @readBulk_safe left (by omega) a
      unfold largeLoop
      generalize readBulk left a = result at hread
      cases hread with
      | noAnswer => exact .noAnswer
      | @ok got hle =>
          have hfits : stateOffset + got.length ≤ p.length := by omega
          have hcast : (got.length : ℤ) = castInt left ↔ got.length = left := by
            rw [castInt_of_lt hleft, Int.natCast_inj]
          dsimp only
          rw [store_eq hfits]
          dsimp only
          by_cases hall : got.length = left
          · rw [if_pos (hcast.mpr hall)]
            exact .ok ⟨got, .last hfits, hall, rfl⟩
          · rw [if_neg fun heq => hall (hcast.mp heq)]
            by_cases hzero : got.length = 0
            · rw [if_pos hzero]
              exact .ok ⟨got, .last hfits, by omega, rfl⟩
            · rw [if_neg hzero]
              have hrest := @ih (memcpy p stateOffset got) (taken ++ got)
                (stateOffset + got.length) (left - got.length) (by omega) (by omega)
                (by rw [length_memcpy hfits]; omega)
              generalize largeLoop (memcpy p stateOffset got) (stateOffset + got.length)
                (left - got.length) (taken ++ got) answers = result at hrest ⊢
              cases hrest with
              | noAnswer => exact .noAnswer
              | ok hrest =>
                  obtain ⟨more, hwrote, hend⟩ := hrest
                  refine .ok ⟨got ++ more, hwrote.cons hfits, ?_⟩
                  rw [List.length_append]
                  split
                  · rename_i hcomplete
                    rw [if_pos hcomplete] at hend
                    omega
                  · rename_i hcomplete
                    rw [if_neg hcomplete] at hend
                    omega

/-- The loop that fills the prefetch buffer stays inside the buffer: it goes on only while it has
less than the request, and asks for half of the buffer. -/
theorem smallLoop_safe {prefetch : ℕ} (hprefetch : prefetch < 2 ^ 32) (answers : List BulkAnswer)
    {recvBuf taken : Bytes} {recvEnd left : ℕ} (hpos : 0 < left) (hleft : left < 2 ^ 31)
    (hfit : recvEnd + left ≤ prefetch) (hlength : recvBuf.length = 2 * prefetch) :
    Safe (fun r => ∃ got, Wrote recvBuf recvEnd taken got r ∧ r.offset = recvEnd + got.length ∧
      (r.complete = true ↔ left ≤ got.length))
      (smallLoop prefetch recvBuf recvEnd left taken answers) := by
  induction answers generalizing recvBuf taken recvEnd left with
  | nil => exact .noAnswer
  | cons a answers ih =>
      have hread := @readBulk_safe prefetch hprefetch a
      unfold smallLoop
      generalize readBulk prefetch a = result at hread
      cases hread with
      | noAnswer => exact .noAnswer
      | @ok got hle =>
          have hfits : recvEnd + got.length ≤ recvBuf.length := by omega
          have hcast : castInt left ≤ got.length ↔ left ≤ got.length := by
            rw [castInt_of_lt hleft, Int.ofNat_le]
          dsimp only
          rw [store_eq hfits]
          dsimp only
          by_cases hall : left ≤ got.length
          · rw [if_pos (hcast.mpr hall)]
            exact .ok ⟨got, .last hfits, rfl, iff_of_true rfl hall⟩
          · rw [if_neg fun hle => hall (hcast.mp hle)]
            by_cases hzero : got.length = 0
            · rw [if_pos hzero]
              exact .ok ⟨got, .last hfits, rfl, iff_of_false Bool.false_ne_true hall⟩
            · rw [if_neg hzero]
              have hrest := @ih (memcpy recvBuf recvEnd got) (taken ++ got)
                (recvEnd + got.length) (left - got.length) (by omega) (by omega) (by omega)
                (by rw [length_memcpy hfits, hlength])
              generalize smallLoop prefetch (memcpy recvBuf recvEnd got) (recvEnd + got.length)
                (left - got.length) (taken ++ got) answers = result at hrest ⊢
              cases hrest with
              | noAnswer => exact .noAnswer
              | ok hrest =>
                  obtain ⟨more, hwrote, hoffset, hend⟩ := hrest
                  refine .ok ⟨got ++ more, hwrote.cons hfits, ?_, ?_⟩
                  · rw [hoffset, List.length_append, Nat.add_assoc]
                  · rw [hend, List.length_append]
                    omega

/-- The bytes between `recv_start` and `recv_end`. -/
def Reader.buffered (s : Reader) : Bytes :=
  (s.recvBuf.drop s.recvStart).take (s.recvEnd - s.recvStart)

theorem buffered_add (recvBuf : Bytes) (recvStart recvEnd stateOffset n : ℕ) :
    (Reader.mk recvBuf (recvStart + n) recvEnd stateOffset).buffered =
      (Reader.mk recvBuf recvStart recvEnd stateOffset).buffered.drop n := by
  unfold Reader.buffered
  rw [List.drop_take, List.drop_drop, Nat.sub_sub]

/-- What is left in the prefetch buffer of the bytes that were put there. -/
theorem Wrote.buffered_drop {memory got : Bytes} {r : LoopEnd} (h : Wrote memory 0 [] got r)
    (n stateOffset : ℕ) :
    (Reader.mk r.memory n got.length stateOffset).buffered = got.drop n := by
  unfold Reader.buffered
  rw [← List.drop_take, h.take_length]

/-- A call that returns for the destination `p`, when `before` was there and in the prefetch buffer:
it has the whole destination, or says how many bytes are missing and leaves nothing in the
buffer. -/
structure Answered (prefetch : ℕ) (p before : Bytes) (out : ReadReturn) : Prop where
  length_p : out.p.length = p.length
  length_recvBuf : out.reader.recvBuf.length = 2 * prefetch
  start_le : out.reader.recvStart ≤ out.reader.recvEnd
  end_le : out.reader.recvEnd ≤ 2 * prefetch
  complete : out.ret = 0 →
    out.reader.stateOffset = 0 ∧ out.p ++ out.reader.buffered = before ++ out.taken
  again : out.ret ≠ 0 → out.reader.stateOffset < p.length ∧
    out.ret = p.length - out.reader.stateOffset ∧ out.reader.recvStart = out.reader.recvEnd ∧
    out.p.take out.reader.stateOffset = before ++ out.taken

section ReadUntil

variable {prefetch len left : ℕ} {p : Bytes} {s : Reader}

/-- The large loop. -/
theorem readRest_safe_large (hlength : s.recvBuf.length = 2 * prefetch) (hlarge : prefetch < len)
    (hlen : p.length = len) (hlt : len < 2 ^ 31) (hoffset : s.stateOffset < len)
    (hleft : left = len - s.stateOffset) (answers : List BulkAnswer) :
    Safe (Answered prefetch p (p.take s.stateOffset)) (s.readRest prefetch len left p answers) := by
  have hloop := @largeLoop_safe answers p [] s.stateOffset left (by omega) (by omega) (by omega)
  unfold Reader.readRest
  rw [if_pos hlarge]
  generalize largeLoop p s.stateOffset left [] answers = result at hloop
  cases hloop with
  | noAnswer => exact .noAnswer
  | @ok r hloop =>
      obtain ⟨got, hwrote, hend⟩ := hloop
      have hbuffered : (Reader.mk s.recvBuf 0 0 r.offset).buffered = [] := List.take_zero
      have htaken : r.taken = got := hwrote.taken_eq
      refine .ok ⟨hwrote.length_eq, hlength, le_rfl, Nat.zero_le _, ?_, ?_⟩
      · dsimp only
        intro hret
        by_cases hcomplete : r.complete = true
        · rw [if_pos hcomplete] at hend
          have hall := hwrote.take_eq
          rw [List.take_of_length_le (by rw [hwrote.length_eq]; omega)] at hall
          exact ⟨hend.2, by rw [hbuffered, List.append_nil, htaken, hall]⟩
        · rw [if_neg hcomplete] at hend
          rw [if_neg hcomplete, sub64_of_le (by omega) (by omega)] at hret
          omega
      · dsimp only
        intro hret
        by_cases hcomplete : r.complete = true
        · rw [if_pos hcomplete] at hret
          exact absurd rfl hret
        · rw [if_neg hcomplete] at hend hret ⊢
          rw [sub64_of_le (by omega) (by omega)]
          refine ⟨by omega, by rw [hlen], rfl, ?_⟩
          rw [hend.2, hwrote.take_eq, htaken]

/-- What the part behind the loop does, for the bytes `got` that the loop put into the prefetch
buffer. -/
theorem readRest_small (hlength : s.recvBuf.length = 2 * prefetch) (hsmall : len ≤ prefetch)
    (hlen : p.length = len) (hlt : len < 2 ^ 31) (hoffset : s.stateOffset < len)
    (hleft : left = len - s.stateOffset) {answers : List BulkAnswer} {r : LoopEnd} {got : Bytes}
    (hloop : smallLoop prefetch s.recvBuf 0 left [] answers = .ok r)
    (hwrote : Wrote s.recvBuf 0 [] got r) (hend : r.offset = 0 + got.length)
    (hcomplete : r.complete = true ↔ left ≤ got.length) :
    s.readRest prefetch len left p answers = .ok
      (if r.complete then
        ⟨0, memcpy p s.stateOffset (got.take left), ⟨r.memory, left, got.length, 0⟩, got⟩
      else
        ⟨len - (s.stateOffset + got.length), memcpy p s.stateOffset got,
          ⟨r.memory, 0, 0, s.stateOffset + got.length⟩, got⟩) := by
  have hmemory : r.memory.length = 2 * prefetch := by rw [hwrote.length_eq, hlength]
  have hgotle := hwrote.le
  rw [Nat.zero_add] at hend
  unfold Reader.readRest
  rw [if_neg (Nat.not_lt.mpr hsmall), hloop]
  dsimp only
  rw [sub64_of_le (Nat.le_of_lt hoffset) (by omega), ← hleft, hwrote.taken_eq, List.nil_append]
  by_cases hdone : r.complete = true
  · have hle := hcomplete.mp hdone
    have hbytes : (r.memory.drop 0).take left = got.take left := by
      rw [List.drop_zero, ← hwrote.take_length, List.take_take, Nat.min_eq_left hle]
    have hcount : (got.take left).length = left := by
      rw [List.length_take]
      omega
    rw [if_pos hdone, load_eq (by omega), hbytes]
    dsimp only
    rw [store_eq (by omega)]
    dsimp only
    rw [if_pos hdone, if_pos hdone, hend]
  · have hshort : got.length < left := by
      by_contra hlong
      exact hdone (hcomplete.mpr (Nat.not_lt.mp hlong))
    rw [if_neg hdone, hend, load_eq (by omega), List.drop_zero, hwrote.take_length]
    dsimp only
    rw [store_eq (by omega)]
    dsimp only
    rw [if_neg hdone, if_neg hdone, sub64_of_le (by omega) (by omega)]

/-- The loop through the prefetch buffer. -/
theorem readRest_safe_small (hprefetch : prefetch < 2 ^ 32)
    (hlength : s.recvBuf.length = 2 * prefetch) (hsmall : len ≤ prefetch)
    (hlen : p.length = len) (hlt : len < 2 ^ 31) (hoffset : s.stateOffset < len)
    (hleft : left = len - s.stateOffset) (answers : List BulkAnswer) :
    Safe (Answered prefetch p (p.take s.stateOffset)) (s.readRest prefetch len left p answers) := by
  have hsafe := @smallLoop_safe prefetch hprefetch answers s.recvBuf [] 0 left (by omega) (by omega)
    (by omega) hlength
  cases hloop : smallLoop prefetch s.recvBuf 0 left [] answers with
  | error trap =>
      rw [hloop] at hsafe
      cases hsafe
      unfold Reader.readRest
      rw [if_neg (Nat.not_lt.mpr hsmall), hloop]
      exact .noAnswer
  | ok r =>
      rw [hloop] at hsafe
      cases hsafe with
      | ok hsafe =>
          obtain ⟨got, hwrote, hend, hcomplete⟩ := hsafe
          have hmemory : r.memory.length = 2 * prefetch := by rw [hwrote.length_eq, hlength]
          have hgotle := hwrote.le
          rw [readRest_small hlength hsmall hlen hlt hoffset hleft hloop hwrote hend hcomplete]
          by_cases hdone : r.complete = true
          · have hle := hcomplete.mp hdone
            have hcount : (got.take left).length = left := by
              rw [List.length_take]
              omega
            have hfits : s.stateOffset + (got.take left).length ≤ p.length := by omega
            rw [if_pos hdone]
            refine .ok ⟨length_memcpy hfits, hmemory, hle, by dsimp only; omega,
              fun _ => ⟨rfl, ?_⟩, fun hret => absurd rfl hret⟩
            have hall := take_memcpy hfits
            rw [List.take_of_length_le (by rw [length_memcpy hfits]; omega)] at hall
            dsimp only
            rw [hall, hwrote.buffered_drop, List.append_assoc, List.take_append_drop]
          · have hshort : got.length < left := by
              by_contra hlong
              exact hdone (hcomplete.mpr (Nat.not_lt.mp hlong))
            have hfits : s.stateOffset + got.length ≤ p.length := by omega
            rw [if_neg hdone]
            refine .ok ⟨length_memcpy hfits, hmemory, le_rfl, Nat.zero_le _, fun hret => ?_,
              fun _ => ⟨by dsimp only; omega, by dsimp only; rw [hlen], rfl, take_memcpy hfits⟩⟩
            dsimp only at hret
            omega

theorem readRest_safe (hprefetch : prefetch < 2 ^ 32) (hlength : s.recvBuf.length = 2 * prefetch)
    (hlen : p.length = len) (hlt : len < 2 ^ 31) (hoffset : s.stateOffset < len)
    (hleft : left = len - s.stateOffset) (answers : List BulkAnswer) :
    Safe (Answered prefetch p (p.take s.stateOffset)) (s.readRest prefetch len left p answers) := by
  by_cases hlarge : prefetch < len
  · exact readRest_safe_large hlength hlarge hlen hlt hoffset hleft answers
  · exact readRest_safe_small hprefetch hlength (Nat.not_lt.mp hlarge) hlen hlt hoffset hleft
      answers

/-- What a call returns does not depend on what it started with in the destination. -/
theorem Answered.congr {p' before before' : Bytes} {out : ReadReturn}
    (h : Answered prefetch p' before' out) (hlength : p'.length = p.length)
    (hbefore : before' = before) : Answered prefetch p before out where
  length_p := hlength ▸ h.length_p
  length_recvBuf := h.length_recvBuf
  start_le := h.start_le
  end_le := h.end_le
  complete := hbefore ▸ h.complete
  again := hlength ▸ hbefore ▸ h.again

/-- **A call of `read_until` stays inside both buffers, and moves bytes of the stream on.** -/
theorem readUntil_safe (hprefetch : prefetch < 2 ^ 32) (hlength : s.recvBuf.length = 2 * prefetch)
    (hstart : s.recvStart ≤ s.recvEnd) (hend : s.recvEnd ≤ 2 * prefetch) (hlen : p.length = len)
    (hlt : len < 2 ^ 31) (hoffset : s.stateOffset < len)
    (hempty : 0 < s.stateOffset → s.recvStart = s.recvEnd) (answers : List BulkAnswer) :
    Safe (Answered prefetch p (p.take s.stateOffset ++ s.buffered))
      (s.readUntil prefetch len p answers) := by
  have hleft : sub64 len s.stateOffset = len - s.stateOffset :=
    sub64_of_le (Nat.le_of_lt hoffset) (by omega)
  unfold Reader.readUntil
  rw [hleft]
  by_cases hbuffered : s.recvStart < s.recvEnd
  · -- only a request that begins finds something in the prefetch buffer
    have hzero : s.stateOffset = 0 := by
      by_contra hne
      have hsame := hempty (Nat.pos_of_ne_zero hne)
      omega
    have hinside : s.recvStart + min (s.recvEnd - s.recvStart) (len - s.stateOffset) ≤
        s.recvBuf.length := by omega
    rw [if_pos hbuffered]
    dsimp only
    rw [load_eq hinside]
    dsimp only
    rw [hzero, Nat.sub_zero, List.take_zero, List.nil_append, Nat.zero_add]
    generalize hbytes :
      (s.recvBuf.drop s.recvStart).take (min (s.recvEnd - s.recvStart) len) = bytes
    have hcount : bytes.length = min (s.recvEnd - s.recvStart) len := by
      rw [← hbytes, List.length_take, List.length_drop]
      omega
    have hfits : 0 + bytes.length ≤ p.length := by omega
    have htake := take_memcpy hfits
    rw [Nat.zero_add, List.take_zero, List.nil_append] at htake
    rw [store_eq hfits]
    dsimp only
    by_cases hdone : len - min (s.recvEnd - s.recvStart) len = 0
    · have hall : min (s.recvEnd - s.recvStart) len = len := by omega
      rw [if_pos hdone, hall]
      rw [hall] at hbytes hcount
      have hmore : len ≤ s.recvEnd - s.recvStart := by omega
      have hhead : bytes = s.buffered.take len := by
        unfold Reader.buffered
        rw [List.take_take, Nat.min_eq_left hmore, hbytes]
      refine .ok ⟨length_memcpy hfits, hlength, by dsimp only; omega, hend, fun _ => ⟨rfl, ?_⟩,
        fun hret => absurd rfl hret⟩
      dsimp only
      rw [memcpy_zero (by omega), buffered_add, List.append_nil, hhead]
      exact List.take_append_drop _ _
    · have hall : min (s.recvEnd - s.recvStart) len = s.recvEnd - s.recvStart := by omega
      rw [if_neg hdone, hall]
      rw [hall] at hbytes hcount
      have hrest := @readRest_safe prefetch len (len - (s.recvEnd - s.recvStart)) (memcpy p 0 bytes)
        { s with
          recvStart := s.recvStart + (s.recvEnd - s.recvStart)
          stateOffset := s.recvEnd - s.recvStart }
        hprefetch hlength (by rw [length_memcpy hfits, hlen]) hlt (by dsimp only; omega) rfl answers
      have hbefore : (memcpy p 0 bytes).take (s.recvEnd - s.recvStart) = s.buffered := by
        rw [← hcount, htake, ← hbytes]
        rfl
      exact hrest.imp fun _ hout => hout.congr (length_memcpy hfits) hbefore
  · have hsame : s.recvStart = s.recvEnd := by omega
    have hnone : s.buffered = [] := by
      unfold Reader.buffered
      rw [hsame, Nat.sub_self, List.take_zero]
    rw [if_neg hbuffered, hnone, List.append_nil]
    exact readRest_safe hprefetch hlength hlen hlt hoffset rfl answers

end ReadUntil

/-! ## Without the memory -/

/-- A round of the loop for large requests, on the bytes it has written. -/
theorem bulkLoop_cons {left : ℕ} {dest got tail : Bytes} {answers : List ℕ}
    (hle : got.length ≤ left) (hleft : left ≤ intMax) :
    Inbound.bulkLoop left dest dest.length (got ++ tail) (got.length :: answers) =
      if (got.length : ℤ) = castInt left then (true, ⟨dest ++ got, 0, [], tail, answers⟩)
      else if got.length = 0 then (false, ⟨dest ++ got, dest.length, [], tail, answers⟩)
      else
        Inbound.bulkLoop (left - got.length) (dest ++ got) (dest.length + got.length) tail
          answers := by
  have htake : (got ++ tail).take (min got.length (min left intMax)) = got := by
    rw [Nat.min_eq_left (le_min hle (Nat.le_trans hle hleft)), List.take_left]
  simp only [Inbound.bulkLoop, htake, memcpy_length, List.drop_left]

theorem prefetchLoop_cons {prefetch left : ℕ} {recvBuf got tail : Bytes} {answers : List ℕ}
    (hle : got.length ≤ prefetch) (hprefetch : prefetch ≤ intMax) :
    Inbound.prefetchLoop prefetch left recvBuf (got ++ tail) (got.length :: answers) =
      if castInt left ≤ got.length then (true, recvBuf ++ got, tail, answers)
      else if got.length = 0 then (false, recvBuf ++ got, tail, answers)
      else
        Inbound.prefetchLoop prefetch (left - got.length) (recvBuf ++ got) tail answers := by
  have htake : (got ++ tail).take (min got.length (min prefetch intMax)) = got := by
    rw [Nat.min_eq_left (le_min hle (Nat.le_trans hle hprefetch)), List.take_left]
  simp only [Inbound.prefetchLoop, htake, List.drop_left]

/-- The loop for large requests does to its memory what `bulkLoop` does to a list. -/
theorem bulkLoop_of_largeLoop (answers : List BulkAnswer) {p taken : Bytes} {stateOffset left : ℕ}
    {r : LoopEnd} (hpos : 0 < left) (hleft : left ≤ intMax) (hfit : stateOffset + left = p.length)
    (hloop : largeLoop p stateOffset left taken answers = .ok r) :
    ∃ got ks, r.taken = taken ++ got ∧ ∀ rest,
      Inbound.bulkLoop left (p.take stateOffset) stateOffset (got ++ rest) ks =
        (r.complete, ⟨r.memory.take (stateOffset + got.length), r.offset, [], rest, []⟩) := by
  induction answers generalizing p taken stateOffset left with
  | nil => cases hloop
  | cons a answers ih =>
      unfold intMax at hleft
      have hread := @readBulk_safe left (by omega) a
      unfold largeLoop at hloop
      generalize readBulk left a = result at hread hloop
      cases hread with
      | noAnswer => cases hloop
      | @ok got hle =>
          have hfits : stateOffset + got.length ≤ p.length := by omega
          have hdest : (p.take stateOffset).length = stateOffset := by
            rw [List.length_take]
            omega
          have hround (tail : Bytes) (ks : List ℕ) :=
            @bulkLoop_cons left (p.take stateOffset) got tail ks hle hleft
          rw [hdest, ← take_memcpy hfits] at hround
          dsimp only at hloop
          rw [store_eq hfits] at hloop
          dsimp only at hloop
          by_cases hall : (got.length : ℤ) = castInt left
          · rw [if_pos hall] at hloop
            cases hloop
            exact ⟨got, [got.length], rfl, fun rest => by rw [hround, if_pos hall]⟩
          · rw [if_neg hall] at hloop
            by_cases hzero : got.length = 0
            · rw [if_pos hzero] at hloop
              cases hloop
              refine ⟨got, [got.length], rfl, fun rest => ?_⟩
              rw [hround, if_neg hall, if_pos hzero, hzero]
              rfl
            · rw [if_neg hzero] at hloop
              have hpart : got.length < left := by
                refine Nat.lt_of_le_of_ne hle fun heq => hall ?_
                rw [heq, castInt_of_lt (by omega)]
              obtain ⟨more, ks, htaken, hrest⟩ := @ih (memcpy p stateOffset got) (taken ++ got)
                (stateOffset + got.length) (left - got.length) (by omega)
                (by unfold intMax; omega) (by rw [length_memcpy hfits]; omega) hloop
              refine ⟨got ++ more, got.length :: ks, by rw [htaken, List.append_assoc],
                fun rest => ?_⟩
              rw [List.append_assoc, hround, if_neg hall, if_neg hzero, hrest, List.length_append,
                Nat.add_assoc]

/-- So does the other loop. -/
theorem prefetchLoop_of_smallLoop {prefetch : ℕ} (hprefetch : prefetch ≤ intMax)
    (answers : List BulkAnswer) {recvBuf taken : Bytes} {recvEnd left : ℕ} {r : LoopEnd}
    (hpos : 0 < left) (hleft : left ≤ intMax) (hfit : recvEnd + left ≤ prefetch)
    (hlength : recvBuf.length = 2 * prefetch)
    (hloop : smallLoop prefetch recvBuf recvEnd left taken answers = .ok r) :
    ∃ got ks, r.taken = taken ++ got ∧ ∀ rest,
      Inbound.prefetchLoop prefetch left (recvBuf.take recvEnd) (got ++ rest) ks =
        (r.complete, r.memory.take (recvEnd + got.length), rest, []) := by
  induction answers generalizing recvBuf taken recvEnd left with
  | nil => cases hloop
  | cons a answers ih =>
      have hsmall : prefetch < 2 ^ 32 := by
        unfold intMax at hprefetch
        omega
      have hread := @readBulk_safe prefetch hsmall a
      unfold smallLoop at hloop
      generalize readBulk prefetch a = result at hread hloop
      cases hread with
      | noAnswer => cases hloop
      | @ok got hle =>
          have hfits : recvEnd + got.length ≤ recvBuf.length := by omega
          have hround (tail : Bytes) (ks : List ℕ) :=
            @prefetchLoop_cons prefetch left (recvBuf.take recvEnd) got tail ks hle hprefetch
          rw [← take_memcpy hfits] at hround
          dsimp only at hloop
          rw [store_eq hfits] at hloop
          dsimp only at hloop
          by_cases hall : castInt left ≤ got.length
          · rw [if_pos hall] at hloop
            cases hloop
            exact ⟨got, [got.length], rfl, fun rest => by rw [hround, if_pos hall]⟩
          · rw [if_neg hall] at hloop
            by_cases hzero : got.length = 0
            · rw [if_pos hzero] at hloop
              cases hloop
              exact ⟨got, [got.length], rfl, fun rest => by rw [hround, if_neg hall, if_pos hzero]⟩
            · rw [if_neg hzero] at hloop
              have hpart : got.length < left := by
                unfold intMax at hleft
                rwa [castInt_of_lt (by omega), Int.ofNat_le, Nat.not_le] at hall
              obtain ⟨more, ks, htaken, hrest⟩ := @ih (memcpy recvBuf recvEnd got) (taken ++ got)
                (recvEnd + got.length) (left - got.length) (by omega) (by omega) (by omega)
                (by rw [length_memcpy hfits, hlength]) hloop
              refine ⟨got ++ more, got.length :: ks, by rw [htaken, List.append_assoc],
                fun rest => ?_⟩
              rw [List.append_assoc, hround, if_neg hall, if_neg hzero, hrest, List.length_append,
                Nat.add_assoc]

/-- What a call leaves, as lists of bytes; `rest` is what the socket has not handed out. -/
def ReadReturn.seen (len : ℕ) (rest : Bytes) (out : ReadReturn) : Bool × Inbound :=
  (out.ret = 0, ⟨out.p.take (if out.ret = 0 then len else out.reader.stateOffset),
    out.reader.stateOffset, out.reader.buffered, rest, []⟩)

section Refinement

variable {prefetch len left : ℕ} {p : Bytes} {s : Reader} {out : ReadReturn}

theorem readSocket_of_readRest_large (hlarge : prefetch < len) (hlen : p.length = len)
    (hlt : len < 2 ^ 31) (hoffset : s.stateOffset < len) (hleft : left = len - s.stateOffset)
    {answers : List BulkAnswer} (hrest : s.readRest prefetch len left p answers = .ok out) :
    ∃ ks, ∀ rest, Inbound.readSocket prefetch len left
      ⟨p.take s.stateOffset, s.stateOffset, [], out.taken ++ rest, ks⟩ = out.seen len rest := by
  have hloop := @largeLoop_safe answers p [] s.stateOffset left (by omega) (by omega) (by omega)
  have hbulk := @bulkLoop_of_largeLoop answers p [] s.stateOffset left
  unfold Reader.readRest at hrest
  rw [if_pos hlarge] at hrest
  generalize largeLoop p s.stateOffset left [] answers = result at hloop hbulk hrest
  cases hloop with
  | noAnswer => cases hrest
  | @ok r hloop =>
      cases hrest
      obtain ⟨got, hwrote, hend⟩ := hloop
      obtain ⟨got', ks, htaken, hbulk⟩ :=
        hbulk (by omega) (by unfold intMax; omega) (by omega) rfl
      obtain rfl : got = got' := hwrote.taken_eq.symm.trans htaken
      refine ⟨ks, fun rest => ?_⟩
      have hbuffered : (Reader.mk s.recvBuf 0 0 r.offset).buffered = [] := List.take_zero
      unfold Inbound.readSocket ReadReturn.seen
      dsimp only
      rw [if_pos hlarge, htaken, List.nil_append, hbulk, hbuffered]
      by_cases hcomplete : r.complete = true
      · rw [if_pos hcomplete] at hend
        rw [if_pos hcomplete, if_pos rfl, hcomplete, hend.1,
          show s.stateOffset + left = len by omega]
        rfl
      · rw [if_neg hcomplete] at hend
        have hmissing : sub64 len r.offset ≠ 0 := by
          rw [sub64_of_le (by omega) (by omega)]
          omega
        rw [if_neg hcomplete, if_neg hmissing, decide_eq_false hmissing, ← hend.2,
          eq_false_of_ne_true hcomplete]

theorem readSocket_of_readRest_small (hprefetch : prefetch ≤ intMax)
    (hlength : s.recvBuf.length = 2 * prefetch) (hsmall : len ≤ prefetch) (hlen : p.length = len)
    (hlt : len < 2 ^ 31) (hoffset : s.stateOffset < len) (hleft : left = len - s.stateOffset)
    {answers : List BulkAnswer} (hrest : s.readRest prefetch len left p answers = .ok out) :
    ∃ ks, ∀ rest, Inbound.readSocket prefetch len left
      ⟨p.take s.stateOffset, s.stateOffset, [], out.taken ++ rest, ks⟩ = out.seen len rest := by
  have hwide : prefetch < 2 ^ 32 := by
    unfold intMax at hprefetch
    omega
  have hsafe := @smallLoop_safe prefetch hwide answers s.recvBuf [] 0 left (by omega) (by omega)
    (by omega) hlength
  have hdest : (p.take s.stateOffset).length = s.stateOffset := by
    rw [List.length_take]
    omega
  have hmemcpy (src : Bytes) : memcpy (p.take s.stateOffset) s.stateOffset src =
      p.take s.stateOffset ++ src := by
    have hsame := memcpy_length (p.take s.stateOffset) src
    rwa [hdest] at hsame
  cases hloop : smallLoop prefetch s.recvBuf 0 left [] answers with
  | error trap =>
      unfold Reader.readRest at hrest
      rw [if_neg (Nat.not_lt.mpr hsmall), hloop] at hrest
      cases hrest
  | ok r =>
      rw [hloop] at hsafe
      cases hsafe with
      | ok hsafe =>
          obtain ⟨got, hwrote, hend, hcomplete⟩ := hsafe
          obtain ⟨got', ks, htaken, hseen⟩ := prefetchLoop_of_smallLoop hprefetch answers
            (by omega) (by unfold intMax; omega) (by omega) hlength hloop
          obtain rfl : got = got' := hwrote.taken_eq.symm.trans htaken
          rw [List.take_zero, Nat.zero_add, hwrote.take_length] at hseen
          rw [readRest_small hlength hsmall hlen hlt hoffset hleft hloop hwrote hend
            hcomplete] at hrest
          refine ⟨ks, fun rest => ?_⟩
          unfold Inbound.readSocket ReadReturn.seen
          by_cases hdone : r.complete = true
          · have hle := hcomplete.mp hdone
            have hcount : (got.take left).length = left := by
              rw [List.length_take]
              omega
            have hfits : s.stateOffset + (got.take left).length ≤ p.length := by omega
            have hall := take_memcpy hfits
            rw [hcount, show s.stateOffset + left = len by omega] at hall
            rw [if_pos hdone] at hrest
            cases hrest
            dsimp only
            rw [if_neg (Nat.not_lt.mpr hsmall), hseen, ← hleft]
            dsimp only
            rw [if_pos hdone, if_pos rfl, hmemcpy, hall, hwrote.buffered_drop]
            rfl
          · have hshort : got.length < left := by
              by_contra hlong
              exact hdone (hcomplete.mpr (Nat.not_lt.mp hlong))
            have hmissing : len - (s.stateOffset + got.length) ≠ 0 := by omega
            have hbuffered :
                (Reader.mk r.memory 0 0 (s.stateOffset + got.length)).buffered = [] :=
              List.take_zero
            rw [if_neg hdone] at hrest
            cases hrest
            dsimp only
            rw [if_neg (Nat.not_lt.mpr hsmall), hseen]
            dsimp only
            rw [if_neg hdone, if_neg hmissing, decide_eq_false hmissing, hmemcpy,
              take_memcpy (by omega), hbuffered]

theorem readSocket_of_readRest (hprefetch : prefetch ≤ intMax)
    (hlength : s.recvBuf.length = 2 * prefetch) (hlen : p.length = len) (hlt : len < 2 ^ 31)
    (hoffset : s.stateOffset < len) (hleft : left = len - s.stateOffset)
    {answers : List BulkAnswer} (hrest : s.readRest prefetch len left p answers = .ok out) :
    ∃ ks, ∀ rest, Inbound.readSocket prefetch len left
      ⟨p.take s.stateOffset, s.stateOffset, [], out.taken ++ rest, ks⟩ = out.seen len rest := by
  by_cases hlarge : prefetch < len
  · exact readSocket_of_readRest_large hlarge hlen hlt hoffset hleft hrest
  · exact readSocket_of_readRest_small hprefetch hlength (Nat.not_lt.mp hlarge) hlen hlt hoffset
      hleft hrest

/-- **Refinement**: a call does on its memory what `read_until` does on lists of bytes, where the
prefetch buffer is what lies between its counters and the destination ends at `state_offset`. -/
theorem fill_of_readUntil (hprefetch : prefetch ≤ intMax)
    (hlength : s.recvBuf.length = 2 * prefetch) (hstart : s.recvStart ≤ s.recvEnd)
    (hend : s.recvEnd ≤ 2 * prefetch) (hlen : p.length = len) (hlt : len < 2 ^ 31)
    (hoffset : s.stateOffset < len) (hempty : 0 < s.stateOffset → s.recvStart = s.recvEnd)
    {answers : List BulkAnswer} (hread : s.readUntil prefetch len p answers = .ok out) :
    ∃ ks, ∀ rest, Inbound.fill prefetch len
      ⟨p.take s.stateOffset, s.stateOffset, s.buffered, out.taken ++ rest, ks⟩ =
        out.seen len rest := by
  have hleft : sub64 len s.stateOffset = len - s.stateOffset :=
    sub64_of_le (Nat.le_of_lt hoffset) (by omega)
  have hcount : s.buffered.length = s.recvEnd - s.recvStart := by
    unfold Reader.buffered
    rw [List.length_take, List.length_drop]
    omega
  unfold Reader.readUntil at hread
  rw [hleft] at hread
  by_cases hbuffered : s.recvStart < s.recvEnd
  · have hzero : s.stateOffset = 0 := by
      by_contra hne
      have hsame := hempty (Nat.pos_of_ne_zero hne)
      omega
    have hnonempty : s.buffered ≠ [] := List.ne_nil_of_length_pos (by omega)
    have hbytes : (s.recvBuf.drop s.recvStart).take (min (s.recvEnd - s.recvStart) len) =
        s.buffered.take len := by
      unfold Reader.buffered
      rw [List.take_take, Nat.min_comm]
    have hfits : 0 + (s.buffered.take len).length ≤ p.length := by
      rw [List.length_take]
      omega
    rw [if_pos hbuffered] at hread
    dsimp only at hread
    rw [load_eq (by omega)] at hread
    dsimp only at hread
    rw [hzero, Nat.sub_zero, Nat.zero_add, hbytes, store_eq hfits] at hread
    dsimp only at hread
    have hcopied : memcpy [] 0 (s.buffered.take len) = s.buffered.take len := by
      rw [show memcpy [] 0 (s.buffered.take len) = [] ++ s.buffered.take len from
        memcpy_length [] _, List.nil_append]
    have htoRead : (s.buffered.take len).length = min (s.recvEnd - s.recvStart) len := by
      rw [List.length_take, hcount, Nat.min_comm]
    have hfill (socket : Bytes) (ks : List ℕ) :
        Inbound.fill prefetch len ⟨[], 0, s.buffered, socket, ks⟩ =
          if len - min (s.recvEnd - s.recvStart) len = 0 then
            (true, ⟨s.buffered.take len, 0, s.buffered.drop len, socket, ks⟩)
          else
            Inbound.readSocket prefetch len (len - min (s.recvEnd - s.recvStart) len)
              ⟨s.buffered.take len, min (s.recvEnd - s.recvStart) len, [], socket, ks⟩ := by
      unfold Inbound.fill
      dsimp only
      rw [if_pos hnonempty, Nat.sub_zero, hcopied, htoRead, Nat.zero_add]
    rw [hzero, List.take_zero]
    by_cases hdone : len - min (s.recvEnd - s.recvStart) len = 0
    · have hall : min (s.recvEnd - s.recvStart) len = len := by omega
      rw [if_pos hdone, hall] at hread
      cases hread
      refine ⟨[], fun rest => ?_⟩
      rw [hfill, if_pos hdone]
      unfold ReadReturn.seen
      dsimp only
      rw [if_pos rfl, memcpy_zero (by omega), buffered_add, List.take_take, Nat.min_self]
      rfl
    · have hall : min (s.recvEnd - s.recvStart) len = s.recvEnd - s.recvStart := by omega
      rw [if_neg hdone, hall] at hread
      have htake := take_memcpy hfits
      rw [htoRead, hall, Nat.zero_add, List.take_zero, List.nil_append] at htake
      obtain ⟨ks, hrest⟩ := readSocket_of_readRest hprefetch (by exact hlength)
        (by rw [length_memcpy hfits, hlen]) hlt (by dsimp only; omega) rfl hread
      refine ⟨ks, fun rest => ?_⟩
      have hseen := hrest rest
      dsimp only at hseen
      rw [htake] at hseen
      rw [hfill, if_neg hdone, hall]
      exact hseen
  · have hsame : s.recvStart = s.recvEnd := by omega
    have hnone : s.buffered = [] := List.eq_nil_of_length_eq_zero (by omega)
    rw [if_neg hbuffered] at hread
    obtain ⟨ks, hrest⟩ := readSocket_of_readRest hprefetch hlength hlen hlt hoffset rfl hread
    refine ⟨ks, fun rest => ?_⟩
    unfold Inbound.fill
    rw [hnone]
    exact hrest rest

end Refinement

/-! ## Runs -/

namespace ReadRun

/-- What holds between the calls of `read_until`. -/
structure Kept (prefetch : ℕ) (r : ReadRun) : Prop where
  length_recvBuf : r.reader.recvBuf.length = 2 * prefetch
  start_le : r.reader.recvStart ≤ r.reader.recvEnd
  end_le : r.reader.recvEnd ≤ 2 * prefetch
  trapped : r.trapped = false
  length_eq : ∀ f ∈ r.finished, f.2.length = f.1
  idle : r.request = none → r.reader.stateOffset = 0 ∧ r.missing = none ∧
    r.received = r.output ++ r.reader.buffered
  offset_lt : ∀ p, r.request = some p → r.reader.stateOffset < p.length ∧ p.length < 2 ^ 31
  empty_of_offset : 0 < r.reader.stateOffset → r.reader.recvStart = r.reader.recvEnd
  received_eq : ∀ p, r.request = some p →
    r.received = r.output ++ (p.take r.reader.stateOffset ++ r.reader.buffered)
  missing_eq : ∀ p n, r.request = some p → r.missing = some n →
    n = p.length - r.reader.stateOffset ∧ r.reader.recvStart = r.reader.recvEnd

variable {prefetch : ℕ} {r : ReadRun}

theorem Kept.of_fresh (h : r.Fresh prefetch) : r.Kept prefetch where
  length_recvBuf := h.length_recvBuf
  start_le := by rw [h.recvStart]; exact Nat.zero_le _
  end_le := by rw [h.recvEnd]; exact Nat.zero_le _
  trapped := h.trapped
  length_eq f hf := by
    rw [h.finished] at hf
    cases hf
  idle _ := by
    refine ⟨h.stateOffset, h.missing, ?_⟩
    unfold output Reader.buffered
    rw [h.received, h.finished, h.recvStart, h.recvEnd, Nat.sub_self, List.take_zero]
    rfl
  offset_lt p hp := by
    rw [h.request] at hp
    cases hp
  empty_of_offset _ := by rw [h.recvStart, h.recvEnd]
  received_eq p hp := by
    rw [h.request] at hp
    cases hp
  missing_eq p n hp := by
    rw [h.request] at hp
    cases hp

/-- The next request begins with what the prefetch buffer has. -/
theorem Kept.request (h : r.Kept prefetch) {p : Bytes} (hnone : r.request = none)
    (hpos : 0 < p.length) (hlt : p.length < 2 ^ 31) :
    Kept prefetch { r with request := some p, missing := none } where
  length_recvBuf := h.length_recvBuf
  start_le := h.start_le
  end_le := h.end_le
  trapped := h.trapped
  length_eq := h.length_eq
  idle hnone := by cases hnone
  offset_lt q hq := by
    cases hq
    exact ⟨by dsimp only; rw [(h.idle hnone).1]; exact hpos, hlt⟩
  empty_of_offset := h.empty_of_offset
  received_eq q hq := by
    cases hq
    dsimp only
    rw [(h.idle hnone).1, List.take_zero, List.nil_append]
    exact (h.idle hnone).2.2
  missing_eq q n hq hn := by cases hn

/-- A call that returns 0 finishes the request, and another one says what is missing. -/
theorem Kept.returned (h : r.Kept prefetch) {p : Bytes} {out : ReadReturn}
    (hp : r.request = some p)
    (hout : Answered prefetch p (p.take r.reader.stateOffset ++ r.reader.buffered) out) :
    (r.returned p.length out).Kept prefetch := by
  have hreceived := h.received_eq p hp
  have hlt := (h.offset_lt p hp).2
  by_cases hret : out.ret = 0
  · obtain ⟨hoffset, hbytes⟩ := hout.complete hret
    have hfinished : (r.returned p.length out).finished = r.finished ++ [(p.length, out.p)] :=
      if_pos hret
    have houtput : (r.returned p.length out).output = r.output ++ out.p := by
      unfold output
      rw [hfinished, List.flatMap_append, List.flatMap_singleton]
    have hrequest : (r.returned p.length out).request = none := if_pos hret
    have hmissing : (r.returned p.length out).missing = none := if_pos hret
    refine ⟨hout.length_recvBuf, hout.start_le, hout.end_le, h.trapped, ?_, fun _ => ?_, ?_, ?_, ?_,
      ?_⟩
    · intro f hf
      rw [hfinished] at hf
      rcases List.mem_append.mp hf with hold | hnew
      · exact h.length_eq f hold
      · rw [List.mem_singleton.mp hnew]
        exact hout.length_p
    · refine ⟨hoffset, hmissing, ?_⟩
      rw [houtput]
      show r.received ++ out.taken = _
      rw [hreceived, List.append_assoc, ← hbytes, List.append_assoc]
      rfl
    · intro q hq
      rw [hrequest] at hq
      cases hq
    · intro hpos
      exact absurd hpos (by show ¬ 0 < out.reader.stateOffset; omega)
    · intro q hq
      rw [hrequest] at hq
      cases hq
    · intro q n hq
      rw [hrequest] at hq
      cases hq
  · obtain ⟨hoffset, hcount, hempty, hbytes⟩ := hout.again hret
    have hrequest : (r.returned p.length out).request = some out.p := if_neg hret
    have hmissing : (r.returned p.length out).missing = some out.ret := if_neg hret
    have hfinished : (r.returned p.length out).finished = r.finished := if_neg hret
    have hbuffered : out.reader.buffered = [] := by
      unfold Reader.buffered
      rw [hempty, Nat.sub_self, List.take_zero]
    refine ⟨hout.length_recvBuf, hout.start_le, hout.end_le, h.trapped, ?_, fun hnone => ?_, ?_,
      fun _ => hempty, ?_, ?_⟩
    · rw [hfinished]
      exact h.length_eq
    · rw [hrequest] at hnone
      cases hnone
    · intro q hq
      rw [hrequest] at hq
      cases hq
      rw [hout.length_p]
      exact ⟨hoffset, hlt⟩
    · intro q hq
      rw [hrequest] at hq
      cases hq
      have houtput : (r.returned p.length out).output = r.output := by
        unfold output
        rw [hfinished]
      rw [houtput]
      show r.received ++ out.taken = _ ++ (_ ++ out.reader.buffered)
      rw [hbuffered, List.append_nil, hreceived, List.append_assoc, ← hbytes]
      rfl
    · intro q n hq hn
      rw [hrequest] at hq
      rw [hmissing] at hn
      cases hq
      cases hn
      rw [hout.length_p]
      exact ⟨hcount, hempty⟩

theorem kept_of_reached (hprefetch : prefetch < 2 ^ 32)
    (hreached : (readMachine prefetch).Reached r) : r.Kept prefetch := by
  refine hreached.invariant (Kept prefetch) (fun _ hfresh => .of_fresh hfresh) ?_
  intro r a t hkept _ hstep
  cases a with
  | request p =>
      unfold readMachine at hstep
      dsimp only at hstep
      split at hstep
      · rename_i hguard
        cases hstep
        exact hkept.request hguard.1 hguard.2.1 hguard.2.2
      · cases hstep
  | call answers =>
      unfold readMachine at hstep
      dsimp only at hstep
      cases hrequest : r.request with
      | none =>
          rw [hrequest] at hstep
          cases hstep
      | some p =>
          rw [hrequest] at hstep
          dsimp only at hstep
          obtain ⟨hoffset, hlt⟩ := hkept.offset_lt p hrequest
          have hsafe := readUntil_safe hprefetch hkept.length_recvBuf hkept.start_le hkept.end_le
            rfl hlt hoffset hkept.empty_of_offset answers
          generalize r.reader.readUntil prefetch p.length p answers = result at hsafe hstep
          cases hsafe with
          | noAnswer => cases hstep
          | ok hout =>
              cases hstep
              exact hkept.returned hrequest hout

theorem Kept.reassembled (h : r.Kept prefetch) : r.Reassembled prefetch where
  trapped := h.trapped
  length_eq := h.length_eq
  output_prefix := by
    cases hrequest : r.request with
    | none =>
        rw [(h.idle hrequest).2.2]
        exact List.prefix_append _ _
    | some p =>
        rw [h.received_eq p hrequest]
        exact List.prefix_append _ _
  missing_eq n hn := by
    cases hrequest : r.request with
    | none =>
        rw [(h.idle hrequest).2.1] at hn
        cases hn
    | some p =>
        obtain ⟨hcount, hempty⟩ := h.missing_eq p n hrequest hn
        have hoffset := (h.offset_lt p hrequest).1
        refine ⟨p, rfl, by omega, by omega, ?_⟩
        have hbuffered : r.reader.buffered = [] := by
          unfold Reader.buffered
          rw [hempty, Nat.sub_self, List.take_zero]
        rw [h.received_eq p hrequest, hbuffered, List.append_nil, hcount,
          Nat.sub_sub_self (Nat.le_of_lt hoffset)]
  start_le := h.start_le
  end_le := h.end_le
  empty_of_offset := h.empty_of_offset

/-- **`read_until` reassembles the stream**: whatever the requests are and however the socket
splits the bytes, no access leaves the buffers, and the finished requests have the stream piece by
piece. -/
theorem reassembled_of_reached (hprefetch : prefetch < 2 ^ 32)
    (hreached : (readMachine prefetch).Reached r) :
    r.Reassembled prefetch :=
  (kept_of_reached hprefetch hreached).reassembled

/-- A large request, which an `EAGAIN` interrupts; a small one that leaves a byte in the prefetch
buffer, which the next one begins with; and a large one that begins in the buffer and misses a
byte. -/
theorem reassembled_of_reached_interrupted : ∃ r, (readMachine 2).Reached r ∧
    r.finished = [(3, [1, 2, 3]), (1, [4]), (2, [5, 6])] ∧ r.missing = some 1 ∧
    r.Reassembled 2 := by
  obtain ⟨r, hreplay, hfinished, hmissing⟩ : ∃ r,
      (readMachine 2).replay (fun _ _ => True)
        ⟨⟨[0, 0, 0, 0], 0, 0, 0⟩, none, none, [], [], false⟩
        [.request [0, 0, 0], .call [⟨1, some [1]⟩, ⟨0, none⟩], .call [⟨0, some [2, 3]⟩],
          .request [0], .call [⟨0, some [4, 5]⟩],
          .request [0, 0], .call [⟨0, none⟩], .call [⟨2, some [6, 7]⟩],
          .request [0, 0, 0], .call [⟨0, some [8]⟩, ⟨0, none⟩]] = some r ∧
      r.finished = [(3, [1, 2, 3]), (1, [4]), (2, [5, 6])] ∧ r.missing = some 1 :=
    ⟨_, rfl, rfl, rfl⟩
  have hreached : (readMachine 2).Reached r :=
    .of_replay (.start ⟨rfl, rfl, rfl, rfl, rfl, rfl, rfl, rfl, rfl⟩) hreplay
  exact ⟨r, hreached, hfinished, hmissing, reassembled_of_reached (by decide) hreached⟩

end ReadRun

end HwAsync.Framing
