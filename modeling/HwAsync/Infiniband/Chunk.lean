/-
# Chunks

`Infiniband::MemoryManager::Chunk` is a registered buffer with two cursors.  A
received chunk is read between `offset` and `bound`; a chunk being sent is
written from `offset` up to its size.  Chunks are passed by value here, under
the address that work requests carry as `wr_id`: at any time a chunk has one
owner, so that no two copies can disagree.

`offset`, `bound` and `bytes` are 32-bit in the source, and so is the length a
caller passes: a caller that holds a `size_t` truncates it at the call.
-/

import Mathlib.Algebra.Group.Nat.Defs
import Mathlib.Data.List.Basic
import Mathlib.Tactic.Common

namespace HwAsync.Infiniband

/-- Subtraction of `uint32_t`s. -/
def sub32 (a b : ℕ) : ℕ := (a + 2 ^ 32 - b) % 2 ^ 32

theorem sub32_of_le {a b : ℕ} (hle : b ≤ a) (ha : a < 2 ^ 32) : sub32 a b = a - b := by
  have h : a + 2 ^ 32 - b = a - b + 2 ^ 32 := by omega
  rw [sub32, h, Nat.add_mod_right, Nat.mod_eq_of_lt (by omega)]

/-- `memcpy(memory + start, src, src.size())`, inside the memory. -/
def overwrite (memory : List UInt8) (start : ℕ) (src : List UInt8) : List UInt8 :=
  memory.take start ++ src.take (memory.length - start) ++ memory.drop (start + src.length)

@[simp]
theorem length_overwrite (memory : List UInt8) (start : ℕ) (src : List UInt8) :
    (overwrite memory start src).length = memory.length := by
  simp only [overwrite, List.length_append, List.length_take, List.length_drop]
  omega

/-- What lies before the end of the copied bytes afterwards. -/
theorem take_overwrite {memory : List UInt8} {start : ℕ} {src : List UInt8}
    (hfits : start + src.length ≤ memory.length) :
    (overwrite memory start src).take (start + src.length) = memory.take start ++ src := by
  have hsrc : src.take (memory.length - start) = src := List.take_of_length_le (by omega)
  have hlen : (memory.take start ++ src).length = start + src.length := by
    simp only [List.length_append, List.length_take]
    omega
  rw [overwrite, hsrc, ← hlen, List.take_left]

/-- `Infiniband::MemoryManager::Chunk`.  `data` is the memory behind `buffer`. -/
structure Chunk where
  addr : ℕ
  bytes : ℕ
  bound : ℕ
  offset : ℕ
  data : List UInt8
  length_data : data.length = bytes
  deriving DecidableEq

namespace Chunk

/-- A chunk that was just set up. -/
def empty (addr bytes : ℕ) : Chunk :=
  ⟨addr, bytes, 0, 0, List.replicate bytes 0, List.length_replicate⟩

/-- `Chunk::prepare_read`. -/
def prepareRead (c : Chunk) (b : ℕ) : Chunk := { c with offset := 0, bound := b }

/-- `Chunk::clear`. -/
def clear (c : Chunk) : Chunk := { c with offset := 0, bound := 0 }

/-- `Chunk::full`. -/
def isFull (c : Chunk) : Bool := c.offset == c.bytes

/-- `Chunk::over`. -/
def isOver (c : Chunk) : Bool := c.offset == c.bound

/-- What `Chunk::read` leaves: the count returned, the bytes copied out and the
chunk. -/
structure Copied where
  count : ℕ
  out : List UInt8
  chunk : Chunk

/-- `Chunk::read`. -/
def read (c : Chunk) (len : ℕ) : Copied :=
  let left := sub32 c.bound c.offset
  if len ≤ left then
    ⟨len, (c.data.drop c.offset).take len, { c with offset := (c.offset + len) % 2 ^ 32 }⟩
  else
    ⟨left, (c.data.drop c.offset).take left, { c with offset := 0, bound := 0 }⟩

/-- `Chunk::write`, from a buffer that holds `src`: the count returned and the
chunk. -/
def write (c : Chunk) (src : List UInt8) : ℕ × Chunk :=
  let left := sub32 c.bytes c.offset
  if src.length ≤ left then
    (src.length,
      { c with
        offset := (c.offset + src.length) % 2 ^ 32
        data := overwrite c.data c.offset src
        length_data := by rw [length_overwrite, c.length_data] })
  else
    (left,
      { c with
        offset := c.bytes
        data := overwrite c.data c.offset (src.take left)
        length_data := by rw [length_overwrite, c.length_data] })

/-! ## Reading -/

/-- A chunk whose cursors delimit bytes inside its buffer. -/
structure Readable (c : Chunk) : Prop where
  offset_le : c.offset ≤ c.bound
  bound_le : c.bound ≤ c.bytes
  bytes_lt : c.bytes < 2 ^ 32

/-- The bytes of a chunk that are still to be read. -/
def unread (c : Chunk) : List UInt8 := (c.data.drop c.offset).take (c.bound - c.offset)

theorem length_unread {c : Chunk} (hc : c.Readable) :
    c.unread.length = c.bound - c.offset := by
  obtain ⟨hoffset, hbound, -⟩ := hc
  simp only [unread, List.length_take, List.length_drop, c.length_data]
  omega

/-- A readable chunk is over exactly when it has no unread byte. -/
theorem isOver_iff {c : Chunk} (hc : c.Readable) : c.isOver = true ↔ c.unread = [] := by
  rw [← List.length_eq_zero_iff, length_unread hc, isOver, beq_iff_eq]
  have h := hc.offset_le
  omega

theorem readable_prepareRead {c : Chunk} {b : ℕ} (hb : b ≤ c.bytes) (hc : c.bytes < 2 ^ 32) :
    (c.prepareRead b).Readable :=
  ⟨Nat.zero_le b, hb, hc⟩

@[simp]
theorem addr_prepareRead (c : Chunk) (b : ℕ) : (c.prepareRead b).addr = c.addr := rfl

@[simp]
theorem unread_prepareRead (c : Chunk) (b : ℕ) : (c.prepareRead b).unread = c.data.take b := by
  simp [unread, prepareRead]

/-- What `Chunk::read` does to a readable chunk: it moves a prefix of the unread
bytes, all of them or as many as were asked for. -/
theorem read_spec {c : Chunk} (hc : c.Readable) (len : ℕ) :
    (c.read len).chunk.Readable ∧ (c.read len).chunk.addr = c.addr ∧
      (c.read len).count = min len c.unread.length ∧
      (c.read len).out = c.unread.take len ∧
      (c.read len).chunk.unread = c.unread.drop len := by
  have hlength := length_unread hc
  obtain ⟨hoffset, hbound, hbytes⟩ := hc
  have hleft : sub32 c.bound c.offset = c.bound - c.offset := sub32_of_le hoffset (by omega)
  by_cases hlen : len ≤ c.bound - c.offset
  · have hmod : (c.offset + len) % 2 ^ 32 = c.offset + len := Nat.mod_eq_of_lt (by omega)
    simp only [read, hleft, if_pos hlen, hmod]
    refine ⟨⟨by simp; omega, hbound, hbytes⟩, trivial, by omega, ?_, ?_⟩
    · rw [unread, List.take_take, Nat.min_eq_left hlen]
    · simp only [unread, List.drop_take, List.drop_drop]
      congr 1
      omega
  · simp only [read, hleft, if_neg hlen]
    have hall : c.unread.take len = c.unread := List.take_of_length_le (by omega)
    refine ⟨⟨Nat.le_refl 0, Nat.zero_le _, hbytes⟩, trivial, by omega, hall.symm, ?_⟩
    rw [List.drop_eq_nil_of_le (by omega)]
    simp [unread]

/-! ## Writing -/

/-- A chunk whose write cursor is inside its buffer. -/
structure Writable (c : Chunk) : Prop where
  offset_le : c.offset ≤ c.bytes
  bytes_lt : c.bytes < 2 ^ 32

/-- The bytes a posted chunk sends: those before its offset. -/
def sent (c : Chunk) : List UInt8 := c.data.take c.offset

theorem isFull_iff (c : Chunk) : c.isFull = true ↔ c.offset = c.bytes := by
  simp [isFull]

@[simp]
theorem addr_clear (c : Chunk) : c.clear.addr = c.addr := rfl

/-- What `Chunk::write` does to a writable chunk: it takes as many bytes as fit. -/
theorem write_spec {c : Chunk} (hc : c.Writable) (src : List UInt8) :
    (c.write src).2.Writable ∧ (c.write src).2.addr = c.addr ∧
      (c.write src).2.bytes = c.bytes ∧
      (c.write src).1 = min src.length (c.bytes - c.offset) ∧
      (c.write src).2.offset = c.offset + (c.write src).1 ∧
      (c.write src).2.sent = c.sent ++ src.take (c.write src).1 := by
  obtain ⟨hoffset, hbytes⟩ := hc
  have hleft : sub32 c.bytes c.offset = c.bytes - c.offset := sub32_of_le hoffset hbytes
  have hdata := c.length_data
  by_cases hlen : src.length ≤ c.bytes - c.offset
  · have hmod : (c.offset + src.length) % 2 ^ 32 = c.offset + src.length :=
      Nat.mod_eq_of_lt (by omega)
    simp only [write, hleft, if_pos hlen, hmod]
    refine ⟨⟨by simp; omega, hbytes⟩, trivial, trivial, by omega, trivial, ?_⟩
    simp only [sent]
    rw [take_overwrite (by omega), List.take_length]
  · have htake : (src.take (c.bytes - c.offset)).length = c.bytes - c.offset := by
      rw [List.length_take]
      omega
    simp only [write, hleft, if_neg hlen]
    refine ⟨⟨Nat.le_refl _, hbytes⟩, trivial, trivial, by omega, by omega, ?_⟩
    have h := @take_overwrite c.data c.offset (src.take (c.bytes - c.offset)) (by omega)
    rw [htake, Nat.add_sub_cancel' hoffset] at h
    exact h

/-- A write that leaves room has taken every byte. -/
theorem write_eq_length {c : Chunk} (hc : c.Writable) {src : List UInt8}
    (hroom : (c.write src).2.isFull = false) : (c.write src).1 = src.length := by
  obtain ⟨-, -, hbytes, hcount, hoffset, -⟩ := write_spec hc src
  have hne : (c.write src).2.offset ≠ (c.write src).2.bytes := by
    intro h
    simp [isFull, h] at hroom
  have hle := hc.offset_le
  omega

end Chunk

/-- A receive completion.  `chunk` is the buffer that `wr_id` points to, as the
adapter left it: `byteLen` bytes were written to its front. -/
structure IbvWc where
  chunk : Chunk
  byteLen : ℕ
  success : Bool
  byteLen_le : byteLen ≤ chunk.bytes
  bytes_lt : chunk.bytes < 2 ^ 32
  deriving DecidableEq

namespace IbvWc

/-- The bytes a completion delivers. -/
def payload (w : IbvWc) : List UInt8 := w.chunk.data.take w.byteLen

@[simp]
theorem length_payload (w : IbvWc) : w.payload.length = w.byteLen := by
  have h := w.byteLen_le
  simp only [payload, List.length_take, w.chunk.length_data]
  omega

/-- The chunk of a completion, prepared for reading, holds the payload. -/
theorem prepared (w : IbvWc) :
    (w.chunk.prepareRead w.byteLen).Readable ∧
      (w.chunk.prepareRead w.byteLen).unread = w.payload :=
  ⟨Chunk.readable_prepareRead w.byteLen_le w.bytes_lt, Chunk.unread_prepareRead _ _⟩

end IbvWc

end HwAsync.Infiniband
