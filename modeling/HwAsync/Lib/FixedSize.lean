/-
# Structures that are copied byte by byte

A value of a fixed size goes onto a wire as its bytes and is read back from as
many bytes.  The codec of a structure is put together from the codecs of its
fields, in order and without padding.
-/

import HwAsync.Lib.Bytes

namespace HwAsync.Lib

universe ua ub

/-- A value as a fixed number of bytes. -/
structure FixedSize (α : Type ua) where
  size : ℕ
  bytes : α → List UInt8
  ofBytes : List UInt8 → α
  length_bytes : ∀ a, (bytes a).length = size
  ofBytes_bytes : ∀ a, ofBytes (bytes a) = a

namespace FixedSize

variable {α : Type ua} {β : Type ub}

/-- A number below `256 ^ count`, least significant byte first. -/
def number (count : ℕ) (toNat : α → ℕ) (ofNat : ℕ → α) (hlt : ∀ a, toNat a < 256 ^ count)
    (hof : ∀ a, ofNat (toNat a) = a) : FixedSize α where
  size := count
  bytes a := storeLE count (toNat a)
  ofBytes bs := ofNat (loadLE bs)
  length_bytes a := length_storeLE count (toNat a)
  ofBytes_bytes a := by rw [loadLE_storeLE_of_lt (hlt a), hof a]

/-- One value directly behind the other. -/
def pair (c : FixedSize α) (d : FixedSize β) : FixedSize (α × β) where
  size := c.size + d.size
  bytes a := c.bytes a.1 ++ d.bytes a.2
  ofBytes bs := (c.ofBytes (bs.take c.size), d.ofBytes (bs.drop c.size))
  length_bytes a := by rw [List.length_append, c.length_bytes, d.length_bytes]
  ofBytes_bytes a := by
    have hlength := c.length_bytes a.1
    rw [← hlength, List.take_left, List.drop_left, c.ofBytes_bytes, d.ofBytes_bytes]

/-- The same bytes read as another type. -/
def map (c : FixedSize α) (view : α → β) (back : β → α) (hview : ∀ b, view (back b) = b) :
    FixedSize β where
  size := c.size
  bytes b := c.bytes (back b)
  ofBytes bs := view (c.ofBytes bs)
  length_bytes b := c.length_bytes (back b)
  ofBytes_bytes b := by rw [c.ofBytes_bytes, hview]

def u8 : FixedSize UInt8 :=
  number 1 UInt8.toNat UInt8.ofNat UInt8.toNat_lt fun _ => UInt8.ofNat_toNat

def u16 : FixedSize UInt16 :=
  number 2 UInt16.toNat UInt16.ofNat UInt16.toNat_lt fun _ => UInt16.ofNat_toNat

def u32 : FixedSize UInt32 :=
  number 4 UInt32.toNat UInt32.ofNat UInt32.toNat_lt fun _ => UInt32.ofNat_toNat

def u64 : FixedSize UInt64 :=
  number 8 UInt64.toNat UInt64.ofNat UInt64.toNat_lt fun _ => UInt64.ofNat_toNat

end FixedSize

end HwAsync.Lib
