/-
# Little-endian byte strings

Fixed-width integers as the machine keeps them: `storeLE` writes a number into
a given count of bytes, least significant first, and `loadLE` reads them back.
Byte-order conversion is reversal of the stored bytes, so the two network
helpers are one function.
-/

import Mathlib.Data.List.Basic
import Mathlib.Tactic.Common
import Mathlib.Tactic.Ring

namespace HwAsync.Lib

/-- The `count` low bytes of `n`, least significant first. -/
def storeLE : ℕ → ℕ → List UInt8
  | 0, _ => []
  | count + 1, n => UInt8.ofNat (n % 256) :: storeLE count (n / 256)

/-- The number stored in a byte string, least significant byte first. -/
def loadLE : List UInt8 → ℕ
  | [] => 0
  | b :: bs => b.toNat + 256 * loadLE bs

@[simp]
theorem length_storeLE (count n : ℕ) : (storeLE count n).length = count := by
  induction count generalizing n with
  | zero => rfl
  | succ count ih => simp [storeLE, ih]

/-- Storing what was loaded gives the bytes back. -/
theorem storeLE_loadLE (bs : List UInt8) : storeLE bs.length (loadLE bs) = bs := by
  induction bs with
  | nil => rfl
  | cons b bs ih =>
      have hb : b.toNat < 256 := b.toNat_lt
      have hmod : (b.toNat + 256 * loadLE bs) % 256 = b.toNat := by omega
      have hdiv : (b.toNat + 256 * loadLE bs) / 256 = loadLE bs := by omega
      simp only [List.length_cons, loadLE, storeLE, hmod, hdiv, ih, UInt8.ofNat_toNat]

/-- Loading what was stored gives the number back, up to the width. -/
theorem loadLE_storeLE (count n : ℕ) : loadLE (storeLE count n) = n % 256 ^ count := by
  induction count generalizing n with
  | zero => simp [storeLE, loadLE, Nat.mod_one]
  | succ count ih =>
      have hbyte : (UInt8.ofNat (n % 256)).toNat = n % 256 := by
        simp [UInt8.toNat_ofNat']
      rw [storeLE, loadLE, ih, hbyte, pow_succ', Nat.mod_mul]

theorem loadLE_lt (bs : List UInt8) : loadLE bs < 256 ^ bs.length := by
  induction bs with
  | nil => simp [loadLE]
  | cons b bs ih =>
      have hb : b.toNat < 256 := b.toNat_lt
      rw [loadLE, List.length_cons, pow_succ]
      omega

theorem loadLE_storeLE_of_lt {count n : ℕ} (h : n < 256 ^ count) :
    loadLE (storeLE count n) = n := by
  rw [loadLE_storeLE, Nat.mod_eq_of_lt h]

/-! ## Byte order -/

/-- Exchange the byte order of a four-byte number. -/
def swap32 (n : ℕ) : ℕ := loadLE (storeLE 4 n).reverse

theorem swap32_lt (n : ℕ) : swap32 n < 2 ^ 32 := by
  have h := loadLE_lt (storeLE 4 n).reverse
  simpa [swap32] using h

/-- Swapping a loaded word reads its bytes the other way round. -/
theorem swap32_loadLE {bs : List UInt8} (hlen : bs.length = 4) :
    swap32 (loadLE bs) = loadLE bs.reverse := by
  rw [swap32, ← hlen, storeLE_loadLE]

/-- Storing a swapped word writes its bytes the other way round. -/
theorem storeLE_swap32 (n : ℕ) : storeLE 4 (swap32 n) = (storeLE 4 n).reverse := by
  have h := storeLE_loadLE (storeLE 4 n).reverse
  simpa [swap32] using h

/-- A word that is loaded, swapped, swapped back and stored is unchanged. -/
theorem storeLE_swap32_swap32 {bs : List UInt8} (hlen : bs.length = 4) :
    storeLE 4 (swap32 (swap32 (loadLE bs))) = bs := by
  rw [storeLE_swap32, swap32_loadLE hlen]
  have h := storeLE_loadLE bs.reverse
  rw [List.length_reverse, hlen] at h
  rw [h, List.reverse_reverse]

end HwAsync.Lib
