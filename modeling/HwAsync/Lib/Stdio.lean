/-
# Formatted text: `printf` and `scanf` conversions

The conversions of the C standard library that a textual wire message is built
from: zero-padded hexadecimal output, and the input directives `%u`, `%x` and
`%s` with literal bytes between them.  Formats are data, so that the two format
strings of an encoder and a decoder can be compared.

Input follows the documented behaviour of `scanf`: numeric directives skip
white space, take an optional sign, convert as `strtoul` does (saturating at
the largest `unsigned long`), and the scan stops for good at the first
directive that fails, leaving the remaining arguments unassigned.
-/

import Mathlib.Data.List.TakeWhile
import Mathlib.Data.Nat.Log
import Mathlib.Tactic.Common
import Mathlib.Tactic.Ring

namespace HwAsync.Lib.Stdio

/-! ## Digits -/

/-- The digit `d < 16` as printed in lower-case hexadecimal. -/
def digitByte (d : ℕ) : UInt8 :=
  if d < 10 then UInt8.ofNat (48 + d) else UInt8.ofNat (87 + d)

/-- The value of a digit of either case. -/
def digitVal (b : UInt8) : Option ℕ :=
  if 48 ≤ b.toNat ∧ b.toNat ≤ 57 then some (b.toNat - 48)
  else if 97 ≤ b.toNat ∧ b.toNat ≤ 102 then some (b.toNat - 87)
  else if 65 ≤ b.toNat ∧ b.toNat ≤ 70 then some (b.toNat - 55)
  else none

/-- The value of a byte as a digit of the given base. -/
def digitOf (base : ℕ) (b : UInt8) : Option ℕ :=
  match digitVal b with
  | some d => if d < base then some d else none
  | none => none

theorem digitVal_digitByte : ∀ d < 16, digitVal (digitByte d) = some d := by decide

/-- A printed digit reads back in every base that has it. -/
theorem digitOf_digitByte {base d : ℕ} (hd : d < 16) :
    digitOf base (digitByte d) = if d < base then some d else none := by
  simp [digitOf, digitVal_digitByte d hd]

/-- The number a digit string denotes, most significant digit first. -/
def ofDigits (base : ℕ) (ds : List ℕ) : ℕ := ds.foldl (fun acc d => base * acc + d) 0

@[simp]
theorem ofDigits_nil (base : ℕ) : ofDigits base [] = 0 := rfl

@[simp]
theorem ofDigits_append_singleton (base : ℕ) (ds : List ℕ) (d : ℕ) :
    ofDigits base (ds ++ [d]) = base * ofDigits base ds + d := by
  simp [ofDigits, List.foldl_append]

/-- Exactly `width` digits of `n`, most significant first. -/
def fixedDigits (base : ℕ) : ℕ → ℕ → List ℕ
  | 0, _ => []
  | width + 1, n => fixedDigits base width (n / base) ++ [n % base]

@[simp]
theorem length_fixedDigits (base width n : ℕ) :
    (fixedDigits base width n).length = width := by
  induction width generalizing n with
  | zero => rfl
  | succ width ih => simp [fixedDigits, ih]

theorem lt_of_mem_fixedDigits {base width n d : ℕ} (hbase : 0 < base)
    (hd : d ∈ fixedDigits base width n) : d < base := by
  induction width generalizing n with
  | zero => simp [fixedDigits] at hd
  | succ width ih =>
      simp only [fixedDigits, List.mem_append, List.mem_singleton] at hd
      rcases hd with hd | rfl
      · exact ih hd
      · exact Nat.mod_lt _ hbase

/-- Fixed-width digits denote the number again, up to the width. -/
theorem ofDigits_fixedDigits (base width n : ℕ) :
    ofDigits base (fixedDigits base width n) = n % base ^ width := by
  induction width generalizing n with
  | zero => simp [fixedDigits, Nat.mod_one]
  | succ width ih =>
      rw [fixedDigits, ofDigits_append_singleton, ih, pow_succ', Nat.mod_mul]
      ring

/-! ## Output -/

/-- `%0<width>x`: at least `width` hexadecimal digits, zero padded. -/
def formatHex (width n : ℕ) : List UInt8 :=
  (fixedDigits 16 (max width (Nat.log2 n / 4 + 1)) n).map digitByte

/-- A number below `16 ^ width` is printed with exactly `width` digits. -/
theorem formatHex_of_lt {width n : ℕ} (hwidth : 0 < width) (h : n < 16 ^ width) :
    formatHex width n = (fixedDigits 16 width n).map digitByte := by
  have hlog : Nat.log2 n / 4 + 1 ≤ width := by
    rcases Nat.eq_zero_or_pos n with rfl | hpos
    · simpa [Nat.log2_zero] using Nat.succ_le_of_lt hwidth
    · have hbits : n < 2 ^ (4 * width) := by rwa [pow_mul]
      have hlt : Nat.log2 n < 4 * width := (Nat.log2_lt (by omega)).mpr hbits
      omega
  rw [formatHex, max_eq_left hlog]

/-! ## Input -/

/-- White space in the C locale. -/
def isSpace (b : UInt8) : Bool := b == 32 || (9 ≤ b.toNat && b.toNat ≤ 13)

/-- The string a `char` array holds: its bytes up to the terminating zero. -/
def cString (memory : List UInt8) : List UInt8 := memory.takeWhile (· ≠ 0)

/-- The longest run of digits at the front of the input, and what follows. -/
def spanDigits (base : ℕ) : List UInt8 → List ℕ × List UInt8
  | [] => ([], [])
  | b :: rest =>
      match digitOf base b with
      | some d => (d :: (spanDigits base rest).1, (spanDigits base rest).2)
      | none => ([], b :: rest)

/-- An optional sign; `true` is a minus. -/
def scanSign : List UInt8 → Bool × List UInt8
  | b :: rest => if b = 45 then (true, rest) else if b = 43 then (false, rest)
      else (false, b :: rest)
  | [] => (false, [])

/-- The optional `0x` prefix of a hexadecimal number. -/
def skipHexMark : List UInt8 → List UInt8
  | b :: c :: rest => if b = 48 ∧ (c = 120 ∨ c = 88) then rest else b :: c :: rest
  | short => short

/-- The value `strtoul` gives a digit string. -/
def strtoul (negative : Bool) (n : ℕ) : ℕ :=
  if 2 ^ 64 ≤ n then 2 ^ 64 - 1 else if negative then (2 ^ 64 - n) % 2 ^ 64 else n

/-- A numeric directive: the converted number and the rest of the input, or
`none` when no digit matches. -/
def scanNumber (base : ℕ) (input : List UInt8) : Option (ℕ × List UInt8) :=
  let signed := scanSign (input.dropWhile isSpace)
  let digits := spanDigits base (if base = 16 then skipHexMark signed.2 else signed.2)
  if digits.1 = [] then none
  else some (strtoul signed.1 (ofDigits base digits.1), digits.2)

/-- `%s`: a nonempty run of bytes that are not white space. -/
def scanToken (input : List UInt8) : Option (List UInt8 × List UInt8) :=
  let start := input.dropWhile isSpace
  if start.takeWhile (fun b => !isSpace b) = [] then none
  else some (start.takeWhile (fun b => !isSpace b), start.dropWhile (fun b => !isSpace b))

/-- A directive of an input format. -/
inductive Directive
  | literal (b : UInt8)
  | number (base : ℕ)
  | token
  deriving DecidableEq

/-- What a directive assigned. -/
inductive Assigned
  | number (n : ℕ)
  | token (bs : List UInt8)
  deriving DecidableEq

/-- Run an input format: the assignments made before the first failure. -/
def scan : List Directive → List UInt8 → List Assigned
  | [], _ => []
  | .literal _ :: _, [] => []
  | .literal b :: format, c :: input => if b = c then scan format input else []
  | .number base :: format, input =>
      match scanNumber base input with
      | some (n, rest) => .number n :: scan format rest
      | none => []
  | .token :: format, input =>
      match scanToken input with
      | some (bs, rest) => .token bs :: scan format rest
      | none => []

/-! ## Reading back what was printed -/

theorem isSpace_digitByte : ∀ d < 16, isSpace (digitByte d) = false := by decide

theorem digitByte_ne_mark : ∀ d < 16, digitByte d ≠ 45 ∧ digitByte d ≠ 43 ∧
    digitByte d ≠ 120 ∧ digitByte d ≠ 88 ∧ digitByte d ≠ 0 := by decide

/-- Input that cannot extend a number printed before it: it ends there, or goes
on with a byte that is neither a digit nor the mark of a base. -/
def Separated (rest : List UInt8) : Prop :=
  ∀ b ∈ rest.head?, digitVal b = none ∧ b ≠ 120 ∧ b ≠ 88

theorem separated_nil : Separated [] := by simp [Separated]

theorem spanDigits_separated {base : ℕ} {rest : List UInt8} (hrest : Separated rest) :
    spanDigits base rest = ([], rest) := by
  cases rest with
  | nil => rfl
  | cons b rest =>
      have hb := (hrest b (by simp)).1
      simp [spanDigits, digitOf, hb]

/-- Printed digits are consumed up to the first one the base does not have. -/
theorem spanDigits_map_digitByte (base : ℕ) (ds : List ℕ) (hds : ∀ d ∈ ds, d < 16)
    {rest : List UInt8} (hrest : Separated rest) :
    spanDigits base (ds.map digitByte ++ rest) =
      (ds.takeWhile (· < base), (ds.dropWhile (· < base)).map digitByte ++ rest) := by
  induction ds with
  | nil => simpa using spanDigits_separated hrest
  | cons d ds ih =>
      have hd : d < 16 := hds d (by simp)
      have hds' : ∀ e ∈ ds, e < 16 := fun e he => hds e (by simp [he])
      rw [List.map_cons, List.cons_append, spanDigits, digitOf_digitByte hd]
      by_cases hlt : d < base
      · simp [hlt, ih hds']
      · simp [hlt]

theorem dropWhile_isSpace_digits {d : ℕ} (hd : d < 16) (tail : List UInt8) :
    (digitByte d :: tail).dropWhile isSpace = digitByte d :: tail := by
  simp [List.dropWhile, isSpace_digitByte d hd]

theorem scanSign_digits {d : ℕ} (hd : d < 16) (tail : List UInt8) :
    scanSign (digitByte d :: tail) = (false, digitByte d :: tail) := by
  obtain ⟨hminus, hplus, -⟩ := digitByte_ne_mark d hd
  simp [scanSign, hminus, hplus]

/-- No printed digit, and nothing separated, is taken for the mark of a base. -/
theorem skipHexMark_digits (ds : List ℕ) (hds : ∀ d ∈ ds, d < 16)
    {rest : List UInt8} (hrest : Separated rest) :
    skipHexMark (ds.map digitByte ++ rest) = ds.map digitByte ++ rest := by
  match ds, rest, hds, hrest with
  | [], [], _, _ => rfl
  | [], [_], _, _ => rfl
  | [], b :: c :: rest, _, hrest =>
      have hb : b ≠ 48 := by
        rintro rfl
        exact absurd (hrest 48 (by simp)).1 (by decide)
      simp [skipHexMark, hb]
  | [_], [], _, _ => rfl
  | [_], b :: rest, _, hrest =>
      obtain ⟨-, hx, hX⟩ := hrest b (by simp)
      simp [skipHexMark, hx, hX]
  | _ :: e :: ds, rest, hds, _ =>
      obtain ⟨-, -, hx, hX, -⟩ := digitByte_ne_mark e (hds e (by simp))
      simp [skipHexMark, hx, hX]

/-- A numeric directive in front of printed digits reads the leading digits
that its base has, and fails when there is none. -/
theorem scanNumber_map_digitByte (base : ℕ) (ds : List ℕ) (hne : ds ≠ [])
    (hds : ∀ d ∈ ds, d < 16) {rest : List UInt8} (hrest : Separated rest) :
    scanNumber base (ds.map digitByte ++ rest) =
      if ds.takeWhile (· < base) = [] then none
      else some (strtoul false (ofDigits base (ds.takeWhile (· < base))),
        (ds.dropWhile (· < base)).map digitByte ++ rest) := by
  obtain ⟨d, tail, rfl⟩ := List.exists_cons_of_ne_nil hne
  have hd : d < 16 := hds d (by simp)
  have hspan := spanDigits_map_digitByte base (d :: tail) hds hrest
  have hmark := skipHexMark_digits (d :: tail) hds hrest
  simp only [List.map_cons, List.cons_append] at hspan hmark
  simp only [scanNumber, List.map_cons, List.cons_append, dropWhile_isSpace_digits hd,
    scanSign_digits hd, hmark, ite_self, hspan]

@[simp]
theorem strtoul_of_lt {n : ℕ} (h : n < 2 ^ 64) : strtoul false n = n := by
  rw [strtoul, if_neg (Nat.not_le.mpr h)]
  rfl

/-- **Hexadecimal numbers read back.**  What `%0<width>x` prints, `%x` reads. -/
theorem scanNumber_formatHex {width n : ℕ} (hwidth : 0 < width) (h : n < 16 ^ width)
    (hlong : n < 2 ^ 64) {rest : List UInt8} (hrest : Separated rest) :
    scanNumber 16 (formatHex width n ++ rest) = some (n, rest) := by
  have hds : ∀ d ∈ fixedDigits 16 width n, d < 16 :=
    fun d hd => lt_of_mem_fixedDigits (by norm_num) hd
  have hne : fixedDigits 16 width n ≠ [] := by
    intro hnil
    have hlen := length_fixedDigits 16 width n
    rw [hnil] at hlen
    simp at hlen
    omega
  have htake : (fixedDigits 16 width n).takeWhile (· < 16) = fixedDigits 16 width n :=
    List.takeWhile_eq_self_iff.mpr fun d hd => by simpa using hds d hd
  have hdrop : (fixedDigits 16 width n).dropWhile (· < 16) = [] :=
    List.dropWhile_eq_nil_iff.mpr fun d hd => by simpa using hds d hd
  rw [formatHex_of_lt hwidth h, scanNumber_map_digitByte _ _ hne hds hrest, htake, hdrop,
    if_neg hne, ofDigits_fixedDigits, Nat.mod_eq_of_lt h, strtoul_of_lt hlong]
  simp

/-- A run of printed digits is one token. -/
theorem scanToken_map_digitByte (ds : List ℕ) (hne : ds ≠ []) (hds : ∀ d ∈ ds, d < 16) :
    scanToken (ds.map digitByte) = some (ds.map digitByte, []) := by
  have hnot : ∀ b ∈ ds.map digitByte, isSpace b = false := by
    intro b hb
    obtain ⟨d, hd, rfl⟩ := List.mem_map.mp hb
    exact isSpace_digitByte d (hds d hd)
  have hstart : (ds.map digitByte).dropWhile isSpace = ds.map digitByte := by
    obtain ⟨d, tail, rfl⟩ := List.exists_cons_of_ne_nil hne
    exact dropWhile_isSpace_digits (hds d (by simp)) _
  have htake : (ds.map digitByte).takeWhile (fun b => !isSpace b) = ds.map digitByte :=
    List.takeWhile_eq_self_iff.mpr fun b hb => by simp [hnot b hb]
  have hdrop : (ds.map digitByte).dropWhile (fun b => !isSpace b) = [] :=
    List.dropWhile_eq_nil_iff.mpr fun b hb => by simp [hnot b hb]
  simp [scanToken, hstart, htake, hdrop, hne]

end HwAsync.Lib.Stdio
