/-
# The handshake message of `Infiniband.cc`

Two RDMA endpoints exchange their addressing data as one line of text over TCP.
`send_msg` prints it with one format string, `recv_msg` scans it with another,
and the sixteen bytes of the gid travel as four swapped hexadecimal words.

The decoder leaves a field alone when its directive fails, so the message it
returns depends on what the receiver's structure and its two scratch buffers
held before; all three are arguments here.  The printed line and the scanned
line agree on every field but the lid, which is printed in hexadecimal and
scanned in decimal: the round trip holds exactly for the lids below ten.
-/

import HwAsync.Lib.Bytes
import HwAsync.Lib.Stdio

namespace HwAsync.Infiniband

open HwAsync.Lib HwAsync.Lib.Stdio

/-- `union ibv_gid`: sixteen bytes in memory order. -/
structure Gid where
  raw : List UInt8
  length_raw : raw.length = 16
  deriving DecidableEq

/-- The gid of zero bytes. -/
def Gid.zero : Gid := ⟨List.replicate 16 0, rfl⟩

/-- `struct IBSYNMsg`. -/
structure IBSYNMsg where
  lid : UInt16
  qpn : UInt32
  psn : UInt32
  peerQpn : UInt32
  gid : Gid
  deriving DecidableEq

/-- `TCP_MSG_LEN`: the line with its terminating zero. -/
def tcpMsgLen : ℕ := 65

def eintr : ℕ := 4
def eagain : ℕ := 11
def einval : ℕ := 22

/-- The separator of both format strings. -/
def colon : UInt8 := 58

/-! ## Sending -/

/-- The loop of `gid_to_wire_gid` over the words still to be printed. -/
def wireWords : ℕ → List UInt8 → List UInt8
  | 0, _ => []
  | count + 1, raw =>
      formatHex 8 (swap32 (loadLE (raw.take 4))) ++ wireWords count (raw.drop 4)

/-- `gid_to_wire_gid`, without the terminating zero. -/
def gidToWireGid (gid : Gid) : List UInt8 := wireWords 4 gid.raw

/-- The fields behind the lid, as `"%08x:%08x:%08x:%s"` prints them. -/
def formatAddress (im : IBSYNMsg) : List UInt8 :=
  formatHex 8 im.qpn.toNat ++ colon :: (formatHex 8 im.psn.toNat ++ colon ::
    (formatHex 8 im.peerQpn.toNat ++ colon :: gidToWireGid im.gid))

/-- The text `send_msg` prints with `"%04x:%08x:%08x:%08x:%s"`. -/
def formatMsg (im : IBSYNMsg) : List UInt8 :=
  formatHex 4 im.lid.toNat ++ colon :: formatAddress im

/-- The bytes `send_msg` hands to `write`: the text and its zero. -/
def msgBytes (im : IBSYNMsg) : List UInt8 := formatMsg im ++ [0]

/-- What one `write` of the message answers; `injected` is the configured
socket-failure injection firing after the call. -/
structure WriteResult where
  ret : ℤ
  errno : ℕ
  injected : Bool
  deriving DecidableEq

/-- `send_msg`: the value returned when the `k`-th attempt answers `attempt k`. -/
def sendMsg (attempt : ℕ → WriteResult) (retry : ℕ) : ℤ :=
  if (attempt retry).injected then -einval
  else if (attempt retry).ret = tcpMsgLen then 0
  else if (attempt retry).ret < 0 ∧
      ((attempt retry).errno = eintr ∨ (attempt retry).errno = eagain) ∧ retry < 3 then
    sendMsg attempt (retry + 1)
  else -(attempt retry).errno
termination_by 3 - retry

/-! ## Receiving -/

/-- What the one `read` of `recv_msg` answers; no bytes means that the peer
closed the connection. -/
inductive ReadResult
  | bytes (bs : List UInt8)
  | failed (errno : ℕ) (errno_pos : 0 < errno)
  deriving DecidableEq

/-- A read that delivered a whole handshake message. -/
def ReadResult.complete : ReadResult → Bool
  | .bytes bs => bs.length == tcpMsgLen
  | .failed _ _ => false

/-- The uninitialised memory `recv_msg` works in: its `gid` buffer, the word of
`wire_gid_to_gid`, and what follows the message buffer on the stack. -/
structure Scratch where
  gid : List UInt8
  word : ℕ
  beyond : List UInt8

/-- The format string of `recv_msg`, `"%hu:%x:%x:%x:%s"`. -/
def recvFormat : List Directive :=
  [.number 10, .literal colon, .number 16, .literal colon, .number 16, .literal colon,
    .number 16, .literal colon, .token]

/-- The number assigned by the `i`-th conversion, if it took place. -/
def numberAt (assigned : List Assigned) (i : ℕ) : Option ℕ :=
  match assigned[i]? with
  | some (Assigned.number n) => some n
  | _ => none

/-- The `gid` buffer after the scan: a converted token and its zero overwrite
the front of the old contents. -/
def gidBuffer (assigned : List Assigned) (old : List UInt8) : List UInt8 :=
  match assigned[4]? with
  | some (Assigned.token bs) => bs ++ 0 :: old.drop (bs.length + 1)
  | _ => old

/-- One `sscanf(tmp, "%x", &v32)`; the old word survives a failed conversion. -/
def scanWord (tmp : List UInt8) (v32 : ℕ) : ℕ :=
  match scanNumber 16 (cString (tmp ++ [0])) with
  | some (n, _) => n % 2 ^ 32
  | none => v32

/-- The loop of `wire_gid_to_gid` over the words still to be read. -/
def gidBytes : ℕ → List UInt8 → ℕ → List UInt8
  | 0, _, _ => []
  | count + 1, wgid, v32 =>
      storeLE 4 (swap32 (scanWord (wgid.take 8) v32)) ++
        gidBytes count (wgid.drop 8) (scanWord (wgid.take 8) v32)

@[simp]
theorem length_gidBytes (count : ℕ) (wgid : List UInt8) (v32 : ℕ) :
    (gidBytes count wgid v32).length = 4 * count := by
  induction count generalizing wgid v32 with
  | zero => rfl
  | succ count ih =>
      simp only [gidBytes, List.length_append, length_storeLE, ih]
      omega

/-- `wire_gid_to_gid`. -/
def wireGidToGid (wgid : List UInt8) (v32 : ℕ) : Gid where
  raw := gidBytes 4 wgid v32
  length_raw := length_gidBytes 4 wgid v32

/-- The message a full read leaves in `im`. -/
def decodeMsg (scratch : Scratch) (msg : List UInt8) (im : IBSYNMsg) : IBSYNMsg :=
  let assigned := scan recvFormat (cString (msg ++ scratch.beyond))
  { lid := ((numberAt assigned 0).map UInt16.ofNat).getD im.lid
    qpn := ((numberAt assigned 1).map UInt32.ofNat).getD im.qpn
    psn := ((numberAt assigned 2).map UInt32.ofNat).getD im.psn
    peerQpn := ((numberAt assigned 3).map UInt32.ofNat).getD im.peerQpn
    gid := wireGidToGid (gidBuffer assigned scratch.gid) scratch.word }

/-- `recv_msg`: the returned value and the message structure afterwards. -/
def recvMsg (injected : Bool) (scratch : Scratch) (read : ReadResult) (im : IBSYNMsg) :
    ℤ × IBSYNMsg :=
  if injected then (-einval, im)
  else
    match read with
    | .failed errno _ => (-errno, im)
    | .bytes bs =>
        if bs.length = 0 then (0, im)
        else if bs.length = tcpMsgLen then (bs.length, decodeMsg scratch bs im)
        else (-einval, im)

/-- The three kinds of results of `recv_msg`: an error and no bytes leave the
message structure alone, a complete message does not. -/
theorem recvMsg_cases (injected : Bool) (scratch : Scratch) (read : ReadResult)
    (im : IBSYNMsg) :
    ((recvMsg injected scratch read im).1 < 0 ∧ (recvMsg injected scratch read im).2 = im ∧
        (injected = true ∨ read.complete = false)) ∨
      (injected = false ∧ read = .bytes [] ∧ recvMsg injected scratch read im = (0, im)) ∨
      (injected = false ∧ read.complete = true ∧
        (recvMsg injected scratch read im).1 = tcpMsgLen) := by
  cases injected with
  | true => exact .inl ⟨by simp [recvMsg, einval], rfl, .inl rfl⟩
  | false =>
      cases read with
      | failed errno errno_pos =>
          exact .inl ⟨by simpa [recvMsg] using errno_pos, rfl, .inr rfl⟩
      | bytes bs =>
          by_cases hzero : bs.length = 0
          · obtain rfl := List.eq_nil_of_length_eq_zero hzero
            exact .inr (.inl ⟨rfl, rfl, rfl⟩)
          · by_cases hlen : bs.length = tcpMsgLen
            · have hne : tcpMsgLen ≠ 0 := by decide
              exact .inr (.inr ⟨rfl, by simp [ReadResult.complete, hlen],
                by simp [recvMsg, hlen, hne]⟩)
            · have hne : bs ≠ [] := fun h => hzero (by simp [h])
              exact .inl ⟨by simp [recvMsg, hne, hlen, einval], by simp [recvMsg, hne, hlen],
                .inr (by simpa [ReadResult.complete] using hlen)⟩

/-! ## What the decoder makes of a printed message -/

theorem colon_separated (tail : List UInt8) : Separated (colon :: tail) := by
  intro b hb
  have hb : b = colon := by simpa using hb.symm
  subst hb
  decide

theorem toNat_lt_pow_hex (x : UInt32) : x.toNat < 16 ^ 8 := by
  have h := x.toNat_lt
  norm_num at h ⊢
  exact h

/-- A printed 32-bit field is read back by `%x`. -/
theorem scanNumber_word {n : ℕ} (h : n < 2 ^ 32) {rest : List UInt8}
    (hrest : Separated rest) : scanNumber 16 (formatHex 8 n ++ rest) = some (n, rest) :=
  scanNumber_formatHex (by norm_num) (by norm_num at h ⊢; exact h) (by omega) hrest

/-- Every byte of a fixed-width hexadecimal field is a digit. -/
theorem exists_digits_formatHex {width n : ℕ} (hwidth : 0 < width) (h : n < 16 ^ width) :
    ∃ ds : List ℕ, ds.length = width ∧ (∀ d ∈ ds, d < 16) ∧
      formatHex width n = ds.map digitByte :=
  ⟨fixedDigits 16 width n, length_fixedDigits _ _ _,
    fun _ hd => lt_of_mem_fixedDigits (by norm_num) hd, formatHex_of_lt hwidth h⟩

theorem cString_append_zero {text : List UInt8} (htext : ∀ b ∈ text, b ≠ 0)
    (tail : List UInt8) : cString (text ++ 0 :: tail) = text := by
  rw [cString, List.takeWhile_append_of_pos (by simpa using htext)]
  simp

theorem digits_ne_zero {ds : List ℕ} (hds : ∀ d ∈ ds, d < 16) :
    ∀ b ∈ ds.map digitByte, b ≠ 0 := by
  intro b hb
  obtain ⟨d, hd, rfl⟩ := List.mem_map.mp hb
  exact (digitByte_ne_mark d (hds d hd)).2.2.2.2

/-- The wire form of a gid is a digit string of eight digits a word. -/
theorem exists_digits_wireWords (count : ℕ) (raw : List UInt8) :
    ∃ ds : List ℕ, ds.length = 8 * count ∧ (∀ d ∈ ds, d < 16) ∧
      wireWords count raw = ds.map digitByte := by
  induction count generalizing raw with
  | zero => exact ⟨[], rfl, by simp, rfl⟩
  | succ count ih =>
      obtain ⟨ds, hlen, hds, htext⟩ := exists_digits_formatHex (show 0 < 8 by norm_num)
        (show swap32 (loadLE (raw.take 4)) < 16 ^ 8 from
          lt_of_lt_of_eq (swap32_lt _) (by norm_num))
      obtain ⟨rest, hlenRest, hrest, htextRest⟩ := ih (raw.drop 4)
      refine ⟨ds ++ rest, by simp [hlen, hlenRest]; omega, ?_, ?_⟩
      · intro d hd
        rcases List.mem_append.mp hd with hd | hd
        · exact hds d hd
        · exact hrest d hd
      · rw [wireWords, htext, htextRest, List.map_append]

theorem scanWord_formatHex {n : ℕ} (h : n < 2 ^ 32) (v32 : ℕ) :
    scanWord (formatHex 8 n) v32 = n := by
  obtain ⟨ds, -, hds, htext⟩ := exists_digits_formatHex (show 0 < 8 by norm_num)
    (lt_of_lt_of_eq h (by norm_num))
  have hstring : cString (formatHex 8 n ++ [0]) = formatHex 8 n ++ [] := by
    rw [htext, cString_append_zero (digits_ne_zero hds), List.append_nil]
  rw [scanWord, hstring, scanNumber_word h separated_nil]
  exact Nat.mod_eq_of_lt h

theorem length_formatHex_word {n : ℕ} (h : n < 2 ^ 32) : (formatHex 8 n).length = 8 := by
  rw [formatHex_of_lt (by norm_num) (lt_of_lt_of_eq h (by norm_num))]
  simp

/-- The two gid helpers are inverse, whatever the scratch word held. -/
theorem gidBytes_wireWords (count : ℕ) {raw : List UInt8} (hlen : raw.length = 4 * count)
    (tail : List UInt8) (v32 : ℕ) :
    gidBytes count (wireWords count raw ++ tail) v32 = raw := by
  induction count generalizing raw v32 with
  | zero => simpa [gidBytes, eq_comm] using hlen
  | succ count ih =>
      have hword : (raw.take 4).length = 4 := by simp [hlen]
      have hlt := swap32_lt (loadLE (raw.take 4))
      have htake := length_formatHex_word hlt
      rw [wireWords, List.append_assoc, gidBytes, List.take_left' htake,
        List.drop_left' htake, scanWord_formatHex hlt, storeLE_swap32_swap32 hword,
        ih (by simp [hlen]; omega), List.take_append_drop]

theorem wireGidToGid_gidToWireGid (gid : Gid) (tail : List UInt8) (v32 : ℕ) :
    wireGidToGid (gidToWireGid gid ++ tail) v32 = gid := by
  obtain ⟨raw, hlen⟩ := gid
  simp only [wireGidToGid, gidToWireGid]
  congr 1
  exact gidBytes_wireWords 4 hlen tail v32

/-- Behind the lid the two formats agree on every field. -/
theorem scan_formatAddress (im : IBSYNMsg) :
    scan (recvFormat.drop 2) (formatAddress im) =
      [.number im.qpn.toNat, .number im.psn.toNat, .number im.peerQpn.toNat,
        .token (gidToWireGid im.gid)] := by
  obtain ⟨ds, hlen, hds, htext⟩ := exists_digits_wireWords 4 im.gid.raw
  have htoken : scanToken (gidToWireGid im.gid) = some (gidToWireGid im.gid, []) := by
    rw [gidToWireGid, htext]
    exact scanToken_map_digitByte ds (by rintro rfl; simp at hlen) hds
  simp only [recvFormat, List.drop, formatAddress, scan,
    scanNumber_word im.qpn.toNat_lt (colon_separated _),
    scanNumber_word im.psn.toNat_lt (colon_separated _),
    scanNumber_word im.peerQpn.toNat_lt (colon_separated _), htoken, if_true]

/-- The digits of the lid as printed. -/
def lidDigits (im : IBSYNMsg) : List ℕ := fixedDigits 16 4 im.lid.toNat

theorem toNat_lid_lt (im : IBSYNMsg) : im.lid.toNat < 16 ^ 4 := by
  have h := im.lid.toNat_lt
  norm_num at h ⊢
  exact h

theorem formatMsg_eq (im : IBSYNMsg) :
    formatMsg im = (lidDigits im).map digitByte ++ colon :: formatAddress im := by
  rw [formatMsg, formatHex_of_lt (by norm_num) (toNat_lid_lt im), lidDigits]

theorem formatMsg_ne_zero (im : IBSYNMsg) : ∀ b ∈ formatMsg im, b ≠ 0 := by
  have hword : ∀ x : UInt32, ∀ b ∈ formatHex 8 x.toNat, b ≠ 0 := by
    intro x
    obtain ⟨ds, -, hds, htext⟩ := exists_digits_formatHex (show 0 < 8 by norm_num)
      (toNat_lt_pow_hex x)
    rw [htext]
    exact digits_ne_zero hds
  have hgid : ∀ b ∈ gidToWireGid im.gid, b ≠ 0 := by
    obtain ⟨ds, -, hds, htext⟩ := exists_digits_wireWords 4 im.gid.raw
    rw [gidToWireGid, htext]
    exact digits_ne_zero hds
  have hlid : ∀ b ∈ (lidDigits im).map digitByte, b ≠ 0 :=
    digits_ne_zero fun d hd => lt_of_mem_fixedDigits (by norm_num) hd
  have hcolon : colon ≠ 0 := by decide
  intro b hb
  simp only [formatMsg_eq, formatAddress, List.mem_append, List.mem_cons] at hb
  rcases hb with hb | rfl | hb | rfl | hb | rfl | hb | rfl | hb
  · exact hlid b hb
  · exact hcolon
  · exact hword _ b hb
  · exact hcolon
  · exact hword _ b hb
  · exact hcolon
  · exact hword _ b hb
  · exact hcolon
  · exact hgid b hb

theorem length_msgBytes (im : IBSYNMsg) : (msgBytes im).length = tcpMsgLen := by
  obtain ⟨ds, hlen, -, htext⟩ := exists_digits_wireWords 4 im.gid.raw
  have hgid : (gidToWireGid im.gid).length = 32 := by simp [gidToWireGid, htext, hlen]
  have hqpn := length_formatHex_word im.qpn.toNat_lt
  have hpsn := length_formatHex_word im.psn.toNat_lt
  have hpeer := length_formatHex_word im.peerQpn.toNat_lt
  simp only [msgBytes, formatMsg_eq, formatAddress, lidDigits, List.length_append,
    List.length_map, length_fixedDigits, List.length_cons, List.length_nil, hgid, hqpn, hpsn,
    hpeer, tcpMsgLen]

/-- What the whole format assigns: the decimal digits the lid starts with, and
the rest only if these are all of them. -/
theorem scan_formatMsg (im : IBSYNMsg) :
    scan recvFormat (formatMsg im) =
      if (lidDigits im).takeWhile (· < 10) = [] then []
      else .number (strtoul false (ofDigits 10 ((lidDigits im).takeWhile (· < 10)))) ::
        if (lidDigits im).dropWhile (· < 10) = [] then
          scan (recvFormat.drop 2) (formatAddress im)
        else [] := by
  have hds : ∀ d ∈ lidDigits im, d < 16 :=
    fun d hd => lt_of_mem_fixedDigits (by norm_num) hd
  have hne : lidDigits im ≠ [] := by simp [lidDigits, fixedDigits]
  have hscan := scanNumber_map_digitByte 10 (lidDigits im) hne hds
    (colon_separated (formatAddress im))
  rw [formatMsg_eq, recvFormat, scan, hscan]
  by_cases htake : (lidDigits im).takeWhile (· < 10) = []
  · simp [htake]
  · simp only [htake, if_false]
    congr 1
    cases hdrop : (lidDigits im).dropWhile (· < 10) with
    | nil => simp [scan]
    | cons d rest =>
        -- the directive after the lid wants a colon, and the input has a digit
        have hmem : d ∈ lidDigits im := by
          have hsuffix : (lidDigits im).dropWhile (· < 10) <:+ lidDigits im :=
            List.dropWhile_suffix _
          rw [hdrop] at hsuffix
          exact hsuffix.mem (by simp)
        have hcolon : colon ≠ digitByte d := by
          have hall : ∀ e < 16, colon ≠ digitByte e := by decide
          exact hall d (hds d hmem)
        simp [scan, hcolon]

/-! ## The round trip -/

/-- When every digit of the lid is a decimal one, everything is read back, but
the lid is the decimal reading of its hexadecimal digits. -/
theorem decodeMsg_of_decimal {im : IBSYNMsg} (hdec : ∀ d ∈ lidDigits im, d < 10)
    (scratch : Scratch) (stale : IBSYNMsg) :
    decodeMsg scratch (msgBytes im) stale =
      { im with lid := UInt16.ofNat (ofDigits 10 (lidDigits im)) } := by
  have htake : (lidDigits im).takeWhile (· < 10) = lidDigits im :=
    List.takeWhile_eq_self_iff.mpr fun d hd => by simpa using hdec d hd
  have hdrop : (lidDigits im).dropWhile (· < 10) = [] :=
    List.dropWhile_eq_nil_iff.mpr fun d hd => by simpa using hdec d hd
  have hne : lidDigits im ≠ [] := by simp [lidDigits, fixedDigits]
  have hsmall : ofDigits 10 (lidDigits im) < 2 ^ 64 := by
    simp only [lidDigits, fixedDigits, List.nil_append, List.cons_append, List.mem_cons,
      List.not_mem_nil, or_false, forall_eq_or_imp, forall_eq, ofDigits, List.foldl_cons,
      List.foldl_nil] at hdec ⊢
    omega
  have hstring : cString (msgBytes im ++ scratch.beyond) = formatMsg im := by
    rw [msgBytes, List.append_assoc, List.singleton_append,
      cString_append_zero (formatMsg_ne_zero im)]
  have hassigned : scan recvFormat (formatMsg im) =
      .number (ofDigits 10 (lidDigits im)) :: [.number im.qpn.toNat, .number im.psn.toNat,
        .number im.peerQpn.toNat, .token (gidToWireGid im.gid)] := by
    rw [scan_formatMsg, htake, hdrop, if_neg hne, if_pos rfl, scan_formatAddress,
      strtoul_of_lt hsmall]
  simp only [decodeMsg, hstring, hassigned, numberAt, gidBuffer, List.getElem?_cons_zero,
    List.getElem?_cons_succ, Option.map_some, Option.getD_some, UInt32.ofNat_toNat,
    wireGidToGid_gidToWireGid]

/-- A lid with a letter in it stops the scan: the lid is read from the digits
before the letter, if any, and nothing behind it is assigned. -/
theorem lid_decodeMsg_of_letter {im : IBSYNMsg}
    (hletter : (lidDigits im).dropWhile (· < 10) ≠ []) (scratch : Scratch)
    (stale : IBSYNMsg) :
    (decodeMsg scratch (msgBytes im) stale).lid =
      if (lidDigits im).takeWhile (· < 10) = [] then stale.lid
      else UInt16.ofNat
        (strtoul false (ofDigits 10 ((lidDigits im).takeWhile (· < 10)))) := by
  have hstring : cString (msgBytes im ++ scratch.beyond) = formatMsg im := by
    rw [msgBytes, List.append_assoc, List.singleton_append,
      cString_append_zero (formatMsg_ne_zero im)]
  simp only [decodeMsg, hstring, scan_formatMsg, if_neg hletter]
  split <;> simp [numberAt]

/-- The message survives `send_msg` and a whole `recv_msg`, whatever the
receiver's structure and scratch memory held. -/
def RoundTrips (im : IBSYNMsg) : Prop :=
  ∀ (scratch : Scratch) (stale : IBSYNMsg),
    recvMsg false scratch (.bytes (msgBytes im)) stale = ((tcpMsgLen : ℤ), im)

theorem roundTrips_iff_decodeMsg (im : IBSYNMsg) :
    RoundTrips im ↔ ∀ scratch stale, decodeMsg scratch (msgBytes im) stale = im := by
  have hlen : tcpMsgLen ≠ 0 := by decide
  simp [RoundTrips, recvMsg, length_msgBytes, hlen]

/-- The four printed digits of the lid denote it. -/
theorem lidDigits_eq (im : IBSYNMsg) :
    ∃ a b c d : ℕ, lidDigits im = [a, b, c, d] ∧ a < 16 ∧ b < 16 ∧ c < 16 ∧ d < 16 ∧
      im.lid.toNat = 4096 * a + 256 * b + 16 * c + d := by
  have hlt := toNat_lid_lt im
  refine ⟨_, _, _, _, rfl, ?_⟩
  norm_num at hlt ⊢
  omega

/-- The decimal reading of hexadecimal digits is right for one-digit lids only. -/
theorem ofNat_ofDigits_eq_lid_iff {im : IBSYNMsg} (hdec : ∀ d ∈ lidDigits im, d < 10) :
    UInt16.ofNat (ofDigits 10 (lidDigits im)) = im.lid ↔ im.lid.toNat < 10 := by
  obtain ⟨a, b, c, d, hdigits, -, -, -, -, hlid⟩ := lidDigits_eq im
  rw [hdigits] at hdec ⊢
  simp only [List.mem_cons, List.not_mem_nil, or_false, forall_eq_or_imp, forall_eq] at hdec
  rw [← UInt16.toNat_inj, UInt16.toNat_ofNat', hlid]
  simp only [ofDigits, List.foldl_cons, List.foldl_nil]
  omega

/-- With a letter among its digits the lid is never read back: it keeps an old
value, or it is read from the digits before the letter and comes out too small. -/
theorem exists_lid_ne_of_letter {im : IBSYNMsg}
    (hletter : (lidDigits im).dropWhile (· < 10) ≠ []) (scratch : Scratch)
    (stale : IBSYNMsg) (hstale : stale.lid ≠ im.lid) :
    (decodeMsg scratch (msgBytes im) stale).lid ≠ im.lid := by
  rw [lid_decodeMsg_of_letter hletter]
  split
  · exact hstale
  · rename_i htake
    obtain ⟨a, b, c, d, hdigits, ha, hb, hc, hd, hlid⟩ := lidDigits_eq im
    rw [hdigits] at hletter htake ⊢
    rw [Ne, ← UInt16.toNat_inj, UInt16.toNat_ofNat', hlid]
    -- the digits before the first letter, whichever of the four that is
    have hprefix : ∃ p, [a, b, c, d].takeWhile (· < 10) = p ∧ ofDigits 10 p < 2 ^ 10 ∧
        ofDigits 10 p ≠ 4096 * a + 256 * b + 16 * c + d := by
      by_cases ha10 : a < 10
      · by_cases hb10 : b < 10
        · by_cases hc10 : c < 10
          · have hd10 : ¬ d < 10 := by
              intro hd10
              simp [ha10, hb10, hc10, hd10] at hletter
            refine ⟨[a, b, c], by simp [ha10, hb10, hc10, hd10], ?_⟩
            simp only [ofDigits, List.foldl_cons, List.foldl_nil]
            omega
          · refine ⟨[a, b], by simp [ha10, hb10, hc10], ?_⟩
            simp only [ofDigits, List.foldl_cons, List.foldl_nil]
            omega
        · refine ⟨[a], by simp [ha10, hb10], ?_⟩
          simp only [ofDigits, List.foldl_cons, List.foldl_nil]
          omega
      · simp [ha10] at htake
    obtain ⟨p, hp, hsmall, hne⟩ := hprefix
    rw [hp, strtoul_of_lt (by omega), Nat.mod_eq_of_lt (by omega)]
    exact hne

/-- The round trip as the two format strings were meant to give it holds exactly
for the lids below ten. -/
theorem roundTrips_iff_lid_lt_ten (im : IBSYNMsg) : RoundTrips im ↔ im.lid.toNat < 10 := by
  rw [roundTrips_iff_decodeMsg]
  by_cases hletter : (lidDigits im).dropWhile (· < 10) = []
  · have hdec : ∀ d ∈ lidDigits im, d < 10 := by
      simpa using List.dropWhile_eq_nil_iff.mp hletter
    rw [← ofNat_ofDigits_eq_lid_iff hdec]
    constructor
    · intro hround
      have h := hround ⟨[], 0, []⟩ im
      rw [decodeMsg_of_decimal hdec] at h
      exact congrArg IBSYNMsg.lid h
    · intro hlid scratch stale
      rw [decodeMsg_of_decimal hdec, hlid]
  · constructor
    · intro hround
      -- a stale lid that differs from the one sent shows the field was not assigned
      have hne : im.lid + 1 ≠ im.lid := by simp
      exact absurd (congrArg IBSYNMsg.lid (hround ⟨[], 0, []⟩ { im with lid := im.lid + 1 }))
        (exists_lid_ne_of_letter hletter _ _ hne)
    · intro hlt
      obtain ⟨a, b, c, d, hdigits, -, -, -, -, hlid⟩ := lidDigits_eq im
      have ha : a < 10 := by omega
      have hb : b < 10 := by omega
      have hc : c < 10 := by omega
      have hd : d < 10 := by omega
      simp [hdigits, ha, hb, hc, hd] at hletter

/-- The handshake message of a port with lid 16 on an all-zero gid. -/
def lidSixteen : IBSYNMsg where
  lid := 16
  qpn := 1
  psn := 2
  peerQpn := 0
  gid := .zero

/-- Lid 16 is printed `0010` and read back as ten. -/
theorem not_roundTrips_lidSixteen :
    (decodeMsg ⟨[], 0, []⟩ (msgBytes lidSixteen) lidSixteen).lid = 10 ∧
      ¬ RoundTrips lidSixteen := by
  have hdec : ∀ d ∈ lidDigits lidSixteen, d < 10 := by decide
  have hlid : (decodeMsg ⟨[], 0, []⟩ (msgBytes lidSixteen) lidSixteen).lid = 10 := by
    rw [decodeMsg_of_decimal hdec]
    decide
  refine ⟨hlid, fun hround => ?_⟩
  rw [(roundTrips_iff_decodeMsg _).mp hround ⟨[], 0, []⟩ lidSixteen] at hlid
  exact absurd hlid (by decide)

/-! ## What is accepted -/

/-- All the conversions of `wire_gid_to_gid` take place. -/
def WordsConverted : ℕ → List UInt8 → Prop
  | 0, _ => True
  | count + 1, wgid =>
      (scanNumber 16 (cString (wgid.take 8 ++ [0]))).isSome ∧ WordsConverted count (wgid.drop 8)

/-- The string is one that `send_msg` writes, all fields and all bytes of the gid are set from it,
and the token fits the `gid` buffer. -/
structure WellReceived (scratch : Scratch) (msg : List UInt8) : Prop where
  written : ∃ im, msg = msgBytes im
  assigned : (scan recvFormat (cString (msg ++ scratch.beyond))).length = 5
  words : WordsConverted 4
    (gidBuffer (scan recvFormat (cString (msg ++ scratch.beyond))) scratch.gid)
  token_le : ∀ bs, (scan recvFormat (cString (msg ++ scratch.beyond)))[4]? = some (.token bs) →
    bs.length ≤ 32

/-- A positive result is for a string that is well received, and any string that `send_msg` does not
write gets a negative one. -/
def AcceptsWellFormed (injected : Bool) (scratch : Scratch) (msg : List UInt8)
    (stale : IBSYNMsg) : Prop :=
  (0 < (recvMsg injected scratch (.bytes msg) stale).1 → WellReceived scratch msg) ∧
    (¬ (∃ im, msg = msgBytes im) → (recvMsg injected scratch (.bytes msg) stale).1 < 0)

/-- A message of the right length is accepted, unless a failure is injected. -/
theorem recvMsg_fst (injected : Bool) (scratch : Scratch) {msg : List UInt8}
    (hlen : msg.length = tcpMsgLen) (stale : IBSYNMsg) :
    (recvMsg injected scratch (.bytes msg) stale).1 =
      if injected then -(einval : ℤ) else tcpMsgLen := by
  have hne : tcpMsgLen ≠ 0 := by decide
  cases injected <;> simp [recvMsg, hlen, hne]

/-- The words of a printed gid are converted. -/
theorem wordsConverted_wireWords (count : ℕ) (raw tail : List UInt8) :
    WordsConverted count (wireWords count raw ++ tail) := by
  induction count generalizing raw with
  | zero => trivial
  | succ count ih =>
      have hlt := swap32_lt (loadLE (raw.take 4))
      have htake := length_formatHex_word hlt
      obtain ⟨ds, -, hds, htext⟩ := exists_digits_formatHex (show 0 < 8 by norm_num)
        (lt_of_lt_of_eq hlt (by norm_num))
      have hstring : cString (formatHex 8 (swap32 (loadLE (raw.take 4))) ++ [0]) =
          formatHex 8 (swap32 (loadLE (raw.take 4))) ++ [] := by
        rw [htext, cString_append_zero (digits_ne_zero hds), List.append_nil]
      rw [wireWords, List.append_assoc, WordsConverted, List.take_left' htake,
        List.drop_left' htake, hstring, scanNumber_word hlt separated_nil]
      exact ⟨rfl, ih (raw.drop 4)⟩

/-- A printed message is well received if and only if its lid has no letters. -/
theorem wellReceived_msgBytes_iff (scratch : Scratch) (im : IBSYNMsg) :
    WellReceived scratch (msgBytes im) ↔ ∀ d ∈ lidDigits im, d < 10 := by
  have hstring : cString (msgBytes im ++ scratch.beyond) = formatMsg im := by
    rw [msgBytes, List.append_assoc, List.singleton_append,
      cString_append_zero (formatMsg_ne_zero im)]
  have hne : lidDigits im ≠ [] := by simp [lidDigits, fixedDigits]
  constructor
  · intro hreceived
    have hassigned := hreceived.assigned
    rw [hstring, scan_formatMsg] at hassigned
    split at hassigned
    · cases hassigned
    · split at hassigned
      · rename_i hdrop
        simpa using List.dropWhile_eq_nil_iff.mp hdrop
      · cases hassigned
  · intro hdec
    have htake : (lidDigits im).takeWhile (· < 10) = lidDigits im :=
      List.takeWhile_eq_self_iff.mpr fun d hd => by simpa using hdec d hd
    have hdrop : (lidDigits im).dropWhile (· < 10) = [] :=
      List.dropWhile_eq_nil_iff.mpr fun d hd => by simpa using hdec d hd
    have hassigned := scan_formatMsg im
    rw [htake, hdrop, if_neg hne, if_pos rfl, scan_formatAddress, ← hstring] at hassigned
    refine ⟨⟨im, rfl⟩, ?_, ?_, ?_⟩
    · rw [hassigned]
      rfl
    · rw [hassigned]
      exact wordsConverted_wireWords 4 im.gid.raw _
    · rw [hassigned]
      intro bs hbs
      obtain ⟨ds, hlen, -, htext⟩ := exists_digits_wireWords 4 im.gid.raw
      cases hbs
      rw [gidToWireGid, htext, List.length_map, hlen]

/-- **Every message of the right length is accepted**: the result says that it was well received
exactly if `send_msg` wrote it, with a lid without letters, or a failure is injected. -/
theorem acceptsWellFormed_iff (injected : Bool) (scratch : Scratch) {msg : List UInt8}
    (hlen : msg.length = tcpMsgLen) (stale : IBSYNMsg) :
    AcceptsWellFormed injected scratch msg stale ↔
      injected = true ∨ ∃ im, msg = msgBytes im ∧ ∀ d ∈ lidDigits im, d < 10 := by
  have hresult := recvMsg_fst injected scratch hlen stale
  unfold AcceptsWellFormed
  cases injected with
  | true =>
      rw [hresult]
      exact iff_of_true ⟨fun hpos => absurd hpos (by decide), fun _ => by decide⟩ (.inl rfl)
  | false =>
      have hpos : 0 < (recvMsg false scratch (.bytes msg) stale).1 := by
        rw [hresult]
        decide
      rw [or_iff_right Bool.false_ne_true]
      constructor
      · rintro ⟨hreceived, -⟩
        obtain ⟨im, rfl⟩ := (hreceived hpos).written
        exact ⟨im, rfl, (wellReceived_msgBytes_iff scratch im).mp (hreceived hpos)⟩
      · rintro ⟨im, rfl, hdec⟩
        exact ⟨fun _ => (wellReceived_msgBytes_iff scratch im).mpr hdec,
          fun hnot => absurd ⟨im, rfl⟩ hnot⟩

/-- The message with lid 16 is accepted, and well received. -/
theorem acceptsWellFormed_iff_lidSixteen :
    AcceptsWellFormed false ⟨[], 0, []⟩ (msgBytes lidSixteen) lidSixteen :=
  (acceptsWellFormed_iff false ⟨[], 0, []⟩ (length_msgBytes lidSixteen) lidSixteen).mpr
    (.inr ⟨lidSixteen, rfl, by decide⟩)

/-- Four numbers of one digit, and 56 times the letter `a`. -/
def overlong : List UInt8 := [49, 58, 49, 58, 49, 58, 49, 58] ++ List.replicate 56 97 ++ [0]

/-- It is accepted, and the token of 56 bytes and its zero go into the 33 bytes of `gid`. -/
theorem not_acceptsWellFormed_overlong :
    overlong.length = tcpMsgLen ∧
      (recvMsg false ⟨[], 0, []⟩ (.bytes overlong) lidSixteen).1 = tcpMsgLen ∧
      (scan recvFormat (cString (overlong ++ [])))[4]? = some (.token (List.replicate 56 97)) ∧
      ¬ AcceptsWellFormed false ⟨[], 0, []⟩ overlong lidSixteen := by
  have hlen : overlong.length = tcpMsgLen := by decide
  have htoken : (scan recvFormat (cString (overlong ++ [])))[4]? =
      some (.token (List.replicate 56 97)) := by decide
  have hresult := recvMsg_fst false ⟨[], 0, []⟩ hlen lidSixteen
  refine ⟨hlen, hresult, htoken, fun haccepts => ?_⟩
  have hreceived := haccepts.1 (by rw [hresult]; decide)
  exact absurd (hreceived.token_le _ htoken) (by decide)

end HwAsync.Infiniband
