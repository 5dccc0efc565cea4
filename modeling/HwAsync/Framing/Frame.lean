/-
# The frames of an open connection

What an open connection writes: messages (`write_message`), acknowledgements
(`handle_write`) and keepalives (`_append_keepalive_or_ack`), each behind a tag byte.
Messages have one of two header formats and one of two footer formats, chosen by the
negotiated features.

The structures themselves, the check sums and the encoding of messages are not part of
this code.  They are parameters, collected in `Wire` with what the code relies on.
-/

import HwAsync.Lib.FixedSize
import HwAsync.Framing.ReadUntil

namespace HwAsync.Framing

open HwAsync.Lib

/-! ## The structures -/

structure EntityName where
  type : UInt8
  num : UInt64
  deriving DecidableEq, Repr

/-- The leading fields, which both header formats share. -/
structure Envelope where
  seq : UInt64
  tid : UInt64
  type : UInt16
  priority : UInt16
  version : UInt16
  frontLen : UInt32
  middleLen : UInt32
  dataLen : UInt32
  dataOff : UInt16
  deriving DecidableEq, Repr

/-- `ceph_msg_header`. -/
structure Header extends Envelope where
  src : EntityName
  compatVersion : UInt16
  reserved : UInt16
  crc : UInt32
  deriving DecidableEq, Repr

structure EntityInst (Addr : Type) where
  name : EntityName
  addr : Addr

/-- `ceph_msg_header_old`. -/
structure OldHeader (Addr : Type) extends Envelope where
  src : EntityInst Addr
  origSrc : EntityInst Addr
  reserved : UInt32
  crc : UInt32

/-- `ceph_msg_footer`. -/
structure Footer where
  frontCrc : UInt32
  middleCrc : UInt32
  dataCrc : UInt32
  sig : UInt64
  flags : UInt8
  deriving DecidableEq, Repr

/-- `ceph_msg_footer_old`. -/
structure OldFooter where
  frontCrc : UInt32
  middleCrc : UInt32
  dataCrc : UInt32
  flags : UInt8
  deriving DecidableEq, Repr

/-- `CEPH_MSG_FOOTER_COMPLETE`. -/
def footerComplete : UInt8 := 1

/-- `ceph_timespec`. -/
structure Timespec where
  tvSec : UInt32
  tvNsec : UInt32
  deriving DecidableEq, Repr

/-- `utime_t`. -/
structure UTime where
  sec : UInt32
  nsec : UInt32
  deriving DecidableEq, Repr

/-- The `CEPH_MSGR_TAG_*` of an open connection. -/
inductive Tag
  | close
  | msg
  | ack
  | keepalive
  | keepalive2
  | keepalive2Ack
  deriving DecidableEq, Repr

/-- A structure that is read into `state_buffer`. -/
structure Packed (α : Type) extends FixedSize α where
  size_pos : 0 < size
  size_le : size ≤ 4096

/-- The lengths of the buffers that a reader of data posted; no buffer is empty. -/
abbrev RxBuffer := { lengths : List ℕ // ∀ n ∈ lengths, 0 < n }

/-- What both sides share: the negotiated features, the options, and the code that the
connection relies on. -/
structure Wire (Addr : Type) where
  /-- `CEPH_FEATURE_NOSRCADDR`, `CEPH_FEATURE_MSG_AUTH`, `CEPH_FEATURE_MSGR_KEEPALIVE2` and
  `CEPH_FEATURE_RECONNECT_SEQ`. -/
  nosrcaddr : Bool
  msgAuth : Bool
  msgrKeepalive2 : Bool
  reconnectSeq : Bool
  /-- `MSG_CRC_HEADER` and `MSG_CRC_DATA` of `crcflags`. -/
  crcHeader : Bool
  crcData : Bool
  dieOnOldMessage : Bool
  dieOnSkippedMessage : Bool
  recvMaxPrefetch : ℕ
  recvMaxPrefetch_lt : recvMaxPrefetch < 2 ^ 31
  tag : Tag → UInt8
  tag_injective : Function.Injective tag
  header : Packed Header
  oldHeader : Packed (OldHeader Addr)
  footer : Packed Footer
  oldFooter : Packed OldFooter
  timespec : Packed Timespec
  ackSeq : Packed UInt64
  /-- The check sums over everything in front of the last field. -/
  headerCrc : Header → UInt32
  headerCrc_crc : ∀ h crc, headerCrc { h with crc := crc } = headerCrc h
  oldHeaderCrc : OldHeader Addr → UInt32
  oldHeaderCrc_crc : ∀ h crc, oldHeaderCrc { h with crc := crc } = oldHeaderCrc h
  peerAddr : Addr
  /-- What a `memcpy` of an old header leaves in `compat_version` and `crc`, where the old
  format has its addresses. -/
  overlay : OldHeader Addr → UInt16 × UInt32
  encodeTimeval : UTime → Timespec
  ofTimespec : Timespec → UTime
  ofTimespec_encodeTimeval : ∀ t, ofTimespec (encodeTimeval t) = t
  rxBuffers : UInt64 → Option RxBuffer
  pageSize : ℕ
  pageSize_pos : 0 < pageSize
  /-- Whether `decode_message` returns a message that passes `check_message_signature`. -/
  decodeMessage : Header → Footer → Bytes → Bytes → Bytes → Bool

namespace Wire

variable {Addr : Type} (w : Wire Addr)

/-! ## Headers and footers -/

/-- The header after `calc_header_crc`. -/
def sentHeader (h : Header) : Header :=
  if w.crcHeader then { h with crc := w.headerCrc h } else h

/-- The old header that `write_message` fills in. -/
def toOldHeader (h : Header) : OldHeader Addr :=
  let old : OldHeader Addr :=
    { toEnvelope := h.toEnvelope
      src := ⟨h.src, w.peerAddr⟩
      origSrc := ⟨h.src, w.peerAddr⟩
      reserved := h.reserved.toUInt32
      crc := 0 }
  { old with crc := w.oldHeaderCrc old }

def headerBytes (h : Header) : Bytes :=
  if w.nosrcaddr then w.header.bytes h else w.oldHeader.bytes (w.toOldHeader h)

def headerSize : ℕ := if w.nosrcaddr then w.header.size else w.oldHeader.size

/-- The header that the reader makes of an old one. -/
def ofOldHeader (old : OldHeader Addr) : Header where
  toEnvelope := old.toEnvelope
  src := old.src.name
  compatVersion := (w.overlay old).1
  reserved := old.reserved.toUInt16
  crc := if w.crcHeader then old.crc else (w.overlay old).2

/-- `STATE_OPEN_MESSAGE_HEADER` from the end of the read on; `none` at a bad check sum. -/
def readHeader (p : Bytes) : Option Header :=
  let r : Header × UInt32 :=
    if w.nosrcaddr then
      let h := w.header.ofBytes p
      (h, w.headerCrc h)
    else
      let old := w.oldHeader.ofBytes p
      (w.ofOldHeader old, w.oldHeaderCrc old)
  if w.crcHeader && r.2 != r.1.crc then none else some r.1

/-- The header that arrives. -/
def receivedHeader (h : Header) : Header :=
  if w.nosrcaddr then w.sentHeader h else w.ofOldHeader (w.toOldHeader (w.sentHeader h))

def toOldFooter (f : Footer) : OldFooter where
  frontCrc := if w.crcHeader then f.frontCrc else 0
  middleCrc := if w.crcHeader then f.middleCrc else 0
  dataCrc := if w.crcData then f.dataCrc else 0
  flags := f.flags

def footerBytes (f : Footer) : Bytes :=
  if w.msgAuth then w.footer.bytes f else w.oldFooter.bytes (w.toOldFooter f)

def footerSize : ℕ := if w.msgAuth then w.footer.size else w.oldFooter.size

def ofOldFooter (old : OldFooter) : Footer :=
  ⟨old.frontCrc, old.middleCrc, old.dataCrc, 0, old.flags⟩

def readFooter (p : Bytes) : Footer :=
  if w.msgAuth then w.footer.ofBytes p else ofOldFooter (w.oldFooter.ofBytes p)

/-- The footer that arrives. -/
def receivedFooter (f : Footer) : Footer :=
  if w.msgAuth then f else ofOldFooter (w.toOldFooter f)

variable {w}

theorem length_headerBytes (h : Header) : (w.headerBytes h).length = w.headerSize := by
  unfold headerBytes headerSize
  split
  · exact w.header.length_bytes h
  · exact w.oldHeader.length_bytes _

theorem headerSize_pos : 0 < w.headerSize := by
  unfold headerSize
  split
  · exact w.header.size_pos
  · exact w.oldHeader.size_pos

theorem headerSize_le : w.headerSize ≤ 4096 := by
  unfold headerSize
  split
  · exact w.header.size_le
  · exact w.oldHeader.size_le

theorem length_footerBytes (f : Footer) : (w.footerBytes f).length = w.footerSize := by
  unfold footerBytes footerSize
  split
  · exact w.footer.length_bytes f
  · exact w.oldFooter.length_bytes _

theorem footerSize_pos : 0 < w.footerSize := by
  unfold footerSize
  split
  · exact w.footer.size_pos
  · exact w.oldFooter.size_pos

theorem footerSize_le : w.footerSize ≤ 4096 := by
  unfold footerSize
  split
  · exact w.footer.size_le
  · exact w.oldFooter.size_le

theorem crc_toOldHeader (h : Header) :
    w.oldHeaderCrc (w.toOldHeader h) = (w.toOldHeader h).crc :=
  w.oldHeaderCrc_crc _ _

/-- A header that was sent passes the check of its sum. -/
theorem readHeader_headerBytes (h : Header) :
    w.readHeader (w.headerBytes (w.sentHeader h)) = some (w.receivedHeader h) := by
  unfold readHeader headerBytes receivedHeader
  split
  · rw [FixedSize.ofBytes_bytes]
    unfold sentHeader
    split
    · simp [w.headerCrc_crc, *]
    · simp [*]
  · rw [FixedSize.ofBytes_bytes]
    cases hcrc : w.crcHeader with
    | false => rfl
    | true => simp [ofOldHeader, crc_toOldHeader, hcrc]

theorem readFooter_footerBytes (f : Footer) :
    w.readFooter (w.footerBytes f) = w.receivedFooter f := by
  unfold readFooter footerBytes receivedFooter
  split
  · exact w.footer.ofBytes_bytes f
  · rw [FixedSize.ofBytes_bytes]

theorem flags_receivedFooter (f : Footer) : (w.receivedFooter f).flags = f.flags := by
  unfold receivedFooter
  split <;> rfl

variable (w)

/-- The same fields, as far as the header format carries them: the old format has no
`compat_version`, and its check sum is its own. -/
structure SameFields (h h' : Header) : Prop where
  envelope : h'.toEnvelope = h.toEnvelope
  src : h'.src = h.src
  reserved : h'.reserved = h.reserved
  all : w.nosrcaddr = true → h' = h

variable {w}

theorem sameFields_receivedHeader (h : Header) :
    w.SameFields (w.sentHeader h) (w.receivedHeader h) := by
  unfold receivedHeader
  split
  · exact ⟨rfl, rfl, rfl, fun _ => rfl⟩
  · rename_i hold
    exact ⟨rfl, rfl, by simp [ofOldHeader, toOldHeader], fun hnew => absurd hnew hold⟩

theorem envelope_receivedHeader (h : Header) :
    (w.receivedHeader h).toEnvelope = h.toEnvelope := by
  rw [(sameFields_receivedHeader h).envelope]
  unfold sentHeader
  split <;> rfl

end Wire

/-! ## Frames -/

/-- A message as `Message::encode` leaves it, with the number that `set_seq` gave it: the
lengths are those of its parts, it is complete, and `decode_message` accepts it. -/
structure MsgFrame {Addr : Type} (w : Wire Addr) where
  header : Header
  front : Bytes
  middle : Bytes
  data : Bytes
  footer : Footer
  frontLen : header.frontLen.toNat = front.length
  middleLen : header.middleLen.toNat = middle.length
  dataLen : header.dataLen.toNat = data.length
  complete : footer.flags &&& footerComplete ≠ 0
  decodable :
    w.decodeMessage (w.receivedHeader header) (w.receivedFooter footer) front middle data = true

/-- What is written at once: a message, an acknowledgement, a keepalive, or the answer to
one. -/
inductive Frame {Addr : Type} (w : Wire Addr)
  | message (m : MsgFrame w)
  | ack (seq : UInt64)
  | keepalive (now : UTime)
  | keepaliveAck (t : UTime)

namespace Wire

variable {Addr : Type} {w : Wire Addr}

/-- The part of a message behind its header. -/
def body (m : MsgFrame w) : Bytes :=
  m.front ++ (m.middle ++ (m.data ++ w.footerBytes m.footer))

/-- `write_message`. -/
def writeMessage (m : MsgFrame w) : Bytes :=
  w.tag .msg :: (w.headerBytes (w.sentHeader m.header) ++ body m)

/-- `_append_keepalive_or_ack`. -/
def appendKeepaliveOrAck (w : Wire Addr) (ack : Bool) (t : UTime) : Bytes :=
  if ack then w.tag .keepalive2Ack :: w.timespec.bytes (w.encodeTimeval t)
  else if w.msgrKeepalive2 then w.tag .keepalive2 :: w.timespec.bytes (w.encodeTimeval t)
  else [w.tag .keepalive]

/-- The bytes of a frame. -/
def encode : Frame w → Bytes
  | .message m => writeMessage m
  | .ack seq => w.tag .ack :: w.ackSeq.bytes seq
  | .keepalive now => w.appendKeepaliveOrAck false now
  | .keepaliveAck t => w.appendKeepaliveOrAck true t

def encodeAll (frames : List (Frame w)) : Bytes := frames.flatMap encode

@[simp]
theorem encodeAll_cons (f : Frame w) (frames : List (Frame w)) :
    encodeAll (f :: frames) = encode f ++ encodeAll frames := rfl

theorem appendKeepaliveOrAck_ne_nil (ack : Bool) (t : UTime) :
    w.appendKeepaliveOrAck ack t ≠ [] := by
  unfold appendKeepaliveOrAck
  split
  · exact List.cons_ne_nil _ _
  · split
    · exact List.cons_ne_nil _ _
    · exact List.cons_ne_nil _ _

theorem encode_ne_nil (f : Frame w) : encode f ≠ [] := by
  cases f with
  | message m => exact List.cons_ne_nil _ _
  | ack seq => exact List.cons_ne_nil _ _
  | keepalive now => exact appendKeepaliveOrAck_ne_nil false now
  | keepaliveAck t => exact appendKeepaliveOrAck_ne_nil true t

theorem encodeAll_eq_nil {frames : List (Frame w)} (h : encodeAll frames = []) : frames = [] := by
  cases frames with
  | nil => rfl
  | cons f rest => exact absurd (List.append_eq_nil_iff.mp h).1 (encode_ne_nil f)

end Wire

/-- What the reader recovers. -/
inductive Received
  | message (header : Header) (front middle data : Bytes)
  | ack (seq : UInt64)
  | keepalive
  | keepalive2 (t : UTime)
  | keepalive2Ack (t : UTime)
  deriving DecidableEq, Repr

/-- The reader has recovered the frame. -/
def Recovers {Addr : Type} {w : Wire Addr} : Frame w → Received → Prop
  | .message m, .message header front middle data =>
      w.SameFields (w.sentHeader m.header) header ∧ front = m.front ∧ middle = m.middle ∧
        data = m.data
  | .ack seq, .ack seq' => seq' = seq
  | .keepalive now, r => r = if w.msgrKeepalive2 then .keepalive2 now else .keepalive
  | .keepaliveAck t, .keepalive2Ack t' => t' = t
  | _, _ => False

end HwAsync.Framing
