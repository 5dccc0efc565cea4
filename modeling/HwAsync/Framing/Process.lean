/-
# Reading an open connection

`process` is a loop over a `switch`: each pass reads what the current state needs and
moves to the next state, and the loop ends when a pass leaves the state as it was.  A
pass here is one run through the `switch`; since a new call starts with the same state,
every sequence of calls is a sequence of passes.

The passes over the four parts of a message fall through from one `case` to the next,
so they are written as functions that end in each other.
-/

import HwAsync.Lib.Run
import HwAsync.Framing.Frame

namespace HwAsync.Framing

open HwAsync.Lib

/-- The `STATE_OPEN*` of the connection.  `faulted` stands behind `goto fail`, `stopped`
behind `_stop`, and `aborted` behind a failed assertion. -/
inductive State
  | opened
  | openKeepalive2
  | openKeepalive2Ack
  | openTagAck
  | messageHeader
  | messageThrottleMessage
  | messageThrottleBytes
  | messageThrottleDispatchQueue
  | messageReadFront
  | messageReadMiddle
  | messageReadDataPrepare
  | messageReadData
  | messageReadFooterAndDispatch
  | tagClose
  | faulted
  | stopped
  | aborted
  deriving DecidableEq, Repr

/-- The reading side of a connection.  `received` records what was recovered, in order, and
`dispatched` the messages handed on. -/
structure Receiver where
  state : State
  io : Inbound
  currentHeader : Header
  front : Bytes
  middle : Bytes
  data : Bytes
  /-- The lengths of the buffers that `data_blp` has not passed, and `msg_left`. -/
  dataBlp : List ℕ
  msgLeft : ℕ
  inSeq : UInt64
  received : List Received
  dispatched : List Received

/-- What happens during a pass: how many bytes each read of the socket returns, and whether
a throttler that is asked grants the request. -/
structure Pass where
  answers : List ℕ
  granted : Bool

/-- `alloc_aligned_buffer`: the lengths of the buffers. -/
def alignedLengths (pageSize len off : ℕ) : List ℕ :=
  let head := if off % pageSize ≠ 0 then min (pageSize - off % pageSize) len else 0
  let left := len - head
  let middle := left - left % pageSize
  (if off % pageSize ≠ 0 then [head] else []) ++ (if 0 < middle then [middle] else []) ++
    if 0 < left - middle then [left - middle] else []

namespace Receiver

variable {Addr : Type} (w : Wire Addr)

def fail (r : Receiver) : Receiver := { r with state := .faulted }

def log (r : Receiver) (e : Received) : Receiver := { r with received := r.received ++ [e] }

/-- Read `len` bytes and go on with them, or come back later. -/
def readThen (len : ℕ) (next : Receiver → Bytes → Receiver) (r : Receiver) : Receiver :=
  match r.io.readUntil w.recvMaxPrefetch len with
  | (none, io) => { r with io := io }
  | (some p, io) => next { r with io := io } p

/-- `STATE_OPEN`. -/
def onTag (r : Receiver) (p : Bytes) : Receiver :=
  if p = [w.tag .keepalive] then r.log .keepalive
  else if p = [w.tag .keepalive2] then { r with state := .openKeepalive2 }
  else if p = [w.tag .keepalive2Ack] then { r with state := .openKeepalive2Ack }
  else if p = [w.tag .ack] then { r with state := .openTagAck }
  else if p = [w.tag .msg] then { r with state := .messageHeader }
  else if p = [w.tag .close] then { r with state := .tagClose }
  else r.fail

/-- `STATE_OPEN_MESSAGE_HEADER`. -/
def onHeader (r : Receiver) (p : Bytes) : Receiver :=
  match w.readHeader p with
  | none => r.fail
  | some header =>
      { r with
        front := []
        middle := []
        data := []
        currentHeader := header
        state := .messageThrottleMessage }

/-- `cur_msg_size`. -/
def curMsgSize (h : Header) : UInt32 := h.frontLen + h.middleLen + h.dataLen

/-- A throttler that is not granted leaves the state as it was. -/
def throttle (asked granted : Bool) (next : State) (r : Receiver) : Receiver :=
  if asked && !granted then r else { r with state := next }

/-- The check of the number of a message that was decoded.  An old message leaves the state
as it was. -/
def checkSeq (r : Receiver) (e : Received) : Receiver :=
  let seq := r.currentHeader.seq
  if seq ≤ r.inSeq then
    if w.reconnectSeq && w.dieOnOldMessage then { r with state := .aborted } else r
  else if r.inSeq + 1 < seq && w.dieOnSkippedMessage then { r with state := .aborted }
  else { r with inSeq := seq, state := .opened, dispatched := r.dispatched ++ [e] }

/-- `STATE_OPEN_MESSAGE_READ_FOOTER_AND_DISPATCH`. -/
def onFooter (r : Receiver) (p : Bytes) : Receiver :=
  let footer := w.readFooter p
  if footer.flags &&& footerComplete = 0 then r.fail
  else if !w.decodeMessage r.currentHeader footer r.front r.middle r.data then r.fail
  else
    let e : Received := .message r.currentHeader r.front r.middle r.data
    (r.log e).checkSeq w e

def readFooter (r : Receiver) : Receiver := r.readThen w w.footerSize (onFooter w)

/-- The loop of `STATE_OPEN_MESSAGE_READ_DATA`, over the buffers of `data_blp`; behind the last
of them there is nothing to read into. -/
def dataLoop : List ℕ → Receiver → Receiver
  | [], r => { r with dataBlp := [], state := if r.msgLeft = 0 then r.state else .aborted }
  | n :: rest, r =>
      if r.msgLeft = 0 then { r with dataBlp := n :: rest }
      else
        let read := min n r.msgLeft
        match r.io.readUntil w.recvMaxPrefetch read with
        | (none, io) => { r with io := io, dataBlp := n :: rest }
        | (some p, io) =>
            dataLoop rest { r with io := io, data := r.data ++ p, msgLeft := r.msgLeft - read }

/-- `STATE_OPEN_MESSAGE_READ_DATA`. -/
def readData (r : Receiver) : Receiver :=
  let r := r.dataLoop w r.dataBlp
  if r.state = .aborted ∨ 0 < r.msgLeft then r
  else { r with state := .messageReadFooterAndDispatch }.readFooter w

/-- The buffers that the data is read into. -/
def dataLengths (h : Header) : List ℕ :=
  let dataLen := h.dataLen.toNat
  if dataLen = 0 then []
  else
    match w.rxBuffers h.tid with
    | some posted =>
        if posted.1.sum < dataLen then posted.1 ++ [dataLen - posted.1.sum] else posted.1
    | none => alignedLengths w.pageSize dataLen h.dataOff.toNat

/-- `STATE_OPEN_MESSAGE_READ_DATA_PREPARE`. -/
def prepareData (r : Receiver) : Receiver :=
  { r with
    dataBlp := dataLengths w r.currentHeader
    msgLeft := r.currentHeader.dataLen.toNat
    state := .messageReadData }.readData w

/-- `STATE_OPEN_MESSAGE_READ_FRONT` and `STATE_OPEN_MESSAGE_READ_MIDDLE`: nothing is read for
an empty part. -/
def readPart (len : ℕ) (store : Receiver → Bytes → Receiver) (next : Receiver → Receiver)
    (r : Receiver) : Receiver :=
  if len = 0 then next r else r.readThen w len fun r p => next (store r p)

def readMiddle (r : Receiver) : Receiver :=
  r.readPart w r.currentHeader.middleLen.toNat (fun r p => { r with middle := p }) fun r =>
    { r with state := .messageReadDataPrepare }.prepareData w

def readFront (r : Receiver) : Receiver :=
  r.readPart w r.currentHeader.frontLen.toNat (fun r p => { r with front := p }) fun r =>
    { r with state := .messageReadMiddle }.readMiddle w

/-- One pass of `process`. -/
def pass (r : Receiver) (granted : Bool) : Receiver :=
  match r.state with
  | .opened => r.readThen w 1 (onTag w)
  | .openKeepalive2 =>
      r.readThen w w.timespec.size fun r p =>
        { r.log (.keepalive2 (w.ofTimespec (w.timespec.ofBytes p))) with state := .opened }
  | .openKeepalive2Ack =>
      r.readThen w w.timespec.size fun r p =>
        { r.log (.keepalive2Ack (w.ofTimespec (w.timespec.ofBytes p))) with state := .opened }
  | .openTagAck =>
      r.readThen w w.ackSeq.size fun r p =>
        { r.log (.ack (w.ackSeq.ofBytes p)) with state := .opened }
  | .messageHeader => r.readThen w w.headerSize (onHeader w)
  | .messageThrottleMessage => r.throttle true granted .messageThrottleBytes
  | .messageThrottleBytes =>
      r.throttle (curMsgSize r.currentHeader != 0) granted .messageThrottleDispatchQueue
  | .messageThrottleDispatchQueue =>
      r.throttle (curMsgSize r.currentHeader != 0) granted .messageReadFront
  | .messageReadFront => r.readFront w
  | .messageReadMiddle => r.readMiddle w
  | .messageReadDataPrepare => r.prepareData w
  | .messageReadData => r.readData w
  | .messageReadFooterAndDispatch => r.readFooter w
  | .tagClose => { r with state := .stopped }
  | .faulted | .stopped | .aborted => r

def step (r : Receiver) (p : Pass) : Receiver :=
  { r with io := { r.io with answers := p.answers } }.pass w p.granted

/-- `process`: passes until one leaves the state as it was. -/
def process : List Pass → Receiver → Receiver
  | [], r => r
  | p :: passes, r =>
      let r' := r.step w p
      if r'.state = r.state then r' else process passes r'

/-- Reading starts at a frame, with nothing read ahead. -/
structure Fresh (inSeq : UInt64) (stream : Bytes) (r : Receiver) : Prop where
  state : r.state = .opened
  dest : r.io.dest = []
  stateOffset : r.io.stateOffset = 0
  recvBuf : r.io.recvBuf = []
  socket : r.io.socket = stream
  inSeq : r.inSeq = inSeq
  received : r.received = []
  dispatched : r.dispatched = []

end Receiver

/-- A receiver in front of a stream. -/
def receiverMachine {Addr : Type} (w : Wire Addr) (inSeq : UInt64) (stream : Bytes) :
    Machine Receiver Pass where
  start := Receiver.Fresh inSeq stream
  step r p := some (r.step w p)

/-- A call of `process` is a run of passes. -/
theorem reached_process {Addr : Type} {w : Wire Addr} {inSeq : UInt64} {stream : Bytes}
    {r : Receiver} (hreached : (receiverMachine w inSeq stream).Reached r) (passes : List Pass) :
    (receiverMachine w inSeq stream).Reached (r.process w passes) := by
  induction passes generalizing r with
  | nil => exact hreached
  | cons p passes ih =>
      have hstep : (receiverMachine w inSeq stream).Reached (r.step w p) :=
        .step hreached trivial rfl
      rw [Receiver.process]
      split
      · exact hstep
      · exact ih hstep

end HwAsync.Framing
