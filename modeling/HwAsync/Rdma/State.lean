/-
# The state of an RDMA connected socket

The fields of `RDMAReliableConnectedSocketImpl` and of its queue pair that the
modelled operations read or write, and the small operations shared by all of
them.  The eventfd behind `notify_fd` is its counter; the file event on the TCP
descriptor is present as long as `con_handler` is.
-/

import HwAsync.Infiniband.Chunk
import HwAsync.Infiniband.SynMsg

namespace HwAsync.Rdma

open HwAsync.Infiniband

def epipe : ℕ := 32
def econnreset : ℕ := 104

/-- `ibv_qp_state`, as far as a queue pair gets here. -/
inductive QpState
  | init
  | rtr
  | rts
  deriving DecidableEq, Repr

/-- `Infiniband::QueuePair` with the attributes `activate` gives it. -/
structure QueuePair where
  state : QpState
  destQpNum : UInt32
  rqPsn : UInt32
  dlid : UInt16
  dgid : Gid
  sqPsn : UInt32
  deriving DecidableEq

/-- A buffer of a `bufferlist`.  `txChunk` is the chunk that
`get_tx_chunk_by_buffer` finds when `is_tx_buffer` holds of it. -/
structure Buffer where
  bytes : List UInt8
  txChunk : Option Chunk
  deriving DecidableEq

/-- The bytes of a list of buffers. -/
def contents (buffers : List Buffer) : List UInt8 := buffers.flatMap Buffer.bytes

/-- `bufferlist`, which counts its bytes in an `unsigned`. -/
structure Bufferlist where
  buffers : List Buffer
  length_lt : (contents buffers).length < 2 ^ 32
  deriving DecidableEq

/-- `bufferlist::clear`. -/
def Bufferlist.clear : Bufferlist := ⟨[], by decide⟩

/-- `RDMAReliableConnectedSocketImpl`. -/
structure Socket where
  myMsg : IBSYNMsg
  peerMsg : IBSYNMsg
  isServer : Bool
  connected : Bool
  active : Bool
  error : ℕ
  qp : QueuePair
  buffers : List Chunk
  wc : List IbvWc
  pendingBl : Bufferlist
  pending : Bool
  notifyCount : ℕ
  conHandler : Bool
  deriving DecidableEq

namespace Socket

/-- `notify`. -/
def notify (s : Socket) : Socket := { s with notifyCount := s.notifyCount + 1 }

/-- `cleanup`. -/
def cleanup (s : Socket) : Socket := { s with conHandler := false }

/-- `fault`. -/
def fault (s : Socket) : Socket :=
  { s with error := econnreset, connected := true }.notify

/-- `pass_wc`. -/
def passWc (s : Socket) (addWc : List IbvWc) : Socket :=
  if s.wc = [] then { s with wc := addWc }.notify
  else { s with wc := s.wc ++ addWc }.notify

/-- `get_wc` on an empty vector. -/
def getWc (s : Socket) : List IbvWc × Socket :=
  if s.wc = [] then ([], s) else (s.wc, { s with wc := [] })

@[simp]
theorem passWc_wc (s : Socket) (addWc : List IbvWc) :
    (s.passWc addWc).wc = s.wc ++ addWc := by
  by_cases h : s.wc = [] <;> simp [passWc, notify, h]

@[simp]
theorem passWc_buffers (s : Socket) (addWc : List IbvWc) :
    (s.passWc addWc).buffers = s.buffers := by
  by_cases h : s.wc = [] <;> simp [passWc, notify, h]

@[simp]
theorem passWc_active (s : Socket) (addWc : List IbvWc) :
    (s.passWc addWc).active = s.active := by
  by_cases h : s.wc = [] <;> simp [passWc, notify, h]

@[simp]
theorem passWc_connected (s : Socket) (addWc : List IbvWc) :
    (s.passWc addWc).connected = s.connected := by
  by_cases h : s.wc = [] <;> simp [passWc, notify, h]

@[simp]
theorem passWc_myMsg (s : Socket) (addWc : List IbvWc) :
    (s.passWc addWc).myMsg = s.myMsg := by
  by_cases h : s.wc = [] <;> simp [passWc, notify, h]

@[simp]
theorem getWc_fst (s : Socket) : s.getWc.1 = s.wc := by
  by_cases h : s.wc = [] <;> simp [getWc, h]

@[simp]
theorem getWc_snd (s : Socket) : s.getWc.2 = { s with wc := [] } := by
  cases s with
  | mk myMsg peerMsg isServer connected active error qp buffers wc =>
      by_cases h : wc = [] <;> simp [getWc, h]

end Socket

/-- A connected client with nothing received and nothing to send. -/
def quietSocket : Socket where
  myMsg := ⟨0, 1, 2, 0, .zero⟩
  peerMsg := ⟨0, 3, 4, 1, .zero⟩
  isServer := false
  connected := true
  active := true
  error := 0
  qp := ⟨.rts, 3, 4, 0, .zero, 2⟩
  buffers := []
  wc := []
  pendingBl := .clear
  pending := false
  notifyCount := 0
  conHandler := true

end HwAsync.Rdma
