/-
# Runs of both read paths

One machine carries `read` and `zero_copy_read`, with all bytes and chunks that went
in and out and the dispatcher's count of receive buffers in use, from an untouched
socket to its destructor.  Every chunk is accounted for: posted, handed up with a
region, or held.

Two purposes of the pair fail on `zero_copy_read`.  It takes the newest chunk, so the
bytes are in order as long as it never has two to choose from; and neither
`release_memory` nor the destructor visits `res_mem`, so every chunk returns to the
pool as long as it hands nothing up.
-/

import HwAsync.Rdma.ZeroCopy

namespace HwAsync.Rdma

open HwAsync.Lib HwAsync.Infiniband

/-- A socket with all that was passed to it and taken from it: bytes, chunk
addresses, the regions its user still holds, and the dispatcher's count of receive
buffers in use, before the run and now. -/
structure RxRun where
  socket : Socket
  resMem : List Region
  inUseBefore : ℤ
  rxBufsInUse : ℤ
  arrived : List UInt8
  delivered : List UInt8
  received : List ℕ
  posted : List ℕ
  handed : List ℕ
  lent : List Region
  destroyed : Bool
  deriving DecidableEq

inductive RxAction
  | passWc (addWc : List IbvWc)
  | read (len : ℕ)
  | zeroCopyRead
  | releaseMemory (g : Region)
  | connection (active connected : Bool)
  | fault
  | destroy

namespace RxRun

/-- `RDMADispatcher::post_chunk_to_pool`, for each of some chunks. -/
def post (r : RxRun) (chunks : List Chunk) : RxRun :=
  { r with
    posted := r.posted ++ chunks.map Chunk.addr
    rxBufsInUse := r.rxBufsInUse - chunks.length }

/-- Completions arrive. -/
def arrive (r : RxRun) (addWc : List IbvWc) : RxRun :=
  { r with
    socket := r.socket.passWc addWc
    arrived := r.arrived ++ addWc.flatMap IbvWc.payload
    received := r.received ++ addWc.map fun w => w.chunk.addr }

/-- A `read` returns. -/
def serve (r : RxRun) (o : ReadOutcome) : RxRun :=
  { r with socket := o.socket, delivered := r.delivered ++ o.bytes }.post o.posted

/-- A `zero_copy_read` returns. -/
def lend (r : RxRun) (o : ZeroCopyOutcome) : RxRun :=
  { r with
    socket := o.socket
    resMem := o.region.toList.foldl reserve r.resMem
    delivered := r.delivered ++ o.bytes
    handed := r.handed ++ o.region.toList.map fun (g : Region) => g.chunk.addr
    lent := r.lent ++ o.region.toList }.post o.posted

/-- The destructor returns. -/
def gone (r : RxRun) : RxRun :=
  { r with socket := r.socket.destroy.2, destroyed := true }.post r.socket.destroy.1

/-- One step of a socket that is not destroyed.  The handshake sets the flags
between the calls, and the user releases every region before the destructor. -/
def step (r : RxRun) (a : RxAction) : Option RxRun :=
  if r.destroyed then none
  else
    match a with
    | .passWc addWc => if ∀ w ∈ addWc, w.success = true then some (r.arrive addWc) else none
    | .read len => if len < 2 ^ 63 then (r.socket.read len).map r.serve else none
    | .zeroCopyRead => r.socket.zeroCopyRead.toOption.map r.lend
    | .releaseMemory g =>
        if g ∈ r.lent then
          some { r with socket := r.socket.releaseMemory g, lent := r.lent.erase g }
        else none
    | .connection active connected =>
        some { r with socket := { r.socket with active := active, connected := connected } }
    | .fault => some { r with socket := r.socket.fault }
    | .destroy => if r.lent = [] then some r.gone else none

/-- A socket that has not received anything. -/
structure Fresh (r : RxRun) : Prop where
  buffers : r.socket.buffers = []
  wc : r.socket.wc = []
  resMem : r.resMem = []
  inUse : r.rxBufsInUse = r.inUseBefore
  arrived : r.arrived = []
  delivered : r.delivered = []
  received : r.received = []
  posted : r.posted = []
  handed : r.handed = []
  lent : r.lent = []
  destroyed : r.destroyed = false

end RxRun

/-- The socket under its two read paths, up to its destructor. -/
def rxMachine : Machine RxRun RxAction where
  start := RxRun.Fresh
  step := RxRun.step

namespace RxRun

/-- The request of a `read` fits what is buffered. -/
def requestFits (r : RxRun) : RxAction → Prop
  | .read len => RequestFits len (unreadAll r.socket.buffers).length
  | _ => True

/-- Where the chunks that were received are. -/
structure Accounted (r : RxRun) : Prop where
  regular : r.socket.Regular
  chunks : (r.posted ++ r.handed ++ r.socket.chunksHeld).Perm r.received
  in_use : r.rxBufsInUse = r.inUseBefore - r.posted.length
  emptied : r.destroyed = true → r.socket.chunksHeld = []

variable {r t : RxRun}

@[simp]
theorem post_socket (chunks : List Chunk) : (r.post chunks).socket = r.socket := rfl

@[simp]
theorem post_handed (chunks : List Chunk) : (r.post chunks).handed = r.handed := rfl

@[simp]
theorem post_arrived (chunks : List Chunk) : (r.post chunks).arrived = r.arrived := rfl

@[simp]
theorem post_delivered (chunks : List Chunk) : (r.post chunks).delivered = r.delivered := rfl

@[simp]
theorem post_destroyed (chunks : List Chunk) : (r.post chunks).destroyed = r.destroyed := rfl

theorem Fresh.accounted (hfresh : r.Fresh) : r.Accounted where
  regular := ⟨hfresh.buffers ▸ waiting_nil, by simp [hfresh.wc]⟩
  chunks := by
    simp [Socket.chunksHeld, hfresh.posted, hfresh.handed, hfresh.buffers, hfresh.wc,
      hfresh.received]
  in_use := by simp [hfresh.inUse, hfresh.posted]
  emptied h := by simp [hfresh.destroyed] at h

/-- What a step can do. -/
inductive Change (r : RxRun) : RxAction → RxRun → Prop
  | arrived (addWc : List IbvWc) (hsuccess : ∀ w ∈ addWc, w.success = true) :
      Change r (.passWc addWc) (r.arrive addWc)
  | served (len : ℕ) (o : ReadOutcome) (hread : r.socket.read len = some o) :
      Change r (.read len) (r.serve o)
  | lent (o : ZeroCopyOutcome) (hread : r.socket.zeroCopyRead = .ok o) :
      Change r .zeroCopyRead (r.lend o)
  | quiet (a : RxAction) (socket : Socket) (lent : List Region)
      (hbuffers : socket.buffers = r.socket.buffers) (hwc : socket.wc = r.socket.wc) :
      Change r a { r with socket := socket, lent := lent }
  | gone : Change r .destroy r.gone

theorem change_of_step {a : RxAction} (hstep : r.step a = some t) :
    r.destroyed = false ∧ r.Change a t := by
  unfold step at hstep
  split at hstep
  · cases hstep
  · rename_i halive
    refine ⟨by simpa using halive, ?_⟩
    cases a with
    | passWc addWc =>
        obtain ⟨hsuccess, hnext⟩ := Option.ite_none_right_eq_some.mp hstep
        obtain rfl := Option.some.inj hnext
        exact .arrived addWc hsuccess
    | read len =>
        obtain ⟨-, hserve⟩ := Option.ite_none_right_eq_some.mp hstep
        obtain ⟨o, hread, rfl⟩ := Option.map_eq_some_iff.mp hserve
        exact .served len o hread
    | zeroCopyRead =>
        obtain ⟨o, hread, rfl⟩ := Option.map_eq_some_iff.mp hstep
        apply Change.lent o
        cases hcall : r.socket.zeroCopyRead with
        | error trap => simp [hcall, Except.toOption] at hread
        | ok o' => simpa [hcall, Except.toOption] using hread
    | releaseMemory g =>
        obtain ⟨-, hnext⟩ := Option.ite_none_right_eq_some.mp hstep
        obtain rfl := Option.some.inj hnext
        exact .quiet _ _ _ rfl rfl
    | connection active connected | fault =>
        obtain rfl := Option.some.inj hstep
        exact .quiet _ _ _ rfl rfl
    | destroy =>
        obtain ⟨-, hnext⟩ := Option.ite_none_right_eq_some.mp hstep
        obtain rfl := Option.some.inj hnext
        exact .gone

/-- A call that posts some of the chunks held, and hands up others. -/
theorem Accounted.moves (hr : r.Accounted) (posted : List Chunk) (handed : List ℕ)
    (hregular : t.socket.Regular)
    (hperm : (posted.map Chunk.addr ++ handed ++ t.socket.chunksHeld).Perm r.socket.chunksHeld)
    (hposted : t.posted = r.posted ++ posted.map Chunk.addr)
    (hhanded : t.handed = r.handed ++ handed) (hreceived : t.received = r.received)
    (hinUse : t.rxBufsInUse = r.rxBufsInUse - posted.length)
    (hbefore : t.inUseBefore = r.inUseBefore)
    (hempty : t.destroyed = true → t.socket.chunksHeld = []) : t.Accounted where
  regular := hregular
  chunks := by
    have hchunks := hr.chunks
    rw [hposted, hhanded, hreceived]
    apply List.Perm.trans _ hchunks
    simp only [List.perm_iff_count, List.count_append] at hperm ⊢
    intro a
    have h := hperm a
    omega
  in_use := by
    rw [hinUse, hbefore, hposted, hr.in_use, List.length_append, List.length_map]
    push_cast
    ring
  emptied := hempty

/-- **The step lemma.**  Every chunk stays accounted for. -/
theorem Accounted.step {a : RxAction} (hr : r.Accounted) (hfits : r.requestFits a)
    (hstep : r.step a = some t) : t.Accounted := by
  obtain ⟨halive, hchange⟩ := change_of_step hstep
  cases hchange with
  | arrived addWc hsuccess =>
      refine ⟨⟨by simpa [arrive] using hr.regular.waiting, ?_⟩, ?_, hr.in_use,
        by simp [arrive, halive]⟩
      · intro w hw
        simp only [arrive, Socket.passWc_wc, List.mem_append] at hw
        exact hw.elim (hr.regular.success w) (hsuccess w)
      · have h := hr.chunks.append_right (addWc.map fun w => w.chunk.addr)
        simpa [arrive, Socket.chunksHeld] using h
  | served len o hread =>
      obtain ⟨hregular, -, hperm⟩ := read_accounts hr.regular hfits hread
      exact hr.moves o.posted [] hregular (by simpa [serve] using hperm) rfl (by simp [serve])
        rfl rfl rfl (by simp [serve, halive])
  | lent o hread =>
      obtain ⟨hregular, hperm⟩ := zeroCopyRead_accounts hr.regular hread
      exact hr.moves o.posted _ hregular hperm rfl rfl rfl rfl rfl (by simp [lend, halive])
  | quiet _ socket lent hbuffers hwc =>
      have hheld : socket.chunksHeld = r.socket.chunksHeld := by
        rw [Socket.chunksHeld, hbuffers, hwc, Socket.chunksHeld]
      refine ⟨⟨?_, ?_⟩, ?_, hr.in_use, by simp [halive]⟩
      · exact hbuffers.symm ▸ hr.regular.waiting
      · exact hwc.symm ▸ hr.regular.success
      · exact hheld.symm ▸ hr.chunks
  | gone =>
      have hempty : (r.socket.destroy.2).chunksHeld = [] := rfl
      have hall : (r.socket.destroy.1.map Chunk.addr).Perm r.socket.chunksHeld := by
        simpa [Socket.destroy, Socket.chunksHeld, Function.comp_def] using List.perm_append_comm
      exact hr.moves _ [] ⟨waiting_nil, by simp [RxRun.gone, Socket.destroy]⟩
        (by simpa [RxRun.gone, hempty] using hall) rfl (by simp [RxRun.gone]) rfl rfl rfl
        fun _ => hempty

/-- **Where the chunks are.**  With reads that fit, every run accounts for each. -/
theorem accounted_of_fits (hreached : rxMachine.ReachedUnder requestFits r) : r.Accounted := by
  apply hreached.invariant Accounted
  · intro r hfresh
    exact hfresh.accounted
  · intro r a t hr hok hstep
    exact hr.step hok hstep

/-! ## The order of the bytes -/

/-- A `read` fits, and a `zero_copy_read` has at most one chunk to choose from. -/
def takesOldest (r : RxRun) : RxAction → Prop
  | .read len => RequestFits len (unreadAll r.socket.buffers).length
  | .zeroCopyRead => r.socket.error ≠ 0 ∨ r.socket.queue.length ≤ 1
  | _ => True

instance (r : RxRun) (a : RxAction) : Decidable (r.takesOldest a) :=
  match a with
  | .read _ => inferInstanceAs (Decidable (RequestFits _ _))
  | .zeroCopyRead => inferInstanceAs (Decidable (_ ∨ _))
  | .passWc _ | .releaseMemory _ | .connection _ _ | .fault | .destroy => .isTrue trivial

theorem requestFits_of_takesOldest (r : RxRun) (a : RxAction) (h : r.takesOldest a) :
    r.requestFits a := by
  cases a <;> first | exact h | trivial

/-- The bytes delivered are the first that arrived, and a living socket holds the
others in order. -/
structure InOrder (r : RxRun) : Prop where
  delivered : r.delivered <+: r.arrived
  held : r.destroyed = false → r.delivered ++ r.socket.bytesHeld = r.arrived

theorem InOrder.of_held (hheld : r.delivered ++ r.socket.bytesHeld = r.arrived) : r.InOrder :=
  ⟨⟨_, hheld⟩, fun _ => hheld⟩

/-- The step lemma: a step that takes the oldest chunk keeps the order. -/
theorem InOrder.step {a : RxAction} (hr : r.InOrder) (haccounted : r.Accounted)
    (hok : r.takesOldest a) (hstep : r.step a = some t) : t.InOrder := by
  obtain ⟨halive, hchange⟩ := change_of_step hstep
  have hheld := hr.held halive
  cases hchange with
  | arrived addWc hsuccess =>
      apply InOrder.of_held
      simp [arrive, Socket.bytesHeld, ← hheld]
  | served len o hread =>
      have hbytes := (read_accounts haccounted.regular hok hread).bytes_eq
      apply InOrder.of_held
      simp [serve, hbytes, hheld]
  | lent o hread =>
      have hbytes := zeroCopyRead_ordered haccounted.regular hok hread
      apply InOrder.of_held
      simp [lend, hbytes, hheld]
  | quiet _ socket lent hbuffers hwc =>
      apply InOrder.of_held
      rw [Socket.bytesHeld, hbuffers, hwc]
      exact hheld
  | gone => exact ⟨hr.delivered, fun h => by simp [RxRun.gone] at h⟩

/-- **The stream under both read paths.**  As long as `zero_copy_read` never has two
chunks to choose from, the bytes come up in the order they arrived. -/
theorem inOrder_of_takesOldest (hreached : rxMachine.ReachedUnder takesOldest r) :
    r.InOrder := by
  have hboth : r.Accounted ∧ r.InOrder := by
    apply hreached.invariant fun r => r.Accounted ∧ r.InOrder
    · intro r hfresh
      refine ⟨hfresh.accounted, .of_held ?_⟩
      simp [Socket.bytesHeld, hfresh.delivered, hfresh.buffers, hfresh.wc, hfresh.arrived]
    · intro r a t hr hok hstep
      exact ⟨hr.1.step (requestFits_of_takesOldest r a hok) hstep, hr.2.step hr.1 hok hstep⟩
  exact hboth.2

/-- An active, connected socket before its first completion. -/
def freshRx : RxRun where
  socket := quietSocket
  resMem := []
  inUseBefore := 1024
  rxBufsInUse := 1024
  arrived := []
  delivered := []
  received := []
  posted := []
  handed := []
  lent := []
  destroyed := false

theorem fresh_freshRx : freshRx.Fresh := ⟨rfl, rfl, rfl, rfl, rfl, rfl, rfl, rfl, rfl, rfl, rfl⟩

/-- The region over the whole of a chunk of two bytes. -/
def twoBytesRegion : Region := .ofChunk (ReadRun.twoBytes.chunk.prepareRead 2)

/-- One byte is read, and the other one handed up. -/
theorem inOrder_of_takesOldest_twoBytes :
    ∃ r : RxRun, r.delivered = [10, 20] ∧ r.arrived = [10, 20] ∧ r.InOrder := by
  obtain ⟨r, hreplay, hdelivered, harrived⟩ : ∃ r,
      rxMachine.replay takesOldest freshRx
          [.passWc [ReadRun.twoBytes], .read 1, .zeroCopyRead] = some r ∧
        r.delivered = [10, 20] ∧ r.arrived = [10, 20] := ⟨_, rfl, rfl, rfl⟩
  exact ⟨r, hdelivered, harrived,
    inOrder_of_takesOldest (.of_replay (.start fresh_freshRx) hreplay)⟩

/-- A second chunk of two bytes. -/
def twoMoreBytes : IbvWc where
  chunk := ⟨8, 2, 0, 0, [30, 40], rfl⟩
  byteLen := 2
  success := true
  byteLen_le := by decide
  bytes_lt := by decide

/-- Of two chunks the second one comes up first. -/
theorem not_inOrder_two_chunks :
    ∃ r : RxRun, rxMachine.Reached r ∧ r.socket.active = true ∧ r.socket.connected = true ∧
      r.arrived = [10, 20, 30, 40] ∧ r.delivered = [30, 40, 10, 20] ∧ ¬ r.InOrder := by
  obtain ⟨r, hreplay, hactive, hconnected, harrived, hdelivered⟩ : ∃ r,
      rxMachine.replay (fun _ _ => True) freshRx
          [.passWc [ReadRun.twoBytes, twoMoreBytes], .zeroCopyRead, .zeroCopyRead] = some r ∧
        r.socket.active = true ∧ r.socket.connected = true ∧
        r.arrived = [10, 20, 30, 40] ∧ r.delivered = [30, 40, 10, 20] :=
    ⟨_, rfl, rfl, rfl, rfl, rfl⟩
  refine ⟨r, .of_replay (.start fresh_freshRx) hreplay, hactive, hconnected, harrived,
    hdelivered, ?_⟩
  intro horder
  have h := horder.delivered
  rw [harrived, hdelivered] at h
  exact absurd h (by decide)

/-! ## The chunks of a destroyed socket -/

/-- A `read` fits, and a `zero_copy_read` finds nothing to hand up. -/
def lendsNothing (r : RxRun) : RxAction → Prop
  | .read len => RequestFits len (unreadAll r.socket.buffers).length
  | .zeroCopyRead => r.socket.error ≠ 0 ∨ r.socket.buffers = [] ∧ r.socket.wc = []
  | _ => True

instance (r : RxRun) (a : RxAction) : Decidable (r.lendsNothing a) :=
  match a with
  | .read _ => inferInstanceAs (Decidable (RequestFits _ _))
  | .zeroCopyRead => inferInstanceAs (Decidable (_ ∨ _))
  | .passWc _ | .releaseMemory _ | .connection _ _ | .fault | .destroy => .isTrue trivial

theorem requestFits_of_lendsNothing (r : RxRun) (a : RxAction) (h : r.lendsNothing a) :
    r.requestFits a := by
  cases a <;> first | exact h | trivial

/-- A destroyed socket has posted every chunk it received once, and the dispatcher
counts each of them once less. -/
def ReturnsAll (r : RxRun) : Prop :=
  r.destroyed = true →
    r.posted.Perm r.received ∧ r.rxBufsInUse = r.inUseBefore - r.received.length

/-- What the destructor returns: everything but the chunks handed up. -/
theorem Accounted.returnsAll_iff (hr : r.Accounted) (hdestroyed : r.destroyed = true) :
    r.ReturnsAll ↔ r.handed = [] := by
  have hchunks := hr.chunks
  rw [hr.emptied hdestroyed, List.append_nil] at hchunks
  have hlength := hchunks.length_eq
  rw [List.length_append] at hlength
  constructor
  · intro h
    have hsame := (h hdestroyed).1.length_eq
    exact List.eq_nil_of_length_eq_zero (by omega)
  · intro hnil _
    rw [hnil, List.append_nil] at hchunks
    exact ⟨hchunks, by rw [hr.in_use, hchunks.length_eq]⟩

/-- A step that lends nothing hands no chunk up. -/
theorem handed_step {a : RxAction} (hr : r.Accounted) (hok : r.lendsNothing a)
    (hstep : r.step a = some t) : t.handed = r.handed := by
  obtain ⟨-, hchange⟩ := change_of_step hstep
  cases hchange with
  | lent o hread =>
      have hregion : o.region = none := by
        rcases zeroCopyRead_cases hr.regular hread with
          ⟨-, hregion, -⟩ | ⟨herror, earlier, c, hqueue, -⟩
        · exact hregion
        · obtain ⟨hbuffers, hwc⟩ := hok.resolve_left fun h => h herror
          simp [Socket.queue, hbuffers, hwc, dataChunks] at hqueue
      simp [lend, hregion]
  | arrived | served | quiet | gone => rfl

/-- **The receive pool.**  A run in which `zero_copy_read` hands nothing up returns
every chunk. -/
theorem returnsAll_of_lendsNothing (hreached : rxMachine.ReachedUnder lendsNothing r) :
    r.ReturnsAll := by
  have hboth : r.Accounted ∧ r.handed = [] := by
    apply hreached.invariant fun r => r.Accounted ∧ r.handed = []
    · intro r hfresh
      exact ⟨hfresh.accounted, hfresh.handed⟩
    · intro r a t hr hok hstep
      exact ⟨hr.1.step (requestFits_of_lendsNothing r a hok) hstep,
        (handed_step hr.1 hok hstep).trans hr.2⟩
  intro hdestroyed
  exact (hboth.1.returnsAll_iff hdestroyed).mpr hboth.2 hdestroyed

/-- One byte is read, and the destructor posts the chunk with the other one. -/
theorem returnsAll_of_lendsNothing_twoBytes :
    ∃ r : RxRun, r.destroyed = true ∧ r.received = [7] ∧ r.ReturnsAll := by
  obtain ⟨r, hreplay, hdestroyed, hreceived⟩ : ∃ r,
      rxMachine.replay lendsNothing freshRx
          [.zeroCopyRead, .passWc [ReadRun.twoBytes], .read 1, .destroy] = some r ∧
        r.destroyed = true ∧ r.received = [7] := ⟨_, rfl, rfl, rfl⟩
  exact ⟨r, hdestroyed, hreceived,
    returnsAll_of_lendsNothing (.of_replay (.start fresh_freshRx) hreplay)⟩

/-- A chunk handed up and released stays in `res_mem` and never returns. -/
theorem not_returnsAll_released :
    ∃ r : RxRun, rxMachine.Reached r ∧ r.destroyed = true ∧ r.lent = [] ∧ r.received = [7] ∧
      r.posted = [] ∧ r.resMem = [twoBytesRegion] ∧ ¬ r.ReturnsAll := by
  obtain ⟨r, hreplay, hdestroyed, hlent, hreceived, hposted, hresMem⟩ : ∃ r,
      rxMachine.replay (fun _ _ => True) freshRx
          [.passWc [ReadRun.twoBytes], .zeroCopyRead, .releaseMemory twoBytesRegion,
            .destroy] = some r ∧
        r.destroyed = true ∧ r.lent = [] ∧ r.received = [7] ∧ r.posted = [] ∧
        r.resMem = [twoBytesRegion] := ⟨_, rfl, rfl, rfl, rfl, rfl, rfl⟩
  refine ⟨r, .of_replay (.start fresh_freshRx) hreplay, hdestroyed, hlent, hreceived, hposted,
    hresMem, ?_⟩
  intro hreturns
  have h := (hreturns hdestroyed).1.length_eq
  simp [hposted, hreceived] at h

end RxRun

end HwAsync.Rdma
