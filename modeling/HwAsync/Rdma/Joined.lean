/-
# Two joined sockets

What an end gives to `send` travels as the messages of a queue pair: each tx chunk that `submit`
posts is one of them, and each of them fills one rx chunk at the other end.  Nothing marks where a
message ends for the caller of `read`; a message without a byte is what `fin` posts, and the other
end takes it for a disconnect.

So each direction is a queue of bytes, from `send` to `read`, and a disconnect is the last thing
that comes out of it.  The first needs that no post of data fails, that a buffer in a tx chunk shows
the whole of it, and that no request is cut to 32 bits; the second besides that `submit` never posts
an empty message itself.
-/

import HwAsync.Rdma.Agreement
import HwAsync.Rdma.Read
import HwAsync.Rdma.SendStream
import HwAsync.Rdma.ZeroCopy

namespace HwAsync.Rdma

open HwAsync.Lib HwAsync.Infiniband

/-! ## Messages that are not empty -/

/-- Chunks that have something to send. -/
def Loaded (chunks : List Chunk) : Prop := ∀ c ∈ chunks, c.sent ≠ []

/-- No tx chunk is handed over without a byte in it. -/
def Solid (buffers : List Buffer) : Prop := ∀ b ∈ buffers, b.txChunk ≠ none → b.bytes ≠ []

instance decidableSolid (buffers : List Buffer) : Decidable (Solid buffers) :=
  inferInstanceAs (Decidable (∀ b ∈ buffers, b.txChunk ≠ none → b.bytes ≠ []))

theorem loaded_append {chunks more : List Chunk} :
    Loaded (chunks ++ more) ↔ Loaded chunks ∧ Loaded more :=
  List.forall_mem_append

theorem Ordinary.solid {buffers : List Buffer} (hbuffers : Ordinary buffers) : Solid buffers :=
  fun b hb hchunk => absurd (hbuffers b hb) hchunk

/-- The buffer that is cut keeps a byte. -/
theorem Solid.dropBytes {buffers : List Buffer} (hbuffers : Solid buffers) (n : ℕ) :
    Solid (dropBytes n buffers) := by
  induction buffers generalizing n with
  | nil => cases n <;> exact hbuffers
  | cons b rest ih =>
      have hrest : Solid rest := fun c hc => hbuffers c (List.mem_cons_of_mem b hc)
      cases n with
      | zero => exact hbuffers
      | succ n =>
          rw [HwAsync.Rdma.dropBytes]
          split
          · exact ih hrest _
          · rename_i hcut
            intro c hc hchunk
            rcases List.mem_cons.mp hc with rfl | hc
            · exact List.ne_nil_of_length_pos (by rw [List.length_drop]; omega)
            · exact hrest c hc hchunk

theorem Solid.consume {bl : Bufferlist} (hbl : Solid bl.buffers) (total : ℕ) :
    Solid (bl.consume total).buffers := by
  unfold Bufferlist.consume
  split
  · exact hbl.dropBytes total
  · exact fun b hb => absurd hb List.not_mem_nil

theorem Solid.append {bl more out : Bufferlist} (hbl : Solid bl.buffers)
    (hmore : Solid more.buffers) (happend : bl.append more = some out) : Solid out.buffers := by
  unfold Bufferlist.append at happend
  split at happend
  · obtain rfl := Option.some.inj happend
    exact List.forall_mem_append.mpr ⟨hbl, hmore⟩
  · cases happend

section Copy

variable {size : ℕ} {own : Multiset ℕ}

theorem Chunk.sent_ne_nil_of_isFull {c : Chunk} (hpos : 0 < c.bytes) (hfull : c.isFull = true) :
    c.sent ≠ [] := by
  have hoffset := c.isFull_iff.mp hfull
  refine List.ne_nil_of_length_pos ?_
  rw [Chunk.sent, List.length_take, c.length_data, hoffset, Nat.min_self]
  exact hpos

/-- A write that fills a chunk has left something in it. -/
theorem loaded_write {filled : List Chunk} {current : Chunk} {src : List UInt8}
    (hfilled : Loaded filled) (hcurrent : current.Writable ∧ 0 < current.bytes)
    (hfull : (current.write src).2.isFull = true) :
    Loaded (filled ++ [(current.write src).2]) := by
  obtain ⟨-, -, hbytes, -⟩ := Chunk.write_spec hcurrent.1 src
  have hsent := Chunk.sent_ne_nil_of_isFull (hbytes ▸ hcurrent.2) hfull
  refine loaded_append.mpr ⟨hfilled, fun c hc => ?_⟩
  rw [List.mem_singleton.mp hc]
  exact hsent

/-- The chunks that the copying of a buffer leaves behind are full. -/
theorem copyBuffer_loaded (rest : List Chunk) {src : List UInt8} {copied : ℕ}
    {filled : List Chunk} {current : Chunk} (hfilled : Loaded filled)
    (hchunks : ∀ d ∈ current :: rest, d.Writable ∧ 0 < d.bytes) :
    (∀ c, copyBuffer src copied filled current rest = .room c → Loaded c.filled) ∧
      ∀ k chunks, copyBuffer src copied filled current rest = .exhausted k chunks →
        Loaded chunks := by
  have hcurrent := hchunks current List.mem_cons_self
  have hroom : ∀ c : Cursor, c.filled = filled →
      (∀ c', Copy.room c = .room c' → Loaded c'.filled) ∧
        ∀ k chunks, Copy.room c = .exhausted k chunks → Loaded chunks := by
    intro c hc
    refine ⟨fun c' hc' => ?_, fun k chunks hout => by cases hout⟩
    rw [← Copy.room.inj hc', hc]
    exact hfilled
  rw [copyBuffer.eq_def]
  by_cases hsrc : src = []
  · rw [if_pos hsrc]
    exact hroom _ rfl
  · rw [if_neg hsrc]
    cases hfull : (current.write src).2.isFull with
    | false =>
        simp only [hfull, Bool.false_eq_true, if_false]
        exact hroom _ rfl
    | true =>
        have hloaded := loaded_write hfilled hcurrent hfull
        simp only [hfull, if_true]
        cases rest with
        | nil =>
            refine ⟨fun c hc => (by cases hc), fun k chunks hout => ?_⟩
            rw [← (Copy.exhausted.inj hout).2]
            exact hloaded
        | cons next rest =>
            exact copyBuffer_loaded rest hloaded fun d hd => hchunks d (List.mem_cons_of_mem _ hd)
termination_by rest.length

/-- A cursor that had to come to its last chunk has left something in every chunk. -/
theorem Cursor.Wrote.loaded {out : List UInt8} {c : Cursor} (hc : c.Wrote size own out)
    (hfilled : Loaded c.filled) (hneed : (own.card - 1) * size < out.length) :
    Loaded c.chunks := by
  have hsizes : ∀ chunks : List Chunk, (∀ d ∈ chunks, d.bytes = size) →
      (sentAll chunks).length ≤ chunks.length * size := by
    intro chunks hchunks
    induction chunks with
    | nil => exact Nat.zero_le _
    | cons d rest ih =>
        have hrest := ih fun d hd => hchunks d (List.mem_cons_of_mem _ hd)
        have hd : d.sent.length ≤ size := by
          rw [Chunk.sent, List.length_take, d.length_data, hchunks d List.mem_cons_self]
          exact Nat.min_le_right _ _
        rw [sentAll_cons, List.length_append, List.length_cons, Nat.add_mul, Nat.one_mul]
        omega
  have hcard : own.card = c.filled.length + (c.rest.length + 1) := by
    rw [← hc.addrs_eq, card_addrs, Cursor.chunks, List.length_append, List.length_cons]
  have hout : out.length = (sentAll c.filled).length + c.current.sent.length := by
    rw [← hc.sent_eq, Cursor.chunks, sentAll_append, sentAll_cons, hc.rest_unwritten.sentAll_eq,
      List.append_nil, List.length_append]
  have hfront := hsizes c.filled fun d hd =>
    hc.size_eq d (List.mem_append_left _ hd)
  have hcurrent : c.current.sent.length ≤ c.current.offset := by
    rw [Chunk.sent, List.length_take]
    exact Nat.min_le_left _ _
  have hroom := hc.current_room
  have hrest : c.rest = [] := by
    by_contra hne
    have hlength : 0 < c.rest.length := List.length_pos_iff.mpr hne
    have hle : (c.filled.length + 1) * size ≤ (own.card - 1) * size :=
      Nat.mul_le_mul_right size (by omega)
    rw [Nat.add_mul, Nat.one_mul] at hle
    omega
  have hlast : c.current.sent ≠ [] := by
    rw [hcard, hrest, List.length_nil, Nat.zero_add, Nat.add_sub_cancel] at hneed
    exact List.ne_nil_of_length_pos (by omega)
  rw [Cursor.chunks, hrest]
  refine loaded_append.mpr ⟨hfilled, fun d hd => ?_⟩
  rw [List.mem_singleton.mp hd]
  exact hlast

/-- Copying as many bytes as the chunks were taken for leaves something in every chunk. -/
theorem copyBuffers_loaded (hsize : 0 < size) (hlt : size < 2 ^ 32) (buffers : List Buffer)
    {out : List UInt8} {c : Cursor} (hc : c.Wrote size own out) (hfilled : Loaded c.filled)
    (hneed : (own.card - 1) * size < out.length + (contents buffers).length) :
    Loaded (copyBuffers buffers c).chunks := by
  induction buffers generalizing c out with
  | nil => exact hc.loaded hfilled hneed
  | cons b rest ih =>
      have hwritable : ∀ d ∈ c.current :: c.rest, d.Writable ∧ 0 < d.bytes := by
        intro d hd
        have hbytes : d.bytes = size := hc.size_eq d (List.mem_append_right _ hd)
        refine ⟨⟨?_, hbytes ▸ hlt⟩, hbytes ▸ hsize⟩
        rcases List.mem_cons.mp hd with rfl | hd
        · exact hbytes ▸ hc.current_room.le
        · exact (hc.rest_unwritten d hd).1 ▸ Nat.zero_le _
      obtain ⟨hroom, hexhausted⟩ := @copyBuffer_loaded c.rest b.bytes c.copied c.filled c.current
        hfilled hwritable
      rcases @copyBuffer_spec size own hsize hlt c.rest b.bytes out c.copied c.filled c.current hc
        with ⟨c', hcopy, hc'⟩ | ⟨k, chunks, hcopy, -⟩
      · simp only [copyBuffers, hcopy]
        refine ih hc' (hroom c' hcopy) ?_
        rwa [contents_cons, List.length_append, ← Nat.add_assoc, ← List.length_append] at hneed
      · simp only [copyBuffers, hcopy]
        exact hexhausted _ chunks hcopy

end Copy

/-- One chunk less would not hold what the chunks are needed for. -/
theorem Cluster.needed_mul_lt {k : Cluster} {bytes : ℕ} (hpos : 0 < bytes) :
    (k.needed bytes - 1) * k.bufferSize < bytes := by
  have hmod := Nat.div_add_mod' bytes k.bufferSize
  unfold Cluster.needed
  split
  · rename_i hdvd
    rw [hdvd, Nat.add_zero] at hmod
    have hsize : 0 < k.bufferSize := by
      refine Nat.pos_of_ne_zero fun hzero => ?_
      rw [hzero, Nat.mul_zero] at hmod
      omega
    have hle : bytes / k.bufferSize % 2 ^ 32 ≤ bytes / k.bufferSize := Nat.mod_le _ _
    cases hneeded : bytes / k.bufferSize % 2 ^ 32 with
    | zero => rwa [Nat.zero_sub, Nat.zero_mul]
    | succ n =>
        calc n * k.bufferSize < (n + 1) * k.bufferSize :=
              Nat.mul_lt_mul_of_pos_right n.lt_succ_self hsize
          _ ≤ bytes / k.bufferSize * k.bufferSize := Nat.mul_le_mul_right _ (hneeded ▸ hle)
          _ = bytes := hmod
  · rename_i hdvd
    have hle : (bytes / k.bufferSize + 1) % 2 ^ 32 ≤ bytes / k.bufferSize + 1 := Nat.mod_le _ _
    have hmul : ((bytes / k.bufferSize + 1) % 2 ^ 32 - 1) * k.bufferSize ≤
        bytes / k.bufferSize * k.bufferSize :=
      Nat.mul_le_mul_right _ (Nat.sub_le_of_le_add hle)
    omega

theorem Cluster.length_getBuffers_mul_lt {k : Cluster} {bytes : ℕ} (hpos : 0 < bytes) :
    ((k.getBuffers bytes).1.length - 1) * k.bufferSize < bytes := by
  unfold Cluster.getBuffers
  split
  · rwa [List.length_nil, Nat.zero_sub, Nat.zero_mul]
  · rw [if_neg (Nat.pos_iff_ne_zero.mp hpos)]
    have hle : (k.freeChunks.reverse.take (min (k.needed bytes) k.freeChunks.length)).length ≤
        k.needed bytes := by
      rw [List.length_take]
      omega
    exact (Nat.mul_le_mul_right _ (Nat.sub_le_sub_right hle 1)).trans_lt (needed_mul_lt hpos)

/-! ## `submit` posts no empty message -/

section Loop

variable {worker o : ℕ} {v v' : Walk} {done buffers : List Buffer} {copied : ℕ}

theorem fillTxViaCopy_loaded (hready : v.side.cluster.Ready)
    (hneed : v.needReserveBytes = (contents v.uncopied).length) (hpos : 0 < v.needReserveBytes)
    (hloaded : Loaded v.txBuffers) (hfill : fillTxViaCopy worker o v = some (copied, v')) :
    Loaded v'.txBuffers := by
  obtain ⟨hclean, -⟩ := @Cluster.Ready.getBuffers v.side.cluster v.needReserveBytes hready
  obtain ⟨hchunks, -, -⟩ := @getRegedMem_eq worker o v.side v.pending v.needReserveBytes
  have hlength := @Cluster.length_getBuffers_mul_lt v.side.cluster v.needReserveBytes hpos
  unfold fillTxViaCopy at hfill
  split at hfill
  · cases hfill
  · dsimp only at hfill
    rw [← hchunks] at hclean hlength
    generalize getRegedMem worker o v.pending v.side v.needReserveBytes = g at *
    cases hgot : g.chunks with
    | nil =>
        rw [hgot] at hfill
        obtain ⟨-, rfl⟩ := Prod.mk.inj (Option.some.inj hfill)
        exact hloaded
    | cons c rest =>
        rw [hgot] at hfill hclean hlength
        have hunwritten : Unwritten v.side.cluster.bufferSize (c :: rest) :=
          fun d hd => ⟨(hclean d hd).offset, (hclean d hd).bytes⟩
        have hstart : (Cursor.mk 0 [] c rest).Wrote v.side.cluster.bufferSize (addrs (c :: rest))
            [] := by
          refine ⟨rfl, rfl, hunwritten.sentAll_eq, fun d hd => (hclean d hd).bytes, ?_,
            fun d hd => hunwritten d (List.mem_cons_of_mem c hd)⟩
          rw [(hclean c List.mem_cons_self).offset]
          exact hready.bufferSize_pos
        have hcopied := copyBuffers_loaded hready.bufferSize_pos hready.bufferSize_lt v.uncopied
          hstart (fun d hd => absurd hd List.not_mem_nil)
          (by rwa [card_addrs, List.length_nil, Nat.zero_add, ← hneed])
        dsimp only at hfill
        split at hfill
        · cases hfill
        · obtain ⟨-, rfl⟩ := Prod.mk.inj (Option.some.inj hfill)
          exact loaded_append.mpr ⟨hloaded, hcopied⟩

/-- **The loop.** -/
theorem submitLoop_loaded (hv : v.Keeps done) (hloaded : Loaded v.txBuffers)
    (hbacked : Backed buffers) (hsolid : Solid buffers)
    (hloop : submitLoop worker o buffers v = some v') : Loaded v'.txBuffers := by
  induction buffers generalizing v done with
  | nil =>
      rw [submitLoop] at hloop
      by_cases hneed : v.needReserveBytes = 0
      · rw [if_pos hneed] at hloop
        exact Option.some.inj hloop ▸ hloaded
      · rw [if_neg hneed] at hloop
        split at hloop
        · cases hloop
        · rename_i copied w hfill
          have hw := fillTxViaCopy_loaded hv.ready hv.need_eq (Nat.pos_of_ne_zero hneed) hloaded
            hfill
          rw [← Option.some.inj hloop]
          exact hw
  | cons b rest ih =>
      obtain ⟨hb, hrest⟩ := backed_cons.mp hbacked
      obtain ⟨hfull, htail⟩ := List.forall_mem_cons.mp hsolid
      rw [submitLoop.eq_def] at hloop
      simp only at hloop
      cases hchunk : b.txChunk with
      | none =>
          rw [hchunk] at hloop
          exact ih (hv.count hchunk) hloaded hrest htail hloop
      | some c =>
          rw [hchunk] at hloop
          obtain ⟨-, hsent⟩ := hb c hchunk
          have hc : Loaded [c] := by
            intro d hd
            rw [List.mem_singleton.mp hd, hsent]
            exact hfull (hchunk ▸ Option.some_ne_none c)
          by_cases hneed : v.needReserveBytes = 0
          · simp only [if_pos hneed] at hloop
            split at hloop
            · exact ih (hv.take hsent) (loaded_append.mpr ⟨hloaded, hc⟩) hrest htail hloop
            · cases hloop
          · obtain ⟨copied, w, hfill, hsame, hstopped⟩ := @Walk.Keeps.fill worker o _ _ hv hneed
            have hw := fillTxViaCopy_loaded hv.ready hv.need_eq (Nat.pos_of_ne_zero hneed) hloaded
              hfill
            simp only [if_neg hneed, hfill] at hloop
            split at hloop
            · rw [← Option.some.inj hloop]
              exact hw
            · rename_i hall
              split at hloop
              · rename_i hempty
                rw [hsame, hv.need_eq, Nat.not_lt] at hall
                exact ih ((hstopped.keeps hall hempty).take hsent)
                  (loaded_append.mpr ⟨hw, hc⟩) hrest htail hloop
              · cases hloop

end Loop

section Calls

variable {worker o : ℕ} {s : Socket} {t : TxSide} {out : SendOutcome}

theorem submit_loaded (hready : t.cluster.Ready) (hbacked : Backed s.pendingBl.buffers)
    (hsolid : Solid s.pendingBl.buffers) (hsubmit : s.submit worker o t .posted = some out) :
    Loaded out.posted ∧ Solid out.socket.pendingBl.buffers := by
  have hnothing : Loaded [] := fun c hc => absurd hc List.not_mem_nil
  unfold Socket.submit at hsubmit
  split at hsubmit
  · obtain rfl := Option.some.inj hsubmit
    exact ⟨hnothing, hsolid⟩
  · split at hsubmit
    · obtain rfl := Option.some.inj hsubmit
      exact ⟨hnothing, hsolid⟩
    · split at hsubmit
      · cases hsubmit
      · rename_i v hloop
        have hkeeps : Walk.Keeps ⟨[], 0, 0, [], s.pending, t⟩ [] :=
          ⟨rfl, rfl, rfl, fun b hb => absurd hb List.not_mem_nil, hready⟩
        have hv := submitLoop_loaded hkeeps hnothing hbacked hsolid hloop
        unfold Socket.sending at hsubmit
        dsimp only at hsubmit
        split at hsubmit
        · obtain rfl := Option.some.inj hsubmit
          exact ⟨hnothing, hsolid⟩
        · split at hsubmit
          · cases hsubmit
          · obtain rfl := Option.some.inj hsubmit
            exact ⟨hv, hsolid.consume v.total⟩

/-- **`send`.**  Each message that it posts has a byte. -/
theorem send_loaded {bl : Bufferlist} (hready : t.cluster.Ready)
    (hbacked : Backed s.pendingBl.buffers) (hbl : Backed bl.buffers)
    (hsolid : Solid s.pendingBl.buffers) (hmore : Solid bl.buffers)
    (hsend : s.send worker o t bl .posted = some out) :
    Loaded out.posted ∧ Solid out.socket.pendingBl.buffers := by
  have hnothing : Loaded [] := fun c hc => absurd hc List.not_mem_nil
  unfold Socket.send at hsend
  split at hsend
  · obtain rfl := Option.some.inj hsend
    exact ⟨hnothing, hsolid⟩
  · split at hsend
    · obtain rfl := Option.some.inj hsend
      exact ⟨hnothing, hsolid⟩
    · split at hsend
      · cases hsend
      · rename_i pendingBl happend
        have hboth := hsolid.append hmore happend
        have hpending : Backed pendingBl.buffers := by
          unfold Bufferlist.append at happend
          split at happend
          · obtain rfl := Option.some.inj happend
            exact backed_append.mpr ⟨hbacked, hbl⟩
          · cases happend
        dsimp only at hsend
        split at hsend
        · obtain rfl := Option.some.inj hsend
          exact ⟨hnothing, hboth⟩
        · split at hsend
          · cases hsend
          · rename_i inner hsubmit
            have hinner := submit_loaded (s := { s with pendingBl := pendingBl }) hready hpending
              hboth hsubmit
            obtain rfl := Option.some.inj hsend
            exact hinner

end Calls

/-! ## The machine -/

def End.peer : End → End
  | .client => .server
  | .server => .client

/-- Both sockets with the tx side of their hosts, the messages on the way to each end, what `send`
accepted and `read` returned there, whether the end posted its disconnect, and whether it was shut
down or faulted itself. -/
structure Joined where
  socket : End → Socket
  side : End → TxSide
  wire : End → List (List UInt8)
  accepted : End → List UInt8
  delivered : End → List UInt8
  finned : End → Bool
  ended : End → Bool

inductive JoinedAction
  | send (e : End) (worker o : ℕ) (bl : Bufferlist) (post : PostResult)
  | submit (e : End) (worker o : ℕ) (post : PostResult)
  | others (e : End) (side : TxSide)
  | connection (e : End) (active connected : Bool)
  | passWc (e : End) (addWc : List IbvWc)
  | read (e : End) (len : ℕ)
  | shutdown (e : End) (post : PostResult)
  | fault (e : End)

namespace Joined

def setSocket (s : Joined) (e : End) (socket : Socket) : Joined :=
  { s with socket := Function.update s.socket e socket }

/-- What `send` or `submit` leaves: every chunk that was posted is a message. -/
def posts (s : Joined) (e : End) (out : SendOutcome) (accepted : List UInt8) : Joined :=
  { s with
    socket := Function.update s.socket e out.socket
    side := Function.update s.side e out.side
    wire := Function.update s.wire e.peer (s.wire e.peer ++ out.posted.map Chunk.sent)
    accepted := Function.update s.accepted e (s.accepted e ++ accepted) }

/-- `fin`, which posts a request without data. -/
def fin (s : Joined) (e : End) : PostResult → Joined
  | .posted =>
      { s with
        wire := Function.update s.wire e.peer (s.wire e.peer ++ [[]])
        finned := Function.update s.finned e true }
  | .failed _ => s

/-- `shutdown`, and `close`. -/
def shutdown (s : Joined) (e : End) (post : PostResult) : Joined :=
  let t := if (s.socket e).error = 0 then s.fin e post else s
  { t.setSocket e { s.socket e with error := econnreset, active := false } with
    ended := Function.update s.ended e true }

/-- One step.  The handshake sets the flags, the other sockets of a host leave any tx side whose
cluster is in order, and messages arrive whole and in order, each in a chunk that it fits in.  What
is read is counted in an `ssize_t`. -/
def step (s : Joined) : JoinedAction → Option Joined
  | .send e worker o bl post =>
      ((s.socket e).send worker o (s.side e) bl post).map fun out =>
        s.posts e out (out.accepted bl)
  | .submit e worker o post =>
      ((s.socket e).submit worker o (s.side e) post).map fun out => s.posts e out []
  | .others e side =>
      if side.cluster.Ready then some { s with side := Function.update s.side e side } else none
  | .connection e active connected =>
      some (s.setSocket e { s.socket e with active := active, connected := connected })
  | .passWc e addWc =>
      if (∀ w ∈ addWc, w.success = true) ∧ addWc.map IbvWc.payload <+: s.wire e then
        some { s.setSocket e ((s.socket e).passWc addWc) with
          wire := Function.update s.wire e ((s.wire e).drop addWc.length) }
      else none
  | .read e len =>
      if len < 2 ^ 63 then
        ((s.socket e).read len).map fun o =>
          { s.setSocket e o.socket with
            delivered := Function.update s.delivered e (s.delivered e ++ o.bytes) }
      else none
  | .shutdown e post => some (s.shutdown e post)
  | .fault e =>
      some { s.setSocket e (s.socket e).fault with ended := Function.update s.ended e true }

/-- Nothing was sent yet. -/
structure Fresh (s : Joined) : Prop where
  socket : ∀ e, (s.socket e).error = 0 ∧ (s.socket e).buffers = [] ∧ (s.socket e).wc = [] ∧
    (s.socket e).pendingBl.buffers = []
  ready : ∀ e, (s.side e).cluster.Ready
  wire : ∀ e, s.wire e = []
  accepted : ∀ e, s.accepted e = []
  delivered : ∀ e, s.delivered e = []
  finned : ∀ e, s.finned e = false
  ended : ∀ e, s.ended e = false

/-- No post of data fails, a buffer in a tx chunk shows the whole of it, and a request is for
something and fits what is buffered when it is made. -/
def Fits (s : Joined) : JoinedAction → Prop
  | .send _ _ _ bl post => Backed bl.buffers ∧ post = .posted
  | .submit _ _ _ post => post = .posted
  | .read e len => 0 < len ∧ RequestFits len (unreadAll (s.socket e).buffers).length
  | _ => True

instance decidableFits (s : Joined) : ∀ a, Decidable (s.Fits a)
  | .send _ _ _ bl post => inferInstanceAs (Decidable (Backed bl.buffers ∧ post = .posted))
  | .submit _ _ _ post => inferInstanceAs (Decidable (post = .posted))
  | .read e len =>
      inferInstanceAs (Decidable
        (0 < len ∧ RequestFits len (unreadAll (s.socket e).buffers).length))
  | .others .. | .connection .. | .passWc .. | .shutdown .. | .fault .. => .isTrue trivial

/-- No tx chunk is handed over empty. -/
def HandsSolid : JoinedAction → Prop
  | .send _ _ _ bl _ => Solid bl.buffers
  | _ => True

instance decidableHandsSolid : ∀ a, Decidable (HandsSolid a)
  | .send _ _ _ bl _ => decidableSolid bl.buffers
  | .submit .. | .others .. | .connection .. | .passWc .. | .read .. | .shutdown .. | .fault .. =>
      .isTrue trivial

/-- Both of them. -/
def FitsSolid (s : Joined) (a : JoinedAction) : Prop := s.Fits a ∧ HandsSolid a

instance decidableFitsSolid (s : Joined) (a : JoinedAction) : Decidable (s.FitsSolid a) :=
  inferInstanceAs (Decidable (_ ∧ _))

/-- What is on its way from an end: with its peer, between them, or still pending. -/
def held (s : Joined) (e : End) : List UInt8 :=
  unreadAll (s.socket e.peer).buffers ++ (s.socket e.peer).wc.flatMap IbvWc.payload ++
    (s.wire e.peer).flatten ++ contents (s.socket e).pendingBl.buffers

end Joined

/-- Two sockets that are joined. -/
def joinedMachine : Machine Joined JoinedAction where
  start := Joined.Fresh
  step := Joined.step

/-! ## One direction -/

/-- What a call of `send` or `submit` does, where `accepted` of the buffers was accepted. -/
structure Sends (s : Socket) (buffers : List Buffer) (accepted : List UInt8) (out : SendOutcome) :
    Prop where
  streams : Streams (contents s.pendingBl.buffers ++ accepted) out
  socket : ∃ pending pendingBl, out.socket = { s with pending := pending, pendingBl := pendingBl }
  silent : s.error ≠ 0 → out.posted = []
  loaded : Solid s.pendingBl.buffers → Solid buffers →
    Loaded out.posted ∧ Solid out.socket.pendingBl.buffers

section Calls

variable {worker o : ℕ} {s : Socket} {t : TxSide} {out : SendOutcome}

theorem submit_sends (hready : t.cluster.Ready) (hbacked : Backed s.pendingBl.buffers)
    (hsubmit : s.submit worker o t .posted = some out) : Sends s [] [] out where
  streams := by
    rw [List.append_nil]
    exact (submit_streams hready hbacked hsubmit).1
  socket := submit_socket hsubmit
  silent := by
    intro herror
    unfold Socket.submit at hsubmit
    rw [if_pos herror] at hsubmit
    rw [← Option.some.inj hsubmit]
  loaded := fun hsolid _ => submit_loaded hready hbacked hsolid hsubmit

theorem send_sends {bl : Bufferlist} (hready : t.cluster.Ready)
    (hbacked : Backed s.pendingBl.buffers) (hbl : Backed bl.buffers)
    (hsend : s.send worker o t bl .posted = some out) :
    Sends s bl.buffers (out.accepted bl) out where
  streams := send_streams hready hbacked hbl hsend
  socket := (send_socket hsend).1
  silent := by
    intro herror
    unfold Socket.send at hsend
    rw [if_pos herror] at hsend
    rw [← Option.some.inj hsend]
  loaded := fun hsolid hmore => send_loaded hready hbacked hbl hsolid hmore hsend

end Calls

/-- The bytes of one direction, with the receiving socket `r`. -/
structure Flow (pending : List Buffer) (wire : List (List UInt8)) (r : Socket)
    (accepted delivered : List UInt8) : Prop where
  waiting : Waiting r.buffers
  success : ∀ w ∈ r.wc, w.success = true
  stream : delivered ++ (unreadAll r.buffers ++ r.wc.flatMap IbvWc.payload ++ wire.flatten ++
    contents pending) = accepted

section Flow

variable {pending buffers : List Buffer} {wire : List (List UInt8)} {r s : Socket}
  {accepted delivered more : List UInt8} {out : SendOutcome}

theorem Flow.sends (h : Flow s.pendingBl.buffers wire r accepted delivered)
    (hsends : Sends s buffers more out) :
    Flow out.socket.pendingBl.buffers (wire ++ out.posted.map Chunk.sent) r (accepted ++ more)
      delivered where
  waiting := h.waiting
  success := h.success
  stream := by
    have hstream : sentAll out.posted ++ contents out.socket.pendingBl.buffers =
        contents s.pendingBl.buffers ++ more := hsends.streams.stream
    rw [sentAll, List.flatMap_def] at hstream
    rw [← h.stream, List.flatten_append]
    simp only [List.append_assoc]
    rw [hstream]

theorem Flow.fin (h : Flow pending wire r accepted delivered) :
    Flow pending (wire ++ [[]]) r accepted delivered :=
  ⟨h.waiting, h.success, by
    rw [List.flatten_append, List.flatten_singleton, List.append_nil]
    exact h.stream⟩

theorem Flow.passWc (h : Flow pending wire r accepted delivered) {addWc : List IbvWc}
    (hsuccess : ∀ w ∈ addWc, w.success = true) (hwire : addWc.map IbvWc.payload <+: wire) :
    Flow pending (wire.drop addWc.length) (r.passWc addWc) accepted delivered where
  waiting := by
    rw [Socket.passWc_buffers]
    exact h.waiting
  success := by
    rw [Socket.passWc_wc]
    exact List.forall_mem_append.mpr ⟨h.success, hsuccess⟩
  stream := by
    obtain ⟨rest, rfl⟩ := hwire
    have hdrop : (addWc.map IbvWc.payload ++ rest).drop addWc.length = rest := by
      rw [← List.length_map (f := IbvWc.payload), List.drop_left]
    rw [hdrop, Socket.passWc_buffers, Socket.passWc_wc, List.flatMap_append, ← h.stream,
      List.flatten_append, ← List.flatMap_def]
    simp only [List.append_assoc]

theorem Flow.read (h : Flow pending wire r accepted delivered) {len : ℕ} {o : ReadOutcome}
    (hlen : 0 < len) (hfits : RequestFits len (unreadAll r.buffers).length)
    (hread : r.read len = some o) : Flow pending wire o.socket accepted (delivered ++ o.bytes) := by
  by_cases hready : r.active = true ∧ r.connected = true
  · obtain ⟨o', hread', hexact⟩ := read_exact hready.1 hready.2 h.waiting h.success hlen hfits
    obtain rfl : o = o' := Option.some.inj (hread.symm.trans hread')
    refine ⟨hexact.waiting, ?_, ?_⟩
    · rw [hexact.drained]
      exact fun w hw => absurd hw List.not_mem_nil
    · rw [ReadRun.bytes_of_exact hexact, hexact.drained, List.flatMap_nil, List.append_nil,
        ← h.stream, ← hexact.stream_eq]
      simp only [List.append_assoc]
  · rw [Socket.read_of_not_ready hready] at hread
    obtain rfl := Option.some.inj hread
    refine ⟨h.waiting, h.success, ?_⟩
    rw [ReadOutcome.bytes, List.take_nil, List.append_nil]
    exact h.stream

/-- The other fields of the sockets do not matter. -/
theorem Flow.congr (h : Flow pending wire r accepted delivered) {r' : Socket}
    (hbuffers : r'.buffers = r.buffers) (hwc : r'.wc = r.wc) :
    Flow pending wire r' accepted delivered := by
  obtain ⟨hwaiting, hsuccess, hstream⟩ := h
  rw [← hbuffers] at hwaiting
  rw [← hwc] at hsuccess
  rw [← hbuffers, ← hwc] at hstream
  exact ⟨hwaiting, hsuccess, hstream⟩

end Flow

/-! ## The disconnect -/

/-- Messages that are not empty, but for the last one if the sender has disconnected. -/
inductive Tagged : Bool → List (List UInt8) → Prop
  | open {ms : List (List UInt8)} (h : ∀ m ∈ ms, m ≠ []) : Tagged false ms
  | closed {ms : List (List UInt8)} (h : ∀ m ∈ ms, m ≠ []) : Tagged true (ms ++ [[]])

/-- An empty message is the disconnect, and nothing is behind it. -/
theorem Tagged.of_mem {fin : Bool} {front back : List (List UInt8)}
    (h : Tagged fin (front ++ back)) (hmem : [] ∈ front) : fin = true ∧ back = [] := by
  generalize hms : front ++ back = ms at h
  cases h with
  | «open» h => exact absurd rfl (h [] (hms ▸ List.mem_append_left back hmem))
  | closed h =>
      refine ⟨rfl, ?_⟩
      rcases List.eq_nil_or_concat back with hback | ⟨init, last, rfl⟩
      · exact hback
      · rw [List.concat_eq_append, ← List.append_assoc] at hms
        obtain ⟨hinit, -⟩ := List.append_inj' hms rfl
        exact absurd rfl (h [] (hinit ▸ List.mem_append_left init hmem))

theorem Tagged.drop {fin : Bool} {front back : List (List UInt8)} (h : Tagged fin (front ++ back))
    (hfront : ∀ m ∈ front, m ≠ []) : Tagged fin back := by
  generalize hms : front ++ back = ms at h
  cases h with
  | «open» h => exact .open fun m hm => h m (hms ▸ List.mem_append_right front hm)
  | closed h =>
      rcases List.eq_nil_or_concat back with rfl | ⟨init, last, rfl⟩
      · rw [List.append_nil] at hms
        exact absurd rfl (hfront [] (hms ▸ List.mem_append_right _ List.mem_cons_self))
      · rw [List.concat_eq_append, ← List.append_assoc] at hms
        obtain ⟨hinit, hlast⟩ := List.append_inj' hms rfl
        rw [List.concat_eq_append, hlast]
        exact .closed fun m hm => h m (hinit ▸ List.mem_append_right front hm)

/-- What a socket knows of the end of the stream, as long as it did not end itself. -/
structure Ending (closed : Bool) (wire : List (List UInt8)) (r : Socket) : Prop where
  quiet : r.error ≠ 0 → closed = true ∧ r.wc = [] ∧ wire = []
  tagged : r.error = 0 → Tagged closed (r.wc.map IbvWc.payload ++ wire)

section Ending

variable {closed : Bool} {wire : List (List UInt8)} {r : Socket} {chunks : List Chunk}

theorem Ending.posts (h : Ending closed wire r) (hsilent : closed = true → chunks = [])
    (hloaded : Loaded chunks) : Ending closed (wire ++ chunks.map Chunk.sent) r := by
  refine ⟨fun herror => ?_, fun herror => ?_⟩
  · obtain ⟨hfin, hwc, hwire⟩ := h.quiet herror
    rw [hsilent hfin, hwire]
    exact ⟨hfin, hwc, rfl⟩
  · have htagged := h.tagged herror
    rw [← List.append_assoc]
    generalize r.wc.map IbvWc.payload ++ wire = ms at htagged
    cases htagged with
    | «open» hms =>
        refine .open (List.forall_mem_append.mpr ⟨hms, fun m hm => ?_⟩)
        obtain ⟨c, hc, rfl⟩ := List.mem_map.mp hm
        exact hloaded c hc
    | closed hms =>
        rw [hsilent rfl, List.map_nil, List.append_nil]
        exact .closed hms

theorem Ending.fin (h : Ending false wire r) : Ending true (wire ++ [[]]) r := by
  refine ⟨fun herror => absurd (h.quiet herror).1 Bool.false_ne_true, fun herror => ?_⟩
  have htagged := h.tagged herror
  rw [← List.append_assoc]
  generalize r.wc.map IbvWc.payload ++ wire = ms at htagged
  cases htagged with
  | «open» hms => exact .closed hms

theorem Ending.passWc (h : Ending closed wire r) {addWc : List IbvWc}
    (hwire : addWc.map IbvWc.payload <+: wire) :
    Ending closed (wire.drop addWc.length) (r.passWc addWc) := by
  have hsame : (r.passWc addWc).error = r.error := by
    unfold Socket.passWc
    split <;> rfl
  refine ⟨fun herror => ?_, fun herror => ?_⟩
  · rw [hsame] at herror
    obtain ⟨hfin, hwc, rfl⟩ := h.quiet herror
    obtain rfl : addWc = [] := List.map_eq_nil_iff.mp (List.prefix_nil.mp hwire)
    rw [Socket.passWc_wc, hwc]
    exact ⟨hfin, rfl, rfl⟩
  · rw [hsame] at herror
    have htagged := h.tagged herror
    obtain ⟨rest, rfl⟩ := hwire
    have hdrop : (addWc.map IbvWc.payload ++ rest).drop addWc.length = rest := by
      rw [← List.length_map (f := IbvWc.payload), List.drop_left]
    rwa [hdrop, Socket.passWc_wc, List.map_append, List.append_assoc]

theorem nil_mem_payloads {ws : List IbvWc} :
    [] ∈ ws.map IbvWc.payload ↔ ∃ w ∈ ws, w.byteLen = 0 := by
  rw [List.mem_map]
  refine exists_congr fun w => and_congr_right fun _ => ?_
  rw [← List.length_eq_zero_iff, w.length_payload]

/-- What `read` leaves of a socket that is ready. -/
theorem read_after {s : Socket} {len : ℕ} {o : ReadOutcome} (hactive : s.active = true)
    (hconnected : s.connected = true) (hsuccess : ∀ w ∈ s.wc, w.success = true)
    (hread : s.read len = some o) :
    o.socket.error = (if [] ∈ s.wc.map IbvWc.payload then econnreset else s.error) ∧
      o.socket.wc = [] ∧ (o.ret = -econnreset → o.socket.error = econnreset) := by
  have herror : o.socket.error = if [] ∈ s.wc.map IbvWc.payload then econnreset else s.error := by
    rw [read_error hsuccess hread]
    refine if_congr ?_ rfl rfl
    rw [nil_mem_payloads]
    exact ⟨fun h => h.2.2, fun h => ⟨hactive, hconnected, h⟩⟩
  obtain ⟨q, hloop, hread'⟩ := Socket.read_eq_some len hactive hconnected hsuccess
  obtain rfl := Option.some.inj (hread.symm.trans hread')
  refine ⟨herror, by simp, fun hret => ?_⟩
  have hq : returned q.read q.error = -econnreset := hret
  unfold returned at hq
  have hsame : q.error = econnreset := by
    split_ifs at hq
    · unfold econnreset at hq
      omega
    · exact Int.ofNat.inj (neg_inj.mp hq)
    · unfold eagain econnreset at hq
      omega
  simpa using hsame

/-- What is pending is not touched by `read`. -/
theorem read_pendingBl {s : Socket} {len : ℕ} {o : ReadOutcome} (hread : s.read len = some o) :
    o.socket.pendingBl = s.pendingBl := by
  have hnotify : ∀ r : Socket, r.notifyBuffered.pendingBl = r.pendingBl := by
    intro r
    unfold Socket.notifyBuffered
    split <;> rfl
  unfold Socket.read at hread
  simp only [Socket.getWc_fst, Socket.getWc_snd] at hread
  split_ifs at hread
  · rw [← Option.some.inj hread]
  · rw [← Option.some.inj hread]
  · rw [← Option.some.inj hread, hnotify]
  all_goals
    split at hread
    · cases hread
    · rw [← Option.some.inj hread]
      exact hnotify _

theorem Ending.read (h : Ending closed wire r) (hsuccess : ∀ w ∈ r.wc, w.success = true) {len : ℕ}
    {o : ReadOutcome} (hread : r.read len = some o) : Ending closed wire o.socket := by
  by_cases hready : r.active = true ∧ r.connected = true
  · obtain ⟨herror, hwc, -⟩ := read_after hready.1 hready.2 hsuccess hread
    by_cases hzero : r.error = 0
    · have htagged := h.tagged hzero
      by_cases hmem : [] ∈ r.wc.map IbvWc.payload
      · obtain ⟨hfin, hwire⟩ := htagged.of_mem hmem
        rw [if_pos hmem] at herror
        refine ⟨fun _ => ⟨hfin, hwc, hwire⟩, fun hnone => ?_⟩
        exact absurd (herror.symm.trans hnone) (by decide)
      · rw [if_neg hmem, hzero] at herror
        refine ⟨fun hsome => absurd herror hsome, fun _ => ?_⟩
        rw [hwc]
        exact htagged.drop fun m hm hnil => hmem (hnil ▸ hm)
    · obtain ⟨hfin, hnone, hwire⟩ := h.quiet hzero
      refine ⟨fun _ => ⟨hfin, hwc, hwire⟩, fun hsome => ?_⟩
      rw [hnone, List.map_nil, if_neg List.not_mem_nil] at herror
      exact absurd (herror.symm.trans hsome) hzero
  · rw [Socket.read_of_not_ready hready] at hread
    obtain rfl := Option.some.inj hread
    exact ⟨h.quiet, h.tagged⟩

theorem Ending.congr (h : Ending closed wire r) {r' : Socket} (herror : r'.error = r.error)
    (hwc : r'.wc = r.wc) : Ending closed wire r' := by
  obtain ⟨hquiet, htagged⟩ := h
  rw [← herror, ← hwc] at hquiet htagged
  exact ⟨hquiet, htagged⟩

end Ending

/-! ## Both directions -/

@[simp]
theorem End.peer_peer (e : End) : e.peer.peer = e := by
  cases e <;> rfl

@[simp]
theorem End.peer_ne (e : End) : e.peer ≠ e := by
  cases e <;> decide

/-- What holds of an end and of its peer holds of both ends. -/
theorem End.forall_of {P : End → Prop} (e : End) (h : P e) (hpeer : P e.peer) : ∀ e, P e := by
  intro e'
  cases e <;> cases e' <;> assumption

namespace Joined

/-- What every run keeps of the direction from an end. -/
structure Sound (s : Joined) (e : End) : Prop where
  ready : (s.side e).cluster.Ready
  backed : Backed (s.socket e).pendingBl.buffers
  flow : Flow (s.socket e).pendingBl.buffers (s.wire e.peer) (s.socket e.peer) (s.accepted e)
    (s.delivered e.peer)

variable {s t : Joined} {e : End}

/-- A call of `send` or `submit`. -/
theorem Sound.posts (hs : ∀ e, s.Sound e) {buffers : List Buffer} {accepted : List UInt8}
    {out : SendOutcome} (hsends : Sends (s.socket e) buffers accepted out) :
    ∀ e', (s.posts e out accepted).Sound e' := by
  obtain ⟨pending, pendingBl, hsocket⟩ := hsends.socket
  refine End.forall_of e ?_ ?_
  · have hflow := (hs e).flow.sends hsends
    refine ⟨?_, ?_, ?_⟩
    · simpa [Joined.posts] using hsends.streams.ready
    · simpa [Joined.posts] using hsends.streams.backed
    · simpa [Joined.posts] using hflow
  · have hflow := (hs e.peer).flow
    rw [End.peer_peer] at hflow
    have hsame : Flow (s.socket e.peer).pendingBl.buffers (s.wire e) out.socket
        (s.accepted e.peer) (s.delivered e) :=
      hflow.congr (by rw [hsocket]) (by rw [hsocket])
    refine ⟨?_, ?_, ?_⟩
    · simpa [Joined.posts] using (hs e.peer).ready
    · simpa [Joined.posts] using (hs e.peer).backed
    · simpa [Joined.posts, (End.peer_ne e).symm] using hsame

/-- A socket changes that keeps what it received and what is pending there. -/
theorem Sound.setSocket (hs : ∀ e, s.Sound e) {socket : Socket}
    (hbuffers : socket.buffers = (s.socket e).buffers) (hwc : socket.wc = (s.socket e).wc)
    (hpending : socket.pendingBl = (s.socket e).pendingBl) :
    ∀ e', (s.setSocket e socket).Sound e' := by
  refine End.forall_of e ?_ ?_
  · refine ⟨?_, ?_, ?_⟩
    · simpa [Joined.setSocket] using (hs e).ready
    · simpa [Joined.setSocket, hpending] using (hs e).backed
    · simpa [Joined.setSocket, hpending] using (hs e).flow
  · have hflow := (hs e.peer).flow
    rw [End.peer_peer] at hflow
    refine ⟨?_, ?_, ?_⟩
    · simpa [Joined.setSocket] using (hs e.peer).ready
    · simpa [Joined.setSocket] using (hs e.peer).backed
    · simpa [Joined.setSocket] using hflow.congr hbuffers hwc

theorem Sound.fin (hs : ∀ e, s.Sound e) (post : PostResult) :
    ∀ e', (s.fin e post).Sound e' := by
  cases post with
  | failed errno => exact hs
  | posted =>
      refine End.forall_of e ?_ ?_
      · refine ⟨(hs e).ready, (hs e).backed, ?_⟩
        simpa [Joined.fin] using (hs e).flow.fin
      · refine ⟨(hs e.peer).ready, (hs e.peer).backed, ?_⟩
        simpa [Joined.fin, (End.peer_ne e).symm] using (hs e.peer).flow

theorem fin_socket (s : Joined) (e : End) (post : PostResult) :
    (s.fin e post).socket = s.socket := by
  cases post <;> rfl

theorem Sound.shutdown (hs : ∀ e, s.Sound e) (post : PostResult) :
    ∀ e', (s.shutdown e post).Sound e' := by
  have hset : ∀ t : Joined, (∀ e, t.Sound e) → t.socket = s.socket → ∀ e',
      (t.setSocket e { s.socket e with error := econnreset, active := false }).Sound e' := by
    intro t ht hsame
    rw [← hsame]
    exact Sound.setSocket ht rfl rfl rfl
  unfold Joined.shutdown
  split
  · have h := hset _ (Sound.fin hs post) (fin_socket s e post)
    exact fun e' => ⟨(h e').ready, (h e').backed, (h e').flow⟩
  · have h := hset s hs rfl
    exact fun e' => ⟨(h e').ready, (h e').backed, (h e').flow⟩

/-- The step lemma. -/
theorem Sound.step {a : JoinedAction} (hs : ∀ e, s.Sound e) (hfits : s.Fits a)
    (hstep : s.step a = some t) : ∀ e, t.Sound e := by
  cases a with
  | send e worker o bl post =>
      obtain ⟨hbl, rfl⟩ : Backed bl.buffers ∧ post = .posted := hfits
      obtain ⟨out, hsend, rfl⟩ := Option.map_eq_some_iff.mp hstep
      exact Sound.posts hs (send_sends (hs e).ready (hs e).backed hbl hsend)
  | submit e worker o post =>
      obtain rfl : post = .posted := hfits
      obtain ⟨out, hsubmit, rfl⟩ := Option.map_eq_some_iff.mp hstep
      exact Sound.posts hs (submit_sends (hs e).ready (hs e).backed hsubmit)
  | others e side =>
      obtain ⟨hready, hnext⟩ := Option.ite_none_right_eq_some.mp hstep
      obtain rfl := Option.some.inj hnext
      refine End.forall_of e ⟨?_, (hs e).backed, (hs e).flow⟩
        ⟨?_, (hs e.peer).backed, (hs e.peer).flow⟩
      · simpa using hready
      · simpa using (hs e.peer).ready
  | connection e active connected =>
      obtain rfl := Option.some.inj hstep
      exact Sound.setSocket hs rfl rfl rfl
  | passWc e addWc =>
      obtain ⟨⟨hsuccess, hwire⟩, hnext⟩ := Option.ite_none_right_eq_some.mp hstep
      obtain rfl := Option.some.inj hnext
      have hpending : ((s.socket e).passWc addWc).pendingBl = (s.socket e).pendingBl := by
        unfold Socket.passWc
        split <;> rfl
      refine End.forall_of e ?_ ?_
      · refine ⟨(hs e).ready, ?_, ?_⟩
        · simpa [Joined.setSocket, hpending] using (hs e).backed
        · simpa [Joined.setSocket, hpending] using (hs e).flow
      · have hflow := (hs e.peer).flow
        rw [End.peer_peer] at hflow
        refine ⟨(hs e.peer).ready, ?_, ?_⟩
        · simpa [Joined.setSocket] using (hs e.peer).backed
        · simpa [Joined.setSocket] using hflow.passWc hsuccess hwire
  | read e len =>
      obtain ⟨hlen, hrequest⟩ : 0 < len ∧
          RequestFits len (unreadAll (s.socket e).buffers).length := hfits
      obtain ⟨-, hcall⟩ := Option.ite_none_right_eq_some.mp hstep
      obtain ⟨o, hread, rfl⟩ := Option.map_eq_some_iff.mp hcall
      have hflow := (hs e.peer).flow
      rw [End.peer_peer] at hflow
      have hpending := read_pendingBl hread
      refine End.forall_of e ?_ ?_
      · refine ⟨(hs e).ready, ?_, ?_⟩
        · simpa [Joined.setSocket, hpending] using (hs e).backed
        · simpa [Joined.setSocket, hpending] using (hs e).flow
      · refine ⟨(hs e.peer).ready, ?_, ?_⟩
        · simpa [Joined.setSocket] using (hs e.peer).backed
        · simpa [Joined.setSocket] using hflow.read hlen hrequest hread
  | shutdown e post =>
      obtain rfl := Option.some.inj hstep
      exact Sound.shutdown hs post
  | fault e =>
      obtain rfl := Option.some.inj hstep
      have hset : ∀ e', (s.setSocket e (s.socket e).fault).Sound e' :=
        Sound.setSocket hs rfl rfl rfl
      exact fun e' => ⟨(hset e').ready, (hset e').backed, (hset e').flow⟩

theorem Fresh.sound (h : s.Fresh) (e : End) : s.Sound e := by
  obtain ⟨-, hbuffers, hwc, -⟩ := h.socket e.peer
  obtain ⟨-, -, -, hpending⟩ := h.socket e
  refine ⟨h.ready e, ?_, ?_⟩
  · rw [hpending]
    exact fun b hb => absurd hb List.not_mem_nil
  · refine ⟨?_, ?_, ?_⟩
    · rw [hbuffers]
      exact waiting_nil
    · rw [hwc]
      exact fun w hw => absurd hw List.not_mem_nil
    · rw [hbuffers, hwc, h.wire, h.accepted, h.delivered, hpending]
      rfl

theorem sound_of_reached (hreached : joinedMachine.ReachedUnder Fits s) (e : End) : s.Sound e :=
  hreached.invariant (fun s => ∀ e, s.Sound e) (fun _ h => Fresh.sound h)
    (fun _ _ _ hs hfits hstep => Sound.step hs hfits hstep) e

/-- **The stream.**  In every run in which no post of data fails, the buffers in tx chunks show the
whole of them and the requests fit, in both directions, what `read` returned is what `send`
accepted, in order and as far as it has come. -/
theorem streamed_of_reached (hreached : joinedMachine.ReachedUnder Fits s) (e : End) :
    s.delivered e.peer ++ s.held e = s.accepted e :=
  (sound_of_reached hreached e).flow.stream

/-- Two sockets whose handshake is not done yet. -/
def unjoined : Joined where
  socket _ := { quietSocket with connected := false }
  side _ := SendRun.twoChunks
  wire _ := []
  accepted _ := []
  delivered _ := []
  finned _ := false
  ended _ := false

theorem fresh_unjoined : unjoined.Fresh :=
  ⟨fun _ => ⟨rfl, rfl, rfl, rfl⟩, fun _ => SendRun.fresh_unconnected.ready, fun _ => rfl,
    fun _ => rfl, fun _ => rfl, fun _ => rfl, fun _ => rfl⟩

/-- The completion of a message in a chunk that it fills. -/
def filling (bl : List UInt8) (h : bl.length < 2 ^ 32) : IbvWc where
  chunk := ⟨7, bl.length, 0, 0, bl, rfl⟩
  byteLen := bl.length
  success := true
  byteLen_le := Nat.le_refl _
  bytes_lt := h

/-- Five bytes that are sent before the connection is up go out in three messages; two of these
arrive, and two bytes are read. -/
def streams : List JoinedAction :=
  [.send .client 0 0 SendRun.mixed .posted, .connection .client true true,
    .connection .server true true, .submit .client 0 0 .posted,
    .passWc .server [filling [1, 2] (by decide), filling [3] (by decide)], .read .server 2]

/-- Each of the bytes is in its place. -/
theorem streamed_of_reached_mixed :
    ∃ s : Joined, s.accepted .client = [1, 2, 3, 4, 5] ∧ s.delivered .server = [1, 2] ∧
      s.wire .server = [[4, 5]] ∧ s.delivered .server ++ s.held .client = s.accepted .client := by
  obtain ⟨s, hreplay, haccepted, hdelivered, hwire⟩ : ∃ s,
      joinedMachine.replay Fits unjoined streams = some s ∧
        s.accepted .client = [1, 2, 3, 4, 5] ∧ s.delivered .server = [1, 2] ∧
        s.wire .server = [[4, 5]] := ⟨_, rfl, rfl, rfl, rfl⟩
  exact ⟨s, haccepted, hdelivered, hwire,
    streamed_of_reached (.of_replay (.start fresh_unjoined) hreplay) .client⟩

/-! ## The end of the stream -/

/-- What every run keeps besides, where no tx chunk is handed over empty. -/
structure Orderly (s : Joined) (e : End) : Prop where
  solid : Solid (s.socket e).pendingBl.buffers
  finned : s.finned e = true → (s.socket e).error ≠ 0
  ending : s.ended e.peer = false → Ending (s.finned e) (s.wire e.peer) (s.socket e.peer)

theorem Orderly.posts (hs : ∀ e, s.Orderly e) {buffers : List Buffer} {accepted : List UInt8}
    {out : SendOutcome} (hsends : Sends (s.socket e) buffers accepted out)
    (hsolid : Solid buffers) : ∀ e', (s.posts e out accepted).Orderly e' := by
  obtain ⟨pending, pendingBl, hsocket⟩ := hsends.socket
  obtain ⟨hloaded, hpending⟩ := hsends.loaded (hs e).solid hsolid
  have herror : out.socket.error = (s.socket e).error := by
    rw [hsocket]
  refine End.forall_of e ⟨?_, ?_, ?_⟩ ⟨?_, ?_, ?_⟩
  · simpa [Joined.posts] using hpending
  · simpa [Joined.posts, herror] using (hs e).finned
  · intro hended
    have hending := ((hs e).ending hended).posts
      (fun hfin => hsends.silent ((hs e).finned hfin)) hloaded
    simpa [Joined.posts] using hending
  · simpa [Joined.posts] using (hs e.peer).solid
  · simpa [Joined.posts] using (hs e.peer).finned
  · intro hended
    have hending := (hs e.peer).ending hended
    rw [End.peer_peer] at hending
    have hwc : out.socket.wc = (s.socket e).wc := by
      rw [hsocket]
    simpa [Joined.posts, (End.peer_ne e).symm] using hending.congr herror hwc

/-- An end that ends itself has nothing to keep about what it receives. -/
theorem orderly_ends (hsolid : ∀ e, Solid (s.socket e).pendingBl.buffers)
    (hfinned : s.finned e.peer = true → (s.socket e.peer).error ≠ 0)
    (hending : s.ended e.peer = false → Ending (s.finned e) (s.wire e.peer) (s.socket e.peer))
    {socket : Socket} (hpending : socket.pendingBl = (s.socket e).pendingBl)
    (herror : socket.error = econnreset) :
    ∀ e', Orderly { s.setSocket e socket with
      ended := Function.update s.ended e true } e' := by
  have hne : socket.error ≠ 0 := herror ▸ by decide
  refine End.forall_of e ⟨?_, ?_, ?_⟩ ⟨?_, ?_, ?_⟩
  · simpa [Joined.setSocket, hpending] using hsolid e
  · intro _
    simpa [Joined.setSocket] using hne
  · simpa [Joined.setSocket] using hending
  · simpa [Joined.setSocket] using hsolid e.peer
  · simpa [Joined.setSocket] using hfinned
  · simp

theorem Orderly.shutdown (hs : ∀ e, s.Orderly e) (post : PostResult) :
    ∀ e', (s.shutdown e post).Orderly e' := by
  unfold Joined.shutdown
  split
  · rename_i herror
    have hopen : s.finned e = false := by
      cases hfinned : s.finned e with
      | false => rfl
      | true => exact absurd herror ((hs e).finned hfinned)
    cases post with
    | failed errno =>
        exact orderly_ends (fun e => (hs e).solid) (hs e.peer).finned (hs e).ending rfl rfl
    | posted =>
        refine orderly_ends (s := s.fin e .posted) (fun e => (hs e).solid) ?_ ?_ rfl rfl
        · simpa [Joined.fin] using (hs e.peer).finned
        · intro hended
          have hending := (hs e).ending hended
          rw [hopen] at hending
          simpa [Joined.fin] using hending.fin
  · exact orderly_ends (fun e => (hs e).solid) (hs e.peer).finned (hs e).ending rfl rfl

/-- The step lemma. -/
theorem Orderly.step {a : JoinedAction} (hsound : ∀ e, s.Sound e) (hs : ∀ e, s.Orderly e)
    (hfits : s.FitsSolid a) (hstep : s.step a = some t) : ∀ e, t.Orderly e := by
  obtain ⟨hfits, hsolid⟩ := hfits
  cases a with
  | send e worker o bl post =>
      obtain ⟨hbl, rfl⟩ : Backed bl.buffers ∧ post = .posted := hfits
      obtain ⟨out, hsend, rfl⟩ := Option.map_eq_some_iff.mp hstep
      exact Orderly.posts hs (send_sends (hsound e).ready (hsound e).backed hbl hsend) hsolid
  | submit e worker o post =>
      obtain rfl : post = .posted := hfits
      obtain ⟨out, hsubmit, rfl⟩ := Option.map_eq_some_iff.mp hstep
      exact Orderly.posts hs (submit_sends (hsound e).ready (hsound e).backed hsubmit)
        fun b hb => absurd hb List.not_mem_nil
  | others e side =>
      obtain ⟨-, hnext⟩ := Option.ite_none_right_eq_some.mp hstep
      obtain rfl := Option.some.inj hnext
      exact fun e' => ⟨(hs e').solid, (hs e').finned, (hs e').ending⟩
  | connection e active connected =>
      obtain rfl := Option.some.inj hstep
      refine End.forall_of e ⟨?_, ?_, ?_⟩ ⟨?_, ?_, ?_⟩
      · simpa [Joined.setSocket] using (hs e).solid
      · simpa [Joined.setSocket] using (hs e).finned
      · simpa [Joined.setSocket] using (hs e).ending
      · simpa [Joined.setSocket] using (hs e.peer).solid
      · simpa [Joined.setSocket] using (hs e.peer).finned
      · intro hended
        have hending := (hs e.peer).ending hended
        rw [End.peer_peer] at hending
        have hsame : Ending (s.finned e.peer) (s.wire e)
            { s.socket e with active := active, connected := connected } := hending.congr rfl rfl
        simpa [Joined.setSocket] using hsame
  | passWc e addWc =>
      obtain ⟨⟨hsuccess, hwire⟩, hnext⟩ := Option.ite_none_right_eq_some.mp hstep
      obtain rfl := Option.some.inj hnext
      have hpass : ((s.socket e).passWc addWc).pendingBl = (s.socket e).pendingBl ∧
          ((s.socket e).passWc addWc).error = (s.socket e).error := by
        unfold Socket.passWc
        split <;> exact ⟨rfl, rfl⟩
      refine End.forall_of e ⟨?_, ?_, ?_⟩ ⟨?_, ?_, ?_⟩
      · simpa [Joined.setSocket, hpass.1] using (hs e).solid
      · simpa [Joined.setSocket, hpass.2] using (hs e).finned
      · simpa [Joined.setSocket] using (hs e).ending
      · simpa [Joined.setSocket] using (hs e.peer).solid
      · simpa [Joined.setSocket] using (hs e.peer).finned
      · intro hended
        have hending := (hs e.peer).ending hended
        rw [End.peer_peer] at hending
        simpa [Joined.setSocket] using hending.passWc hwire
  | read e len =>
      obtain ⟨-, hcall⟩ := Option.ite_none_right_eq_some.mp hstep
      obtain ⟨o, hread, rfl⟩ := Option.map_eq_some_iff.mp hcall
      have hpending := read_pendingBl hread
      have hflow := (hsound e.peer).flow
      rw [End.peer_peer] at hflow
      have herror : (s.socket e).error ≠ 0 → o.socket.error ≠ 0 := by
        intro hne
        by_cases hready : (s.socket e).active = true ∧ (s.socket e).connected = true
        · obtain ⟨hafter, -⟩ := read_after hready.1 hready.2 hflow.success hread
          rw [hafter]
          split
          · decide
          · exact hne
        · rw [Socket.read_of_not_ready hready] at hread
          exact Option.some.inj hread ▸ hne
      refine End.forall_of e ⟨?_, ?_, ?_⟩ ⟨?_, ?_, ?_⟩
      · simpa [Joined.setSocket, hpending] using (hs e).solid
      · intro hfinned
        simpa [Joined.setSocket] using herror ((hs e).finned hfinned)
      · simpa [Joined.setSocket] using (hs e).ending
      · simpa [Joined.setSocket] using (hs e.peer).solid
      · simpa [Joined.setSocket] using (hs e.peer).finned
      · intro hended
        have hending := (hs e.peer).ending hended
        rw [End.peer_peer] at hending
        simpa [Joined.setSocket] using hending.read hflow.success hread
  | shutdown e post =>
      obtain rfl := Option.some.inj hstep
      exact Orderly.shutdown hs post
  | fault e =>
      obtain rfl := Option.some.inj hstep
      exact orderly_ends (fun e => (hs e).solid) (hs e.peer).finned (hs e).ending rfl rfl

theorem Fresh.orderly (h : s.Fresh) (e : End) : s.Orderly e := by
  obtain ⟨herror, -, hwc, -⟩ := h.socket e.peer
  obtain ⟨-, -, -, hpending⟩ := h.socket e
  refine ⟨?_, ?_, fun _ => ⟨fun hne => absurd herror hne, fun _ => ?_⟩⟩
  · rw [hpending]
    exact fun b hb => absurd hb List.not_mem_nil
  · rw [h.finned e]
    exact fun hfinned => absurd hfinned Bool.false_ne_true
  · rw [hwc, h.wire, h.finned]
    exact .open fun m hm => absurd hm List.not_mem_nil

theorem orderly_of_reached (hreached : joinedMachine.ReachedUnder FitsSolid s) :
    (∀ e, s.Sound e) ∧ ∀ e, s.Orderly e := by
  refine hreached.invariant (fun s => (∀ e, s.Sound e) ∧ ∀ e, s.Orderly e)
    (fun _ h => ⟨Fresh.sound h, Fresh.orderly h⟩) ?_
  rintro s a t ⟨hsound, hs⟩ hfits hstep
  exact ⟨Sound.step hsound hfits.1 hstep, Orderly.step hsound hs hfits hstep⟩

/-- **The disconnect comes last.**  If the run is such a one, and no tx chunk is handed over empty,
a call of `read` that returns `-ECONNRESET` at an end that neither faulted nor was shut down is the
end of the stream: the peer has posted its disconnect, and everything that it ever posted was
delivered. -/
theorem reset_of_reached (hreached : joinedMachine.ReachedUnder FitsSolid s)
    (hended : s.ended e = false) {len : ℕ} (hlen : 0 < len)
    (hfits : RequestFits len (unreadAll (s.socket e).buffers).length) {o : ReadOutcome}
    (hread : (s.socket e).read len = some o) (hreset : o.ret = -econnreset) :
    s.finned e.peer = true ∧
      s.delivered e ++ contents (s.socket e.peer).pendingBl.buffers = s.accepted e.peer := by
  obtain ⟨hsound, hs⟩ := orderly_of_reached hreached
  have hflow := (hsound e.peer).flow
  have hending := (hs e.peer).ending
  rw [End.peer_peer] at hflow hending
  have hending := hending hended
  by_cases hready : (s.socket e).active = true ∧ (s.socket e).connected = true
  · obtain ⟨o', hread', hexact⟩ :=
      read_exact hready.1 hready.2 hflow.waiting hflow.success hlen hfits
    obtain rfl : o = o' := Option.some.inj (hread.symm.trans hread')
    obtain ⟨herror, -, hafter⟩ := read_after hready.1 hready.2 hflow.success hread
    -- the call left nothing and copied nothing, so there was nothing
    have hbuf : o.buf = [] := by
      rcases hexact.returned with hret | ⟨-, hbuf⟩
      · rw [hret] at hreset
        unfold econnreset at hreset
        omega
      · exact hbuf
    have hnothing := hexact.stream_eq
    rw [hbuf, hexact.reset_empty hreset] at hnothing
    obtain ⟨hunread, hpayloads⟩ := List.append_eq_nil_iff.mp hnothing.symm
    have hlast : s.finned e.peer = true ∧ s.wire e = [] := by
      by_cases hzero : (s.socket e).error = 0
      · have hmem : [] ∈ (s.socket e).wc.map IbvWc.payload := by
          by_contra hmem
          rw [if_neg hmem, hafter hreset, hzero] at herror
          exact absurd herror (by decide)
        exact (hending.tagged hzero).of_mem hmem
      · obtain ⟨hfinned, -, hwire⟩ := hending.quiet hzero
        exact ⟨hfinned, hwire⟩
    have hstream := hflow.stream
    rw [hunread, hpayloads, hlast.2] at hstream
    exact ⟨hlast.1, hstream⟩
  · rw [Socket.read_of_not_ready hready] at hread
    have hagain : o.ret = -eagain := by
      rw [← Option.some.inj hread]
    exact absurd (hagain.symm.trans hreset) (by decide)

/-- The client shuts down, and the server reads what is left and then the disconnect. -/
def disconnects : List JoinedAction :=
  [.shutdown .client .posted, .passWc .server [filling [4, 5] (by decide), filling [] (by decide)],
    .read .server 7]

/-- All five bytes were delivered when the next call returns `-ECONNRESET`. -/
theorem reset_of_reached_disconnected :
    ∃ s : Joined, s.delivered .server = [1, 2, 3, 4, 5] ∧ s.finned .client = true ∧
      s.delivered .server ++ contents (s.socket .client).pendingBl.buffers =
        s.accepted .client := by
  obtain ⟨s, o, hreplay, hdelivered, hended, hread, hreset, hbuffers⟩ : ∃ s o,
      joinedMachine.replay FitsSolid unjoined (streams ++ disconnects) = some s ∧
        s.delivered .server = [1, 2, 3, 4, 5] ∧ s.ended .server = false ∧
        (s.socket .server).read 1 = some o ∧ o.ret = -econnreset ∧
        (s.socket .server).buffers = [] := ⟨_, _, rfl, rfl, rfl, rfl, rfl, rfl⟩
  have hfits : RequestFits 1 (unreadAll (s.socket .server).buffers).length := .inl (by decide)
  obtain ⟨hfinned, hstream⟩ :=
    reset_of_reached (.of_replay (.start fresh_unjoined) hreplay) hended Nat.one_pos hfits hread
      hreset
  exact ⟨s, hdelivered, hfinned, hstream⟩

end Joined

end HwAsync.Rdma
