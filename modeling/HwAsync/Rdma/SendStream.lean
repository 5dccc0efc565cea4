/-
# The bytes of the sending side

`pending_bl` may mix ordinary buffers with buffers that already lie in tx chunks.
`submit` copies a run of the former, posts one of the latter as it is, and stops
where the pool is short; what it posted is a prefix of the pending bytes, and the
prefix never ends inside a buffer of the second kind.  So `send` and `submit`
together are a FIFO byte stream, whatever the other sockets do to the pool.
-/

import HwAsync.Lib.Fifo
import HwAsync.Rdma.Submit

namespace HwAsync.Rdma

open HwAsync.Lib HwAsync.Infiniband

/-! ## The pending buffers -/

/-- A buffer that lies in a tx chunk shows the bytes before the chunk's offset. -/
def Buffer.Backed (b : Buffer) : Prop :=
  ∀ c ∈ b.txChunk, c.offset = b.bytes.length ∧ c.sent = b.bytes

instance (b : Buffer) : Decidable b.Backed :=
  match h : b.txChunk with
  | none => .isTrue (by simp [Buffer.Backed, h])
  | some c =>
      decidable_of_iff (c.offset = b.bytes.length ∧ c.sent = b.bytes) (by simp [Buffer.Backed, h])

/-- Every buffer is ordinary or shows its chunk. -/
def Backed (buffers : List Buffer) : Prop := ∀ b ∈ buffers, b.Backed

instance (buffers : List Buffer) : Decidable (Backed buffers) :=
  inferInstanceAs (Decidable (∀ b ∈ buffers, b.Backed))

theorem backed_cons {b : Buffer} {buffers : List Buffer} :
    Backed (b :: buffers) ↔ b.Backed ∧ Backed buffers := by
  simp [Backed]

theorem backed_append {buffers more : List Buffer} :
    Backed (buffers ++ more) ↔ Backed buffers ∧ Backed more := by
  simp [Backed, or_imp, forall_and]

theorem Ordinary.backed {buffers : List Buffer} (hbuffers : Ordinary buffers) :
    Backed buffers := by
  intro b hb c hc
  simp [hbuffers b hb] at hc

theorem contents_append (buffers more : List Buffer) :
    contents (buffers ++ more) = contents buffers ++ contents more :=
  List.flatMap_append

/-- Taking bytes off ordinary buffers cuts no buffer that lies in a chunk. -/
theorem backed_dropBytes_ordinary {ordinary rest : List Buffer} (hordinary : Ordinary ordinary)
    (hrest : Backed rest) (n : ℕ) (hle : n ≤ (contents ordinary).length) :
    Backed (dropBytes n (ordinary ++ rest)) := by
  induction ordinary generalizing n with
  | nil =>
      obtain rfl : n = 0 := by simpa using hle
      simpa [dropBytes] using hrest
  | cons b ordinary ih =>
      have htail : Ordinary ordinary := fun c hc => hordinary c (by simp [hc])
      cases n with
      | zero => exact backed_append.mpr ⟨hordinary.backed, hrest⟩
      | succ n =>
          simp only [List.cons_append, dropBytes]
          split
          · rw [contents_cons, List.length_append] at hle
            exact ih htail _ (by omega)
          · -- the cut buffer is an ordinary one
            have hcut : Buffer.Backed { b with bytes := b.bytes.drop (n + 1) } := by
              intro c hc
              simp [hordinary b (by simp)] at hc
            exact backed_cons.mpr ⟨hcut, backed_append.mpr ⟨htail.backed, hrest⟩⟩

/-- So does taking off whole buffers first. -/
theorem backed_dropBytes {front ordinary rest : List Buffer} (hordinary : Ordinary ordinary)
    (hall : Backed (front ++ ordinary ++ rest)) (n : ℕ)
    (hle : n ≤ (contents ordinary).length) :
    Backed (dropBytes ((contents front).length + n) (front ++ ordinary ++ rest)) := by
  induction front with
  | nil =>
      simp only [contents_nil, List.length_nil, Nat.zero_add, List.nil_append]
      exact backed_dropBytes_ordinary hordinary (backed_append.mp hall).2 n hle
  | cons b front ih =>
      simp only [List.cons_append] at hall ⊢
      have hrest := ih (backed_cons.mp hall).2
      cases hm : (contents (b :: front)).length + n with
      | zero => exact hall
      | succ m =>
          rw [contents_cons, List.length_append] at hm
          have hsub : m + 1 - b.bytes.length = (contents front).length + n := by omega
          rw [dropBytes, if_pos (by omega), hsub]
          exact hrest

/-! ## The loop of `submit` -/

/-- Between two rounds of the loop: the chunks taken hold the bytes of the buffers
done, and the run of ordinary buffers behind them waits to be copied. -/
structure Walk.Keeps (v : Walk) (done : List Buffer) : Prop where
  sent_eq : sentAll v.txBuffers = contents done
  total_eq : v.total = (contents done).length
  need_eq : v.needReserveBytes = (contents v.uncopied).length
  ordinary : Ordinary v.uncopied
  ready : v.side.cluster.Ready

/-- Where the loop stops: behind some buffers, in a run of ordinary ones. -/
structure Walk.Stopped (v : Walk) (front ordinary : List Buffer) (n : ℕ) : Prop where
  cuts_ordinary : Ordinary ordinary
  le : n ≤ (contents ordinary).length
  total_eq : v.total = (contents front).length + n
  sent_eq : sentAll v.txBuffers = contents front ++ (contents ordinary).take n
  ready : v.side.cluster.Ready

section Loop

variable {worker o : ℕ} {v v' : Walk} {done buffers : List Buffer}

/-- Copying the run takes a prefix of its bytes. -/
theorem Walk.Keeps.fill (hv : v.Keeps done) (hneed : v.needReserveBytes ≠ 0) :
    ∃ copied v', fillTxViaCopy worker o v = some (copied, v') ∧
      v'.needReserveBytes = v.needReserveBytes ∧
      Walk.Stopped { v' with total := v'.total + copied } done v.uncopied copied := by
  obtain ⟨copied, v', chunks, hfill, hreserved, htx, htotal, hsame, hle, -, hsent⟩ :=
    @fillTxViaCopy_spec worker o v hv.ready hv.need_eq (Nat.pos_of_ne_zero hneed)
  refine ⟨copied, v', hfill, hsame, ?_⟩
  exact
    { cuts_ordinary := hv.ordinary
      le := hv.need_eq ▸ hle
      total_eq := by rw [htotal, hv.total_eq]
      sent_eq := by rw [htx, sentAll_append, hv.sent_eq, hsent]
      ready := hreserved.ready }

/-- An ordinary buffer joins the run. -/
theorem Walk.Keeps.count (hv : v.Keeps done) {b : Buffer} (hb : b.txChunk = none) :
    Walk.Keeps { v with
      needReserveBytes := v.needReserveBytes + b.bytes.length
      uncopied := v.uncopied ++ [b] } done where
  sent_eq := hv.sent_eq
  total_eq := hv.total_eq
  need_eq := by simp [hv.need_eq, contents_append]
  ordinary := by
    intro c hc
    rcases List.mem_append.mp hc with hc | hc
    · exact hv.ordinary c hc
    · exact List.mem_singleton.mp hc ▸ hb
  ready := hv.ready

/-- A chunk is taken as it is. -/
theorem Walk.Keeps.take (hv : v.Keeps done) {b : Buffer} {c : Chunk} (hsent : c.sent = b.bytes) :
    Walk.Keeps { v with
      txBuffers := v.txBuffers ++ [c], total := v.total + b.bytes.length } (done ++ [b]) where
  sent_eq := by simp [hv.sent_eq, hsent, contents_append]
  total_eq := by simp [hv.total_eq, contents_append]
  need_eq := hv.need_eq
  ordinary := hv.ordinary
  ready := hv.ready

/-- A run that was copied whole is done. -/
theorem Walk.Stopped.keeps {ordinary : List Buffer} {n : ℕ} (hv : v.Stopped done ordinary n)
    (hfull : (contents ordinary).length ≤ n) (hempty : v.uncopied = []) :
    Walk.Keeps { v with needReserveBytes := 0 } (done ++ ordinary) where
  sent_eq := by
    have hsent := hv.sent_eq
    rw [List.take_of_length_le hfull] at hsent
    rw [contents_append, hsent]
  total_eq := by
    have hn : n = (contents ordinary).length := Nat.le_antisymm hv.le hfull
    rw [contents_append, List.length_append, ← hn]
    exact hv.total_eq
  need_eq := by simp [hempty]
  ordinary := by simp [hempty, Ordinary]
  ready := hv.ready

/-- **The loop.**  It stops after a prefix of the pending bytes, which ends in no
buffer that lies in a chunk. -/
theorem submitLoop_spec (hv : v.Keeps done) (hbuffers : Backed buffers)
    (hloop : submitLoop worker o buffers v = some v') :
    ∃ front ordinary rest n, done ++ v.uncopied ++ buffers = front ++ ordinary ++ rest ∧
      v'.Stopped front ordinary n := by
  induction buffers generalizing v done with
  | nil =>
      rw [submitLoop] at hloop
      by_cases hneed : v.needReserveBytes = 0
      · rw [if_pos hneed, Option.some.injEq] at hloop
        subst hloop
        refine ⟨done, v.uncopied, [], 0, rfl, hv.ordinary, Nat.zero_le _, hv.total_eq, ?_,
          hv.ready⟩
        simpa using hv.sent_eq
      · obtain ⟨copied, w, hfill, -, hstopped⟩ := @Walk.Keeps.fill worker o _ _ hv hneed
        rw [if_neg hneed, hfill, Option.some.injEq] at hloop
        subst hloop
        exact ⟨done, v.uncopied, [], copied, rfl, hstopped⟩
  | cons b rest ih =>
      obtain ⟨hb, hrest⟩ := backed_cons.mp hbuffers
      rw [submitLoop.eq_def] at hloop
      simp only at hloop
      cases hchunk : b.txChunk with
      | none =>
          rw [hchunk] at hloop
          obtain ⟨front, ordinary, tail, n, hsplit, hstopped⟩ := ih (hv.count hchunk) hrest hloop
          exact ⟨front, ordinary, tail, n, by simpa using hsplit, hstopped⟩
      | some c =>
          rw [hchunk] at hloop
          obtain ⟨-, hsent⟩ := hb c hchunk
          by_cases hneed : v.needReserveBytes = 0
          · simp only [if_pos hneed] at hloop
            split at hloop
            · rename_i hempty
              obtain ⟨front, ordinary, tail, n, hsplit, hstopped⟩ :=
                ih (hv.take hsent) hrest hloop
              exact ⟨front, ordinary, tail, n, by simpa [hempty] using hsplit, hstopped⟩
            · cases hloop
          · obtain ⟨copied, w, hfill, hsame, hstopped⟩ :=
              @Walk.Keeps.fill worker o _ _ hv hneed
            simp only [if_neg hneed, hfill] at hloop
            split at hloop
            · obtain rfl := Option.some.inj hloop
              exact ⟨done, v.uncopied, b :: rest, copied, rfl, hstopped⟩
            · rename_i hfull
              split at hloop
              · rename_i hempty
                -- the whole run was copied, and the chunk follows it
                rw [hsame, hv.need_eq, Nat.not_lt] at hfull
                obtain ⟨front, ordinary, tail, n, hsplit, htail⟩ :=
                  ih ((hstopped.keeps hfull hempty).take hsent) hrest hloop
                exact ⟨front, ordinary, tail, n, by simpa [hempty] using hsplit, htail⟩
              · cases hloop

end Loop

/-! ## One call -/

/-- What a call that posted without failure leaves, where `before` was pending and
accepted. -/
structure Streams (before : List UInt8) (out : SendOutcome) : Prop where
  stream : sentAll out.posted ++ contents out.socket.pendingBl.buffers = before
  backed : Backed out.socket.pendingBl.buffers
  ready : out.side.cluster.Ready

section Calls

variable {worker o : ℕ} {s : Socket} {t : TxSide} {out : SendOutcome}

theorem sending_streams {v : Walk} {front ordinary rest : List Buffer} {n : ℕ}
    (hsplit : s.pendingBl.buffers = front ++ ordinary ++ rest)
    (hbacked : Backed s.pendingBl.buffers) (hv : v.Stopped front ordinary n)
    (hsending : s.sending v .posted = some out) :
    Streams (contents s.pendingBl.buffers) out ∧ (out.ret = 0 ∨ out.ret = -eagain) := by
  unfold Socket.sending at hsending
  dsimp only at hsending
  split at hsending
  · obtain rfl := Option.some.inj hsending
    exact ⟨⟨rfl, hbacked, hv.ready⟩, .inr rfl⟩
  · split at hsending
    · cases hsending
    · obtain rfl := Option.some.inj hsending
      have htake : (contents s.pendingBl.buffers).take v.total = sentAll v.txBuffers := by
        rw [hsplit, hv.total_eq, hv.sent_eq, contents_append, contents_append, List.append_assoc,
          List.take_length_add_append, List.take_append_of_le_length hv.le]
      refine ⟨⟨?_, ?_, hv.ready⟩, ?_⟩
      · rw [Bufferlist.contents_consume]
        simp only [postWorkRequest]
        rw [← htake, List.take_append_drop]
      · simp only [Bufferlist.consume]
        split
        · simp only [Bufferlist.drop]
          rw [hsplit, hv.total_eq]
          exact backed_dropBytes hv.cuts_ordinary (hsplit ▸ hbacked) n hv.le
        · simp [Bufferlist.clear, Backed]
      · by_cases hleft : (s.pendingBl.consume v.total).length = 0
        · simp [postWorkRequest, hleft]
        · simp [postWorkRequest, hleft]

/-- **`submit`.**  What it posts, followed by what stays pending, was pending. -/
theorem submit_streams (hready : t.cluster.Ready) (hbacked : Backed s.pendingBl.buffers)
    (hsubmit : s.submit worker o t .posted = some out) :
    Streams (contents s.pendingBl.buffers) out ∧
      (s.error = 0 → out.ret = 0 ∨ out.ret = -eagain) := by
  unfold Socket.submit at hsubmit
  split at hsubmit
  · rename_i herror
    obtain rfl := Option.some.inj hsubmit
    exact ⟨⟨rfl, hbacked, hready⟩, fun h => absurd h herror⟩
  · split at hsubmit
    · obtain rfl := Option.some.inj hsubmit
      exact ⟨⟨rfl, hbacked, hready⟩, fun _ => .inl rfl⟩
    · split at hsubmit
      · cases hsubmit
      · rename_i v hloop
        have hkeeps : Walk.Keeps ⟨[], 0, 0, [], s.pending, t⟩ [] :=
          ⟨rfl, rfl, rfl, by simp [Ordinary], hready⟩
        obtain ⟨front, ordinary, rest, n, hsplit, hstopped⟩ :=
          submitLoop_spec hkeeps hbacked hloop
        obtain ⟨hstreams, hret⟩ :=
          sending_streams (by simpa using hsplit) hbacked hstopped hsubmit
        exact ⟨hstreams, fun _ => hret⟩

/-- The bytes a `send` accepts: all, unless it returns an error. -/
def SendOutcome.accepted (out : SendOutcome) (bl : Bufferlist) : List UInt8 :=
  if out.ret < 0 then [] else contents bl.buffers

/-- **`send`.**  What it posts, followed by what stays pending, was pending or is
accepted. -/
theorem send_streams {bl : Bufferlist} (hready : t.cluster.Ready)
    (hbacked : Backed s.pendingBl.buffers) (hbl : Backed bl.buffers)
    (hsend : s.send worker o t bl .posted = some out) :
    Streams (contents s.pendingBl.buffers ++ out.accepted bl) out := by
  unfold Socket.send at hsend
  split at hsend
  · rename_i herror
    obtain rfl := Option.some.inj hsend
    have hneg : (if s.active then -(s.error : ℤ) else -epipe) < 0 := by
      split_ifs
      · omega
      · simp [epipe]
    exact ⟨by simp [SendOutcome.accepted, hneg], hbacked, hready⟩
  · rename_i herror
    split at hsend
    · rename_i hempty
      obtain rfl := Option.some.inj hsend
      have hnil : contents bl.buffers = [] := List.eq_nil_of_length_eq_zero hempty
      exact ⟨by simp [SendOutcome.accepted, hnil], hbacked, hready⟩
    · split at hsend
      · cases hsend
      · rename_i pendingBl happend
        have hpending : pendingBl.buffers = s.pendingBl.buffers ++ bl.buffers := by
          unfold Bufferlist.append at happend
          split at happend
          · rw [← Option.some.inj happend]
          · cases happend
        have hboth : Backed pendingBl.buffers := hpending ▸ backed_append.mpr ⟨hbacked, hbl⟩
        dsimp only at hsend
        split at hsend
        · obtain rfl := Option.some.inj hsend
          exact ⟨by simp [SendOutcome.accepted, hpending, contents_append], hboth, hready⟩
        · split at hsend
          · cases hsend
          · rename_i inner hsubmit
            obtain ⟨⟨hstream, hbacked', hready'⟩, hret⟩ := submit_streams hready hboth hsubmit
            have hok : ¬ (inner.ret < 0 ∧ inner.ret ≠ -eagain) := by
              have h := hret (not_ne_iff.mp herror)
              rintro ⟨hneg, hne⟩
              rcases h with h | h
              · omega
              · exact hne h
            obtain rfl := Option.some.inj hsend
            refine ⟨?_, hbacked', hready'⟩
            rw [hpending, contents_append] at hstream
            simp [SendOutcome.accepted, hok, hstream]

end Calls

/-! ## Runs -/

/-- A socket and the tx side it shares, with the bytes that `send` accepted and
those that were posted. -/
structure SendRun where
  worker : ℕ
  conn : ℕ
  socket : Socket
  side : TxSide
  accepted : List UInt8
  posted : List UInt8

inductive SendAction
  | send (bl : Bufferlist)
  | submit
  | connection (active connected : Bool)
  | fault
  | others (side : TxSide)

instance (k : Cluster) : Decidable k.Ready :=
  decidable_of_iff (0 < k.bufferSize ∧ k.bufferSize < 2 ^ 32 ∧
      ∀ c ∈ k.freeChunks, c.offset = 0 ∧ c.bytes = k.bufferSize)
    ⟨fun h => ⟨h.1, h.2.1, fun c hc => ⟨(h.2.2 c hc).1, (h.2.2 c hc).2⟩⟩,
      fun h => ⟨h.1, h.2, fun c hc => ⟨(h.3 c hc).1, (h.3 c hc).2⟩⟩⟩

namespace SendRun

/-- One step.  The handshake sets the flags, the other sockets leave any tx side whose
cluster is in order, and no post fails. -/
def step (r : SendRun) : SendAction → Option SendRun
  | .send bl =>
      if Backed bl.buffers then
        (r.socket.send r.worker r.conn r.side bl .posted).map fun out =>
          { r with
            socket := out.socket
            side := out.side
            accepted := r.accepted ++ out.accepted bl
            posted := r.posted ++ sentAll out.posted }
      else none
  | .submit =>
      (r.socket.submit r.worker r.conn r.side .posted).map fun out =>
        { r with
          socket := out.socket
          side := out.side
          posted := r.posted ++ sentAll out.posted }
  | .connection active connected =>
      some { r with socket := { r.socket with active := active, connected := connected } }
  | .fault => some { r with socket := r.socket.fault }
  | .others side => if side.cluster.Ready then some { r with side := side } else none

/-- A run starts with any pending bytes and any free chunks. -/
structure Fresh (r : SendRun) : Prop where
  accepted : r.accepted = contents r.socket.pendingBl.buffers
  posted : r.posted = []
  backed : Backed r.socket.pendingBl.buffers
  ready : r.side.cluster.Ready

/-- The queue of bytes that the sending side implements. -/
def view (r : SendRun) : Fifo UInt8 where
  arrived := r.accepted
  delivered := r.posted
  held := contents r.socket.pendingBl.buffers

end SendRun

/-- The sending side under `send` and `submit`. -/
def sendMachine : Machine SendRun SendAction where
  start := SendRun.Fresh
  step := SendRun.step

namespace SendRun

/-- Every byte accepted was posted or is pending, in order; and the next `submit`
that returns posts the first of those that are pending. -/
structure StreamKept (r : SendRun) : Prop where
  stream : r.posted ++ contents r.socket.pendingBl.buffers = r.accepted
  submit : ∀ out, r.socket.submit r.worker r.conn r.side .posted = some out →
    sentAll out.posted ++ contents out.socket.pendingBl.buffers =
      contents r.socket.pendingBl.buffers

/-- What every run maintains besides the stream. -/
structure Sound (r : SendRun) : Prop where
  backed : Backed r.socket.pendingBl.buffers
  ready : r.side.cluster.Ready

variable {r t : SendRun}

/-- A call that returned makes its moves of the queue: it accepts, then posts. -/
theorem reached_call {accepted : List UInt8} {out : SendOutcome}
    (hreached : (fifoMachine UInt8).Reached r.view)
    (hcall : Streams (contents r.socket.pendingBl.buffers ++ accepted) out) :
    (fifoMachine UInt8).Reached ⟨r.accepted ++ accepted, r.posted ++ sentAll out.posted,
      contents out.socket.pendingBl.buffers⟩ :=
  Fifo.reached_deliver (Fifo.reached_arrive hreached accepted) hcall.stream.symm

/-- The step lemma: soundness is kept, and the view makes moves of the queue. -/
theorem Sound.step {a : SendAction} (hr : r.Sound) (hstep : r.step a = some t) :
    t.Sound ∧ ((fifoMachine UInt8).Reached r.view → (fifoMachine UInt8).Reached t.view) := by
  cases a with
  | send bl =>
      obtain ⟨hbl, hcall⟩ := Option.ite_none_right_eq_some.mp hstep
      obtain ⟨out, hsend, rfl⟩ := Option.map_eq_some_iff.mp hcall
      have hstreams := send_streams hr.ready hr.backed hbl hsend
      exact ⟨⟨hstreams.backed, hstreams.ready⟩, fun hreached => reached_call hreached hstreams⟩
  | submit =>
      obtain ⟨out, hsubmit, rfl⟩ := Option.map_eq_some_iff.mp hstep
      obtain ⟨hstreams, -⟩ := submit_streams hr.ready hr.backed hsubmit
      refine ⟨⟨hstreams.backed, hstreams.ready⟩, fun hreached => ?_⟩
      have hmoves := @reached_call r [] out hreached (by simpa using hstreams)
      simpa [view] using hmoves
  | connection active connected | fault =>
      obtain rfl := Option.some.inj hstep
      exact ⟨⟨hr.backed, hr.ready⟩, id⟩
  | others side =>
      obtain ⟨hready, hnext⟩ := Option.ite_none_right_eq_some.mp hstep
      obtain rfl := Option.some.inj hnext
      exact ⟨⟨hr.backed, hready⟩, id⟩

/-- **Refinement.**  Every run is a run of the byte queue. -/
theorem sound_and_refines (hreached : sendMachine.Reached r) :
    r.Sound ∧ (fifoMachine UInt8).Reached r.view := by
  apply hreached.invariant fun r => r.Sound ∧ (fifoMachine UInt8).Reached r.view
  · intro r hfresh
    refine ⟨⟨hfresh.backed, hfresh.ready⟩, ?_⟩
    have harrived := Fifo.reached_arrive (.start rfl : (fifoMachine UInt8).Reached ⟨[], [], []⟩)
      r.accepted
    simpa [view, Fifo.step, hfresh.posted, hfresh.accepted] using harrived
  · intro r a t hr _ hstep
    obtain ⟨hsound, hmoves⟩ := hr.1.step hstep
    exact ⟨hsound, hmoves hr.2⟩

/-- **The sent stream.**  In every run without a failed post, the bytes accepted are
those posted followed by those pending. -/
theorem streamKept_of_reached (hreached : sendMachine.Reached r) : r.StreamKept := by
  obtain ⟨hsound, hfifo⟩ := sound_and_refines hreached
  exact
    { stream := Fifo.delivered_append_held hfifo
      submit := fun out hsubmit => (submit_streams hsound.ready hsound.backed hsubmit).1.stream }

/-- Two free chunks of two bytes. -/
def twoChunks : TxSide where
  cluster := ⟨2, [.empty 1 2, .empty 2 2]⟩
  inflight := 0
  pendingWorkers := []
  pendingSentConns := fun _ => []

/-- A socket whose connection is not up yet. -/
def unconnected : SendRun where
  worker := 0
  conn := 0
  socket := { quietSocket with connected := false }
  side := twoChunks
  accepted := []
  posted := []

theorem fresh_unconnected : unconnected.Fresh := by
  refine ⟨rfl, rfl, ?_, ?_⟩
  · simp [unconnected, quietSocket, Bufferlist.clear, Backed]
  · decide

/-- A chunk with two bytes in it. -/
def filled : Chunk := ⟨9, 2, 0, 2, [4, 5], rfl⟩

/-- Three bytes in an ordinary buffer and two in a chunk of their own. -/
def mixed : Bufferlist where
  buffers := [⟨[1, 2, 3], none⟩, ⟨[4, 5], some filled⟩]
  length_lt := by decide

/-- Accepted before the connection is up, posted after it in one call. -/
theorem streamKept_of_reached_mixed :
    ∃ r : SendRun, r.accepted = [1, 2, 3, 4, 5] ∧ r.posted = [1, 2, 3, 4, 5] ∧ r.StreamKept := by
  obtain ⟨r, hreplay, haccepted, hposted⟩ : ∃ r,
      sendMachine.replay (fun _ _ => True) unconnected
          [.send mixed, .connection true true, .submit] = some r ∧
        r.accepted = [1, 2, 3, 4, 5] ∧ r.posted = [1, 2, 3, 4, 5] := ⟨_, rfl, rfl, rfl⟩
  exact ⟨r, haccepted, hposted,
    streamKept_of_reached (.of_replay (.start fresh_unconnected) hreplay)⟩

end SendRun

end HwAsync.Rdma
