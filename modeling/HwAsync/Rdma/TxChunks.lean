/-
# Where the tx chunks are

All sockets of a stack send from one pool of chunks.  A chunk leaves the pool in
`submit`, is on a send queue from `ibv_post_send` until its completion is
handled, and comes back in `post_tx_buffer`; `inflight` counts the chunks that are
away.  The runs of these steps implement a pool as long as no post fails: a
failed one returns after the chunks were reserved and the pending bytes taken
off, and neither is undone.
-/

import HwAsync.Rdma.Submit

namespace HwAsync.Rdma

open HwAsync.Lib HwAsync.Infiniband

/-- The tx side with the sockets that use it, the chunks on their send queues,
and the pending bytes before and after the last `submit` whose post failed. -/
structure TxRun where
  side : TxSide
  sockets : ℕ → Socket
  posted : List Chunk
  lastFailed : Option (List UInt8 × List UInt8)

inductive TxAction
  | queue (o : ℕ) (bl : Bufferlist)
  | submit (worker o : ℕ) (post : PostResult)
  | handleTxEvent (conn : ℕ → Option ℕ) (cqe : List TxCompletion)

namespace TxRun

/-- Replace one socket. -/
def setSocket (r : TxRun) (o : ℕ) (s : Socket) : TxRun :=
  { r with sockets := Function.update r.sockets o s }

/-- One step: bytes are queued on a socket, a socket submits, or the dispatcher
handles completions of posted chunks. -/
def step (r : TxRun) : TxAction → Option TxRun
  | .queue o bl =>
      if ∀ b ∈ bl.buffers, b.txChunk = none then
        match (r.sockets o).pendingBl.append bl with
        | none => none
        | some pendingBl => some (r.setSocket o { r.sockets o with pendingBl := pendingBl })
      else none
  | .submit worker o post =>
      match (r.sockets o).submit worker o r.side post with
      | none => none
      | some out =>
          some { r.setSocket o out.socket with
            side := out.side
            posted := r.posted ++ out.posted
            lastFailed :=
              if post = .posted then r.lastFailed
              else some (contents (r.sockets o).pendingBl.buffers,
                contents out.socket.pendingBl.buffers) }
  | .handleTxEvent conn cqe =>
      if (completedChunks cqe : Multiset Chunk) ≤ r.posted then
        match handleTxEvent r.side cqe with
        | none => none
        | some (_, side) =>
            let faulted := faultedConns conn (fun i => (r.sockets i).connected) cqe
            some { r with
              side := side
              sockets := fun i =>
                if i ∈ faulted then (r.sockets i).fault else r.sockets i
              posted := r.posted.diff (completedChunks cqe) }
      else none

/-- After `Cluster::fill` created the chunks with the addresses `items`, and before
any was used. -/
structure Fresh (items : Multiset ℕ) (r : TxRun) : Prop where
  ready : r.side.cluster.Ready
  free : addrs r.side.cluster.freeChunks = items
  nodup : items.Nodup
  card_lt : items.card < 2 ^ 32
  inflight : r.side.inflight = 0
  posted : r.posted = []
  ordinary : ∀ o, Ordinary (r.sockets o).pendingBl.buffers
  lastFailed : r.lastFailed = none

/-- Every chunk is free or posted and not both, `inflight` counts the posted ones,
and a `submit` whose post failed has kept the pending bytes. -/
structure Conserved (items : Multiset ℕ) (r : TxRun) : Prop where
  chunks_eq : addrs r.side.cluster.freeChunks + addrs r.posted = items
  nodup : (addrs r.side.cluster.freeChunks + addrs r.posted).Nodup
  inflight_eq : r.side.inflight = r.posted.length
  kept : ∀ before after, r.lastFailed = some (before, after) → after = before

/-- No `ibv_post_send` fails. -/
def postsSucceed (_ : TxRun) : TxAction → Prop
  | .submit _ _ post => post = .posted
  | _ => True

instance (r : TxRun) (a : TxAction) : Decidable (r.postsSucceed a) :=
  match a with
  | .queue _ _ => .isTrue trivial
  | .submit _ _ post => inferInstanceAs (Decidable (post = .posted))
  | .handleTxEvent _ _ => .isTrue trivial

/-- The pool that the chunks form. -/
def view (r : TxRun) : Pool ℕ where
  free := addrs r.side.cluster.freeChunks
  out := addrs r.posted

/-- What every run maintains besides the pool. -/
structure Sound (items : Multiset ℕ) (r : TxRun) : Prop where
  ready : r.side.cluster.Ready
  size_eq : ∀ c ∈ r.posted, c.bytes = r.side.cluster.bufferSize
  nodup : items.Nodup
  card_lt : items.card < 2 ^ 32
  inflight_eq : r.side.inflight = r.posted.length
  ordinary : ∀ o, Ordinary (r.sockets o).pendingBl.buffers
  lastFailed : r.lastFailed = none

end TxRun

/-- The sending side under its steps. -/
def txMachine (items : Multiset ℕ) : Machine TxRun TxAction where
  start := TxRun.Fresh items
  step := TxRun.step

namespace TxRun

variable {items : Multiset ℕ} {r t : TxRun}

/-- What queueing does. -/
theorem step_queue {o : ℕ} {bl : Bufferlist} (hstep : r.step (.queue o bl) = some t) :
    ∃ s, t = r.setSocket o s ∧ Ordinary bl.buffers ∧
      s.pendingBl.buffers = (r.sockets o).pendingBl.buffers ++ bl.buffers := by
  simp only [step] at hstep
  split at hstep
  · rename_i hbl
    split at hstep
    · cases hstep
    · rename_i pendingBl happend
      refine ⟨_, (Option.some.inj hstep).symm, hbl, ?_⟩
      simp only [Bufferlist.append] at happend
      split at happend
      · rw [← Option.some.inj happend]
      · cases happend
  · cases hstep

/-- What the handling of completions does. -/
theorem step_handleTxEvent {conn : ℕ → Option ℕ} {cqe : List TxCompletion}
    (hstep : r.step (.handleTxEvent conn cqe) = some t) :
    (completedChunks cqe : Multiset Chunk) ≤ r.posted ∧
      t.side = (r.side.postTxBuffer (completedChunks cqe)).2 ∧
      t.posted = r.posted.diff (completedChunks cqe) ∧ t.lastFailed = r.lastFailed ∧
      ∀ o, (t.sockets o).pendingBl = (r.sockets o).pendingBl := by
  simp only [step, handleTxEvent] at hstep
  split at hstep
  · rename_i hposted
    split at hstep
    · cases hstep
    · rename_i woken side hhandled
      split at hhandled
      · obtain rfl := Option.some.inj hstep
        refine ⟨hposted, (congrArg Prod.snd (Option.some.inj hhandled)).symm, rfl, rfl, ?_⟩
        intro o
        dsimp only
        split <;> rfl
      · cases hhandled
  · cases hstep

/-- A fresh tx side is sound, and its chunks are a pool with every item free. -/
theorem Fresh.sound (hfresh : r.Fresh items) : r.Sound items where
  ready := hfresh.ready
  size_eq := by simp [hfresh.posted]
  nodup := hfresh.nodup
  card_lt := hfresh.card_lt
  inflight_eq := by simp [hfresh.inflight, hfresh.posted]
  ordinary := hfresh.ordinary
  lastFailed := hfresh.lastFailed

/-- The chunks that are away are some of the chunks there are. -/
theorem length_posted_le (hpool : (poolMachine items).Reached r.view) :
    r.posted.length ≤ items.card := by
  have h := congrArg Multiset.card (Pool.free_add_out hpool)
  simp only [view, Multiset.card_add, card_addrs] at h
  omega

/-- `inflight` does not wrap. -/
theorem Sound.inflight_lt (hsound : r.Sound items) (hpool : (poolMachine items).Reached r.view) :
    r.side.inflight < 2 ^ 64 := by
  have hlength := length_posted_le hpool
  have hcard := hsound.card_lt
  rw [hsound.inflight_eq]
  omega

/-- Queueing touches no chunk. -/
theorem Sound.queue {o : ℕ} {bl : Bufferlist} (hsound : r.Sound items)
    (hpool : (poolMachine items).Reached r.view) (hstep : r.step (.queue o bl) = some t) :
    t.Sound items ∧ (poolMachine items).Reached t.view := by
  obtain ⟨s, rfl, hbl, hpending⟩ := step_queue hstep
  refine ⟨⟨hsound.ready, hsound.size_eq, hsound.nodup, hsound.card_lt, hsound.inflight_eq,
    fun i => ?_, hsound.lastFailed⟩, hpool⟩
  by_cases hi : i = o
  · subst hi
    simp only [setSocket, Function.update_self, hpending]
    intro b hb
    exact (List.mem_append.mp hb).elim (hsound.ordinary i b) (hbl b)
  · simpa [setSocket, hi] using hsound.ordinary i

/-- `submit` with a successful post lends chunks of the pool. -/
theorem Sound.submit {worker o : ℕ} (hsound : r.Sound items)
    (hpool : (poolMachine items).Reached r.view)
    (hstep : r.step (.submit worker o .posted) = some t) :
    t.Sound items ∧ (poolMachine items).Reached t.view := by
  have hcard := hsound.card_lt
  obtain ⟨out, chunks, hout, hreserved, hordinary, -, hposted⟩ :=
    @submit_spec worker o r.side (r.sockets o) hsound.ready (hsound.inflight_lt hpool)
      (hsound.ordinary o) .posted
  obtain rfl : out.posted = chunks := hposted
  simp only [TxRun.step, hout, if_true, Option.some.injEq] at hstep
  subst hstep
  have hpool' : (poolMachine items).Reached
      ⟨addrs out.side.cluster.freeChunks, addrs r.posted + addrs out.posted⟩ :=
    Pool.reached_lend hpool hreserved.addrs_eq.symm
  have hmore : (r.posted ++ out.posted).length ≤ items.card := by
    have h := congrArg Multiset.card (Pool.free_add_out hpool')
    simp only [Multiset.card_add, card_addrs] at h
    rw [List.length_append]
    omega
  refine ⟨⟨hreserved.ready, ?_, hsound.nodup, hsound.card_lt, ?_, fun i => ?_,
    hsound.lastFailed⟩, ?_⟩
  · intro c hc
    rw [hreserved.bufferSize_eq]
    exact (List.mem_append.mp hc).elim (hsound.size_eq c) (hreserved.size_eq c)
  · rw [hreserved.inflight_eq, hsound.inflight_eq, ← List.length_append]
    exact Nat.mod_eq_of_lt (by omega)
  · by_cases hi : i = o
    · subst hi
      simpa [setSocket] using hordinary
    · simpa [setSocket, hi] using hsound.ordinary i
  · simpa [view] using hpool'

/-- Completions give chunks back to the pool. -/
theorem Sound.handleTxEvent {conn : ℕ → Option ℕ} {cqe : List TxCompletion}
    (hsound : r.Sound items) (hpool : (poolMachine items).Reached r.view)
    (hstep : r.step (.handleTxEvent conn cqe) = some t) :
    t.Sound items ∧ (poolMachine items).Reached t.view := by
  obtain ⟨hle, hside, hposted, hlast, hpending⟩ := step_handleTxEvent hstep
  have hsub : (r.posted : Multiset Chunk) =
      (completedChunks cqe : Multiset Chunk) + (t.posted : Multiset Chunk) := by
    rw [hposted, ← Multiset.coe_sub]
    exact (add_tsub_cancel_of_le hle).symm
  have hmem : ∀ c, c ∈ completedChunks cqe ∨ c ∈ t.posted → c ∈ r.posted := by
    intro c hc
    have h : c ∈ (r.posted : Multiset Chunk) := by
      rw [hsub]
      simpa using hc
    exact h
  have haddrs : addrs r.posted = addrs (completedChunks cqe) + addrs t.posted := by
    have h := congrArg (Multiset.map Chunk.addr) hsub
    simpa [addrs] using h
  have hcount : r.posted.length = (completedChunks cqe).length + t.posted.length := by
    simpa using congrArg Multiset.card hsub
  obtain ⟨hcluster, hinflight'⟩ := @postTxBuffer_spec r.side (hsound.inflight_lt hpool)
    (completedChunks cqe) (by rw [hsound.inflight_eq]; omega)
  rw [← hside] at hcluster hinflight'
  have hback : ∀ c ∈ completedChunks cqe, c.bytes = r.side.cluster.bufferSize :=
    fun c hc => hsound.size_eq c (hmem c (.inl hc))
  refine ⟨⟨?_, ?_, hsound.nodup, hsound.card_lt, ?_, fun i => ?_, ?_⟩, ?_⟩
  · rw [hcluster]
    exact hsound.ready.takeBack hback
  · intro c hc
    rw [hcluster, Cluster.takeBack_bufferSize]
    exact hsound.size_eq c (hmem c (.inr hc))
  · rw [hinflight', hsound.inflight_eq]
    omega
  · rw [hpending i]
    exact hsound.ordinary i
  · rw [hlast]
    exact hsound.lastFailed
  · have h := Pool.reached_giveBack hpool haddrs
    simpa [view, hcluster, Cluster.addrs_takeBack] using h

/-- The step lemma: soundness is kept, and the chunks make moves of the pool. -/
theorem Sound.step {a : TxAction} (hsound : r.Sound items)
    (hpool : (poolMachine items).Reached r.view) (hok : r.postsSucceed a)
    (hstep : r.step a = some t) : t.Sound items ∧ (poolMachine items).Reached t.view := by
  cases a with
  | queue o bl => exact hsound.queue hpool hstep
  | submit worker o post =>
      obtain rfl : post = .posted := hok
      exact hsound.submit hpool hstep
  | handleTxEvent conn cqe => exact hsound.handleTxEvent hpool hstep

/-- **Refinement.**  A run whose posts all succeed is a run of the pool. -/
theorem sound_and_pool (hreached : (txMachine items).ReachedUnder postsSucceed r) :
    r.Sound items ∧ (poolMachine items).Reached r.view := by
  refine hreached.invariant
    (fun r => r.Sound items ∧ (poolMachine items).Reached r.view) ?_ ?_
  · intro r hfresh
    refine ⟨hfresh.sound, .start ?_⟩
    simp [poolMachine, view, hfresh.free, hfresh.posted]
  · intro r a t hr hok hstep
    exact hr.1.step hr.2 hok hstep

/-- **Tx chunk conservation** in runs whose posts all succeed. -/
theorem conserved_of_postsSucceed (hreached : (txMachine items).ReachedUnder postsSucceed r) :
    r.Conserved items := by
  obtain ⟨hsound, hpool⟩ := sound_and_pool hreached
  have hchunks : addrs r.side.cluster.freeChunks + addrs r.posted = items :=
    Pool.free_add_out hpool
  exact
    { chunks_eq := hchunks
      nodup := hchunks ▸ hsound.nodup
      inflight_eq := hsound.inflight_eq
      kept := by simp [hsound.lastFailed] }

/-- The condition is not too strong: a post that fails after chunks were reserved
loses them. -/
theorem not_conserved_of_failed {worker o errno : ℕ} (hsound : r.Sound items)
    (hpool : (poolMachine items).Reached r.view)
    (hstep : r.step (.submit worker o (.failed errno)) = some t)
    (hreserved : t.side.cluster.freeChunks.length < r.side.cluster.freeChunks.length) :
    ¬ t.Conserved items := by
  obtain ⟨out, chunks, hout, -, -, -, hposted⟩ :=
    @submit_spec worker o r.side (r.sockets o) hsound.ready (hsound.inflight_lt hpool)
      (hsound.ordinary o) (.failed errno)
  obtain hposted : out.posted = [] := hposted
  simp only [TxRun.step, hout, Option.some.injEq] at hstep
  subst hstep
  intro hconserved
  have hbefore := congrArg Multiset.card (Pool.free_add_out hpool)
  have hafter := congrArg Multiset.card hconserved.chunks_eq
  simp only [view, hposted, List.append_nil, Multiset.card_add, card_addrs] at hbefore hafter
  dsimp only at hreserved
  omega

/-- One free chunk of four bytes, and sockets with nothing to send. -/
def oneChunk : TxRun where
  side := ⟨⟨4, [.empty 100 4]⟩, 0, [], fun _ => []⟩
  sockets := fun _ => quietSocket
  posted := []
  lastFailed := none

theorem fresh_oneChunk : oneChunk.Fresh {100} where
  ready := ⟨by decide, by decide, by simpa [oneChunk] using ⟨rfl, rfl⟩⟩
  free := rfl
  nodup := by simp
  card_lt := by simp
  inflight := rfl
  posted := rfl
  ordinary := by simp [oneChunk, quietSocket, Bufferlist.clear, Ordinary]
  lastFailed := rfl

/-- Two bytes for socket 0. -/
def queueTwo : TxAction := .queue 0 ⟨[⟨[1, 2], none⟩], by decide⟩

/-- The chunk is posted and stays accounted for. -/
theorem conserved_of_postsSucceed_oneChunk :
    ∃ r : TxRun, r.posted.map Chunk.addr = [100] ∧ r.side.inflight = 1 ∧
      r.Conserved {100} := by
  obtain ⟨r, hreplay, hposted, hinflight⟩ : ∃ r,
      (txMachine {100}).replay postsSucceed oneChunk [queueTwo, .submit 0 0 .posted] = some r ∧
        r.posted.map Chunk.addr = [100] ∧ r.side.inflight = 1 := ⟨_, rfl, rfl, rfl⟩
  exact ⟨r, hposted, hinflight,
    conserved_of_postsSucceed (.of_replay (.start fresh_oneChunk) hreplay)⟩

/-- A failed post: the chunk is neither free nor posted, and the bytes are gone. -/
theorem not_conserved_failed_post :
    ∃ r : TxRun, (txMachine {100}).Reached r ∧ r.side.cluster.freeChunks = [] ∧
      r.posted = [] ∧ r.side.inflight = 1 ∧ r.lastFailed = some ([1, 2], []) ∧
      ¬ r.Conserved {100} := by
  obtain ⟨r, hreplay, hfree, hposted, hinflight, hlast⟩ : ∃ r,
      (txMachine {100}).replay (fun _ _ => True) oneChunk
          [queueTwo, .submit 0 0 (.failed 12)] = some r ∧
        r.side.cluster.freeChunks = [] ∧ r.posted = [] ∧ r.side.inflight = 1 ∧
        r.lastFailed = some ([1, 2], []) := ⟨_, rfl, rfl, rfl, rfl, rfl⟩
  refine ⟨r, .of_replay (.start fresh_oneChunk) hreplay, hfree, hposted, hinflight, hlast, ?_⟩
  intro hconserved
  have h := hconserved.kept _ _ hlast
  simp at h

end TxRun

end HwAsync.Rdma
