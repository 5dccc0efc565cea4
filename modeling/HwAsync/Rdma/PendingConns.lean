/-
# The sockets of a worker that wait for chunks

A socket that could not send all its bytes waits in `pending_sent_conns` of its worker, and its
flag `pending` says that it does.  `get_reged_mem` enters the socket, somewhere inside `submit`;
`handle_pending_message` takes it out, submits again, and enters it again or clears the flag; the
destructor takes it out as well.

The results hold for the sockets of one worker, with whatever the other workers and the dispatcher
do to the pool meanwhile.
-/

import HwAsync.Rdma.Handshake
import HwAsync.Rdma.SubmitSafety

namespace HwAsync.Rdma

open HwAsync.Lib HwAsync.Infiniband

/-! ## The worker -/

/-- The tx side with the sockets of one worker that are there. -/
structure ConnRun where
  side : TxSide
  sockets : ℕ → Option Socket

/-- What the constructor leaves of what matters here. -/
structure Socket.Unused (s : Socket) : Prop where
  connected : s.connected = false
  error : s.error = 0
  active : s.active = false
  pending : s.pending = false
  pendingBl : s.pendingBl.length = 0

instance (s : Socket) : Decidable s.Unused :=
  decidable_of_iff (s.connected = false ∧ s.error = 0 ∧ s.active = false ∧ s.pending = false ∧
      s.pendingBl.length = 0)
    ⟨fun h => ⟨h.1, h.2.1, h.2.2.1, h.2.2.2.1, h.2.2.2.2⟩,
      fun h => ⟨h.connected, h.error, h.active, h.pending, h.pendingBl⟩⟩

/-- What happens in the worker's thread, and, in `others`, on the tx side outside of it.  A `post`
is what `ibv_post_send` answers if it is called. -/
inductive ConnAction
  | construct (o : ℕ) (s : Socket)
  | destruct (o : ℕ)
  | send (o : ℕ) (bl : Bufferlist) (post : PostResult)
  | submit (o : ℕ) (post : PostResult)
  | activate (o : ℕ) (env : ConnEnv)
  | handleConnection (o : ℕ) (injected : Bool) (scratch : Scratch) (read : ReadResult)
      (env : ConnEnv)
  | handlePendingMessage (posts : List PostResult)
  | fault (o : ℕ)
  | shutdown (o : ℕ)
  | others (side : TxSide)

namespace TxSide

/-- Another `pending_sent_conns` for one worker. -/
def setPendingSentConns (t : TxSide) (worker : ℕ) (conns : List ℕ) : TxSide :=
  { t with pendingSentConns := Function.update t.pendingSentConns worker conns }

/-- `RDMAWorker::remove_pending_conn`. -/
def removePendingConn (t : TxSide) (worker o : ℕ) : TxSide :=
  t.setPendingSentConns worker ((t.pendingSentConns worker).filter (· ≠ o))

end TxSide

namespace ConnRun

/-- What a call leaves of its socket and of the tx side. -/
def after (r : ConnRun) (o : ℕ) (s : Socket) (side : TxSide) : ConnRun :=
  ⟨side, Function.update r.sockets o (some s)⟩

/-- The loop of `RDMAWorker::handle_pending_message`, one answer for each `submit`. -/
def handlePendingMessage (worker : ℕ) : List PostResult → ConnRun → Option ConnRun
  | posts, r =>
      match r.side.pendingSentConns worker with
      | [] => some { r with side := r.side.notifyPendingWorkers.2 }
      | o :: conns =>
          match posts with
          | [] => none
          | post :: posts =>
              match r.sockets o with
              | none => none
              | some s =>
                  match s.submit worker o (r.side.setPendingSentConns worker conns) post with
                  | none => none
                  | some out =>
                      if out.ret < 0 then
                        if out.ret = -eagain then
                          some (r.after o out.socket
                            ((out.side.setPendingSentConns worker
                              (out.side.pendingSentConns worker ++ [o])).makePendingWorker worker))
                        else
                          handlePendingMessage worker posts
                            (r.after o { out.socket.fault with pending := false } out.side)
                      else
                        handlePendingMessage worker posts
                          (r.after o { out.socket with pending := false } out.side)

/-- One step; `none` where an assertion fails. -/
def step (worker : ℕ) (r : ConnRun) : ConnAction → Option ConnRun
  | .construct o s =>
      if r.sockets o = none ∧ s.Unused then
        some { r with sockets := Function.update r.sockets o (some s) }
      else none
  | .destruct o =>
      some ⟨r.side.removePendingConn worker o, Function.update r.sockets o none⟩
  | .send o bl post =>
      match r.sockets o with
      | none => none
      | some s => (s.send worker o r.side bl post).map fun out => r.after o out.socket out.side
  | .submit o post =>
      match r.sockets o with
      | none => none
      | some s => (s.submit worker o r.side post).map fun out => r.after o out.socket out.side
  | .activate o env =>
      match r.sockets o with
      | none => none
      | some s => (s.activate worker o r.side env).map fun out => r.after o out.socket out.side
  | .handleConnection o injected scratch read env =>
      match r.sockets o with
      | none => none
      | some s =>
          (s.handleConnection worker o r.side injected scratch read env).map fun out =>
            r.after o out.socket out.side
  | .handlePendingMessage posts => r.handlePendingMessage worker posts
  | .fault o =>
      match r.sockets o with
      | none => none
      | some s => some (r.after o s.fault r.side)
  | .shutdown o =>
      match r.sockets o with
      | none => none
      | some s => some (r.after o { s with error := econnreset, active := false } r.side)
  | .others side =>
      if side.cluster.Ready ∧
          side.pendingSentConns worker = r.side.pendingSentConns worker then
        some { r with side := side }
      else none

/-- Before the first socket. -/
structure Fresh (worker : ℕ) (r : ConnRun) : Prop where
  ready : r.side.cluster.Ready
  pendingSentConns : r.side.pendingSentConns worker = []
  sockets : ∀ o, r.sockets o = none

/-- A socket is in the list once if its flag is set and otherwise not at all, and it is there while
a connection that is up has unsent bytes. -/
structure Queued (worker : ℕ) (r : ConnRun) : Prop where
  nodup : (r.side.pendingSentConns worker).Nodup
  mem_iff : ∀ o, o ∈ r.side.pendingSentConns worker ↔
    ∃ s, r.sockets o = some s ∧ s.pending = true
  unsent : ∀ o s, r.sockets o = some s → s.connected = true → s.error = 0 →
    s.pendingBl.length ≠ 0 → o ∈ r.side.pendingSentConns worker

end ConnRun

/-- The sockets of a worker under their steps. -/
def connMachine (worker : ℕ) : Machine ConnRun ConnAction where
  start := ConnRun.Fresh worker
  step := ConnRun.step worker

/-! ## The list and the flag -/

/-- How the list of a worker changes when the flag of a socket goes from `pending` to another value:
both stay, or the socket enters. -/
inductive Enters (worker o : ℕ) (pending : Bool) (t : TxSide) : Bool → TxSide → Prop
  | kept {t' : TxSide} (h : t'.pendingSentConns worker = t.pendingSentConns worker) :
      Enters worker o pending t pending t'
  | entered {t' : TxSide} (hpending : pending = false)
      (h : t'.pendingSentConns worker = t.pendingSentConns worker ++ [o]) :
      Enters worker o pending t true t'

section Submit

variable {worker o : ℕ} {t : TxSide}

theorem Enters.trans {p q v : Bool} {t' t'' : TxSide} (h : Enters worker o p t q t')
    (h' : Enters worker o q t' v t'') : Enters worker o p t v t'' := by
  cases h with
  | kept h =>
      cases h' with
      | kept h' => exact .kept (h'.trans h)
      | entered hq h' => exact .entered hq (by rw [h', h])
  | entered hp h =>
      cases h' with
      | kept h' => exact .entered hp (h'.trans h)
      | entered hq => cases hq

/-- A socket whose bytes do not fit the chunks is in the list afterwards. -/
theorem getRegedMem_enters (pending : Bool) (bytes : ℕ) :
    Enters worker o pending t (getRegedMem worker o pending t bytes).pending
        (getRegedMem worker o pending t bytes).side ∧
      ((getRegedMem worker o pending t bytes).pending = true ∨
        bytes ≤ t.cluster.bufferSize * (getRegedMem worker o pending t bytes).chunks.length) := by
  rw [getRegedMem_eq_reserve]
  by_cases henough : t.enough (t.reserve bytes).1 bytes
  · rw [if_pos henough]
    exact ⟨.kept rfl, .inr (Nat.le_trans henough (Nat.mod_le _ _))⟩
  · rw [if_neg henough]
    refine ⟨?_, .inl rfl⟩
    obtain ⟨-, -, -, hconns⟩ := enqueue_eq (t.reserve bytes).2 worker o pending
    cases pending with
    | true =>
        refine .kept ?_
        rw [hconns]
        rfl
    | false =>
        refine .entered rfl ?_
        rw [hconns]
        exact Function.update_self _ _ _

/-- `fill_tx_via_copy` copies everything unless the socket is in the list afterwards. -/
theorem fillTxViaCopy_enters {v v' : Walk} {copied : ℕ} (hready : v.side.cluster.Ready)
    (hpos : 0 < v.needReserveBytes) (hfill : fillTxViaCopy worker o v = some (copied, v')) :
    Enters worker o v.pending v.side v'.pending v'.side ∧ v'.side.cluster.Ready ∧
      v'.total = v.total ∧ v'.needReserveBytes = v.needReserveBytes ∧
      (v'.pending = true ∨ v.needReserveBytes ≤ copied) := by
  obtain ⟨henters, hflag⟩ := @getRegedMem_enters worker o v.side v.pending v.needReserveBytes
  obtain ⟨hclean, hready'⟩ := @Cluster.Ready.getBuffers v.side.cluster v.needReserveBytes hready
  obtain ⟨hchunks, hcluster, -⟩ :=
    @getRegedMem_eq worker o v.side v.pending v.needReserveBytes
  rw [← hchunks] at hclean
  rw [← hcluster] at hready'
  unfold fillTxViaCopy at hfill
  split at hfill
  · cases hfill
  · dsimp only at hfill
    generalize getRegedMem worker o v.pending v.side v.needReserveBytes = g at *
    cases hgot : g.chunks with
    | nil =>
        rw [hgot] at hfill hflag
        cases hfill
        refine ⟨henters, hready', rfl, rfl, .inl (hflag.resolve_right ?_)⟩
        exact Nat.not_le.mpr hpos
    | cons c rest =>
        rw [hgot] at hfill hflag hclean
        dsimp only at hfill
        split at hfill
        · cases hfill
        · rename_i hassert
          cases hfill
          refine ⟨henters, hready', rfl, rfl, hflag.imp_right fun hle => ?_⟩
          cases hended : (copyBuffers v.uncopied ⟨0, [], c, rest⟩).ended with
          | true =>
              rw [hended, Bool.true_and, bne_iff_ne, not_not] at hassert
              exact Nat.le_of_eq hassert.symm
          | false =>
              have hc := hclean c List.mem_cons_self
              have hroom : (Cursor.mk 0 [] c rest).HasRoom v.side.cluster.bufferSize :=
                ⟨hc.bytes, by dsimp only; rw [hc.offset]; exact hready.bufferSize_pos, fun d hd =>
                  have hd' := hclean d (List.mem_cons_of_mem c hd)
                  ⟨hd'.offset, hd'.bytes⟩⟩
              rw [copyBuffers_exhausted hready.bufferSize_lt hready.bufferSize_pos v.uncopied hroom
                hended]
              unfold Cursor.room
              dsimp only
              rw [hc.offset, Nat.zero_add, Nat.sub_zero]
              rwa [List.length_cons, Nat.mul_succ, Nat.add_comm] at hle

/-- So does the loop of `submit`. -/
theorem submitLoop_enters (buffers : List Buffer) {v v' : Walk} (hready : v.side.cluster.Ready)
    (hloop : submitLoop worker o buffers v = some v') :
    Enters worker o v.pending v.side v'.pending v'.side ∧ v'.side.cluster.Ready ∧
      (v'.pending = true ∨
        v.total + v.needReserveBytes + (contents buffers).length ≤ v'.total) := by
  induction buffers generalizing v with
  | nil =>
      rw [submitLoop] at hloop
      split at hloop
      · rename_i hneed
        cases hloop
        exact ⟨.kept rfl, hready, .inr (by rw [hneed]; exact le_rfl)⟩
      · rename_i hneed
        split at hloop
        · cases hloop
        · rename_i copied v1 hfill
          cases hloop
          obtain ⟨henters, hready', htotal, -, hall⟩ :=
            fillTxViaCopy_enters hready (Nat.pos_of_ne_zero hneed) hfill
          refine ⟨henters, hready', hall.imp_right fun hle => ?_⟩
          dsimp only
          rw [contents_nil, List.length_nil, htotal]
          omega
  | cons b rest ih =>
      rw [contents_cons, List.length_append]
      rw [submitLoop] at hloop
      split at hloop
      · obtain ⟨henters, hready', hall⟩ := ih (by exact hready) hloop
        refine ⟨henters, hready', hall.imp_right fun hle => ?_⟩
        dsimp only at hle
        omega
      · split at hloop
        · split at hloop
          · obtain ⟨henters, hready', hall⟩ := ih (by exact hready) hloop
            refine ⟨henters, hready', hall.imp_right fun hle => ?_⟩
            dsimp only at hle
            omega
          · cases hloop
        · rename_i hneed
          split at hloop
          · cases hloop
          · rename_i copied v1 hfill
            obtain ⟨henters, hready', htotal, hsame, hall⟩ :=
              fillTxViaCopy_enters hready (Nat.pos_of_ne_zero hneed) hfill
            split at hloop
            · -- the label `sending`, with bytes left
              rename_i hshort
              cases hloop
              exact ⟨henters, hready', .inl (hall.resolve_right (by omega))⟩
            · split at hloop
              · obtain ⟨henters', hready'', hall'⟩ := ih (by exact hready') hloop
                refine ⟨henters.trans henters', hready'', hall'.imp_right fun hle => ?_⟩
                dsimp only at hle
                omega
              · cases hloop

end Submit

/-! ## The calls -/

/-- A connection that is up and has unsent bytes has its flag set. -/
def Socket.Flagged (s : Socket) : Prop :=
  s.connected = true → s.error = 0 → s.pendingBl.length ≠ 0 → s.pending = true

theorem flagged_of_error {s : Socket} (h : s.error ≠ 0) : s.Flagged :=
  fun _ herror => absurd herror h

theorem flagged_of_not_connected {s : Socket} (h : s.connected = false) : s.Flagged :=
  fun hconnected => by rw [h] at hconnected; cases hconnected

theorem flagged_fault (s : Socket) : s.fault.Flagged :=
  flagged_of_error (show econnreset ≠ 0 by decide)

/-- What a call on one socket does for the list of its worker. -/
structure ServesCall (worker o : ℕ) (s : Socket) (t : TxSide) (s' : Socket) (t' : TxSide) :
    Prop where
  enters : Enters worker o s.pending t s'.pending t'
  ready : t'.cluster.Ready
  flagged : s'.Flagged

section Calls

variable {worker o : ℕ} {s s' s'' : Socket} {t t' : TxSide} {post : PostResult} {env : ConnEnv}

/-- A call that leaves the flag and the tx side alone. -/
theorem ServesCall.keeps (hready : t.cluster.Ready) (hpending : s'.pending = s.pending)
    (hflagged : s'.Flagged) : ServesCall worker o s t s' t where
  enters := hpending ▸ .kept rfl
  ready := hready
  flagged := hflagged

/-- What leaves the flag alone may follow. -/
theorem ServesCall.andThen (h : ServesCall worker o s t s' t') (hpending : s''.pending = s'.pending)
    (hflagged : s'.Flagged → s''.Flagged) : ServesCall worker o s t s'' t' where
  enters := hpending ▸ h.enters
  ready := h.ready
  flagged := hflagged h.flagged

theorem neg_eagain : ¬ 0 ≤ -(eagain : ℤ) := by decide

theorem sending_serves {v : Walk} {out : SendOutcome} (hready : v.side.cluster.Ready)
    (henters : Enters worker o s.pending t v.pending v.side) (hpos : s.pendingBl.length ≠ 0)
    (hall : v.pending = true ∨ s.pendingBl.length ≤ v.total)
    (hsending : s.sending v post = some out) :
    ServesCall worker o s t out.socket out.side ∧
      (0 ≤ out.ret → out.socket.pendingBl.length = 0) := by
  unfold Socket.sending at hsending
  dsimp only at hsending
  split at hsending
  · rename_i htotal
    cases hsending
    refine ⟨⟨henters, hready, fun _ _ _ => hall.resolve_right (by omega)⟩, fun hret => ?_⟩
    exact absurd hret neg_eagain
  · split at hsending
    · cases hsending
    · cases hsending
      refine ⟨⟨henters, hready, fun _ _ hleft => hall.resolve_right fun hle => hleft ?_⟩, ?_⟩
      · show (contents (s.pendingBl.consume v.total).buffers).length = 0
        rw [Bufferlist.contents_consume, List.length_drop]
        exact Nat.sub_eq_zero_of_le hle
      · intro hret
        dsimp only at hret ⊢
        by_contra hleft
        split at hret
        · omega
        · exact absurd hret neg_eagain

/-- A socket that `submit` leaves with unsent bytes is in the list, and its caller is told so. -/
theorem submit_serves {out : SendOutcome} (hready : t.cluster.Ready)
    (hsubmit : s.submit worker o t post = some out) :
    ServesCall worker o s t out.socket out.side ∧
      (0 ≤ out.ret → out.socket.pendingBl.length = 0) := by
  unfold Socket.submit at hsubmit
  split at hsubmit
  · rename_i herror
    cases hsubmit
    refine ⟨.keeps hready rfl (flagged_of_error herror), fun hret => ?_⟩
    dsimp only at hret
    omega
  · split at hsubmit
    · rename_i hnone
      cases hsubmit
      exact ⟨.keeps hready rfl fun _ _ hleft => absurd hnone hleft, fun _ => hnone⟩
    · rename_i hpos
      split at hsubmit
      · cases hsubmit
      · rename_i v hloop
        obtain ⟨henters, hready', hall⟩ := submitLoop_enters _ (by exact hready) hloop
        rw [Nat.zero_add, Nat.zero_add] at hall
        exact sending_serves hready' henters hpos hall hsubmit

theorem send_serves {bl : Bufferlist} {out : SendOutcome} (hready : t.cluster.Ready)
    (hflagged : s.Flagged) (hsend : s.send worker o t bl post = some out) :
    ServesCall worker o s t out.socket out.side := by
  unfold Socket.send at hsend
  split at hsend
  · cases hsend
    exact .keeps hready rfl hflagged
  · split at hsend
    · cases hsend
      exact .keeps hready rfl hflagged
    · split at hsend
      · cases hsend
      · dsimp only at hsend
        split at hsend
        · rename_i hdown
          cases hsend
          rw [Bool.not_eq_true'] at hdown
          exact .keeps hready rfl (flagged_of_not_connected hdown)
        · split at hsend
          · cases hsend
          · rename_i hsubmit
            cases hsend
            obtain ⟨hserves, -⟩ := submit_serves hready hsubmit
            exact ⟨hserves.enters, hserves.ready, hserves.flagged⟩

theorem activate_serves {out : SendOutcome} (hready : t.cluster.Ready) (hflagged : s.Flagged)
    (hactivate : s.activate worker o t env = some out) :
    ServesCall worker o s t out.socket out.side := by
  unfold Socket.activate at hactivate
  split at hactivate
  · cases hactivate
    exact .keeps hready rfl hflagged
  · split at hactivate
    · cases hactivate
      exact .keeps hready rfl hflagged
    · dsimp only at hactivate
      split at hactivate
      · cases hactivate
        exact .keeps hready rfl hflagged
      · split at hactivate
        · cases hactivate
        · rename_i hsubmit
          cases hactivate
          obtain ⟨hserves, -⟩ := submit_serves hready hsubmit
          exact ⟨hserves.enters, hserves.ready, hserves.flagged⟩

theorem reply_flagged (s : Socket) (env : ConnEnv) :
    (s.reply env).1.pending = s.pending ∧ (s.Flagged → (s.reply env).1.Flagged) := by
  obtain ⟨hreply, -⟩ | ⟨hreply, -⟩ := reply_cases s env
  · rw [hreply]
    exact ⟨rfl, fun _ => flagged_fault s⟩
  · rw [hreply]
    exact ⟨rfl, fun hflagged => hflagged⟩

theorem handleReceived_serves {recv : ℤ × IBSYNMsg} {out : ConnOutcome} (hready : t.cluster.Ready)
    (hflagged : s.Flagged) (hhandle : s.handleReceived worker o t recv env = some out) :
    ServesCall worker o s t out.socket out.side := by
  unfold Socket.handleReceived at hhandle
  dsimp only at hhandle
  split at hhandle
  · cases hhandle
    split
    · exact .keeps hready rfl (flagged_fault _)
    · exact .keeps hready rfl hflagged
  · split at hhandle
    · cases hhandle
      exact .keeps hready rfl (flagged_fault _)
    · split at hhandle
      · split at hhandle
        · cases hhandle
        · rename_i a hactivate
          split at hhandle
          · cases hhandle
          · cases hhandle
            have hserves := activate_serves hready (by exact hflagged) hactivate
            obtain ⟨hpending, hreply⟩ := reply_flagged a.socket.notify env
            have hserves' : ServesCall worker o s t a.socket a.side :=
              ⟨hserves.enters, hserves.ready, hserves.flagged⟩
            exact hserves'.andThen hpending hreply
      · split at hhandle
        · split at hhandle
          · cases hhandle
            exact .keeps hready rfl hflagged
          · split at hhandle
            · cases hhandle
            · rename_i a hactivate
              split at hhandle
              · cases hhandle
              · cases hhandle
                have hserves := activate_serves hready (by exact hflagged) hactivate
                obtain ⟨hpending, hreply⟩ := reply_flagged a.socket env
                have hserves' : ServesCall worker o s t a.socket a.side :=
                  ⟨hserves.enters, hserves.ready, hserves.flagged⟩
                exact hserves'.andThen hpending hreply
        · split at hhandle
          · cases hhandle
          · rename_i hsubmit
            cases hhandle
            obtain ⟨hserves, -⟩ := submit_serves hready hsubmit
            exact ⟨hserves.enters, hserves.ready, hserves.flagged⟩

end Calls

/-! ## Runs -/

namespace ConnRun

/-- What the steps keep. -/
structure Kept (worker : ℕ) (r : ConnRun) : Prop where
  ready : r.side.cluster.Ready
  nodup : (r.side.pendingSentConns worker).Nodup
  mem_iff : ∀ o, o ∈ r.side.pendingSentConns worker ↔
    ∃ s, r.sockets o = some s ∧ s.pending = true
  flagged : ∀ o s, r.sockets o = some s → s.Flagged

variable {worker o : ℕ} {r r' : ConnRun} {s s' : Socket} {side : TxSide}

theorem Kept.queued (h : r.Kept worker) : r.Queued worker where
  nodup := h.nodup
  mem_iff := h.mem_iff
  unsent o s hs hconnected herror hleft :=
    (h.mem_iff o).mpr ⟨s, hs, h.flagged o s hs hconnected herror hleft⟩

theorem Kept.of_fresh (h : r.Fresh worker) : r.Kept worker where
  ready := h.ready
  nodup := by rw [h.pendingSentConns]; exact List.nodup_nil
  mem_iff o := by
    rw [h.pendingSentConns, h.sockets]
    exact iff_of_false List.not_mem_nil fun ⟨_, hnone, _⟩ => by cases hnone
  flagged o s hs := by
    rw [h.sockets] at hs
    cases hs

/-- One socket changes, and its place in the list agrees with its flag. -/
theorem Kept.moved (h : r.Kept worker) (hready : side.cluster.Ready) (hflagged : s'.Flagged)
    (hnodup : (side.pendingSentConns worker).Nodup)
    (hself : o ∈ side.pendingSentConns worker ↔ s'.pending = true)
    (hothers : ∀ i, i ≠ o →
      (i ∈ side.pendingSentConns worker ↔ i ∈ r.side.pendingSentConns worker)) :
    (r.after o s' side).Kept worker where
  ready := hready
  nodup := hnodup
  mem_iff i := by
    show i ∈ side.pendingSentConns worker ↔
      ∃ s, Function.update r.sockets o (some s') i = some s ∧ s.pending = true
    by_cases hi : i = o
    · rw [hi, Function.update_self, hself]
      constructor
      · intro hpending
        exact ⟨s', rfl, hpending⟩
      · rintro ⟨_, hs, hpending⟩
        cases hs
        exact hpending
    · rw [Function.update_of_ne hi, hothers i hi]
      exact h.mem_iff i
  flagged i s hs := by
    change Function.update r.sockets o (some s') i = some s at hs
    by_cases hi : i = o
    · rw [hi, Function.update_self] at hs
      cases hs
      exact hflagged
    · rw [Function.update_of_ne hi] at hs
      exact h.flagged i s hs

/-- A call on a socket. -/
theorem Kept.after (h : r.Kept worker) (hs : r.sockets o = some s)
    (hserves : ServesCall worker o s r.side s' side) : (r.after o s' side).Kept worker := by
  have hmem : o ∈ r.side.pendingSentConns worker ↔ s.pending = true := by
    rw [h.mem_iff o, hs]
    constructor
    · rintro ⟨_, heq, hpending⟩
      cases heq
      exact hpending
    · intro hpending
      exact ⟨s, rfl, hpending⟩
  obtain ⟨henters, hready, hflagged⟩ := hserves
  generalize hpending : s'.pending = pending at henters
  cases henters with
  | kept hlist =>
      refine h.moved hready hflagged (by rw [hlist]; exact h.nodup) ?_ fun i _ => by rw [hlist]
      rw [hlist, hmem, hpending]
  | entered hclear hlist =>
      have hnot : o ∉ r.side.pendingSentConns worker := by
        rw [hmem, hclear]
        exact Bool.false_ne_true
      refine h.moved hready hflagged ?_ ?_ fun i hi => ?_
      · rw [hlist]
        exact List.nodup_append.mpr ⟨h.nodup, List.nodup_singleton o, fun i hi j hj => by
          rw [List.mem_singleton.mp hj]
          exact fun heq => hnot (heq ▸ hi)⟩
      · rw [hlist, hpending]
        exact iff_of_true (List.mem_append_right _ List.mem_cons_self) rfl
      · rw [hlist, List.mem_append, List.mem_singleton]
        exact or_iff_left hi

/-- The tx side changes outside of the list. -/
theorem Kept.onSide (h : r.Kept worker) (hready : side.cluster.Ready)
    (hlist : side.pendingSentConns worker = r.side.pendingSentConns worker) :
    Kept worker { r with side := side } where
  ready := hready
  nodup := by rw [hlist]; exact h.nodup
  mem_iff o := by rw [hlist]; exact h.mem_iff o
  flagged := h.flagged

/-- The socket at the front submits, and is entered again or has its flag cleared. -/
theorem Kept.resubmit (h : r.Kept worker) {conns : List ℕ} {post : PostResult} {out : SendOutcome}
    (hlist : r.side.pendingSentConns worker = o :: conns) (hs : r.sockets o = some s)
    (hsubmit : s.submit worker o (r.side.setPendingSentConns worker conns) post = some out) :
    (r.after o out.socket ((out.side.setPendingSentConns worker
      (out.side.pendingSentConns worker ++ [o])).makePendingWorker worker)).Kept worker ∧
    ∀ s', s'.pending = false → s'.Flagged → (r.after o s' out.side).Kept worker := by
  have hpending : s.pending = true := by
    obtain ⟨s1, heq, hpending⟩ := (h.mem_iff o).mp (by rw [hlist]; exact List.mem_cons_self)
    rw [hs] at heq
    cases heq
    exact hpending
  have hnodup := h.nodup
  rw [hlist, List.nodup_cons] at hnodup
  have hothers (i : ℕ) (hi : i ≠ o) : i ∈ conns ↔ i ∈ r.side.pendingSentConns worker := by
    rw [hlist, List.mem_cons]
    exact (or_iff_right hi).symm
  obtain ⟨⟨henters, hready, hflagged⟩, -⟩ := submit_serves (by exact h.ready) hsubmit
  -- the flag is set all the time, so that `get_reged_mem` does not enter the socket
  have hkept : out.socket.pending = true ∧ out.side.pendingSentConns worker = conns := by
    generalize out.socket.pending = pending at henters
    cases henters with
    | kept heq => exact ⟨hpending, heq.trans (Function.update_self _ _ _)⟩
    | entered hclear =>
        rw [hpending] at hclear
        cases hclear
  constructor
  · obtain ⟨hcluster, -, hconns, -⟩ := makePendingWorker_eq (out.side.setPendingSentConns worker
      (out.side.pendingSentConns worker ++ [o])) worker
    have hagain : ((out.side.setPendingSentConns worker (out.side.pendingSentConns worker ++
        [o])).makePendingWorker worker).pendingSentConns worker = conns ++ [o] := by
      rw [hconns, hkept.2]
      exact Function.update_self _ _ _
    refine h.moved (by rw [hcluster]; exact hready) hflagged ?_ ?_ fun i hi => ?_
    · rw [hagain]
      exact List.nodup_append.mpr ⟨hnodup.2, List.nodup_singleton o, fun i hi j hj => by
        rw [List.mem_singleton.mp hj]
        exact fun heq => hnodup.1 (heq ▸ hi)⟩
    · rw [hagain, hkept.1]
      exact iff_of_true (List.mem_append_right _ List.mem_cons_self) rfl
    · rw [hagain, List.mem_append, List.mem_singleton, or_iff_left hi]
      exact hothers i hi
  · intro s' hclear hflagged'
    refine h.moved hready hflagged' ?_ ?_ fun i hi => ?_
    · rw [hkept.2]
      exact hnodup.2
    · rw [hkept.2, hclear]
      exact iff_of_false hnodup.1 Bool.false_ne_true
    · rw [hkept.2]
      exact hothers i hi

/-- `handle_pending_message`: a socket is out of the list only while it submits. -/
theorem Kept.handlePendingMessage (posts : List PostResult) (h : r.Kept worker)
    (hhandle : r.handlePendingMessage worker posts = some r') : r'.Kept worker := by
  induction posts generalizing r with
  | nil =>
      rw [ConnRun.handlePendingMessage] at hhandle
      split at hhandle
      · cases hhandle
        exact h.onSide (by rw [notifyPendingWorkers_cluster]; exact h.ready)
          (by rw [notifyPendingWorkers_pendingSentConns])
      · cases hhandle
  | cons post posts ih =>
      rw [ConnRun.handlePendingMessage] at hhandle
      split at hhandle
      · cases hhandle
        exact h.onSide (by rw [notifyPendingWorkers_cluster]; exact h.ready)
          (by rw [notifyPendingWorkers_pendingSentConns])
      · rename_i o conns hlist
        dsimp only at hhandle
        split at hhandle
        · cases hhandle
        · rename_i s hs
          split at hhandle
          · cases hhandle
          · rename_i out hsubmit
            obtain ⟨hagain, hdone⟩ := h.resubmit hlist hs hsubmit
            split at hhandle
            · split at hhandle
              · cases hhandle
                exact hagain
              · refine ih ?_ hhandle
                exact hdone _ rfl (flagged_of_error (show econnreset ≠ 0 by decide))
            · rename_i hret
              obtain ⟨-, hempty⟩ := submit_serves (by exact h.ready) hsubmit
              have hnone := hempty (Int.not_lt.mp hret)
              refine ih ?_ hhandle
              exact hdone _ rfl fun _ _ hleft => absurd hnone hleft

theorem Kept.construct (h : r.Kept worker) (hnone : r.sockets o = none) (hs : s.Unused) :
    Kept worker { r with sockets := Function.update r.sockets o (some s) } := by
  refine h.moved h.ready (flagged_of_not_connected hs.connected) h.nodup ?_ fun _ _ => Iff.rfl
  rw [h.mem_iff o, hnone, hs.pending]
  exact iff_of_false (fun ⟨_, heq, _⟩ => by cases heq) Bool.false_ne_true

theorem Kept.destruct (h : r.Kept worker) (o : ℕ) :
    Kept worker ⟨r.side.removePendingConn worker o, Function.update r.sockets o none⟩ := by
  have hlist : (r.side.removePendingConn worker o).pendingSentConns worker =
      (r.side.pendingSentConns worker).filter (· ≠ o) := Function.update_self _ _ _
  refine ⟨h.ready, ?_, fun i => ?_, fun i s hs => ?_⟩
  · rw [hlist]
    exact h.nodup.filter _
  · rw [hlist, List.mem_filter, decide_eq_true_iff]
    dsimp only
    by_cases hi : i = o
    · rw [hi, Function.update_self]
      exact iff_of_false (fun hmem => hmem.2 rfl) fun ⟨_, hnone, _⟩ => by cases hnone
    · rw [Function.update_of_ne hi, and_iff_left hi]
      exact h.mem_iff i
  · dsimp only at hs
    by_cases hi : i = o
    · rw [hi, Function.update_self] at hs
      cases hs
    · rw [Function.update_of_ne hi] at hs
      exact h.flagged i s hs

theorem Kept.step {a : ConnAction} (h : r.Kept worker) (hstep : r.step worker a = some r') :
    r'.Kept worker := by
  cases a with
  | construct o s =>
      simp only [ConnRun.step] at hstep
      split at hstep
      · rename_i hguard
        cases hstep
        exact h.construct hguard.1 hguard.2
      · cases hstep
  | destruct o =>
      cases hstep
      exact h.destruct o
  | send o bl post =>
      simp only [ConnRun.step] at hstep
      split at hstep
      · cases hstep
      · rename_i s hs
        obtain ⟨out, hsend, rfl⟩ := Option.map_eq_some_iff.mp hstep
        exact h.after hs (send_serves h.ready (h.flagged o s hs) hsend)
  | submit o post =>
      simp only [ConnRun.step] at hstep
      split at hstep
      · cases hstep
      · rename_i s hs
        obtain ⟨out, hsubmit, rfl⟩ := Option.map_eq_some_iff.mp hstep
        exact h.after hs (submit_serves h.ready hsubmit).1
  | activate o env =>
      simp only [ConnRun.step] at hstep
      split at hstep
      · cases hstep
      · rename_i s hs
        obtain ⟨out, hactivate, rfl⟩ := Option.map_eq_some_iff.mp hstep
        exact h.after hs (activate_serves h.ready (h.flagged o s hs) hactivate)
  | handleConnection o injected scratch read env =>
      simp only [ConnRun.step] at hstep
      split at hstep
      · cases hstep
      · rename_i s hs
        obtain ⟨out, hhandle, rfl⟩ := Option.map_eq_some_iff.mp hstep
        exact h.after hs (handleReceived_serves h.ready (h.flagged o s hs) hhandle)
  | handlePendingMessage posts => exact h.handlePendingMessage posts hstep
  | fault o =>
      simp only [ConnRun.step] at hstep
      split at hstep
      · cases hstep
      · rename_i s hs
        cases hstep
        exact h.after hs (.keeps h.ready rfl (flagged_fault s))
  | shutdown o =>
      simp only [ConnRun.step] at hstep
      split at hstep
      · cases hstep
      · rename_i s hs
        cases hstep
        exact h.after hs (.keeps h.ready rfl (flagged_of_error (show econnreset ≠ 0 by decide)))
  | others side =>
      simp only [ConnRun.step] at hstep
      split at hstep
      · rename_i hguard
        cases hstep
        exact h.onSide hguard.1 hguard.2
      · cases hstep

/-- **Unsent bytes are always queued for a retry**, whether the posts fail or not. -/
theorem queued_of_reached (hreached : (connMachine worker).Reached r) : r.Queued worker :=
  (hreached.invariant (Kept worker) (fun _ hfresh => .of_fresh hfresh)
    fun _ _ _ hkept _ hstep => hkept.step hstep).queued

/-- No socket, and one chunk of two bytes. -/
def oneChunkWorker : ConnRun where
  side := ⟨⟨2, [.empty 100 2]⟩, 0, [], fun _ => []⟩
  sockets := fun _ => none

theorem fresh_oneChunkWorker : oneChunkWorker.Fresh 0 := ⟨by decide, rfl, fun _ => rfl⟩

/-- Three bytes are sent on one socket and one on another before the connections are up.  The first
takes the chunk and waits with its last byte; when the chunk is back it is the other's turn. -/
theorem queued_of_reached_twoSockets : ∃ r, (connMachine 0).Reached r ∧
    r.side.pendingSentConns 0 = [1] ∧ (r.sockets 1).map (·.pendingBl.length) = some 1 ∧
    (r.sockets 2).map (·.pendingBl.length) = some 0 ∧ r.Queued 0 := by
  have hrun : ((connMachine 0).replay (fun _ _ => True) oneChunkWorker
      [.construct 1 LinkRun.freshClient.socket, .construct 2 LinkRun.freshClient.socket,
        .send 1 ⟨[⟨[1, 2, 3], none⟩], by decide⟩ .posted,
        .send 2 ⟨[⟨[4], none⟩], by decide⟩ .posted,
        .handleConnection 1 false ⟨[], 0, []⟩ (.bytes (msgBytes quietSocket.peerMsg))
          LinkRun.willing,
        .handleConnection 2 false ⟨[], 0, []⟩ (.bytes (msgBytes quietSocket.peerMsg))
          LinkRun.willing,
        .handlePendingMessage [.posted],
        .others { oneChunkWorker.side with pendingSentConns := fun _ => [2, 1] },
        .handlePendingMessage [.posted, .posted]]).any
      (fun r => decide (r.side.pendingSentConns 0 = [1] ∧
        (r.sockets 1).map (·.pendingBl.length) = some 1 ∧
        (r.sockets 2).map (·.pendingBl.length) = some 0)) = true := by
    decide +kernel
  obtain ⟨r, hreplay, hr⟩ := (Option.any_eq_true _ _).mp hrun
  obtain ⟨hlist, hone, htwo⟩ := of_decide_eq_true hr
  have hreached : (connMachine 0).Reached r := .of_replay (.start fresh_oneChunkWorker) hreplay
  exact ⟨r, hreached, hlist, hone, htwo, queued_of_reached hreached⟩

end ConnRun

end HwAsync.Rdma
