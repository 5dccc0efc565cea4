/-
# When a dead queue pair is deleted

A tx chunk comes back through the completion of its work request, and a deleted
queue pair completes nothing any more.  `polling` therefore keeps dead queue pairs
until an iteration finds both completion queues empty.  Empty queues do not mean
that the adapter is done: the run theorem says what the adapter and the sockets
must have done by then.
-/

import HwAsync.Rdma.Polling

namespace HwAsync.Rdma

open HwAsync.Lib HwAsync.Infiniband

namespace PollRun

/-- The iteration of `polling` is on its way to the idle branch: the tx poll came
back empty, and there is nothing to receive. -/
def closing (r : PollRun) : Prop :=
  r.phase = .idle ∨ (r.phase = .txPolled true ∧ r.rxCq = [])

instance (r : PollRun) : Decidable r.closing := inferInstanceAs (Decidable (_ ∨ _))

/-- A tx chunk posted on `q` has no polled completion yet. -/
def unsettled (r : PollRun) (q : QpObject) : Prop :=
  ∃ w ∈ r.outstanding, w.qp = q ∧ w.isChunk = true

instance (r : PollRun) (q : QpObject) : Decidable (r.unsettled q) :=
  inferInstanceAs (Decidable (∃ w ∈ r.outstanding, _))

/-- The queue pair registered under `n` has all its tx chunks back. -/
def retirable (r : PollRun) (n : UInt32) : Prop :=
  match r.dispatcher.qpConns n with
  | none => True
  | some it => ¬ r.unsettled it.qp

instance (r : PollRun) (n : UInt32) : Decidable (r.retirable n) := by
  unfold retirable
  split <;> infer_instance

/-- When the tx poll comes back empty and there is nothing to receive, the adapter
has completed every chunk of the retired queue pairs; and from then until the
idle branch no queue pair with chunks away is retired, and nothing is posted on a
retired one. -/
def adapterDone (r : PollRun) : PollAction → Prop
  | .pollTx ok => ok = true → r.txCq = [] → r.rxCq = [] →
      ∀ w ∈ r.sendQueue, w.isChunk = true → w.qp ∉ r.dispatcher.deadQueuePairs
  | .post o _ =>
      match r.sockets o with
      | none => True
      | some c => r.closing → c.qp ∉ r.dispatcher.deadQueuePairs
  | .destroy o =>
      match r.sockets o with
      | none => True
      | some c => r.closing → r.retirable c.socket.myMsg.qpn
  | .lastWqe qpn => r.closing → r.retirable qpn
  | _ => True

instance (r : PollRun) (a : PollAction) : Decidable (r.adapterDone a) := by
  unfold adapterDone
  split
  · exact @instDecidableForall _ _ _ (@instDecidableForall _ _ _ (@instDecidableForall _ _ _
      (@List.decidableBAll _ _ (fun _ => @instDecidableForall _ _ _ inferInstance) _)))
  · split
    · exact instDecidableTrue
    · exact @instDecidableForall _ _ _ inferInstance
  · split
    · exact instDecidableTrue
    · exact @instDecidableForall _ _ _ inferInstance
  · exact @instDecidableForall _ _ _ inferInstance
  · exact instDecidableTrue

/-- No tx chunk was lost with its queue pair. -/
def DeletedSafely (r : PollRun) : Prop := r.lost = []

/-- What every run maintains as long as the adapter is done in time. -/
structure Settled (r : PollRun) : Prop where
  safely : r.DeletedSafely
  settled : r.closing → ∀ w ∈ r.outstanding, w.isChunk = true →
    w.qp ∉ r.dispatcher.deadQueuePairs

variable {r t : PollRun}

/-- A step that adds no chunk, retires nothing and does not bring the idle branch
closer. -/
theorem Settled.of_quiet (h : r.Settled) (hlost : t.lost = r.lost)
    (hclosing : t.closing → r.closing)
    (houtstanding : ∀ w ∈ t.outstanding, w.isChunk = true → w ∈ r.outstanding)
    (hdead : t.dispatcher.deadQueuePairs = r.dispatcher.deadQueuePairs) : t.Settled where
  safely := hlost.trans h.safely
  settled := fun hclose w hw hchunk => by
    rw [hdead]
    exact h.settled (hclosing hclose) w (houtstanding w hw hchunk) hchunk

/-- Retiring a queue pair that has all its chunks back, or outside of `closing`. -/
theorem Settled.retire (h : r.Settled) {n : UInt32} {sockets : ℕ → Option Conn}
    {stolen : List (ℕ × ℕ)} (hok : r.closing → r.retirable n) :
    Settled { r with
      sockets := sockets
      dispatcher := r.dispatcher.eraseQpnLockless n
      stolen := stolen } where
  safely := h.safely
  settled := fun hclose w hw hchunk => by
    have hsettled := h.settled hclose w hw hchunk
    rcases r.dispatcher.eraseQpnLockless_cases n with ⟨-, herase⟩ | ⟨it, hit, -, hdead, -⟩
    · rw [herase]
      exact hsettled
    · rw [hdead, List.mem_append, List.mem_singleton]
      rintro (hold | hqp)
      · exact hsettled hold
      · have hretirable := hok hclose
        rw [retirable, hit] at hretirable
        exact hretirable ⟨w, hw, hqp, hchunk⟩

/-- The idle branch loses nothing. -/
theorem Settled.idle (h : r.Settled) (hphase : r.phase = .idle) :
    (r.outstanding.filter fun w => w.qp ∈ r.dispatcher.doomed ∧ w.isChunk) = [] := by
  rw [List.filter_eq_nil_iff]
  intro w hw hdoomed
  obtain ⟨hmem, hchunk⟩ := of_decide_eq_true hdoomed
  exact h.settled (.inl hphase) w hw hchunk (r.dispatcher.doomed_subset hmem)

/-- Posting: outside of `closing`, or on a queue pair that is not retired. -/
theorem Settled.post (h : r.Settled) {o : ℕ} {txBuffers : List Chunk}
    (hok : r.adapterDone (.post o txBuffers)) (hstep : r.step (.post o txBuffers) = some t) :
    t.Settled := by
  simp only [PollRun.step] at hstep
  simp only [adapterDone] at hok
  split at hstep
  · cases hstep
  · rename_i c hc
    rw [hc] at hok
    split at hstep
    · cases hstep
      exact
        { safely := h.safely
          settled := fun hclose w hw hchunk => by
            simp only [outstanding, setConn, List.mem_append] at hw
            rcases hw with (hw | hw) | hw
            · exact h.settled hclose w (List.mem_append_left _ hw) hchunk
            · obtain ⟨chunk, -, rfl⟩ := List.mem_map.mp hw
              exact hok hclose
            · exact h.settled hclose w (List.mem_append_right _ hw) hchunk }
    · cases hstep

/-- An empty tx poll with nothing to receive starts `closing`, with the adapter done. -/
theorem Settled.pollTx (h : r.Settled) {ok : Bool} (hok : r.adapterDone (.pollTx ok))
    (hstep : r.step (.pollTx ok) = some t) : t.Settled := by
  simp only [PollRun.step] at hstep
  split at hstep
  · split at hstep
    · rename_i hsucceeds
      cases hstep
      exact
        { safely := h.safely
          settled := fun hclose w hw hchunk => by
            rcases hclose with hidle | ⟨hempty, hrx⟩
            · cases hidle
            · have htx : r.txCq = [] := by simpa [maxCompletions] using hempty
              simp only [outstanding, htx, List.drop_nil, List.map_nil, List.append_nil] at hw
              exact hok hsucceeds htx hrx w hw hchunk }
    · cases hstep
      refine h.of_quiet rfl ?_ (fun _ hw _ => hw) rfl
      rintro (hidle | ⟨hempty, -⟩) <;> cases ‹_›
  · cases hstep

/-- The rx poll goes on to the idle branch only when nothing was received. -/
theorem Settled.pollRx (h : r.Settled) {ok : Bool} (hstep : r.step (.pollRx ok) = some t) :
    t.Settled := by
  simp only [PollRun.step] at hstep
  split at hstep
  · rename_i empty hphase
    split at hstep
    · cases hstep
      refine h.of_quiet rfl (fun hclose => ?_) (fun _ hw _ => hw) rfl
      cases hboth : empty && (r.rxCq.take maxCompletions).isEmpty with
      | true =>
          simp only [Bool.and_eq_true, List.isEmpty_iff] at hboth
          refine .inr ⟨by rw [hphase, hboth.1], ?_⟩
          simpa [maxCompletions] using hboth.2
      | false =>
          rcases hclose with hidle | ⟨htop, -⟩ <;> simp [hboth] at *
    · cases hstep
      refine h.of_quiet rfl ?_ (fun _ hw _ => hw) rfl
      rintro (hidle | ⟨hempty, -⟩) <;> cases ‹_›
  · cases hstep

/-- The step lemma. -/
theorem Settled.step {a : PollAction} (h : r.Settled) (hok : r.adapterDone a)
    (hstep : r.step a = some t) : t.Settled := by
  cases a with
  | construct s =>
      simp only [PollRun.step] at hstep
      split at hstep
      · cases hstep
      · split at hstep
        · cases hstep
        · rename_i dispatcher hregister
          cases hstep
          obtain ⟨-, -, hdead, -⟩ := Dispatcher.registerQp_eq hregister
          exact h.of_quiet rfl id (fun _ hw _ => hw) hdead
  | establish o =>
      simp only [PollRun.step] at hstep
      split at hstep
      · cases hstep
      · cases hstep
        exact h.of_quiet rfl id (fun _ hw _ => hw) rfl
  | beginSubmit o =>
      simp only [PollRun.step] at hstep
      split at hstep
      · cases hstep
      · split at hstep
        · cases hstep
        · cases hstep
          exact h.of_quiet rfl id (fun _ hw _ => hw) rfl
  | post o txBuffers => exact h.post hok hstep
  | close o posted =>
      simp only [PollRun.step] at hstep
      split at hstep
      · cases hstep
      · cases hstep
        refine h.of_quiet rfl id (fun w hw hchunk => ?_) rfl
        simp only [outstanding, setConn, List.mem_append] at hw ⊢
        rcases hw with (hw | hw) | hw
        · exact .inl hw
        · -- the disconnect message carries no chunk
          split at hw
          · obtain rfl := List.mem_singleton.mp hw
            cases hchunk
          · cases hw
        · exact .inr hw
  | destroy o =>
      simp only [PollRun.step] at hstep
      simp only [adapterDone] at hok
      split at hstep
      · cases hstep
      · rename_i c hc
        rw [hc] at hok
        split at hstep
        · cases hstep
        · cases hstep
          exact h.retire hok
  | lastWqe qpn =>
      simp only [PollRun.step] at hstep
      split at hstep
      · cases hstep
        exact h
      · cases hstep
        exact h.retire hok
  | complete i success =>
      simp only [PollRun.step] at hstep
      split at hstep
      · cases hstep
      · rename_i w₀ hw₀
        cases hstep
        refine h.of_quiet rfl id (fun w hw _ => ?_) rfl
        simp only [outstanding, List.map_append, List.mem_append] at hw ⊢
        rcases hw with hw | hw | hw
        · exact .inl (List.mem_of_mem_eraseIdx hw)
        · exact .inr hw
        · simp only [List.map_cons, List.map_nil, List.mem_singleton] at hw
          rw [hw]
          exact .inl (List.mem_of_getElem? hw₀)
  | receive c =>
      cases hstep
      refine h.of_quiet rfl ?_ (fun _ hw _ => hw) rfl
      rintro (hidle | ⟨-, hempty⟩)
      · exact .inl hidle
      · simp at hempty
  | pollTx ok => exact h.pollTx hok hstep
  | pollRx ok => exact h.pollRx hstep
  | idle =>
      simp only [PollRun.step] at hstep
      split at hstep
      · rename_i hphase
        cases hstep
        exact
          { safely := by
              rw [DeletedSafely, h.idle hphase, List.append_nil]
              exact h.safely
            settled := by rintro (hidle | ⟨hempty, -⟩) <;> cases ‹_› }
      · cases hstep

/-- **Dead queue pairs are deleted safely** in every run in which the adapter is
done in time. -/
theorem deletedSafely_of_adapterDone {r : PollRun}
    (hreached : pollMachine.ReachedUnder adapterDone r) : r.DeletedSafely := by
  have hsettled : r.Settled :=
    hreached.invariant Settled
      (fun _ (h : Fresh _) =>
        { safely := h.lost
          settled := fun _ w hw _ => by simp [outstanding, h.sendQueue, h.txCq] at hw })
      fun _ _ _ h hok hstep => h.step hok hstep
  exact hsettled.safely

/-- The condition cannot be dropped at the end: an idle branch that finds a retired
queue pair with a chunk away loses the chunk. -/
theorem not_deletedSafely_of_unsettled {r t : PollRun} (hcounted : r.dispatcher.Counted)
    {q : QpObject} (hdead : q ∈ r.dispatcher.deadQueuePairs) (haway : r.unsettled q)
    (hstep : r.step .idle = some t) : ¬ t.DeletedSafely := by
  obtain ⟨w, hw, hqp, hchunk⟩ := haway
  simp only [PollRun.step] at hstep
  split at hstep
  · cases hstep
    intro hsafely
    have hfilter := (List.append_eq_nil_iff.mp hsafely).2
    rw [List.filter_eq_nil_iff] at hfilter
    refine hfilter w hw (decide_eq_true ⟨?_, hchunk⟩)
    rw [hcounted.doomed_eq, hqp]
    exact hdead
  · cases hstep

/-- A tx chunk of four bytes. -/
def oneTxChunk : Chunk := .empty 100 4

/-- The socket posts a chunk, gets it back and is destroyed: its queue pair is deleted
safely. -/
theorem deletedSafely_of_adapterDone_completed :
    ∃ r : PollRun, r.deleted = [⟨0, 5, false⟩] ∧ r.DeletedSafely := by
  have hrun : (pollMachine.replay adapterDone freshRun
      [.construct (newSocket 5), .establish 0, .beginSubmit 0, .post 0 [oneTxChunk],
        .complete 0 true, .pollTx true, .pollRx true, .destroy 0,
        .pollTx true, .pollRx true, .idle]).any
      (fun r => decide (r.deleted = [⟨0, 5, false⟩])) = true := by
    decide +kernel
  obtain ⟨r, hreplay, hr⟩ := (Option.any_eq_true _ _).mp hrun
  exact ⟨r, of_decide_eq_true hr,
    deletedSafely_of_adapterDone (.of_replay (.start fresh_freshRun) hreplay)⟩

/-- The socket is destroyed while its chunk is still on the send queue.  Both
completion queues are empty for a moment, the queue pair is deleted, and the chunk
never comes back. -/
theorem not_deletedSafely_destroyed :
    ∃ r : PollRun, pollMachine.Reached r ∧
      r.lost = [⟨⟨0, 5, false⟩, .chunk oneTxChunk⟩] ∧ ¬ r.DeletedSafely := by
  have hrun : (pollMachine.replay (fun _ _ => True) freshRun
      [.construct (newSocket 5), .establish 0, .beginSubmit 0, .post 0 [oneTxChunk],
        .destroy 0, .pollTx true, .pollRx true, .idle]).any
      (fun r => decide (r.lost = [⟨⟨0, 5, false⟩, .chunk oneTxChunk⟩])) = true := by
    decide +kernel
  obtain ⟨r, hreplay, hr⟩ := (Option.any_eq_true _ _).mp hrun
  have hlost := of_decide_eq_true hr
  refine ⟨r, .of_replay (.start fresh_freshRun) hreplay, hlost, fun hsafely => ?_⟩
  rw [DeletedSafely, hlost] at hsafely
  cases hsafely

end PollRun

end HwAsync.Rdma
