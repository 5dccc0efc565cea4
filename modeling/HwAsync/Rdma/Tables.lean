/-
# The tables of queue pairs while they change

Retiring a queue pair is not one step to somebody who reads the counters without the lock: first the
dead ones are counted, then the queue pair changes its table, then the registered ones are counted.
The steps here are these; taken together they are the ones of `Dispatcher`.

This is the run as the thread with the lock sees it, whichever thread that is.  The polling thread
tests the counters one after the other, and two flags keep what happened behind its back since it saw
that no queue pair was dead: whether one became a dead one, and whether one was registered that it did
not count.
-/

import Mathlib.Data.FinEnum
import Mathlib.Data.Set.Card
import HwAsync.Rdma.Polling

namespace HwAsync.Rdma

namespace Dispatcher

/-! ## The parts of registering and retiring -/

def insertConn (qp : QpObject) (csi : ℕ) (d : Dispatcher) : Dispatcher :=
  { d with qpConns := Function.update d.qpConns qp.number (some ⟨qp, csi⟩) }

def countConn (d : Dispatcher) : Dispatcher := { d with numQpConn := d.numQpConn + 1 }

def countDead (d : Dispatcher) : Dispatcher :=
  { d with numDeadQueuePair := d.numDeadQueuePair + 1 }

def pushDead (qp : QpObject) (d : Dispatcher) : Dispatcher :=
  { d with deadQueuePairs := d.deadQueuePairs ++ [qp] }

def eraseConn (qpn : UInt32) (d : Dispatcher) : Dispatcher :=
  { d with qpConns := Function.update d.qpConns qpn none }

def uncountConn (d : Dispatcher) : Dispatcher := { d with numQpConn := d.numQpConn - 1 }

/-- One round of the loop that deletes the dead queue pairs. -/
def deleteBack (d : Dispatcher) : Dispatcher :=
  { d with
    deadQueuePairs := d.deadQueuePairs.dropLast
    numDeadQueuePair := d.numDeadQueuePair - 1 }

/-- `register_qp` in two parts. -/
theorem registerQp_eq_countConn {d : Dispatcher} {qp : QpObject} (h : d.qpConns qp.number = none)
    (csi : ℕ) : d.registerQp qp csi = some (d.insertConn qp csi).countConn := by
  rw [registerQp, if_pos h]
  rfl

/-- `erase_qpn_lockless` in four parts. -/
theorem eraseQpnLockless_eq_uncountConn {d : Dispatcher} {qpn : UInt32} {it : Registered}
    (h : d.qpConns qpn = some it) :
    d.eraseQpnLockless qpn = ((d.countDead.pushDead it.qp).eraseConn qpn).uncountConn := by
  rw [eraseQpnLockless, h]
  rfl

theorem iterate_deleteBack (d : Dispatcher) (n : ℕ) :
    deleteBack^[n] d =
      { d with
        deadQueuePairs := d.deadQueuePairs.take (d.deadQueuePairs.length - n)
        numDeadQueuePair := d.numDeadQueuePair - n } := by
  induction n with
  | zero =>
    rw [Nat.sub_zero, List.take_length]
    rfl
  | succ n ih =>
    have htake : (d.deadQueuePairs.take (d.deadQueuePairs.length - n)).dropLast =
        d.deadQueuePairs.take (d.deadQueuePairs.length - (n + 1)) := by
      rw [List.dropLast_eq_take, List.take_take, List.length_take]
      congr 1
      omega
    rw [Function.iterate_succ_apply', ih, deleteBack, htake]
    rfl

/-- The loop of the idle branch, taken as often as there are dead queue pairs. -/
theorem iterate_deleteBack_length {d : Dispatcher} (h : d.numDeadQueuePair ≠ 0) :
    deleteBack^[d.deadQueuePairs.length] d = d.deleteDead := by
  rw [iterate_deleteBack, deleteDead, if_neg h, Nat.sub_self, List.take_zero]

theorem insertConn_self (qp : QpObject) (csi : ℕ) (d : Dispatcher) :
    (d.insertConn qp csi).qpConns qp.number = some ⟨qp, csi⟩ := Function.update_self ..

theorem insertConn_of_ne {qp : QpObject} {n : UInt32} (hn : n ≠ qp.number) (csi : ℕ)
    (d : Dispatcher) : (d.insertConn qp csi).qpConns n = d.qpConns n := Function.update_of_ne hn ..

theorem eraseConn_self (qpn : UInt32) (d : Dispatcher) :
    (d.eraseConn qpn).qpConns qpn = none := Function.update_self ..

theorem eraseConn_of_ne {n qpn : UInt32} (hn : n ≠ qpn) (d : Dispatcher) :
    (d.eraseConn qpn).qpConns n = d.qpConns n := Function.update_of_ne hn ..

/-- The size of `qp_conns`. -/
noncomputable def size (d : Dispatcher) : ℕ := {n | d.qpConns n ≠ none}.ncard

theorem size_insertConn {d : Dispatcher} {qp : QpObject} (h : d.qpConns qp.number = none)
    (csi : ℕ) : (d.insertConn qp csi).size = d.size + 1 := by
  have hset : {n | (d.insertConn qp csi).qpConns n ≠ none} =
      insert qp.number {n | d.qpConns n ≠ none} := by
    ext n
    by_cases hn : n = qp.number
    · subst hn
      simp [insertConn]
    · simp [insertConn, hn]
  rw [size, hset, Set.ncard_insert_of_notMem]
  · rfl
  · simpa using h

theorem size_eraseConn {d : Dispatcher} {qpn : UInt32} (h : d.qpConns qpn ≠ none) :
    (d.eraseConn qpn).size + 1 = d.size := by
  have hset : {n | (d.eraseConn qpn).qpConns n ≠ none} = {n | d.qpConns n ≠ none} \ {qpn} := by
    ext n
    by_cases hn : n = qpn
    · subst hn
      simp [eraseConn]
    · simp [eraseConn, hn]
  rw [size, hset]
  exact Set.ncard_sdiff_singleton_add_one h

theorem size_eq_zero {d : Dispatcher} : d.size = 0 ↔ ∀ n, d.qpConns n = none := by
  rw [size, Set.ncard_eq_zero, Set.eq_empty_iff_forall_notMem]
  simp

end Dispatcher

/-! ## Where the threads are -/

/-- How far a thread is: it has the lock and is about to register a queue pair or to count it, to
look a number up, to move the queue pair, to erase its entry or to count again, to set `done`, or to
unlock.  An event of the adapter is looked up among the living. -/
inductive Task
  | idle
  | registering (number : UInt32) (csi : ℕ)
  | inserted
  | erasing (qpn : UInt32) (alive : Bool)
  | countedDead (qpn : UInt32) (it : Registered)
  | pushed (qpn : UInt32)
  | erased
  | stopping
  | unlocking
  deriving DecidableEq

/-- Where the polling thread is: before the polls; before it tests the counter of dead queue pairs,
takes the lock, or goes on deleting; before it tests the counter of the others and `done`; in
`handle_async_event`; or it has returned. -/
inductive ExitPhase
  | top
  | testDead
  | lockDead
  | deleting
  | testConn
  | testDone
  | async
  | returned
  deriving DecidableEq, Repr

/-- The polling thread has seen that no queue pair is dead. -/
def Window : ExitPhase → Prop
  | .testConn | .testDone => True
  | _ => False

instance : DecidablePred Window
  | .testConn | .testDone => inferInstanceAs (Decidable True)
  | .top | .testDead | .lockDead | .deleting | .async | .returned =>
      inferInstanceAs (Decidable False)

theorem Window.of_testDone {p : ExitPhase} (h : p = .testDone) : Window p := by
  rw [h]
  trivial

/-! ## The tables under the lock -/

/-- Between two changes of the tables, with both counters right. -/
def Task.Plain : Task → Prop
  | .inserted | .countedDead _ _ | .pushed _ | .erased => False
  | _ => True

/-- An entry is not counted yet. -/
def Task.uncounted : Task → ℕ
  | .inserted => 1
  | _ => 0

/-- An entry that is gone is still counted. -/
def Task.overcounted : Task → ℕ
  | .erased => 1
  | _ => 0

/-- A dead queue pair is counted that is not in its table yet. -/
def Task.announced : Task → ℕ
  | .countedDead _ _ => 1
  | _ => 0

theorem Task.Plain.balanced {t : Task} (h : t.Plain) :
    t.uncounted = 0 ∧ t.overcounted = 0 ∧ t.announced = 0 := by
  cases t with
  | inserted | countedDead | pushed | erased => exact h.elim
  | idle | registering | erasing | stopping | unlocking => exact ⟨rfl, rfl, rfl⟩

/-- The run as the thread sees it that has the lock: the tables with what it is doing to them, and
where the polling thread is. -/
structure Tables where
  dispatcher : Dispatcher
  task : Task
  phase : ExitPhase
  created : ℕ
  deleted : List QpObject
  moved : Bool
  added : Bool

namespace Tables

/-- The queue pairs that left `qp_conns`, by who created them. -/
def retired (s : Tables) : List ℕ :=
  (s.deleted ++ s.dispatcher.deadQueuePairs).map QpObject.creator

/-- What happens to the tables, and what the polling thread learns about them. -/
inductive Step (s : Tables) : Tables → Prop
  | plain {t : Task} (hfrom : s.task.Plain) (hto : t.Plain) : Step s { s with task := t }
  | insert {number : UInt32} {csi : ℕ} (hfrom : s.task = .registering number csi)
      (hfree : ¬ s.dispatcher.taken number) :
      Step s
        { s with
          dispatcher := s.dispatcher.insertConn ⟨s.created, number, false⟩ csi
          task := .inserted
          created := s.created + 1
          added := s.added || decide (s.phase = .testDone) }
  | count (hfrom : s.task = .inserted) :
      Step s { s with dispatcher := s.dispatcher.countConn, task := .unlocking }
  | find {qpn : UInt32} {it : Registered} (hfrom : s.task.Plain)
      (hentry : s.dispatcher.qpConns qpn = some it) :
      Step s { s with dispatcher := s.dispatcher.countDead, task := .countedDead qpn it }
  | push {qpn : UInt32} {it : Registered} (hfrom : s.task = .countedDead qpn it) :
      Step s
        { s with
          dispatcher := s.dispatcher.pushDead it.qp
          task := .pushed qpn
          moved := s.moved || decide (Window s.phase) }
  | erase {qpn : UInt32} (hfrom : s.task = .pushed qpn) :
      Step s { s with dispatcher := s.dispatcher.eraseConn qpn, task := .erased }
  | uncount (hfrom : s.task = .erased) :
      Step s { s with dispatcher := s.dispatcher.uncountConn, task := .unlocking }
  | delete {q : QpObject} (hfrom : s.task = .idle) (hphase : s.phase = .deleting)
      (hlast : s.dispatcher.deadQueuePairs.getLast? = some q) :
      Step s { s with dispatcher := s.dispatcher.deleteBack, deleted := s.deleted ++ [q] }
  | goOn {p : ExitPhase} (hphase : ¬ Window p) : Step s { s with phase := p }
  | noDead (hdead : s.dispatcher.numDeadQueuePair = 0 ∨ s.dispatcher.deadQueuePairs = []) :
      Step s { s with phase := .testConn, moved := false }
  | noConn (hphase : s.phase = .testConn) (hconn : s.dispatcher.numQpConn = 0) :
      Step s { s with phase := .testDone, added := decide (s.task = .inserted) }

/-- The counters are right but for the change in progress. -/
structure Accounted (s : Tables) : Prop where
  conns : s.dispatcher.numQpConn + s.task.uncounted = s.dispatcher.size + s.task.overcounted
  deads : s.dispatcher.numDeadQueuePair =
    s.dispatcher.deadQueuePairs.length + s.task.announced

/-- What the polling thread knows of the tables. -/
structure Known (s : Tables) : Prop where
  dead : Window s.phase → (s.moved = false ↔ s.dispatcher.deadQueuePairs = [])
  empty : s.phase = .testDone → s.added = false → ∀ n, s.dispatcher.qpConns n = none
  entry : s.phase = .testDone → s.added = true →
    s.moved = true ∨ ∃ n, s.dispatcher.qpConns n ≠ none

/-- Every queue pair has one place, but for the one that is being moved. -/
structure Placed (s : Tables) : Prop where
  found : ∀ n it, s.task = .countedDead n it → s.dispatcher.qpConns n = some it
  moving : ∀ n, s.task = .pushed n →
    s.dispatcher.qpConns n ≠ none ∧ s.dispatcher.deadQueuePairs ≠ []
  below : ∀ n it, s.dispatcher.qpConns n = some it → it.qp.creator < s.created
  retired_below : ∀ c ∈ s.retired, c < s.created
  injective : ∀ n it m it', s.dispatcher.qpConns n = some it →
    s.dispatcher.qpConns m = some it' → it.qp.creator = it'.qp.creator → n = m
  nodup : s.retired.Nodup
  apart : ∀ n it, s.dispatcher.qpConns n = some it → it.qp.creator ∈ s.retired →
    s.task = .pushed n

theorem Accounted.step {s t : Tables} (h : s.Accounted) (hstep : s.Step t)
    (hplaced : s.Placed) : t.Accounted := by
  obtain ⟨hconns, hdeads⟩ := h
  cases hstep with
  | plain hfrom hto =>
    obtain ⟨hu, ho, ha⟩ := hfrom.balanced
    obtain ⟨hu', ho', ha'⟩ := Task.Plain.balanced hto
    rw [hu, ho] at hconns
    rw [ha] at hdeads
    exact ⟨by rw [hu', ho']; exact hconns, by rw [ha']; exact hdeads⟩
  | insert hfrom hfree =>
    rename_i number csi
    have hnone : s.dispatcher.qpConns number = none := by
      by_contra hentry
      exact hfree (.inl hentry)
    rw [hfrom] at hconns hdeads
    refine ⟨?_, hdeads⟩
    show s.dispatcher.numQpConn + 1 = (s.dispatcher.insertConn ⟨_, number, _⟩ csi).size
    rw [Dispatcher.size_insertConn hnone]
    exact congrArg (· + 1) hconns
  | count hfrom =>
    rw [hfrom] at hconns hdeads
    exact ⟨hconns, hdeads⟩
  | find hfrom hentry =>
    obtain ⟨hu, ho, ha⟩ := hfrom.balanced
    rw [hu, ho] at hconns
    rw [ha] at hdeads
    exact ⟨hconns, congrArg (· + 1) hdeads⟩
  | push hfrom =>
    rename_i qpn it
    rw [hfrom] at hconns hdeads
    refine ⟨hconns, ?_⟩
    show s.dispatcher.numDeadQueuePair = (s.dispatcher.deadQueuePairs ++ [it.qp]).length
    rw [List.length_append]
    exact hdeads
  | erase hfrom =>
    rename_i qpn
    obtain ⟨hentry, -⟩ := hplaced.moving qpn hfrom
    rw [hfrom] at hconns hdeads
    refine ⟨?_, hdeads⟩
    show s.dispatcher.numQpConn = (s.dispatcher.eraseConn qpn).size + 1
    rw [Dispatcher.size_eraseConn hentry]
    exact hconns
  | uncount hfrom =>
    rw [hfrom] at hconns hdeads
    refine ⟨?_, hdeads⟩
    show s.dispatcher.numQpConn - 1 = s.dispatcher.size
    have hcount : s.dispatcher.numQpConn = s.dispatcher.size + 1 := hconns
    rw [hcount, Nat.add_sub_cancel]
  | delete hfrom _ hlast =>
    rw [hfrom] at hconns hdeads
    refine ⟨by rw [hfrom]; exact hconns, ?_⟩
    show s.dispatcher.numDeadQueuePair - 1 =
      s.dispatcher.deadQueuePairs.dropLast.length + s.task.announced
    have hcount : s.dispatcher.numDeadQueuePair = s.dispatcher.deadQueuePairs.length := hdeads
    rw [hcount, List.length_dropLast, hfrom]
    rfl
  | goOn => exact ⟨hconns, hdeads⟩
  | noDead => exact ⟨hconns, hdeads⟩
  | noConn => exact ⟨hconns, hdeads⟩

/-- A queue pair that goes to the dead ones is retired. -/
theorem retired_push {s t : Tables} {qp : QpObject} (hdeleted : t.deleted = s.deleted)
    (hdead : t.dispatcher.deadQueuePairs = s.dispatcher.deadQueuePairs ++ [qp]) :
    t.retired = s.retired ++ [qp.creator] := by
  rw [retired, hdeleted, hdead, ← List.append_assoc, List.map_append]
  rfl

/-- Deleting the last dead queue pair leaves the same queue pairs retired. -/
theorem retired_delete {s : Tables} {q : QpObject}
    (hlast : s.dispatcher.deadQueuePairs.getLast? = some q) :
    ({ s with dispatcher := s.dispatcher.deleteBack, deleted := s.deleted ++ [q] } :
      Tables).retired.Perm s.retired := by
  have hdead : s.dispatcher.deadQueuePairs = s.dispatcher.deadQueuePairs.dropLast ++ [q] :=
    (List.dropLast_append_getLast? q hlast).symm
  have hperm : ((s.deleted ++ [q]) ++ s.dispatcher.deadQueuePairs.dropLast).Perm
      (s.deleted ++ s.dispatcher.deadQueuePairs) := by
    rw [List.append_assoc]
    apply List.Perm.append_left
    nth_rewrite 2 [hdead]
    exact List.perm_append_comm
  exact hperm.map _

/-- While no queue pair is being moved, no registered one is retired. -/
theorem Placed.registered {s : Tables} (h : s.Placed) (hstill : ∀ n, s.task ≠ .pushed n)
    {n : UInt32} {it : Registered} (hentry : s.dispatcher.qpConns n = some it) :
    it.qp.creator ∉ s.retired :=
  fun hretired => hstill n (h.apart n it hentry hretired)

theorem Placed.step {s t : Tables} (h : s.Placed) (hstep : s.Step t) : t.Placed := by
  cases hstep with
  | plain hfrom hto =>
    rename_i task
    have hplain : Task.Plain task := hto
    have hstill : ∀ n, s.task ≠ .pushed n := fun n htask => by rw [htask] at hfrom; exact hfrom
    exact { h with
      found := by
        intro n it htask
        rw [show task = .countedDead n it from htask] at hplain
        exact hplain.elim
      moving := by
        intro n htask
        rw [show task = .pushed n from htask] at hplain
        exact hplain.elim
      apart := fun n it hentry hretired => absurd hretired (h.registered hstill hentry) }
  | insert hfrom hfree =>
    rename_i number csi
    have hstill : ∀ n, s.task ≠ .pushed n := fun n htask => nomatch hfrom.symm.trans htask
    -- an entry is the new one, or an old one under another number
    have hentries : ∀ n it, (s.dispatcher.insertConn ⟨s.created, number, false⟩ csi).qpConns n =
        some it → (n = number ∧ it.qp.creator = s.created) ∨
          (s.dispatcher.qpConns n = some it ∧ it.qp.creator < s.created) := by
      intro n it hentry
      by_cases hn : n = number
      · subst hn
        have hnew := Option.some.inj ((Dispatcher.insertConn_self ..).symm.trans hentry)
        exact .inl ⟨rfl, congrArg (fun it => it.qp.creator) hnew.symm⟩
      · have hold := (Dispatcher.insertConn_of_ne hn ..).symm.trans hentry
        exact .inr ⟨hold, h.below n it hold⟩
    exact {
      found := fun n it htask => nomatch htask
      moving := fun n htask => nomatch htask
      below := by
        intro n it hentry
        rcases hentries n it hentry with ⟨-, hnew⟩ | ⟨-, hold⟩
        · exact hnew ▸ Nat.lt_succ_self _
        · exact Nat.lt_succ_of_lt hold
      retired_below := fun c hc => Nat.lt_succ_of_lt (h.retired_below c hc)
      injective := by
        intro n it m it' hn hm heq
        rcases hentries n it hn with ⟨hn, hnew⟩ | ⟨hn, hold⟩
        · rcases hentries m it' hm with ⟨hm, -⟩ | ⟨-, hold⟩
          · exact hn.trans hm.symm
          · exact absurd (heq.symm.trans hnew) hold.ne
        · rcases hentries m it' hm with ⟨-, hnew⟩ | ⟨hm, -⟩
          · exact absurd (heq.trans hnew) hold.ne
          · exact h.injective n it m it' hn hm heq
      nodup := h.nodup
      apart := by
        intro n it hentry hretired
        rcases hentries n it hentry with ⟨-, hnew⟩ | ⟨hold, -⟩
        · exact absurd (h.retired_below _ hretired) (hnew ▸ Nat.lt_irrefl _)
        · exact absurd hretired (h.registered hstill hold) }
  | count hfrom =>
    have hstill : ∀ n, s.task ≠ .pushed n := fun n htask => nomatch hfrom.symm.trans htask
    exact { h with
      found := fun n it htask => nomatch htask
      moving := fun n htask => nomatch htask
      apart := fun n it hentry hretired => absurd hretired (h.registered hstill hentry) }
  | find hfrom hentry =>
    have hstill : ∀ n, s.task ≠ .pushed n := fun n htask => by rw [htask] at hfrom; exact hfrom
    exact { h with
      found := by
        intro n it htask
        cases htask
        exact hentry
      moving := fun n htask => nomatch htask
      apart := fun n it hentry hretired => absurd hretired (h.registered hstill hentry) }
  | push hfrom =>
    rename_i qpn it
    have hstill : ∀ n, s.task ≠ .pushed n := fun n htask => nomatch hfrom.symm.trans htask
    have hentry : s.dispatcher.qpConns qpn = some it := h.found qpn it hfrom
    let moved : Tables :=
      { s with
        dispatcher := s.dispatcher.pushDead it.qp
        task := .pushed qpn
        moved := s.moved || decide (Window s.phase) }
    have hretired : moved.retired = s.retired ++ [it.qp.creator] := retired_push rfl rfl
    exact { h with
      found := fun n it htask => nomatch htask
      moving := by
        intro n htask
        cases htask
        exact ⟨by rw [show (s.dispatcher.pushDead it.qp).qpConns qpn = _ from hentry]
                  exact Option.some_ne_none _, List.append_ne_nil_of_right_ne_nil _ (by simp)⟩
      retired_below := by
        rw [hretired]
        intro c hc
        rcases List.mem_append.mp hc with hc | hc
        · exact h.retired_below c hc
        · rw [List.mem_singleton.mp hc]
          exact h.below qpn it hentry
      nodup := by
        rw [hretired]
        exact List.nodup_append.mpr ⟨h.nodup, List.nodup_singleton _, fun a ha b hb hab =>
          h.registered hstill hentry (List.mem_singleton.mp hb ▸ hab ▸ ha)⟩
      apart := by
        rw [hretired]
        intro n it' hn hmem
        rcases List.mem_append.mp hmem with hmem | hmem
        · exact absurd hmem (h.registered hstill hn)
        · rw [h.injective n it' qpn it hn hentry (List.mem_singleton.mp hmem)] }
  | erase hfrom =>
    rename_i qpn
    have hentries : ∀ n it, (s.dispatcher.eraseConn qpn).qpConns n = some it →
        n ≠ qpn ∧ s.dispatcher.qpConns n = some it := by
      intro n it hentry
      by_cases hn : n = qpn
      · subst hn
        exact absurd ((Dispatcher.eraseConn_self ..).symm.trans hentry) (Option.some_ne_none _).symm
      · exact ⟨hn, (Dispatcher.eraseConn_of_ne hn _).symm.trans hentry⟩
    exact {
      found := fun n it htask => nomatch htask
      moving := fun n htask => nomatch htask
      below := fun n it hentry => h.below n it (hentries n it hentry).2
      retired_below := h.retired_below
      injective := fun n it m it' hn hm heq =>
        h.injective n it m it' (hentries n it hn).2 (hentries m it' hm).2 heq
      nodup := h.nodup
      apart := by
        intro n it hentry hretired
        obtain ⟨hne, hentry⟩ := hentries n it hentry
        have htask := hfrom.symm.trans (h.apart n it hentry hretired)
        exact absurd (Task.pushed.inj htask).symm hne }
  | uncount hfrom =>
    have hstill : ∀ n, s.task ≠ .pushed n := fun n htask => nomatch hfrom.symm.trans htask
    exact { h with
      found := fun n it htask => nomatch htask
      moving := fun n htask => nomatch htask
      apart := fun n it hentry hretired => absurd hretired (h.registered hstill hentry) }
  | delete hfrom _ hlast =>
    have hperm := retired_delete hlast
    exact { h with
      found := fun n it htask => nomatch hfrom.symm.trans htask
      moving := fun n htask => nomatch hfrom.symm.trans htask
      retired_below := fun c hc => h.retired_below c (hperm.mem_iff.mp hc)
      nodup := hperm.nodup_iff.mpr h.nodup
      apart := fun n it hentry hretired => h.apart n it hentry (hperm.mem_iff.mp hretired) }
  | goOn => exact { h with }
  | noDead => exact { h with }
  | noConn => exact { h with }

theorem Known.step {s t : Tables} (h : s.Known) (hstep : s.Step t) (haccounted : s.Accounted)
    (hplaced : s.Placed) : t.Known := by
  cases hstep with
  | plain => exact { h with }
  | insert hfrom hfree =>
    rename_i number csi
    have hentry : (s.dispatcher.insertConn ⟨s.created, number, false⟩ csi).qpConns number ≠ none := by
      rw [Dispatcher.insertConn_self]
      exact Option.some_ne_none _
    exact {
      dead := h.dead
      empty := by
        intro hphase hadded
        have htrue : (s.added || decide (s.phase = .testDone)) = true := by
          rw [decide_eq_true (show s.phase = .testDone from hphase), Bool.or_true]
        exact absurd (htrue.symm.trans hadded) Bool.noConfusion
      entry := fun _ _ => .inr ⟨number, hentry⟩ }
  | count => exact { h with }
  | find => exact { h with }
  | push hfrom =>
    rename_i qpn it
    have hdead : (s.dispatcher.pushDead it.qp).deadQueuePairs ≠ [] :=
      List.append_ne_nil_of_right_ne_nil _ (List.cons_ne_nil _ _)
    exact { h with
      dead := by
        intro hwindow
        have hmoved : (s.moved || decide (Window s.phase)) = true := by
          rw [decide_eq_true (show Window s.phase from hwindow), Bool.or_true]
        exact ⟨fun hfalse => absurd (hmoved.symm.trans hfalse) Bool.noConfusion,
          fun hnil => absurd hnil hdead⟩
      entry := by
        intro hphase _
        have hwindow : Window s.phase := .of_testDone hphase
        refine .inl ?_
        show (s.moved || decide (Window s.phase)) = true
        rw [decide_eq_true hwindow, Bool.or_true] }
  | erase hfrom =>
    rename_i qpn
    have hdead := (hplaced.moving qpn hfrom).2
    exact {
      dead := h.dead
      empty := by
        intro hphase hadded n
        have hnone := h.empty hphase hadded n
        by_cases hn : n = qpn
        · rw [hn, Dispatcher.eraseConn_self]
        · rw [Dispatcher.eraseConn_of_ne hn, hnone]
      entry := by
        intro hphase _
        have hwindow : Window s.phase := .of_testDone hphase
        refine .inl ?_
        exact eq_true_of_ne_false fun hfalse => hdead ((h.dead hwindow).mp hfalse) }
  | uncount => exact { h with }
  | delete hfrom hphase hlast =>
    exact {
      dead := by
        intro hwindow
        rw [show s.phase = _ from hphase] at hwindow
        exact hwindow.elim
      empty := fun htest => nomatch hphase.symm.trans htest
      entry := fun htest => nomatch hphase.symm.trans htest }
  | goOn hphase =>
    exact {
      dead := fun hwindow => absurd hwindow hphase
      empty := fun htest => absurd (Window.of_testDone htest) hphase
      entry := fun htest => absurd (Window.of_testDone htest) hphase }
  | noDead hdead =>
    have hnil : s.dispatcher.deadQueuePairs = [] := by
      rcases hdead with hzero | hnil
      · have hcount := haccounted.deads
        rw [hzero] at hcount
        exact List.length_eq_zero_iff.mp (Nat.eq_zero_of_add_eq_zero_right hcount.symm)
      · exact hnil
    exact {
      dead := fun _ => ⟨fun _ => hnil, fun _ => rfl⟩
      empty := fun htest => nomatch htest
      entry := fun htest => nomatch htest }
  | noConn hphase hconn =>
    have hcount := haccounted.conns
    rw [hconn, Nat.zero_add] at hcount
    exact {
      dead := by
        intro _
        apply h.dead
        rw [hphase]
        trivial
      empty := by
        intro _ hadded
        have htask : s.task ≠ .inserted := of_decide_eq_false hadded
        have hzero : s.task.uncounted = 0 := by
          cases hs : s.task with
          | inserted => exact absurd hs htask
          | _ => rfl
        rw [hzero] at hcount
        exact Dispatcher.size_eq_zero.mp (Nat.eq_zero_of_add_eq_zero_right hcount.symm)
      entry := by
        intro _ hadded
        have htask : s.task = .inserted := of_decide_eq_true hadded
        rw [htask] at hcount
        refine .inr ?_
        by_contra hnone
        have hsize : s.dispatcher.size = 0 := by
          rw [Dispatcher.size_eq_zero]
          intro n
          by_contra hn
          exact hnone ⟨n, hn⟩
        rw [hsize] at hcount
        exact absurd hcount (by decide) }

end Tables

end HwAsync.Rdma
