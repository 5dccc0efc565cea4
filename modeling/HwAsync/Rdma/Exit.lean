/-
# How the polling thread returns

`polling` deletes the dead queue pairs in an iteration without completions, and returns from it when
no queue pair is registered and `done` is set.  It tests the two counters without the lock and one
after the other, while other threads register queue pairs, retire a number, handle an event of the
adapter, or stop the polling.
-/

import HwAsync.Lib.Run
import HwAsync.Rdma.Tables

namespace HwAsync.Rdma

open HwAsync.Lib

/-! ## The polling thread and the others -/

/-- The polling thread, or another one. -/
inductive Caller
  | poller
  | other (n : ℕ)
  deriving DecidableEq, Repr

/-- What a thread takes the lock for: `register_qp`, `erase_qpn`, an event in `handle_async_event`,
or `polling_stop`. -/
inductive Request
  | register (number : UInt32) (csi : ℕ)
  | erase (qpn : UInt32)
  | lastWqe (qpn : UInt32)
  | stop

def Request.task : Request → Task
  | .register number csi => .registering number csi
  | .erase qpn => .erasing qpn false
  | .lastWqe qpn => .erasing qpn true
  | .stop => .stopping

theorem Request.plain_task (request : Request) : request.task.Plain := by
  cases request with
  | register | erase | lastWqe | stop => trivial

def Request.isLastWqe : Request → Bool
  | .lastWqe _ => true
  | _ => false

/-- The dispatcher with all threads.  `deleted` holds the queue pairs that were deleted; `moved` and
`added` are the two flags. -/
structure ExitRun where
  dispatcher : Dispatcher
  lock : Option Caller
  done : Bool
  tasks : Caller → Task
  phase : ExitPhase
  created : ℕ
  deleted : List QpObject
  moved : Bool
  added : Bool

inductive ExitAction
  | begin (c : Caller) (r : Request)
  | act (c : Caller)
  | poll (idle : Bool)
  | testDead
  | lockDead
  | delete
  | testConn (inactive : Bool)
  | testDone (inactive : Bool)
  | asyncDone

namespace ExitRun

def setTask (c : Caller) (t : Task) (r : ExitRun) : ExitRun :=
  { r with tasks := Function.update r.tasks c t }

/-- What the thread with the lock is doing. -/
def current (r : ExitRun) : Task :=
  match r.lock with
  | none => .idle
  | some c => r.tasks c

/-- The next step of a thread that has the lock. -/
def act (c : Caller) (r : ExitRun) : Option ExitRun :=
  match r.tasks c with
  | .idle => none
  | .registering number csi =>
      -- the adapter gives a number that no existing queue pair has
      if r.dispatcher.taken number then none
      else
        let qp : QpObject := ⟨r.created, number, false⟩
        some ({ r with
          dispatcher := r.dispatcher.insertConn qp csi
          created := r.created + 1
          added := r.added || decide (r.phase = ExitPhase.testDone) }.setTask c .inserted)
  | .inserted => some ({ r with dispatcher := r.dispatcher.countConn }.setTask c .unlocking)
  | .erasing qpn alive =>
      match r.dispatcher.qpConns qpn with
      | none => some (r.setTask c .unlocking)
      | some it =>
          if alive ∧ it.qp.dead then some (r.setTask c .unlocking)
          else some ({ r with dispatcher := r.dispatcher.countDead }.setTask c (.countedDead qpn it))
  | .countedDead qpn it =>
      some ({ r with
        dispatcher := r.dispatcher.pushDead it.qp
        moved := r.moved || decide (Window r.phase) }.setTask c (.pushed qpn))
  | .pushed qpn => some ({ r with dispatcher := r.dispatcher.eraseConn qpn }.setTask c .erased)
  | .erased => some ({ r with dispatcher := r.dispatcher.uncountConn }.setTask c .unlocking)
  | .stopping => some ({ r with done := true }.setTask c .unlocking)
  | .unlocking => some ({ r with lock := none }.setTask c .idle)

/-- The branch of `polling` behind the test of `done`. -/
def goOn (inactive : Bool) (r : ExitRun) : ExitRun :=
  { r with phase := if inactive then .async else .top }

/-- A step of `polling`. -/
def pollStep (r : ExitRun) : ExitAction → Option ExitRun
  | .poll idle =>
      match r.phase with
      | .top => some { r with phase := if idle then .testDead else .top }
      | _ => none
  | .testDead =>
      match r.phase with
      | .testDead =>
          if r.dispatcher.numDeadQueuePair = 0 then
            some { r with phase := .testConn, moved := false }
          else some { r with phase := .lockDead }
      | _ => none
  | .lockDead =>
      match r.phase with
      | .lockDead =>
          if r.lock = none then some { r with lock := some .poller, phase := .deleting } else none
      | _ => none
  | .delete =>
      match r.phase with
      | .deleting =>
          match r.dispatcher.deadQueuePairs.getLast? with
          | some q =>
              some { r with
                dispatcher := r.dispatcher.deleteBack
                deleted := r.deleted ++ [q] }
          | none => some { r with lock := none, phase := .testConn, moved := false }
      | _ => none
  | .testConn inactive =>
      match r.phase with
      | .testConn =>
          if r.dispatcher.numQpConn = 0 then
            some { r with phase := .testDone, added := decide (r.current = .inserted) }
          else some (r.goOn inactive)
      | _ => none
  | .testDone inactive =>
      match r.phase with
      | .testDone => if r.done then some { r with phase := .returned } else some (r.goOn inactive)
      | _ => none
  | .asyncDone =>
      match r.phase with
      | .async => some { r with phase := .top }
      | _ => none
  | _ => none

/-- One step; none if it is not enabled, or ends in a failed assertion. -/
def step (r : ExitRun) : ExitAction → Option ExitRun
  | .begin c request =>
      if r.tasks c = .idle ∧ r.lock = none ∧
          (c = .poller → r.phase = .async ∧ request.isLastWqe) then
        some ({ r with lock := some c }.setTask c request.task)
      else none
  | .act c => r.act c
  | a => if r.tasks .poller = .idle then r.pollStep a else none

/-- No queue pair, nobody in the lock, the polling thread just started. -/
def init : ExitRun where
  dispatcher := ⟨fun _ => none, 0, [], 0⟩
  lock := none
  done := false
  tasks := fun _ => .idle
  phase := .top
  created := 0
  deleted := []
  moved := false
  added := false

end ExitRun

/-- The dispatcher with its threads. -/
def exitMachine : Machine ExitRun ExitAction := ⟨(· = .init), ExitRun.step⟩

namespace ExitRun

/-! ## The lock -/

/-- Only the thread that has the lock is at work, and the polling thread is in its own loop except
where it handles events. -/
structure Locked (r : ExitRun) : Prop where
  holder : ∀ c, r.tasks c ≠ .idle → r.lock = some c
  polling : r.phase = .deleting → r.lock = some .poller
  handling : r.phase ≠ .async → r.tasks .poller = .idle

theorem Locked.current_eq {r : ExitRun} (h : r.Locked) {c : Caller} (htask : r.tasks c ≠ .idle) :
    r.current = r.tasks c := by
  rw [current, h.holder c htask]

/-- What the thread that has the lock sees. -/
def tables (r : ExitRun) : Tables :=
  ⟨r.dispatcher, r.current, r.phase, r.created, r.deleted, r.moved, r.added⟩

/-- A step of the thread that has the lock: it stays there, with a new task, or is done. -/
structure Acts (c : Caller) (r t : ExitRun) : Prop where
  busy : r.tasks c ≠ .idle
  phase : t.phase = r.phase
  others : ∀ o, o ≠ c → t.tasks o = r.tasks o
  lock : (t.lock = r.lock ∧ t.tasks c ≠ .idle) ∨ (t.lock = none ∧ t.tasks c = .idle)
  tables : r.current = r.tasks c → t.current = t.tasks c → r.tables.Step t.tables

theorem tasks_setTask (c : Caller) (task : Task) (r : ExitRun) :
    (r.setTask c task).tasks c = task := Function.update_self ..

theorem tasks_setTask_of_ne {o c : Caller} (ho : o ≠ c) (task : Task) (r : ExitRun) :
    (r.setTask c task).tasks o = r.tasks o := Function.update_of_ne ho ..

/-- The parts of a step that every new task has in common. -/
theorem Acts.of_setTask {c : Caller} {r t : ExitRun} {before task : Task}
    (hbefore : r.tasks c = before) (hbusy : before ≠ .idle) (hphase : t.phase = r.phase)
    (htasks : t.tasks = r.tasks) (hlock : t.lock = r.lock) (htask : task ≠ .idle)
    (htables : r.current = before → r.tables.Step { t.tables with task := task }) :
    Acts c r (t.setTask c task) where
  busy := hbefore ▸ hbusy
  phase := hphase
  others := by
    intro o ho
    rw [tasks_setTask_of_ne ho, htasks]
  lock := .inl ⟨hlock, by rw [tasks_setTask]; exact htask⟩
  tables := by
    intro hcurrent hafter
    rw [tasks_setTask] at hafter
    have hview : (t.setTask c task).tables = { t.tables with task := task } := by
      rw [ExitRun.tables, hafter]
      rfl
    rw [hview]
    exact htables (hcurrent.trans hbefore)

theorem acts_of_act {r t : ExitRun} {c : Caller} (hact : r.act c = some t) : Acts c r t := by
  have hplain {task : Task} (hcurrent : r.current = task) (htask : task.Plain) :
      r.current.Plain := hcurrent ▸ htask
  unfold act at hact
  cases htask : r.tasks c with
  | idle =>
    rw [htask] at hact
    cases hact
  | registering number csi =>
    simp only [htask] at hact
    split at hact
    · cases hact
    · rename_i hfree
      cases hact
      exact .of_setTask htask Task.noConfusion rfl rfl rfl Task.noConfusion fun hcurrent =>
        .insert hcurrent hfree
  | inserted =>
    simp only [htask] at hact
    cases hact
    exact .of_setTask htask Task.noConfusion rfl rfl rfl Task.noConfusion fun hcurrent =>
      .count hcurrent
  | erasing qpn alive =>
    simp only [htask] at hact
    split at hact
    · cases hact
      exact .of_setTask htask Task.noConfusion rfl rfl rfl Task.noConfusion fun hcurrent =>
        .plain (hplain hcurrent trivial) trivial
    · rename_i it hentry
      split at hact
      · cases hact
        exact .of_setTask htask Task.noConfusion rfl rfl rfl Task.noConfusion fun hcurrent =>
          .plain (hplain hcurrent trivial) trivial
      · cases hact
        exact .of_setTask htask Task.noConfusion rfl rfl rfl Task.noConfusion fun hcurrent =>
          .find (hplain hcurrent trivial) hentry
  | countedDead qpn it =>
    simp only [htask] at hact
    cases hact
    exact .of_setTask htask Task.noConfusion rfl rfl rfl Task.noConfusion fun hcurrent =>
      .push hcurrent
  | pushed qpn =>
    simp only [htask] at hact
    cases hact
    exact .of_setTask htask Task.noConfusion rfl rfl rfl Task.noConfusion fun hcurrent =>
      .erase hcurrent
  | erased =>
    simp only [htask] at hact
    cases hact
    exact .of_setTask htask Task.noConfusion rfl rfl rfl Task.noConfusion fun hcurrent =>
      .uncount hcurrent
  | stopping =>
    simp only [htask] at hact
    cases hact
    exact .of_setTask htask Task.noConfusion rfl rfl rfl Task.noConfusion fun hcurrent =>
      .plain (hplain hcurrent trivial) trivial
  | unlocking =>
    simp only [htask] at hact
    cases hact
    exact {
      busy := htask ▸ Task.noConfusion
      phase := rfl
      others := fun o ho => tasks_setTask_of_ne ho ..
      lock := .inr ⟨rfl, tasks_setTask ..⟩
      tables := by
        intro hcurrent hafter
        have hview : (({ r with lock := none } : ExitRun).setTask c .idle).tables =
            { r.tables with task := .idle } := rfl
        rw [hview]
        exact .plain (hplain (hcurrent.trans htask) trivial) trivial }

/-- A step of the loop of `polling`: the lock stays, is taken, or is given back. -/
structure Polls (r t : ExitRun) : Prop where
  tasks : t.tasks = r.tasks
  lock : (t.lock = r.lock ∧ (t.phase = .deleting → r.phase = .deleting)) ∨
    (r.lock = none ∧ t.lock = some .poller) ∨
    (r.phase = .deleting ∧ t.lock = none ∧ t.phase ≠ .deleting)
  tables : r.Locked → r.tables.Step t.tables

theorem Polls.of_goOn {r : ExitRun} {p : ExitPhase} (hwindow : ¬ Window p) (hphase : p ≠ .deleting) :
    Polls r { r with phase := p } where
  tasks := rfl
  lock := .inl ⟨rfl, fun h => absurd h hphase⟩
  tables := fun _ => .goOn hwindow

theorem Polls.of_ite {r : ExitRun} (b : Bool) {p q : ExitPhase} (hp : ¬ Window p)
    (hq : ¬ Window q) (hp' : p ≠ .deleting) (hq' : q ≠ .deleting) :
    Polls r { r with phase := if b then p else q } := by
  cases b with
  | true => exact .of_goOn hp hp'
  | false => exact .of_goOn hq hq'

theorem Locked.current_idle {r : ExitRun} (h : r.Locked) (hphase : r.phase = .deleting) :
    r.current = .idle := by
  rw [current, h.polling hphase]
  exact h.handling (by rw [hphase]; exact ExitPhase.noConfusion)

theorem polls_of_pollStep {r t : ExitRun} {a : ExitAction} (hidle : r.tasks .poller = .idle)
    (hpoll : r.pollStep a = some t) : Polls r t := by
  cases a with
  | begin | act => cases hpoll
  | poll idle =>
    simp only [pollStep] at hpoll
    split at hpoll
    · cases hpoll
      exact .of_ite idle id id ExitPhase.noConfusion ExitPhase.noConfusion
    · cases hpoll
  | testDead =>
    simp only [pollStep] at hpoll
    split at hpoll
    · split at hpoll
      · rename_i hzero
        cases hpoll
        exact ⟨rfl, .inl ⟨rfl, fun h => nomatch h⟩, fun _ => .noDead (.inl hzero)⟩
      · cases hpoll
        exact .of_goOn id ExitPhase.noConfusion
    · cases hpoll
  | lockDead =>
    simp only [pollStep] at hpoll
    split at hpoll
    · split at hpoll
      · rename_i hlock
        cases hpoll
        refine ⟨rfl, .inr (.inl ⟨hlock, rfl⟩), fun _ => ?_⟩
        have hcurrent : r.current = r.tasks .poller := by rw [current, hlock, hidle]
        have hview : ({ r with lock := some .poller, phase := .deleting } : ExitRun).tables =
            { r.tables with phase := .deleting } := by
          rw [ExitRun.tables, ExitRun.tables, hcurrent]
          rfl
        rw [hview]
        exact .goOn id
      · cases hpoll
    · cases hpoll
  | delete =>
    simp only [pollStep] at hpoll
    split at hpoll
    · rename_i hphase
      split at hpoll
      · rename_i q hlast
        cases hpoll
        exact ⟨rfl, .inl ⟨rfl, id⟩, fun h => .delete (h.current_idle hphase) hphase hlast⟩
      · rename_i hlast
        cases hpoll
        refine ⟨rfl, .inr (.inr ⟨hphase, rfl, ExitPhase.noConfusion⟩), fun h => ?_⟩
        have hview : ({ r with lock := none, phase := .testConn, moved := false } :
            ExitRun).tables = { r.tables with phase := .testConn, moved := false } := by
          rw [ExitRun.tables, ExitRun.tables, h.current_idle hphase]
          rfl
        rw [hview]
        exact .noDead (.inr (List.getLast?_eq_none_iff.mp hlast))
    · cases hpoll
  | testConn inactive =>
    simp only [pollStep] at hpoll
    split at hpoll
    · rename_i hphase
      split at hpoll
      · rename_i hzero
        cases hpoll
        exact ⟨rfl, .inl ⟨rfl, fun h => nomatch h⟩, fun _ => .noConn hphase hzero⟩
      · cases hpoll
        exact .of_ite inactive id id ExitPhase.noConfusion ExitPhase.noConfusion
    · cases hpoll
  | testDone inactive =>
    simp only [pollStep] at hpoll
    split at hpoll
    · split at hpoll
      · cases hpoll
        exact .of_goOn id ExitPhase.noConfusion
      · cases hpoll
        exact .of_ite inactive id id ExitPhase.noConfusion ExitPhase.noConfusion
    · cases hpoll
  | asyncDone =>
    simp only [pollStep] at hpoll
    split at hpoll
    · cases hpoll
      exact .of_goOn id ExitPhase.noConfusion
    · cases hpoll

/-- What `begin` does. -/
theorem begin_eq {r t : ExitRun} {c : Caller} {request : Request}
    (hstep : r.step (.begin c request) = some t) :
    r.lock = none ∧ (c = .poller → r.phase = .async) ∧
      t = { r with lock := some c }.setTask c request.task := by
  simp only [step] at hstep
  split at hstep
  · rename_i hguard
    exact ⟨hguard.2.1, fun hc => (hguard.2.2 hc).1, (Option.some.inj hstep).symm⟩
  · cases hstep

/-- What a step is: a thread takes the lock, goes on with it, or `polling` goes on. -/
theorem step_cases {r t : ExitRun} {a : ExitAction} (hstep : r.step a = some t) :
    (∃ (c : Caller) (request : Request), r.lock = none ∧ (c = .poller → r.phase = .async) ∧
      t = { r with lock := some c }.setTask c request.task) ∨
    (∃ c, Acts c r t) ∨ (r.tasks .poller = .idle ∧ Polls r t) := by
  cases a with
  | begin c request => exact .inl ⟨c, request, begin_eq hstep⟩
  | act c => exact .inr (.inl ⟨c, acts_of_act hstep⟩)
  | poll | testDead | lockDead | delete | testConn | testDone | asyncDone =>
    have hpoll := hstep
    simp only [step] at hpoll
    split at hpoll
    · rename_i hidle
      exact .inr (.inr ⟨hidle, polls_of_pollStep hidle hpoll⟩)
    · cases hpoll

theorem Locked.step {r t : ExitRun} {a : ExitAction} (h : r.Locked) (hstep : r.step a = some t) :
    t.Locked := by
  rcases step_cases hstep with ⟨c, request, hfree, hasync, rfl⟩ | ⟨c, hacts⟩ | ⟨hidle, hpolls⟩
  · have hothers (o : Caller) : r.tasks o = .idle := by
      by_contra htask
      exact Option.some_ne_none o ((h.holder o htask).symm.trans hfree)
    exact {
      holder := by
        intro o htask
        by_cases ho : o = c
        · rw [ho]
          rfl
        · rw [tasks_setTask_of_ne ho] at htask
          exact absurd (hothers o) htask
      polling := fun hphase => nomatch (h.polling hphase).symm.trans hfree
      handling := by
        intro hphase
        have hc : Caller.poller ≠ c := fun hc => hphase (hasync hc.symm)
        rw [tasks_setTask_of_ne hc]
        exact hothers _ }
  · have hlock := h.holder c hacts.busy
    exact {
      holder := by
        intro o htask
        by_cases ho : o = c
        · subst ho
          rcases hacts.lock with ⟨hkeep, -⟩ | ⟨-, hdone⟩
          · exact hkeep.trans hlock
          · exact absurd hdone htask
        · rw [hacts.others o ho] at htask
          exact absurd (Option.some.inj ((h.holder o htask).symm.trans hlock)) ho
      polling := by
        intro hphase
        rw [hacts.phase] at hphase
        have hc : Caller.poller = c := Option.some.inj ((h.polling hphase).symm.trans hlock)
        exact absurd (h.handling (by rw [hphase]; exact ExitPhase.noConfusion)) (hc ▸ hacts.busy)
      handling := by
        intro hphase
        rw [hacts.phase] at hphase
        have hpoller := h.handling hphase
        have hc : Caller.poller ≠ c := fun hc => hacts.busy (hc ▸ hpoller)
        rw [hacts.others _ hc, hpoller] }
  · exact {
      holder := by
        intro o htask
        rw [hpolls.tasks] at htask
        have hlock := h.holder o htask
        rcases hpolls.lock with ⟨hkeep, -⟩ | ⟨hfree, -⟩ | ⟨hphase, -, -⟩
        · exact hkeep.trans hlock
        · exact nomatch hlock.symm.trans hfree
        · have ho : Caller.poller = o := Option.some.inj ((h.polling hphase).symm.trans hlock)
          exact absurd hidle (ho ▸ htask)
      polling := by
        intro hphase
        rcases hpolls.lock with ⟨hkeep, hbefore⟩ | ⟨-, htaken⟩ | ⟨-, -, hafter⟩
        · exact hkeep.trans (h.polling (hbefore hphase))
        · exact htaken
        · exact absurd hphase hafter
      handling := fun _ => by rw [hpolls.tasks, hidle] }

/-- Every step is one of the tables. -/
theorem step_tables {r t : ExitRun} {a : ExitAction} (h : r.Locked) (hstep : r.step a = some t) :
    r.tables.Step t.tables := by
  have hafter := h.step hstep
  rcases step_cases hstep with ⟨c, request, hfree, hasync, rfl⟩ | ⟨c, hacts⟩ | ⟨hidle, hpolls⟩
  · have hcurrent : r.current.Plain := by
      rw [current, hfree]
      trivial
    have hview : ({ r with lock := some c }.setTask c request.task).tables =
        { r.tables with task := request.task } := by
      rw [ExitRun.tables, current]
      show Tables.mk _ ((r.setTask c request.task).tasks c) .. = _
      rw [tasks_setTask]
      rfl
    rw [hview]
    exact .plain hcurrent (Request.plain_task request)
  · apply hacts.tables (h.current_eq hacts.busy)
    rcases hacts.lock with ⟨-, htask⟩ | ⟨hfree, hdone⟩
    · exact hafter.current_eq htask
    · rw [current, hfree, hdone]
  · exact hpolls.tables h

/-- The whole invariant. -/
structure Sound (r : ExitRun) : Prop where
  locked : r.Locked
  accounted : r.tables.Accounted
  placed : r.tables.Placed
  known : r.tables.Known

theorem sound_init : init.Sound where
  locked :=
    { holder := fun _ htask => absurd rfl htask
      polling := fun hphase => nomatch hphase
      handling := fun _ => rfl }
  accounted := by
    refine ⟨?_, rfl⟩
    show 0 = Dispatcher.size _
    exact (Dispatcher.size_eq_zero.mpr fun _ => rfl).symm
  placed :=
    { found := fun _ _ htask => nomatch htask
      moving := fun _ htask => nomatch htask
      below := fun _ _ hentry => nomatch hentry
      retired_below := fun _ hmem => absurd hmem List.not_mem_nil
      injective := fun _ _ _ _ hentry => nomatch hentry
      nodup := List.nodup_nil
      apart := fun _ _ hentry => nomatch hentry }
  known :=
    { dead := fun hwindow => hwindow.elim
      empty := fun hphase => nomatch hphase
      entry := fun hphase => nomatch hphase }

theorem Sound.step {r t : ExitRun} {a : ExitAction} (h : r.Sound) (hstep : r.step a = some t) :
    t.Sound := by
  have htables := step_tables h.locked hstep
  exact {
    locked := h.locked.step hstep
    accounted := h.accounted.step htables h.placed
    placed := h.placed.step htables
    known := h.known.step htables h.accounted h.placed }

theorem sound_of_reached {r : ExitRun} (hreached : exitMachine.Reached r) : r.Sound :=
  hreached.invariant Sound (fun r (hstart : r = init) => hstart ▸ sound_init)
    fun _ _ _ h _ hstep => h.step hstep

/-- What `~RDMADispatcher` asserts. -/
structure Asserted (d : Dispatcher) : Prop where
  qpConns : ∀ n, d.qpConns n = none
  numQpConn : d.numQpConn = 0
  deadQueuePairs : d.deadQueuePairs = []
  numDeadQueuePair : d.numDeadQueuePair = 0

theorem Sound.counted {r : ExitRun} (h : r.Sound) (hfree : r.lock = none) :
    r.dispatcher.numQpConn = r.dispatcher.size ∧
      r.dispatcher.numDeadQueuePair = r.dispatcher.deadQueuePairs.length := by
  have htask : r.tables.task = .idle := by
    show r.current = .idle
    rw [current, hfree]
  obtain ⟨hconns, hdeads⟩ := h.accounted
  rw [htask] at hconns hdeads
  exact ⟨hconns, hdeads⟩

/-- Once it has tested the first counter, the polling thread leaves nothing behind exactly if nothing
was moved or added since. -/
theorem Sound.empty_iff {r : ExitRun} (h : r.Sound) (hphase : r.phase = .testDone) :
    ((∀ n, r.dispatcher.qpConns n = none) ∧ r.dispatcher.deadQueuePairs = []) ↔
      r.moved = false ∧ r.added = false := by
  have hdead := h.known.dead (.of_testDone hphase)
  constructor
  · rintro ⟨hempty, hnil⟩
    have hmoved : r.moved = false := hdead.mpr hnil
    refine ⟨hmoved, eq_false_of_ne_true fun hadded => ?_⟩
    rcases h.known.entry hphase hadded with htrue | ⟨n, hn⟩
    · exact absurd (hmoved.symm.trans htrue) Bool.noConfusion
    · exact hn (hempty n)
  · rintro ⟨hmoved, hadded⟩
    exact ⟨h.known.empty hphase hadded, hdead.mp hmoved⟩

theorem Sound.asserted_iff {r : ExitRun} (h : r.Sound) (hfree : r.lock = none) :
    Asserted r.dispatcher ↔
      (∀ n, r.dispatcher.qpConns n = none) ∧ r.dispatcher.deadQueuePairs = [] := by
  obtain ⟨hconns, hdeads⟩ := h.counted hfree
  constructor
  · intro hasserted
    exact ⟨hasserted.qpConns, hasserted.deadQueuePairs⟩
  · rintro ⟨hempty, hnil⟩
    exact {
      qpConns := hempty
      numQpConn := hconns.trans (Dispatcher.size_eq_zero.mpr hempty)
      deadQueuePairs := hnil
      numDeadQueuePair := hdeads.trans (List.length_eq_zero_iff.mpr hnil) }

/-- What `testDone` does when `polling` returns. -/
theorem testDone_eq {r t : ExitRun} {inactive : Bool}
    (hstep : r.step (.testDone inactive) = some t) (hreturned : t.phase = .returned) :
    r.phase = .testDone ∧ t = { r with phase := .returned } := by
  simp only [step] at hstep
  split at hstep
  · simp only [pollStep] at hstep
    split at hstep
    · rename_i hphase
      split at hstep
      · exact ⟨hphase, (Option.some.inj hstep).symm⟩
      · cases hstep
        cases inactive <;> cases hreturned
    · cases hstep
  · cases hstep

/-- **How the polling thread returns.**  The counters are right whenever nobody has the lock, and no
queue pair is deleted twice.  When `polling` returns, both tables are empty, as the destructor asserts,
exactly if no queue pair became a dead one since `polling` saw that there was none, and no queue pair
was registered that it did not count. -/
theorem emptied_iff_of_reached {r : ExitRun} (hreached : exitMachine.Reached r) :
    (r.lock = none → r.dispatcher.numQpConn = r.dispatcher.size ∧
      r.dispatcher.numDeadQueuePair = r.dispatcher.deadQueuePairs.length) ∧
    (r.deleted.map QpObject.creator).Nodup ∧
    ∀ inactive t, r.step (.testDone inactive) = some t → t.phase = .returned →
      (((∀ n, t.dispatcher.qpConns n = none) ∧ t.dispatcher.deadQueuePairs = []) ↔
        r.moved = false ∧ r.added = false) ∧
      (t.lock = none → (Asserted t.dispatcher ↔ r.moved = false ∧ r.added = false)) := by
  have h := sound_of_reached hreached
  have honce : (r.deleted.map QpObject.creator).Nodup := by
    have hretired : ((r.deleted ++ r.dispatcher.deadQueuePairs).map QpObject.creator).Nodup :=
      h.placed.nodup
    rw [List.map_append] at hretired
    exact hretired.of_append_left
  refine ⟨h.counted, honce, ?_⟩
  intro inactive t hstep hreturned
  obtain ⟨hphase, rfl⟩ := testDone_eq hstep hreturned
  have hempty := h.empty_iff hphase
  exact ⟨hempty, fun hfree => (h.asserted_iff hfree).trans hempty⟩

/-- A queue pair is registered and retired, the polling thread deletes it and returns. -/
theorem emptied_iff_of_reached_retired :
    ∃ r t : ExitRun, r.step (.testDone false) = some t ∧ t.phase = .returned ∧
      r.deleted.length = 1 ∧ Asserted t.dispatcher := by
  obtain ⟨r, t, hreplay, hdeleted, hmoved, hadded, hstep, hreturned, hfree⟩ :
      ∃ r t, exitMachine.replay (fun _ _ => True) init
        [.begin (.other 0) (.register 7 0), .act (.other 0), .act (.other 0), .act (.other 0),
          .begin (.other 1) (.erase 7), .act (.other 1), .act (.other 1), .act (.other 1),
          .act (.other 1), .act (.other 1), .begin (.other 2) .stop, .act (.other 2),
          .act (.other 2), .poll true, .testDead, .lockDead, .delete, .delete,
          .testConn false] = some r ∧
        r.deleted.length = 1 ∧ r.moved = false ∧ r.added = false ∧
        r.step (.testDone false) = some t ∧ t.phase = .returned ∧ t.lock = none :=
    ⟨_, _, rfl, rfl, rfl, rfl, rfl, rfl, rfl⟩
  have hreached : exitMachine.Reached r := .of_replay (.start rfl) hreplay
  obtain ⟨-, -, hreturns⟩ := emptied_iff_of_reached hreached
  exact ⟨r, t, hstep, hreturned, hdeleted,
    ((hreturns false t hstep hreturned).2 hfree).mpr ⟨hmoved, hadded⟩⟩

/-- The last queue pair is retired after the polling thread found none that is dead, and before it
tests the other counter. -/
theorem not_emptied_erased :
    ∃ r t : ExitRun, exitMachine.Reached r ∧ r.step (.testDone false) = some t ∧
      t.phase = .returned ∧ t.lock = none ∧ t.dispatcher.deadQueuePairs ≠ [] ∧
      ¬ Asserted t.dispatcher := by
  obtain ⟨r, t, hreplay, hstep, hreturned, hfree, hdead⟩ :
      ∃ r t, exitMachine.replay (fun _ _ => True) init
        [.begin (.other 0) (.register 7 0), .act (.other 0), .act (.other 0), .act (.other 0),
          .poll true, .testDead,
          .begin (.other 1) (.erase 7), .act (.other 1), .act (.other 1), .act (.other 1),
          .act (.other 1), .act (.other 1), .begin (.other 2) .stop, .act (.other 2),
          .act (.other 2), .testConn false] = some r ∧
        r.step (.testDone false) = some t ∧ t.phase = .returned ∧ t.lock = none ∧
        t.dispatcher.deadQueuePairs = [⟨0, 7, false⟩] :=
    ⟨_, _, rfl, rfl, rfl, rfl, rfl⟩
  have hleft : t.dispatcher.deadQueuePairs ≠ [] := by
    rw [hdead]
    exact List.cons_ne_nil _ _
  exact ⟨r, t, .of_replay (.start rfl) hreplay, hstep, hreturned, hfree, hleft,
    fun hasserted => hleft hasserted.deadQueuePairs⟩

end ExitRun

end HwAsync.Rdma
