/-
# External events

Any thread may give an `EventCenter` a callback to run: `dispatch_event_external` puts it into
`external_events` under `external_lock`, counts it, and wakes the thread of the center up through a
pipe unless that is the caller or there was something in the queue already.  The thread of the
center looks at the count without the lock before it waits, reads the pipe empty when it is woken
up, and looks at the count again before it takes the whole queue.

The steps are the single accesses to what the threads share.  An event stands in the queues with
the thread that dispatched it, and `dispatched` and `ran` keep what has been put into the queue and
what has been run so far.

The center has no pollers, and its driver needs to be woken up.  The count is taken not to wrap.
-/

import HwAsync.Event.Center
import HwAsync.Lib.Fifo

namespace HwAsync.Event

open HwAsync.Lib

/-- The owner of the center, or another thread. -/
inductive Thread
  | owner
  | other (n : ℕ)
  deriving DecidableEq, Repr

/-- How far a thread is in `dispatch_event_external`. -/
inductive Call (α : Type)
  | idle
  | locked (e : α)
  | pushed
  | loaded (wake : Bool)
  | counted (wake : Bool)
  | unlocked (wake : Bool)
  deriving DecidableEq, Repr

def Call.isIdle {α : Type} : Call α → Bool
  | .idle => true
  | _ => false

/-- A descriptor that is ready: the end of the pipe that is read, or any other. -/
inductive Ready
  | notify
  | other
  deriving DecidableEq, Repr

/-- How far the owner is in `process_events`.  It has decided how long to wait and whether time
events are due, it waits, it goes through the descriptors that are ready or reads the pipe, it goes
through the time events that are due at `now`, it is about to look at the count, to lock, to reset
the count and to unlock, and it runs what it has taken. -/
inductive Phase
  | between
  | decided (timeout : ℕ) (triggerTime : Bool)
  | waiting (timeout : ℕ) (triggerTime : Bool)
  | firing (fired : List Ready) (triggerTime : Bool)
  | draining (fired : List Ready) (triggerTime : Bool)
  | timing (now : ℕ)
  | checking
  | locking
  | swapped
  | stored
  | running
  deriving DecidableEq, Repr

/-- An `EventCenter` and the threads that use it. -/
structure External (α : Type) where
  externalEvents : List (α × Thread)
  externalNumEvents : ℕ
  externalLock : Option Thread
  /-- The bytes in the notify pipe. -/
  pipe : ℕ
  timers : Timers
  calls : Thread → Call α
  phase : Phase
  curProcess : List (α × Thread)
  dispatched : List (α × Thread)
  ran : List (α × Thread)

/-- What happens next.  The first six are the steps of `dispatch_event_external`; `full` is whether
the write to the pipe fails with `EAGAIN`.  Two are done by callbacks, and the others are the steps
of `process_events`. -/
inductive ExternalAction (α : Type)
  | lock (t : Thread) (e : α)
  | push (t : Thread)
  | load (t : Thread)
  | count (t : Thread)
  | unlock (t : Thread)
  | wakeup (t : Thread) (full : Bool)
  | createTimeEvent (expire : ℕ) (ctxt : Callback)
  | deleteTimeEvent (id : ℕ)
  | decide (now timeout : ℕ)
  | wait
  | wake (fired : List Ready)
  | fire
  | read
  | fired (now : ℕ)
  | time
  | check
  | swap
  | store
  | release
  | run

namespace External

variable {α : Type}

/-- The phases in which the code of the owner that is not its center runs. -/
def Phase.CallsBack : Phase → Prop
  | .between | .firing .. | .timing _ | .running => True
  | _ => False

instance (p : Phase) : Decidable (Phase.CallsBack p) := by
  unfold Phase.CallsBack
  split <;> infer_instance

/-- A thread goes on in `dispatch_event_external`. -/
def setCall (t : Thread) (c : Call α) (s : External α) : External α :=
  { s with calls := Function.update s.calls t c }

/-- How long to wait, and whether a time event is due then. -/
def timeToWait (blocking : Bool) (now timeout : ℕ) (timers : Timers) : ℕ × Bool :=
  match timers.timeEvents with
  | [] => (if blocking then timeout else 0, false)
  | e :: _ =>
      if blocking then
        if e.expire ≤ now + timeout then (e.expire - now, true) else (timeout, false)
      else (0, e.expire ≤ now)

theorem timeToWait_of_not_blocking (now timeout : ℕ) (timers : Timers) :
    (timeToWait false now timeout timers).1 = 0 := by
  unfold timeToWait
  split <;> rfl

/-- A step of a thread in `dispatch_event_external`. -/
def dispatchStep (s : External α) : ExternalAction α → Option (External α)
  | .lock t e =>
      if (s.calls t).isIdle ∧ s.externalLock = none ∧
          (t = .owner → Phase.CallsBack s.phase) then
        some ({ s with externalLock := some t }.setCall t (.locked e))
      else none
  | .push t =>
      match s.calls t with
      | .locked e =>
          some ({ s with
            externalEvents := s.externalEvents ++ [(e, t)]
            dispatched := s.dispatched ++ [(e, t)] }.setCall t .pushed)
      | _ => none
  | .load t =>
      match s.calls t with
      | .pushed => some (s.setCall t (.loaded (s.externalNumEvents = 0)))
      | _ => none
  | .count t =>
      match s.calls t with
      | .loaded wake =>
          some ({ s with externalNumEvents := s.externalNumEvents + 1 }.setCall t (.counted wake))
      | _ => none
  | .unlock t =>
      match s.calls t with
      | .counted wake => some ({ s with externalLock := none }.setCall t (.unlocked wake))
      | _ => none
  | .wakeup t full =>
      match s.calls t with
      | .unlocked wake =>
          if t ≠ .owner ∧ wake then
            -- a write fails only if the pipe is full
            if full then if s.pipe = 0 then none else some (s.setCall t .idle)
            else some ({ s with pipe := s.pipe + 1 }.setCall t .idle)
          else some (s.setCall t .idle)
      | _ => none
  | _ => none

/-- A step of the owner in `process_events`. -/
def ownerStep (s : External α) : ExternalAction α → Option (External α)
  | .createTimeEvent expire ctxt =>
      if Phase.CallsBack s.phase then
        some { s with timers := s.timers.createTimeEvent expire ctxt }
      else none
  | .deleteTimeEvent id =>
      if Phase.CallsBack s.phase then some { s with timers := s.timers.deleteTimeEvent id }
      else none
  | .decide now timeout =>
      match s.phase with
      | .between =>
          let blocking := s.externalNumEvents = 0
          let (timeout, triggerTime) := timeToWait blocking now timeout s.timers
          some { s with phase := .decided timeout triggerTime }
      | _ => none
  | .wait =>
      match s.phase with
      | .decided timeout triggerTime => some { s with phase := .waiting timeout triggerTime }
      | _ => none
  | .wake fired =>
      match s.phase with
      | .waiting _ triggerTime => some { s with phase := .firing fired triggerTime }
      | _ => none
  | .fire =>
      match s.phase with
      | .firing (.notify :: fired) triggerTime =>
          some { s with phase := .draining fired triggerTime }
      | .firing (.other :: fired) triggerTime => some { s with phase := .firing fired triggerTime }
      | _ => none
  | .read =>
      match s.phase with
      | .draining fired triggerTime =>
          if s.pipe = 0 then some { s with phase := .firing fired triggerTime }
          else some { s with pipe := s.pipe - 256 }
      | _ => none
  | .fired now =>
      match s.phase with
      | .firing [] triggerTime =>
          some { s with phase := if triggerTime then .timing now else .checking }
      | _ => none
  | .time =>
      match s.phase with
      | .timing now =>
          match s.timers.takeDue now with
          | some (_, timers) => some { s with timers := timers }
          | none => some { s with phase := .checking }
      | _ => none
  | .check =>
      match s.phase with
      | .checking =>
          some { s with phase := if s.externalNumEvents = 0 then .between else .locking }
      | _ => none
  | .swap =>
      match s.phase with
      | .locking =>
          if s.externalLock = none then
            some { s with
              externalLock := some .owner
              curProcess := s.externalEvents
              externalEvents := []
              phase := .swapped }
          else none
      | _ => none
  | .store =>
      match s.phase with
      | .swapped => some { s with externalNumEvents := 0, phase := .stored }
      | _ => none
  | .release =>
      match s.phase with
      | .stored => some { s with externalLock := none, phase := .running }
      | _ => none
  | .run =>
      match s.phase with
      | .running =>
          match s.curProcess with
          | [] => some { s with phase := .between }
          | e :: rest => some { s with ran := s.ran ++ [e], curProcess := rest }
      | _ => none
  | _ => none

/-- One step; none if it is not enabled.  The owner goes on only when its own call is over. -/
def step (s : External α) (a : ExternalAction α) : Option (External α) :=
  match a with
  | .lock .. | .push _ | .load _ | .count _ | .unlock _ | .wakeup .. => s.dispatchStep a
  | _ => if (s.calls .owner).isIdle then s.ownerStep a else none

/-- A center as it is set up, used by threads that have not dispatched anything. -/
structure Fresh (s : External α) : Prop where
  externalEvents : s.externalEvents = []
  externalNumEvents : s.externalNumEvents = 0
  externalLock : s.externalLock = none
  calls : ∀ t, s.calls t = .idle
  phase : s.phase = .between
  curProcess : s.curProcess = []
  dispatched : s.dispatched = []
  ran : s.ran = []

def machine (α : Type) : Machine (External α) (ExternalAction α) := ⟨Fresh, step⟩

/-! ## In order, and once -/

/-- The center as a queue. -/
def queue (s : External α) : Fifo (α × Thread) where
  arrived := s.dispatched
  delivered := s.ran
  held := s.curProcess ++ s.externalEvents

/-! ## The invariant -/

/-- A thread is between locking and unlocking. -/
def InSection : Call α → Prop
  | .locked _ | .pushed | .loaded _ | .counted _ => True
  | _ => False

/-- The owner holds the lock to take the queue. -/
def Takes : Phase → Prop
  | .swapped | .stored => True
  | _ => False

/-- A call that has put its event into the queue is going to write to the pipe, where the count is
`n`. -/
def Writes (n : ℕ) : Call α → Prop
  | .pushed => n = 0
  | .loaded wake | .counted wake | .unlocked wake => wake = true
  | _ => False

/-- A thread is about to write to the pipe. -/
def AboutToWrite (s : External α) (t : Thread) : Prop :=
  t ≠ .owner ∧ Writes s.externalNumEvents (s.calls t)

/-- If something is in the queue, the owner hears of it. -/
def Heard (s : External α) : Prop :=
  ∀ e rest, s.externalEvents = e :: rest → 0 < s.pipe ∨ s.AboutToWrite e.2

/-- What holds of a thread in `dispatch_event_external`. -/
def Held (s : External α) (t : Thread) : Call α → Prop
  | .locked _ | .counted _ =>
      s.externalLock = some t ∧ s.externalNumEvents = s.externalEvents.length
  | .pushed =>
      s.externalLock = some t ∧ s.externalNumEvents + 1 = s.externalEvents.length ∧
        ∃ l e, s.externalEvents = l ++ [(e, t)]
  | .loaded wake =>
      s.externalLock = some t ∧ s.externalNumEvents + 1 = s.externalEvents.length ∧
        (∃ l e, s.externalEvents = l ++ [(e, t)]) ∧ (wake = true ↔ s.externalNumEvents = 0)
  | _ => True

/-- What holds of the owner in `process_events`. -/
def Stands (s : External α) : Phase → Prop
  | .decided timeout _ | .waiting timeout _ => s.curProcess = [] ∧ (timeout ≠ 0 → s.Heard)
  | .swapped => s.externalLock = some .owner ∧ s.externalEvents = []
  | .stored =>
      s.externalLock = some .owner ∧ s.externalEvents = [] ∧ s.externalNumEvents = 0
  | .running => True
  | _ => s.curProcess = []

/-- The invariant. -/
structure Kept (s : External α) : Prop where
  queue : (fifoMachine (α × Thread)).Reached s.queue
  held : ∀ t, s.Held t (s.calls t)
  stands : s.Stands s.phase
  own : Phase.CallsBack s.phase ∨ s.calls .owner = .idle
  free : s.externalLock = none → s.externalNumEvents = s.externalEvents.length
  holder : ∀ t, s.externalLock = some t → InSection (s.calls t) ∨ t = .owner ∧ Takes s.phase

theorem Call.isIdle_iff {c : Call α} : c.isIdle ↔ c = .idle := by
  cases c <;> simp [Call.isIdle]

theorem held_of_not_inSection {s : External α} {t : Thread} {c : Call α} (h : ¬ InSection c) :
    s.Held t c := by
  cases c with
  | idle => trivial
  | unlocked wake => trivial
  | locked e => exact absurd trivial h
  | pushed => exact absurd trivial h
  | loaded wake => exact absurd trivial h
  | counted wake => exact absurd trivial h

theorem lock_of_held {s : External α} {t : Thread} {c : Call α} (h : s.Held t c)
    (hsection : InSection c) : s.externalLock = some t := by
  cases c with
  | idle => exact hsection.elim
  | unlocked wake => exact hsection.elim
  | locked e => exact h.1
  | pushed => exact h.1
  | loaded wake => exact h.1
  | counted wake => exact h.1

namespace Kept

variable {s : External α}

theorem of_fresh (h : s.Fresh) : s.Kept where
  queue := by
    apply Machine.ReachedUnder.start
    show s.queue = ⟨[], [], []⟩
    rw [External.queue, h.dispatched, h.ran, h.curProcess, h.externalEvents, List.append_nil]
  held t := by
    rw [h.calls t]
    trivial
  stands := by
    rw [h.phase]
    exact h.curProcess
  own := .inr (h.calls .owner)
  free _ := by
    rw [h.externalNumEvents, h.externalEvents, List.length_nil]
  holder t hlock := by
    rw [h.externalLock] at hlock
    cases hlock

/-- Only one thread is between locking and unlocking. -/
theorem not_inSection (h : s.Kept) {t u : Thread} (hlock : s.externalLock = some t) (hne : u ≠ t) :
    ¬ InSection (s.calls u) := by
  intro hsection
  have hlock' := lock_of_held (h.held u) hsection
  exact hne (Option.some.inj (hlock'.symm.trans hlock))

/-- And it is not the owner taking the queue. -/
theorem not_takes (h : s.Kept) {t : Thread} (hsection : InSection (s.calls t)) :
    ¬ Takes s.phase := by
  intro htakes
  have hlock := lock_of_held (h.held t) hsection
  have hstands := h.stands
  have hown := h.own
  cases hp : s.phase with
  | swapped =>
    rw [hp] at hstands hown
    have howner : t = .owner := Option.some.inj (hlock.symm.trans hstands.1)
    rw [howner, hown.resolve_left id] at hsection
    exact hsection
  | stored =>
    rw [hp] at hstands hown
    have howner : t = .owner := Option.some.inj (hlock.symm.trans hstands.1)
    rw [howner, hown.resolve_left id] at hsection
    exact hsection
  | _ =>
    rw [hp] at htakes
    exact htakes

/-- Nor does the owner take the queue while nobody has the lock. -/
theorem not_takes_of_free (h : s.Kept) (hlock : s.externalLock = none) : ¬ Takes s.phase := by
  intro htakes
  have hstands := h.stands
  cases hp : s.phase with
  | swapped | stored =>
    rw [hp] at hstands
    have hlock' := hstands.1
    rw [hlock] at hlock'
    cases hlock'
  | _ =>
    rw [hp] at htakes
    exact htakes

/-- The owner dispatches only where the code of others runs. -/
theorem callsBack (h : s.Kept) {t : Thread} (hcall : (s.calls t).isIdle = false)
    (ht : t = .owner) : Phase.CallsBack s.phase := by
  subst ht
  apply h.own.resolve_right
  intro hidle
  rw [hidle] at hcall
  cases hcall

/-- What holds of the owner still holds, if it has not taken the lock and hears what it heard. -/
theorem stands_of {u : External α} (h : s.Kept) (hphase : u.phase = s.phase)
    (hcur : u.curProcess = s.curProcess) (htakes : ¬ Takes s.phase)
    (hheard : ¬ Phase.CallsBack s.phase → s.Heard → u.Heard) : u.Stands u.phase := by
  have hstands := h.stands
  rw [hphase]
  cases hp : s.phase with
  | swapped | stored =>
    rw [hp] at htakes
    exact absurd trivial htakes
  | running => trivial
  | decided timeout triggerTime =>
    rw [hp] at hstands
    rw [hp] at hheard
    exact ⟨hcur.trans hstands.1, fun htimeout => hheard id (hstands.2 htimeout)⟩
  | waiting timeout triggerTime =>
    rw [hp] at hstands
    rw [hp] at hheard
    exact ⟨hcur.trans hstands.1, fun htimeout => hheard id (hstands.2 htimeout)⟩
  | _ =>
    rw [hp] at hstands
    exact hcur.trans hstands

/-- A step of a thread that has, had or will have the lock. -/
theorem of_section {u : External α} (h : s.Kept) {t : Thread} {c : Call α}
    (hcalls : u.calls = Function.update s.calls t c) (hphase : u.phase = s.phase)
    (hcur : u.curProcess = s.curProcess) (hqueue : (fifoMachine (α × Thread)).Reached u.queue)
    (hothers : ∀ v, v ≠ t → ¬ InSection (s.calls v)) (htakes : ¬ Takes s.phase)
    (hheld : u.Held t c) (hown : t = .owner → Phase.CallsBack s.phase)
    (hfree : u.externalLock = none → u.externalNumEvents = u.externalEvents.length)
    (hholder : ∀ v, u.externalLock = some v → v = t ∧ InSection c)
    (hheard : ¬ Phase.CallsBack s.phase → s.Heard → u.Heard) : u.Kept where
  queue := hqueue
  held v := by
    rw [hcalls]
    by_cases hv : v = t
    · rw [hv, Function.update_self]
      exact hheld
    · rw [Function.update_of_ne hv]
      exact held_of_not_inSection (hothers v hv)
  stands := h.stands_of hphase hcur htakes hheard
  own := by
    rw [hphase, hcalls]
    by_cases ht : t = .owner
    · exact .inl (hown ht)
    · rw [Function.update_of_ne (Ne.symm ht)]
      exact h.own
  free := hfree
  holder v hv := by
    obtain ⟨rfl, hsection⟩ := hholder v hv
    rw [hcalls, Function.update_self]
    exact .inl hsection

/-- A step of a thread that keeps the lock. -/
theorem within {u : External α} (h : s.Kept) {t : Thread} {c : Call α}
    (hlock : s.externalLock = some t) (hsection : InSection (s.calls t))
    (hcalls : u.calls = Function.update s.calls t c) (hphase : u.phase = s.phase)
    (hcur : u.curProcess = s.curProcess) (hqueue : u.queue = s.queue)
    (hlock' : u.externalLock = s.externalLock) (hheld : u.Held t c) (hsection' : InSection c)
    (hheard : s.Heard → u.Heard) : u.Kept := by
  have hcall : (s.calls t).isIdle = false := by
    cases hc : s.calls t with
    | idle =>
      rw [hc] at hsection
      exact hsection.elim
    | _ => rfl
  refine h.of_section hcalls hphase hcur ?_ (fun v hv => h.not_inSection hlock hv)
    (h.not_takes hsection) hheld (h.callsBack hcall) ?_ ?_ (fun _ => hheard)
  · rw [hqueue]
    exact h.queue
  · intro hfree
    rw [hlock', hlock] at hfree
    cases hfree
  · intro v hv
    rw [hlock', hlock] at hv
    exact ⟨(Option.some.inj hv).symm, hsection'⟩

end Kept

/-- Nobody's call goes on but that of one thread, which is going to write as before. -/
theorem heard_of {s u : External α} {t : Thread} {c : Call α} (hpipe : u.pipe = s.pipe)
    (hevents : u.externalEvents = s.externalEvents)
    (hcalls : u.calls = Function.update s.calls t c)
    (hothers : ∀ v, v ≠ t →
      Writes s.externalNumEvents (s.calls v) → Writes u.externalNumEvents (s.calls v))
    (hwrites : t ≠ .owner → Writes s.externalNumEvents (s.calls t) → Writes u.externalNumEvents c)
    (hheard : s.Heard) : u.Heard := by
  intro e rest hfirst
  rw [hevents] at hfirst
  rw [hpipe]
  rcases hheard e rest hfirst with hbyte | ⟨howner, habout⟩
  · exact .inl hbyte
  · refine .inr ⟨howner, ?_⟩
    rw [hcalls]
    by_cases he : e.2 = t
    · rw [he, Function.update_self]
      rw [he] at howner habout
      exact hwrites howner habout
    · rw [Function.update_of_ne he]
      exact hothers e.2 he habout

/-- Outside of the lock the count does not matter to a call. -/
theorem writes_of_not_inSection {c : Call α} (h : ¬ InSection c) {n m : ℕ} (hwrites : Writes n c) :
    Writes m c := by
  cases c with
  | pushed => exact absurd trivial h
  | _ => exact hwrites

/-- A thread that puts an event into an empty queue is going to write, and into one that is not
empty it need not. -/
theorem heard_push {s : External α} {t : Thread} {e : α} (hcall : s.calls t = .locked e)
    (hcount : s.externalNumEvents = s.externalEvents.length) (ht : t ≠ .owner) (hheard : s.Heard) :
    Heard ({ s with
      externalEvents := s.externalEvents ++ [(e, t)]
      dispatched := s.dispatched ++ [(e, t)] }.setCall t .pushed) := by
  intro first rest hfirst
  have hfirst' : (s.externalEvents ++ [(e, t)]) = first :: rest := hfirst
  cases hevents : s.externalEvents with
  | nil =>
    rw [hevents] at hfirst'
    obtain ⟨rfl, -⟩ := List.cons.inj hfirst'
    refine .inr ⟨ht, ?_⟩
    show Writes s.externalNumEvents (Function.update s.calls t .pushed t)
    rw [Function.update_self]
    show s.externalNumEvents = 0
    rw [hcount, hevents, List.length_nil]
  | cons first' rest' =>
    rw [hevents] at hfirst'
    obtain ⟨rfl, -⟩ := List.cons.inj hfirst'
    rcases hheard _ _ hevents with hbyte | ⟨hother, hwrites⟩
    · exact .inl hbyte
    · have hne : first'.2 ≠ t := by
        intro hsame
        rw [hsame, hcall] at hwrites
        exact hwrites
      refine .inr ⟨hother, ?_⟩
      show Writes s.externalNumEvents (Function.update s.calls t .pushed first'.2)
      rw [Function.update_of_ne hne]
      exact hwrites

namespace Kept

variable {s : External α}

/-! ### `dispatch_event_external` -/

/-- A call ends, with a byte in the pipe if it had to write one. -/
theorem wakes (h : s.Kept) {t : Thread} {wake : Bool} (hcall : s.calls t = .unlocked wake) {n : ℕ}
    (hpipe : s.pipe ≤ n) (hbyte : t ≠ .owner → wake → 0 < n) :
    ({ s with pipe := n }.setCall t .idle).Kept := by
  have hcalls (v : Thread) (hv : v ≠ t) : Function.update s.calls t .idle v = s.calls v :=
    Function.update_of_ne hv ..
  have hheard (hold : s.Heard) : ({ s with pipe := n }.setCall t .idle).Heard := by
    intro e rest hfirst
    rcases hold e rest hfirst with hsome | ⟨howner, hwrites⟩
    · exact .inl (hsome.trans_le hpipe)
    · by_cases he : e.2 = t
      · rw [he, hcall] at hwrites
        exact .inl (hbyte (he ▸ howner) hwrites)
      · refine .inr ⟨howner, ?_⟩
        show Writes s.externalNumEvents (Function.update s.calls t .idle e.2)
        rw [hcalls e.2 he]
        exact hwrites
  constructor
  · exact h.queue
  · intro v
    show Held _ v (Function.update s.calls t .idle v)
    by_cases hv : v = t
    · rw [hv, Function.update_self]
      trivial
    · rw [hcalls v hv]
      have hheld := h.held v
      cases hc : s.calls v <;> rw [hc] at hheld <;> exact hheld
  · have hstands := h.stands
    show Stands _ s.phase
    cases hp : s.phase with
    | decided timeout triggerTime =>
      rw [hp] at hstands
      exact ⟨hstands.1, fun htimeout => hheard (hstands.2 htimeout)⟩
    | waiting timeout triggerTime =>
      rw [hp] at hstands
      exact ⟨hstands.1, fun htimeout => hheard (hstands.2 htimeout)⟩
    | _ =>
      rw [hp] at hstands
      exact hstands
  · show _ ∨ Function.update s.calls t .idle .owner = .idle
    by_cases ht : .owner = t
    · rw [← ht, Function.update_self]
      exact .inr rfl
    · rw [hcalls .owner ht]
      exact h.own
  · exact h.free
  · intro v hv
    show InSection (Function.update s.calls t .idle v) ∨ _
    have hne : v = t → InSection (s.calls v) → False := by
      rintro rfl hsection
      rw [hcall] at hsection
      exact hsection
    rcases h.holder v hv with hsection | htakes
    · rw [hcalls v fun hvt => hne hvt hsection]
      exact .inl hsection
    · exact .inr htakes

theorem dispatchStep (h : s.Kept) {a : ExternalAction α} {u : External α}
    (hstep : s.dispatchStep a = some u) : u.Kept := by
  cases a with
  | lock t e =>
    simp only [External.dispatchStep] at hstep
    split at hstep
    · rename_i hguard
      rw [← Option.some.inj hstep]
      obtain ⟨hidle, hlock, hown⟩ := hguard
      rw [Call.isIdle_iff] at hidle
      have hnobody (v : Thread) : ¬ InSection (s.calls v) := by
        intro hsection
        have hlock' := lock_of_held (h.held v) hsection
        rw [hlock] at hlock'
        cases hlock'
      refine h.of_section rfl rfl rfl h.queue (fun v _ => hnobody v) (h.not_takes_of_free hlock)
        ?_ ?_ ?_ ?_ ?_
      · exact ⟨rfl, h.free hlock⟩
      · exact hown
      · exact fun hfree => absurd hfree (Option.some_ne_none t)
      · exact fun v hv => ⟨(Option.some.inj hv).symm, trivial⟩
      · intro _
        refine heard_of rfl rfl rfl (fun _ _ hwrites => hwrites) ?_
        intro _ hwrites
        rw [hidle] at hwrites
        exact hwrites.elim
    · cases hstep
  | push t =>
    simp only [External.dispatchStep] at hstep
    split at hstep
    · rename_i e hcall
      rw [← Option.some.inj hstep]
      have hheld := h.held t
      rw [hcall] at hheld
      have hsection : InSection (s.calls t) := by
        rw [hcall]
        trivial
      have hqueue : (fifoMachine (α × Thread)).Reached
          ⟨s.dispatched ++ [(e, t)], s.ran, s.curProcess ++ (s.externalEvents ++ [(e, t)])⟩ := by
        have harrive := Fifo.reached_arrive h.queue [(e, t)]
        rwa [Fifo.step, External.queue, List.append_assoc] at harrive
      have howner := h.callsBack (t := t) (by rw [hcall]; rfl)
      refine h.of_section rfl rfl rfl hqueue (fun v hv => h.not_inSection hheld.1 hv)
        (h.not_takes hsection) ?_ ?_ ?_ ?_ ?_
      · refine ⟨hheld.1, ?_, s.externalEvents, e, rfl⟩
        show s.externalNumEvents + 1 = (s.externalEvents ++ [(e, t)]).length
        rw [hheld.2, List.length_append, List.length_singleton]
      · exact howner
      · intro hlock
        exact absurd (hheld.1.symm.trans hlock) (Option.some_ne_none t)
      · exact fun v hv => ⟨Option.some.inj (hv.symm.trans hheld.1), trivial⟩
      · exact fun hcalls => heard_push hcall hheld.2 fun ht => hcalls (howner ht)
    · cases hstep
  | load t =>
    simp only [External.dispatchStep] at hstep
    split at hstep
    · rename_i hcall
      rw [← Option.some.inj hstep]
      have hheld := h.held t
      rw [hcall] at hheld
      refine h.within hheld.1 (by rw [hcall]; trivial) rfl rfl rfl rfl rfl ?_ trivial ?_
      · exact ⟨hheld.1, hheld.2.1, hheld.2.2, decide_eq_true_iff⟩
      · refine heard_of rfl rfl rfl (fun _ _ hwrites => hwrites) ?_
        intro _ hwrites
        rw [hcall] at hwrites
        exact decide_eq_true hwrites
    · cases hstep
  | count t =>
    simp only [External.dispatchStep] at hstep
    split at hstep
    · rename_i wake hcall
      rw [← Option.some.inj hstep]
      have hheld := h.held t
      rw [hcall] at hheld
      refine h.within hheld.1 (by rw [hcall]; trivial) rfl rfl rfl rfl rfl ?_ trivial ?_
      · exact ⟨hheld.1, hheld.2.1⟩
      · refine heard_of rfl rfl rfl ?_ ?_
        · exact fun v hv => writes_of_not_inSection (h.not_inSection hheld.1 hv)
        · intro _ hwrites
          rw [hcall] at hwrites
          exact hwrites
    · cases hstep
  | unlock t =>
    simp only [External.dispatchStep] at hstep
    split at hstep
    · rename_i wake hcall
      rw [← Option.some.inj hstep]
      have hheld := h.held t
      rw [hcall] at hheld
      refine h.of_section rfl rfl rfl h.queue (fun v hv => h.not_inSection hheld.1 hv)
        (h.not_takes (by rw [hcall]; trivial)) trivial
        (h.callsBack (by rw [hcall]; rfl)) ?_ ?_ ?_
      · exact fun _ => hheld.2
      · exact fun v hv => absurd hv.symm (Option.some_ne_none v)
      · intro _
        refine heard_of rfl rfl rfl (fun _ _ hwrites => hwrites) ?_
        intro _ hwrites
        rw [hcall] at hwrites
        exact hwrites
    · cases hstep
  | wakeup t full =>
    simp only [External.dispatchStep] at hstep
    split at hstep
    · rename_i wake hcall
      split at hstep
      · split at hstep
        · split at hstep
          · cases hstep
          · rename_i hfull
            rw [← Option.some.inj hstep]
            exact h.wakes hcall le_rfl fun _ _ => Nat.pos_of_ne_zero hfull
        · rw [← Option.some.inj hstep]
          exact h.wakes hcall (Nat.le_succ _) fun _ _ => Nat.succ_pos _
      · rename_i hskips
        rw [← Option.some.inj hstep]
        exact h.wakes hcall le_rfl fun ht hwake => absurd ⟨ht, hwake⟩ hskips
    · cases hstep
  | _ => cases hstep

/-! ### `process_events` -/

/-- The owner goes on without a change to what the threads share but for the pipe. -/
theorem moves (h : s.Kept) (hidle : s.calls .owner = .idle) {p q : Phase} {n : ℕ}
    {timers : Timers} (hp : s.phase = q) (htakes : ¬ Takes q)
    (hstands : ({ s with phase := p, pipe := n, timers := timers }).Stands p) :
    ({ s with phase := p, pipe := n, timers := timers }).Kept where
  queue := h.queue
  held t := by
    have hheld := h.held t
    show Held _ t (s.calls t)
    cases hc : s.calls t <;> rw [hc] at hheld <;> exact hheld
  stands := hstands
  own := .inr hidle
  free := h.free
  holder t ht := .inl ((h.holder t ht).resolve_right fun htaken => htakes (hp ▸ htaken.2))

/-- Time events are the owner's. -/
theorem onTimers (h : s.Kept) (timers : Timers) : ({ s with timers := timers }).Kept where
  queue := h.queue
  held t := by
    have hheld := h.held t
    show Held _ t (s.calls t)
    cases hc : s.calls t <;> rw [hc] at hheld <;> exact hheld
  stands := by
    have hstands := h.stands
    show Stands _ s.phase
    cases hp : s.phase <;> rw [hp] at hstands <;> exact hstands
  own := h.own
  free := h.free
  holder := h.holder

/-- The owner takes the lock, has it, or gives it back. -/
theorem of_owner {u : External α} (hidle : s.calls .owner = .idle) (hcalls : u.calls = s.calls)
    (hnobody : ∀ t, ¬ InSection (s.calls t)) (hqueue : (fifoMachine (α × Thread)).Reached u.queue)
    (hstands : u.Stands u.phase)
    (hfree : u.externalLock = none → u.externalNumEvents = u.externalEvents.length)
    (hholder : ∀ t, u.externalLock = some t → t = .owner ∧ Takes u.phase) : u.Kept where
  queue := hqueue
  held t := by
    rw [hcalls]
    exact held_of_not_inSection (hnobody t)
  stands := hstands
  own := .inr (hcalls ▸ hidle)
  free := hfree
  holder t ht := .inr (hholder t ht)

/-- While the owner has the lock nobody else is between locking and unlocking. -/
theorem nobody (h : s.Kept) (hidle : s.calls .owner = .idle)
    (hlock : s.externalLock = some .owner) (t : Thread) : ¬ InSection (s.calls t) := by
  by_cases ht : t = .owner
  · rw [ht, hidle]
    exact id
  · exact h.not_inSection hlock ht

/-- The owner runs a callback. -/
theorem runs (h : s.Kept) (hphase : s.phase = .running) {ran curProcess : List (α × Thread)}
    (hqueue : (fifoMachine (α × Thread)).Reached
      ⟨s.dispatched, ran, curProcess ++ s.externalEvents⟩) :
    ({ s with ran := ran, curProcess := curProcess }).Kept where
  queue := hqueue
  held t := by
    have hheld := h.held t
    show Held _ t (s.calls t)
    cases hc : s.calls t <;> rw [hc] at hheld <;> exact hheld
  stands := by
    show Stands _ s.phase
    rw [hphase]
    trivial
  own := h.own
  free := h.free
  holder := h.holder

/-- While nobody has counted anything, the first event is one that somebody is about to announce. -/
theorem heard_of_zero (h : s.Kept) (htakes : ¬ Takes s.phase) (hidle : s.calls .owner = .idle)
    (hzero : s.externalNumEvents = 0) : s.Heard := by
  intro e rest hevents
  cases hlock : s.externalLock with
  | none =>
    have hlength := h.free hlock
    rw [hzero, hevents] at hlength
    cases hlength
  | some t =>
    have hsection := (h.holder t hlock).resolve_right fun htaken => htakes htaken.2
    have hheld := h.held t
    have ht : t ≠ .owner := by
      rintro rfl
      rw [hidle] at hsection
      exact hsection
    -- a single event, put there by the thread that has the lock
    have hsingle (hlast : ∃ l e', s.externalEvents = l ++ [(e', t)])
        (hlength : s.externalNumEvents + 1 = s.externalEvents.length) : e.2 = t := by
      obtain ⟨l, e', hl⟩ := hlast
      rw [hzero, hl, List.length_append, List.length_singleton] at hlength
      have hnil : l = [] := List.length_eq_zero_iff.mp (by omega)
      rw [hnil, List.nil_append, hevents] at hl
      rw [(List.cons.inj hl).1]
    have hnotEmpty : s.externalNumEvents ≠ s.externalEvents.length := by
      rw [hzero, hevents]
      exact Nat.ne_of_lt (Nat.succ_pos _)
    cases hc : s.calls t with
    | pushed =>
      rw [hc] at hheld
      have he := hsingle hheld.2.2 hheld.2.1
      refine .inr ⟨he ▸ ht, ?_⟩
      rw [he, hc]
      exact hzero
    | loaded wake =>
      rw [hc] at hheld
      have he := hsingle hheld.2.2.1 hheld.2.1
      refine .inr ⟨he ▸ ht, ?_⟩
      rw [he, hc]
      exact hheld.2.2.2.mpr hzero
    | locked e' =>
      rw [hc] at hheld
      exact absurd hheld.2 hnotEmpty
    | counted wake =>
      rw [hc] at hheld
      exact absurd hheld.2 hnotEmpty
    | idle =>
      rw [hc] at hsection
      exact hsection.elim
    | unlocked wake =>
      rw [hc] at hsection
      exact hsection.elim

theorem ownerStep (h : s.Kept) (hidle : s.calls .owner = .idle) {a : ExternalAction α}
    {u : External α} (hstep : s.ownerStep a = some u) : u.Kept := by
  have hstands := h.stands
  cases a with
  | createTimeEvent expire ctxt =>
    simp only [External.ownerStep] at hstep
    split at hstep
    · rw [← Option.some.inj hstep]
      exact h.onTimers _
    · cases hstep
  | deleteTimeEvent id =>
    simp only [External.ownerStep] at hstep
    split at hstep
    · rw [← Option.some.inj hstep]
      exact h.onTimers _
    · cases hstep
  | decide now timeout =>
    simp only [External.ownerStep] at hstep
    split at hstep
    · rename_i hp
      rw [hp] at hstands
      rw [← Option.some.inj hstep]
      refine h.moves hidle hp id ⟨hstands, ?_⟩
      intro htimeout
      have hzero : s.externalNumEvents = 0 := by
        by_contra hsome
        rw [decide_eq_false hsome] at htimeout
        exact htimeout (timeToWait_of_not_blocking _ _ _)
      exact h.heard_of_zero (by rw [hp]; exact id) hidle hzero
    · cases hstep
  | wait =>
    simp only [External.ownerStep] at hstep
    split at hstep
    · rename_i hp
      rw [hp] at hstands
      rw [← Option.some.inj hstep]
      exact h.moves hidle hp id hstands
    · cases hstep
  | wake fired =>
    simp only [External.ownerStep] at hstep
    split at hstep
    · rename_i hp
      rw [hp] at hstands
      rw [← Option.some.inj hstep]
      exact h.moves hidle hp id hstands.1
    · cases hstep
  | fire =>
    simp only [External.ownerStep] at hstep
    split at hstep
    · rename_i hp
      rw [hp] at hstands
      rw [← Option.some.inj hstep]
      exact h.moves hidle hp id hstands
    · rename_i hp
      rw [hp] at hstands
      rw [← Option.some.inj hstep]
      exact h.moves hidle hp id hstands
    · cases hstep
  | read =>
    simp only [External.ownerStep] at hstep
    split at hstep
    · rename_i hp
      rw [hp] at hstands
      split at hstep
      · rw [← Option.some.inj hstep]
        exact h.moves hidle hp id hstands
      · rw [← Option.some.inj hstep]
        generalize s.pipe - 256 = n
        apply h.moves hidle hp id
        rw [hp]
        exact hstands
    · cases hstep
  | fired now =>
    simp only [External.ownerStep] at hstep
    split at hstep
    · rename_i hp
      rw [hp] at hstands
      rw [← Option.some.inj hstep]
      refine h.moves hidle hp id ?_
      split <;> exact hstands
    · cases hstep
  | time =>
    simp only [External.ownerStep] at hstep
    split at hstep
    · rename_i hp
      rw [hp] at hstands
      split at hstep
      · rw [← Option.some.inj hstep]
        exact h.onTimers _
      · rw [← Option.some.inj hstep]
        exact h.moves hidle hp id hstands
    · cases hstep
  | check =>
    simp only [External.ownerStep] at hstep
    split at hstep
    · rename_i hp
      rw [hp] at hstands
      rw [← Option.some.inj hstep]
      refine h.moves hidle hp id ?_
      split <;> exact hstands
    · cases hstep
  | swap =>
    simp only [External.ownerStep] at hstep
    split at hstep
    · rename_i hp
      rw [hp] at hstands
      split at hstep
      · rename_i hlock
        rw [← Option.some.inj hstep]
        refine of_owner hidle rfl ?_ ?_ ⟨rfl, rfl⟩ ?_ ?_
        · intro t hsection
          have hlock' := lock_of_held (h.held t) hsection
          exact Option.some_ne_none t (hlock'.symm.trans hlock)
        · have hqueue := h.queue
          have hcur : s.curProcess = [] := hstands
          rw [External.queue, hcur, List.nil_append] at hqueue
          rw [External.queue, List.append_nil]
          exact hqueue
        · exact fun hfree => absurd hfree (Option.some_ne_none _)
        · exact fun t ht => ⟨(Option.some.inj ht).symm, trivial⟩
      · cases hstep
    · cases hstep
  | store =>
    simp only [External.ownerStep] at hstep
    split at hstep
    · rename_i hp
      rw [hp] at hstands
      rw [← Option.some.inj hstep]
      refine of_owner hidle rfl (h.nobody hidle hstands.1) h.queue
        ⟨hstands.1, hstands.2, rfl⟩ ?_ ?_
      · intro hfree
        exact absurd (hstands.1.symm.trans hfree) (Option.some_ne_none _)
      · exact fun t ht => ⟨(Option.some.inj (hstands.1.symm.trans ht)).symm, trivial⟩
    · cases hstep
  | release =>
    simp only [External.ownerStep] at hstep
    split at hstep
    · rename_i hp
      rw [hp] at hstands
      rw [← Option.some.inj hstep]
      refine of_owner hidle rfl (h.nobody hidle hstands.1) h.queue trivial ?_ ?_
      · intro _
        show s.externalNumEvents = s.externalEvents.length
        rw [hstands.2.1, hstands.2.2, List.length_nil]
      · exact fun t ht => absurd ht.symm (Option.some_ne_none t)
    · cases hstep
  | run =>
    simp only [External.ownerStep] at hstep
    split at hstep
    · rename_i hp
      rw [hp] at hstands
      split at hstep
      · rename_i hcur
        rw [← Option.some.inj hstep]
        exact h.moves hidle hp id hcur
      · rename_i e rest hcur
        rw [← Option.some.inj hstep]
        have hdeliver : (fifoMachine (α × Thread)).Reached
            ⟨s.dispatched, s.ran ++ [e], rest ++ s.externalEvents⟩ := by
          apply Fifo.reached_deliver h.queue
          rw [External.queue, hcur]
          rfl
        exact h.runs hp hdeliver
    · cases hstep
  | _ => cases hstep

/-- **The step lemma.** -/
theorem step (h : s.Kept) {a : ExternalAction α} {u : External α} (hstep : s.step a = some u) :
    u.Kept := by
  simp only [External.step] at hstep
  split at hstep
  case h_7 =>
    split at hstep
    · rename_i hidle
      exact h.ownerStep (Call.isIdle_iff.mp hidle) hstep
    · cases hstep
  all_goals exact h.dispatchStep hstep

end Kept

theorem kept_of_reached {s : External α} (hreached : (machine α).Reached s) : s.Kept :=
  hreached.invariant Kept (fun _ hfresh => .of_fresh hfresh) fun _ _ _ h _ hstep => h.step hstep

/-! ## Nothing is lost, repeated or slept through -/

/-- **What holds of the external events.**  The callbacks run so far, those taken and those in the
queue are the dispatched ones in their order, and what is taken is run before the pass is over; the
count is right whenever the lock is free; and a wait with a timeout is not slept through. -/
structure Delivered (s : External α) : Prop where
  inOrder : s.ran ++ s.curProcess ++ s.externalEvents = s.dispatched
  passOver : s.phase = .between → s.curProcess = []
  counted : s.externalLock = none → s.externalNumEvents = s.externalEvents.length
  woken : ∀ timeout triggerTime, s.phase = .waiting timeout triggerTime → timeout ≠ 0 →
    ∀ e rest, s.externalEvents = e :: rest → 0 < s.pipe ∨ s.AboutToWrite e.2

theorem delivered_of_reached {s : External α} (hreached : (machine α).Reached s) :
    s.Delivered := by
  have h := kept_of_reached hreached
  have hstands := h.stands
  constructor
  · rw [List.append_assoc]
    exact Fifo.delivered_append_held h.queue
  · intro hp
    rw [hp] at hstands
    exact hstands
  · exact h.free
  · intro timeout triggerTime hp htimeout
    rw [hp] at hstands
    exact hstands.2 htimeout

/-- A center without events. -/
def created : External ℕ where
  externalEvents := []
  externalNumEvents := 0
  externalLock := none
  pipe := 0
  timers := ⟨[], 1⟩
  calls _ := .idle
  phase := .between
  curProcess := []
  dispatched := []
  ran := []

theorem fresh_created : created.Fresh where
  externalEvents := rfl
  externalNumEvents := rfl
  externalLock := rfl
  calls _ := rfl
  phase := rfl
  curProcess := rfl
  dispatched := rfl
  ran := rfl

/-- A thread dispatches while the owner waits; it is about to write, the owner is woken up, and the
callback runs. -/
theorem delivered_of_reached_woken :
    ∃ s t : External ℕ, s.phase = .waiting 500 false ∧ s.externalEvents = [(7, .other 0)] ∧
      s.pipe = 0 ∧ s.Delivered ∧ t.phase = .between ∧ t.ran = [(7, .other 0)] ∧ t.Delivered := by
  obtain ⟨s, t, hreplay, hreplay', hp, hevents, hpipe, hp', hran⟩ : ∃ s t,
      (machine ℕ).replay (fun _ _ => True) created
        [.decide 0 500, .wait, .lock (.other 0) 7, .push (.other 0), .load (.other 0),
          .count (.other 0), .unlock (.other 0)] = some s ∧
      (machine ℕ).replay (fun _ _ => True) s
        [.wakeup (.other 0) false, .wake [.notify], .fire, .read, .read, .fired 1, .check, .swap,
          .store, .release, .run, .run] = some t ∧
      s.phase = .waiting 500 false ∧ s.externalEvents = [(7, .other 0)] ∧ s.pipe = 0 ∧
        t.phase = .between ∧ t.ran = [(7, .other 0)] :=
    ⟨_, _, rfl, rfl, rfl, rfl, rfl, rfl, rfl⟩
  have hs : (machine ℕ).Reached s := .of_replay (.start fresh_created) hreplay
  exact ⟨s, t, hp, hevents, hpipe, delivered_of_reached hs, hp', hran,
    delivered_of_reached (.of_replay hs hreplay')⟩

end External

end HwAsync.Event
