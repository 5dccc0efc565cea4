/-
# Callbacks that are handed to centers

A thread can have a callback run by other threads, and wait until it has been: `submit_to` hands a
function to one center, and `drain` hands one callback to every worker.  The callback is an object
on the stack of the caller, which is gone as soon as the caller returns, or an object that deletes
itself if nobody waits for it.

The queues of the centers are those of `External`, with `none` for the callback in question and
`some` for all others; the object is a monitor.  What a center does in `do_request` is taken apart
into the single accesses, and while its thread is in there it does nothing else, but that the
function it was given may call whatever a callback may call.  `touched` says whether the object has
been used while it was not there.

Any thread may dispatch other callbacks to the centers at any time, the caller among them.
-/

import HwAsync.Event.External
import HwAsync.Lib.Monitor

namespace HwAsync.Event

open HwAsync.Lib

/-- A callback and how it is handed over: the code of its monitor, the centers it goes to, who
hands it over, and whether nobody waits for it. -/
structure HandoffConfig (σ : Type) where
  code : MonitorCode σ
  targets : List ℕ
  caller : Thread
  nowait : Bool

namespace HandoffConfig

variable {σ : Type}

/-- The caller runs the function itself if it is the thread of the center and would wait. -/
def direct (cfg : HandoffConfig σ) : Bool := !cfg.nowait && cfg.caller = .owner

end HandoffConfig

/-- How far the caller is. -/
inductive Stage
  | before
  | dispatching (rest : List ℕ)
  | sending (i : ℕ) (rest : List ℕ)
  | waiting
  | after
  deriving DecidableEq, Repr

/-- How far a center is in `do_request`: it is about to call the function, to lock, it holds the
lock, it has unlocked. -/
inductive Exec
  | idle
  | called
  | performed
  | inside
  | unlocked
  deriving DecidableEq, Repr

/-- The centers, the callback and its caller. -/
structure Handoff (α σ : Type) where
  centers : ℕ → External (Option α)
  monitor : Monitor σ ℕ
  stage : Stage
  exec : ℕ → Exec
  /-- The centers that have called the function. -/
  performed : List ℕ
  alive : Bool
  freed : ℕ
  touched : Bool

/-- What happens next.  A step of the caller on the monitor is one of `lock`, `look`, `wake` and
`pass`. -/
inductive HandoffAction (α : Type)
  | center (i : ℕ) (a : ExternalAction (Option α))
  | start
  | send
  | sent
  | wait
  | waits (a : MonitorAction ℕ)
  | perform (i : ℕ)
  | enter (i : ℕ)
  | exec (i : ℕ)
  | leave (i : ℕ)
  | finish (i : ℕ)

namespace ExternalAction

variable {β : Type}

/-- A step of the thread of the center. -/
def byOwner : ExternalAction β → Bool
  | .lock t _ | .push t | .load t | .count t | .unlock t | .wakeup t _ => t = .owner
  | _ => true

/-- A step of something that a callback may call. -/
def callsOut : ExternalAction β → Bool
  | .lock .. | .push _ | .load _ | .count _ | .unlock _ | .wakeup .. => true
  | .createTimeEvent .. | .deleteTimeEvent _ => true
  | _ => false

/-- Everything but a dispatch of the callback in question. -/
def ordinary {α : Type} : ExternalAction (Option α) → Bool
  | .lock _ e => e.isSome
  | _ => true

end ExternalAction

/-- Whether a center that is so far in `do_request` takes a step. -/
def Exec.allows {β : Type} (x : Exec) (a : ExternalAction β) : Bool :=
  match x with
  | .idle => true
  | .called => !a.byOwner || a.callsOut
  | _ => !a.byOwner

/-- Whether a step calls `do_request` of the callback in question. -/
def External.begins {α : Type} (c : External (Option α)) : ExternalAction (Option α) → Bool
  | .run =>
      match c.phase, c.curProcess with
      | .running, (none, _) :: _ => true
      | _, _ => false
  | _ => false

namespace Handoff

variable {α σ : Type}

/-- The object is used. -/
def touch (s : Handoff α σ) : Handoff α σ := { s with touched := s.touched || !s.alive }

/-- A center goes on in `do_request`. -/
def setExec (i : ℕ) (x : Exec) (s : Handoff α σ) : Handoff α σ :=
  { s with exec := Function.update s.exec i x }

def setCenter (i : ℕ) (c : External (Option α)) (s : Handoff α σ) : Handoff α σ :=
  { s with centers := Function.update s.centers i c }

def setMonitor (m : Monitor σ ℕ) (s : Handoff α σ) : Handoff α σ := { s with monitor := m }

/-- A step of the caller. -/
def callerStep (cfg : HandoffConfig σ) (s : Handoff α σ) :
    HandoffAction α → Option (Handoff α σ)
  | .start =>
      if s.stage = .before then
        if cfg.direct then
          some { s with performed := s.performed ++ cfg.targets, stage := .after }
        else some { s with stage := .dispatching cfg.targets, alive := true }
      else none
  | .send =>
      match s.stage with
      | .dispatching (i :: rest) =>
          match (s.centers i).step (.lock cfg.caller none) with
          | some c => some { s.setCenter i c with stage := .sending i rest }
          | none => none
      | _ => none
  | .sent =>
      match s.stage with
      | .sending i rest =>
          if ((s.centers i).calls cfg.caller).isIdle then
            some { s with stage := .dispatching rest }
          else none
      | _ => none
  | .wait =>
      if s.stage = .dispatching [] then
        if cfg.nowait then some { s with stage := .after }
        else
          match s.monitor.step cfg.code .wait with
          | some m => some { s.touch.setMonitor m with stage := .waiting }
          | none => none
      else none
  | .waits a =>
      if s.stage = .waiting ∧ a.goesOn then
        match s.monitor.step cfg.code a with
        | some m =>
            -- the object is on the stack of the caller
            if m.waiter = .returned then
              some { s.touch.setMonitor m with stage := .after, alive := false }
            else some (s.touch.setMonitor m)
        | none => none
      else none
  | _ => none

/-- A step of a center in `do_request`. -/
def execStep (cfg : HandoffConfig σ) (s : Handoff α σ) : HandoffAction α → Option (Handoff α σ)
  | .perform i =>
      if s.exec i = .called ∧ ((s.centers i).calls .owner).isIdle then
        some ({ s.touch with performed := s.performed ++ [i] }.setExec i .performed)
      else none
  | .enter i =>
      if s.exec i = .performed then
        match s.monitor.step cfg.code (.enter i) with
        | some m => some ((s.touch.setMonitor m).setExec i .inside)
        | none => none
      else none
  | .exec i =>
      if s.exec i = .inside then
        match s.monitor.step cfg.code .exec with
        | some m => some (s.touch.setMonitor m)
        | none => none
      else none
  | .leave i =>
      if s.exec i = .inside then
        match s.monitor.step cfg.code .leave with
        | some m => some ((s.touch.setMonitor m).setExec i .unlocked)
        | none => none
      else none
  | .finish i =>
      if s.exec i = .unlocked then
        if cfg.nowait then
          some ({ s.touch with alive := false, freed := s.freed + 1 }.setExec i .idle)
        else some (s.setExec i .idle)
      else none
  | _ => none

/-- A step of a center that is not one of `do_request`. -/
def centerStep (s : Handoff α σ) (i : ℕ) (a : ExternalAction (Option α)) :
    Option (Handoff α σ) :=
  if a.ordinary ∧ (s.exec i).allows a then
    match (s.centers i).step a with
    | some c =>
        if (s.centers i).begins a then some ((s.setCenter i c).setExec i .called)
        else some (s.setCenter i c)
    | none => none
  else none

/-- One step; none if it is not enabled. -/
def step (cfg : HandoffConfig σ) (s : Handoff α σ) (a : HandoffAction α) :
    Option (Handoff α σ) :=
  match a with
  | .center i a => s.centerStep i a
  | .start | .send | .sent | .wait | .waits _ => s.callerStep cfg a
  | _ => s.execStep cfg a

/-- The centers are set up, and the caller has not done anything. -/
structure Fresh (cfg : HandoffConfig σ) (s : Handoff α σ) : Prop where
  centers : ∀ i, (s.centers i).Fresh
  monitor : s.monitor = .created cfg.code
  stage : s.stage = .before
  exec : ∀ i, s.exec i = .idle
  performed : s.performed = []
  alive : s.alive = false
  freed : s.freed = 0
  touched : s.touched = false

def machine (α : Type) (cfg : HandoffConfig σ) : Machine (Handoff α σ) (HandoffAction α) :=
  ⟨Fresh cfg, step cfg⟩

/-- Centers without events, and a caller that has not come. -/
def created (cfg : HandoffConfig σ) : Handoff α σ where
  centers _ := ⟨[], 0, none, 0, ⟨[], 1⟩, fun _ => .idle, .between, [], [], []⟩
  monitor := .created cfg.code
  stage := .before
  exec _ := .idle
  performed := []
  alive := false
  freed := 0
  touched := false

theorem fresh_created (cfg : HandoffConfig σ) : (created cfg : Handoff α σ).Fresh cfg where
  centers _ := ⟨rfl, rfl, rfl, fun _ => rfl, rfl, rfl, rfl, rfl⟩
  monitor := rfl
  stage := rfl
  exec _ := rfl
  performed := rfl
  alive := rfl
  freed := rfl
  touched := rfl

end Handoff

/-! ## The callback in the queues -/

/-- The callback in question. -/
def isOwn {α : Type} (e : Option α × Thread) : Bool := e.1.isNone

/-- A thread is about to put the callback in question into the queue. -/
def Call.carries {α : Type} : Call (Option α) → Bool
  | .locked e => e.isNone
  | _ => false

theorem Call.carries_of_isIdle {α : Type} {k : Call (Option α)} (h : k.isIdle) :
    k.carries = false := by
  rw [External.Call.isIdle_iff.mp h]
  rfl

namespace External

variable {α : Type} {c u : External (Option α)} {t caller : Thread}

/-- How often the caller has dispatched the callback in question. -/
def sentBy (c : External (Option α)) (caller : Thread) : ℕ :=
  c.dispatched.countP isOwn + (c.calls caller).carries.toNat

/-- How often the center has begun to run it. -/
def begun (c : External (Option α)) : ℕ := c.ran.countP isOwn

/-- What a step of anybody leaves alone: nobody else comes to dispatch the callback in question,
and it is in the queues as often as before. -/
structure Passes (caller : Thread) (c u : External (Option α)) (began : Bool) : Prop where
  carries : ∀ t, (u.calls t).carries → (c.calls t).carries
  sentBy : u.sentBy caller = c.sentBy caller
  begun : u.begun = c.begun + began.toNat

/-- A step of the thread of the center outside `do_request`. -/
theorem Passes.of_quiet (hcalls : u.calls = c.calls) (hdispatched : u.dispatched = c.dispatched)
    (hran : u.ran = c.ran) : Passes caller c u false where
  carries t h := by rwa [hcalls] at h
  sentBy := by rw [External.sentBy, External.sentBy, hcalls, hdispatched]
  begun := by rw [External.begun, hran]; rfl

/-- A thread goes on in `dispatch_event_external` with another callback. -/
theorem Passes.of_call {k : Call (Option α)} (hcalls : u.calls = Function.update c.calls t k)
    (hold : (c.calls t).carries = false) (hnew : k.carries = false)
    (hdispatched : u.dispatched.countP isOwn = c.dispatched.countP isOwn) (hran : u.ran = c.ran) :
    Passes caller c u false := by
  have hsame (v : Thread) : (u.calls v).carries = (c.calls v).carries := by
    rw [hcalls]
    by_cases hv : v = t
    · rw [hv, Function.update_self, hnew, hold]
    · rw [Function.update_of_ne hv]
  refine ⟨fun v h => by rwa [← hsame], ?_, ?_⟩
  · rw [External.sentBy, External.sentBy, hsame, hdispatched]
  · rw [External.begun, hran]
    rfl

/-- The caller puts the callback in question into the queue. -/
theorem Passes.of_push (hcalls : u.calls = Function.update c.calls caller .pushed)
    (hold : c.calls caller = .locked none)
    (hdispatched : u.dispatched = c.dispatched ++ [(none, t)]) (hran : u.ran = c.ran) :
    Passes caller c u false := by
  refine ⟨fun v h => ?_, ?_, ?_⟩
  · rw [hcalls] at h
    by_cases hv : v = caller
    · rw [hv, hold]
      rfl
    · rwa [Function.update_of_ne hv] at h
  · rw [External.sentBy, External.sentBy, hcalls, hdispatched, Function.update_self, hold,
      List.countP_append]
    rfl
  · rw [External.begun, hran]
    rfl

theorem passes_dispatchStep {a : ExternalAction (Option α)} (hordinary : a.ordinary)
    (hcaller : ∀ t, (c.calls t).carries → t = caller) (hstep : c.dispatchStep a = some u) :
    Passes caller c u false := by
  cases a with
  | lock t e =>
    simp only [External.dispatchStep] at hstep
    split at hstep
    · rename_i hguard
      rw [← Option.some.inj hstep]
      have hnew : (Call.locked e : Call (Option α)).carries = false := by
        show e.isNone = false
        rw [Option.isNone_eq_false_iff]
        exact hordinary
      exact .of_call rfl (Call.carries_of_isIdle hguard.1) hnew rfl rfl
    · cases hstep
  | push t =>
    simp only [External.dispatchStep] at hstep
    split at hstep
    · rename_i e hcall
      rw [← Option.some.inj hstep]
      cases e with
      | none =>
        obtain rfl : t = caller := hcaller t (by rw [hcall]; rfl)
        exact .of_push rfl hcall rfl rfl
      | some e =>
        refine .of_call rfl (by rw [hcall]; rfl) rfl ?_ rfl
        show (c.dispatched ++ [(some e, t)]).countP isOwn = _
        rw [List.countP_append]
        rfl
    · cases hstep
  | load t | count t | unlock t =>
    simp only [External.dispatchStep] at hstep
    split at hstep
    · rename_i hcall
      rw [← Option.some.inj hstep]
      exact .of_call rfl (by rw [hcall]; rfl) rfl rfl rfl
    · cases hstep
  | wakeup t full =>
    simp only [External.dispatchStep] at hstep
    split at hstep
    · rename_i wake hcall
      have hold : (c.calls t).carries = false := by
        rw [hcall]
        rfl
      split at hstep
      · split at hstep
        · split at hstep
          · cases hstep
          · rw [← Option.some.inj hstep]
            exact .of_call rfl hold rfl rfl rfl
        · rw [← Option.some.inj hstep]
          exact .of_call rfl hold rfl rfl rfl
      · rw [← Option.some.inj hstep]
        exact .of_call rfl hold rfl rfl rfl
    · cases hstep
  | _ => cases hstep

/-- The thread of the center dispatches and begins nothing outside the loop over what it has
taken. -/
theorem ownerStep_quiet {a : ExternalAction (Option α)} (hrun : a ≠ .run)
    (hstep : c.ownerStep a = some u) :
    u.calls = c.calls ∧ u.dispatched = c.dispatched ∧ u.ran = c.ran := by
  cases a with
  | run => exact absurd rfl hrun
  | lock _ _ | push _ | load _ | count _ | unlock _ | wakeup _ _ => cases hstep
  | _ =>
    all_goals
      simp only [External.ownerStep] at hstep
      split at hstep <;> try split at hstep
      all_goals cases hstep
      all_goals exact ⟨rfl, rfl, rfl⟩

/-- The thread of the center runs what it has taken. -/
theorem passes_run (hstep : c.ownerStep .run = some u) : Passes caller c u (c.begins .run) := by
  simp only [External.ownerStep] at hstep
  split at hstep
  · rename_i hphase
    split at hstep
    · rename_i hcur
      have hbegins : c.begins .run = false := by
        simp only [External.begins, hphase, hcur]
      rw [hbegins, ← Option.some.inj hstep]
      exact .of_quiet rfl rfl rfl
    · rename_i e rest hcur
      rw [← Option.some.inj hstep]
      obtain ⟨e, t⟩ := e
      have hbegins : c.begins .run = e.isNone := by
        cases e with
        | none => simp only [External.begins, hphase, hcur, Option.isNone_none]
        | some x => simp only [External.begins, hphase, hcur, Option.isNone_some]
      refine ⟨fun _ h => h, rfl, ?_⟩
      show (c.ran ++ [(e, t)]).countP isOwn = c.ran.countP isOwn + _
      rw [hbegins, List.countP_append]
      cases e <;> rfl
  · cases hstep

theorem begins_of_ne {a : ExternalAction (Option α)} (hrun : a ≠ .run) : c.begins a = false := by
  cases a with
  | run => exact absurd rfl hrun
  | _ => rfl

theorem passes_ownerStep {a : ExternalAction (Option α)} (hstep : c.ownerStep a = some u) :
    Passes caller c u (c.begins a) := by
  by_cases hrun : a = .run
  · subst hrun
    exact passes_run hstep
  · obtain ⟨hcalls, hdispatched, hran⟩ := ownerStep_quiet hrun hstep
    rw [begins_of_ne hrun]
    exact .of_quiet hcalls hdispatched hran

/-- **What a step of a center does to the callback in question.** -/
theorem passes_step {a : ExternalAction (Option α)} (hordinary : a.ordinary)
    (hcaller : ∀ t, (c.calls t).carries → t = caller) (hstep : c.step a = some u) :
    Passes caller c u (c.begins a) := by
  simp only [External.step] at hstep
  split at hstep
  case h_7 =>
    split at hstep
    · exact passes_ownerStep hstep
    · cases hstep
  all_goals exact passes_dispatchStep hordinary hcaller hstep

/-- The caller comes to dispatch the callback in question. -/
theorem sends_step (hstep : c.step (.lock caller none) = some u) :
    (∀ t, (u.calls t).carries → t = caller ∨ (c.calls t).carries) ∧
      u.sentBy caller = c.sentBy caller + 1 ∧ u.begun = c.begun := by
  simp only [External.step, External.dispatchStep] at hstep
  split at hstep
  · rename_i hguard
    rw [← Option.some.inj hstep]
    refine ⟨fun t h => ?_, ?_, rfl⟩
    · by_cases ht : t = caller
      · exact .inl ht
      · refine .inr ?_
        have hcalls : Function.update c.calls caller (.locked none) t = c.calls t :=
          Function.update_of_ne ht ..
        rw [← hcalls]
        exact h
    · show c.dispatched.countP isOwn +
        (Call.carries (Function.update c.calls caller (.locked none) caller)).toNat = _
      rw [Function.update_self, External.sentBy, Call.carries_of_isIdle hguard.1]
      rfl
  · cases hstep

/-- What has begun has been dispatched. -/
theorem Kept.begun_le_sentBy (h : c.Kept) (caller : Thread) : c.begun ≤ c.sentBy caller := by
  have hqueue := Fifo.delivered_append_held h.queue
  have hprefix : c.ran <+: c.dispatched := ⟨_, hqueue⟩
  exact (List.Sublist.countP_le hprefix.sublist).trans (Nat.le_add_right _ _)

end External

/-! ## The invariant -/

namespace HandoffConfig

variable {σ : Type}

/-- What `submit_to` and `drain` see to. -/
structure Proper (cfg : HandoffConfig σ) : Prop where
  nodup : cfg.targets.Nodup
  announces : Monitor.Announces cfg.code
  counts : Monitor.Counts cfg.code cfg.targets.toFinset.card
  single : cfg.nowait = true → ∃ i, cfg.targets = [i]

end HandoffConfig

/-- The centers that the callback is still to be dispatched to. -/
def Stage.todo {σ : Type} (cfg : HandoffConfig σ) : Stage → List ℕ
  | .before => cfg.targets
  | .dispatching rest | .sending _ rest => rest
  | .waiting => []
  | .after => if cfg.direct then cfg.targets else []

/-- The center has begun to run the callback, and has not left the section. -/
def Exec.pending : Exec → Bool
  | .called | .performed | .inside => true
  | _ => false

/-- The center has called the function, and has not left the section. -/
def Exec.done : Exec → Bool
  | .performed | .inside => true
  | _ => false

namespace Handoff

variable {α σ : Type} {cfg : HandoffConfig σ}

/-- Where the caller is, as the monitor sees it. -/
def CallerAt (cfg : HandoffConfig σ) (s : Handoff α σ) : Prop :=
  match s.stage with
  | .before => s.monitor.waiter = .away
  | .dispatching _ | .sending .. =>
      cfg.direct = false ∧ s.monitor.waiter = .away ∧ (cfg.nowait = false → s.alive = true)
  | .waiting =>
      cfg.direct = false ∧ cfg.nowait = false ∧ s.alive = true ∧
        s.monitor.waiter ≠ .away ∧ s.monitor.waiter ≠ .returned
  | .after => cfg.direct = false → cfg.nowait = false → s.monitor.waiter = .returned

/-- Nothing is going to use the object. -/
def Settled (cfg : HandoffConfig σ) (s : Handoff α σ) : Prop :=
  s.stage = .before ∨ cfg.direct = true ∨
    ∀ i ∈ cfg.targets, i ∈ s.monitor.left ∧ (cfg.nowait = true → s.exec i ≠ .unlocked)

/-- What holds of a center and its part in the handoff. -/
structure Part (cfg : HandoffConfig σ) (s : Handoff α σ) (i : ℕ) : Prop where
  kept : (s.centers i).Kept
  carries : ∀ t, ((s.centers i).calls t).carries →
    t = cfg.caller ∧ ∃ rest, s.stage = .sending i rest
  sent : (s.centers i).sentBy cfg.caller + (s.stage.todo cfg).count i = cfg.targets.count i
  begun : (s.centers i).begun = (s.exec i).pending.toNat + s.monitor.left.count i
  inside : s.exec i = .inside ↔ ∃ rest, s.monitor.inside = some (i, rest)
  unlocked : s.exec i = .unlocked → i ∈ s.monitor.left
  performed : cfg.direct = false →
    s.performed.count i = (s.exec i).done.toNat + s.monitor.left.count i

/-- The object has been deleted by the center if nobody waits, and by nobody else. -/
def FreedAt (cfg : HandoffConfig σ) (s : Handoff α σ) : Prop :=
  if cfg.nowait then
    ∀ i ∈ cfg.targets, s.freed + (decide (s.exec i = .unlocked)).toNat = s.monitor.left.count i
  else s.freed = 0

/-- The invariant. -/
structure Owned (cfg : HandoffConfig σ) (s : Handoff α σ) : Prop where
  parts : ∀ i, s.Part cfg i
  monitor : (Monitor.machine ℕ cfg.code).ReachedUnder (Monitor.Once cfg.targets.toFinset) s.monitor
  callerAt : s.CallerAt cfg
  direct : cfg.direct = true → s.performed = if s.stage = .after then cfg.targets else []
  alive : s.alive = false → s.Settled cfg
  freedAt : s.FreedAt cfg
  touched : s.touched = false

theorem touch_of_alive {s : Handoff α σ} (halive : s.alive = true) : s.touch = s := by
  have htouched : (s.touched || !s.alive) = s.touched := by
    rw [halive]
    exact Bool.or_false _
  rw [touch, htouched]

/-! ### Frames -/

/-- A center whose part stays as it is. -/
structure SameAt (s u : Handoff α σ) (j : ℕ) : Prop where
  centers : u.centers j = s.centers j
  exec : u.exec j = s.exec j
  inside : (∃ rest, u.monitor.inside = some (j, rest)) ↔ ∃ rest, s.monitor.inside = some (j, rest)
  left : u.monitor.left.count j = s.monitor.left.count j
  performed : u.performed.count j = s.performed.count j

theorem Part.of_same {s u : Handoff α σ} {j : ℕ} (h : s.Part cfg j) (hsame : SameAt s u j)
    (hstage : u.stage = s.stage) : u.Part cfg j where
  kept := by
    rw [hsame.centers]
    exact h.kept
  carries := by
    rw [hsame.centers, hstage]
    exact h.carries
  sent := by
    rw [hsame.centers, hstage]
    exact h.sent
  begun := by
    rw [hsame.centers, hsame.exec, hsame.left]
    exact h.begun
  inside := by
    rw [hsame.exec, hsame.inside]
    exact h.inside
  unlocked := by
    rw [hsame.exec, ← List.count_pos_iff, hsame.left, List.count_pos_iff]
    exact h.unlocked
  performed := by
    rw [hsame.exec, hsame.performed, hsame.left]
    exact h.performed

/-- Whoever has left stays away, and nobody comes to delete the object. -/
theorem Settled.mono {s u : Handoff α σ} (h : s.Settled cfg) (hstage : u.stage = s.stage)
    (hleft : ∀ j, j ∈ s.monitor.left → j ∈ u.monitor.left)
    (hunlocked : ∀ j, u.exec j = .unlocked → s.exec j = .unlocked) : u.Settled cfg := by
  rcases h with hbefore | hdirect | hall
  · exact .inl (hstage.trans hbefore)
  · exact .inr (.inl hdirect)
  · refine .inr (.inr fun j hj => ?_)
    obtain ⟨hmem, hfreed⟩ := hall j hj
    exact ⟨hleft j hmem, fun hnowait hj => hfreed hnowait (hunlocked j hj)⟩

theorem FreedAt.of_same {s u : Handoff α σ} (h : s.FreedAt cfg) (hfreed : u.freed = s.freed)
    (hleft : u.monitor.left = s.monitor.left)
    (hunlocked : ∀ j, u.exec j = .unlocked ↔ s.exec j = .unlocked) : u.FreedAt cfg := by
  unfold FreedAt at h ⊢
  split
  · rename_i hnowait
    rw [if_pos hnowait] at h
    intro j hj
    rw [hfreed, hleft, decide_eq_decide.mpr (hunlocked j)]
    exact h j hj
  · rename_i hnowait
    rw [if_neg hnowait] at h
    exact hfreed.trans h

/-- The caller stays where it is, as long as the monitor does not see it come or go. -/
theorem CallerAt.mono {s u : Handoff α σ} (h : s.CallerAt cfg) (hstage : u.stage = s.stage)
    (haway : u.monitor.waiter = .away ↔ s.monitor.waiter = .away)
    (hreturned : u.monitor.waiter = .returned ↔ s.monitor.waiter = .returned)
    (halive : cfg.nowait = false → u.alive = s.alive) : u.CallerAt cfg := by
  unfold CallerAt at h ⊢
  rw [hstage]
  cases hs : s.stage with
  | before =>
      rw [hs] at h
      exact haway.mpr h
  | dispatching rest | sending i rest =>
      rw [hs] at h
      exact ⟨h.1, haway.mpr h.2.1, fun hnowait => (halive hnowait).trans (h.2.2 hnowait)⟩
  | waiting =>
      rw [hs] at h
      obtain ⟨hdirect, hnowait, hal, hcame, hthere⟩ := h
      exact ⟨hdirect, hnowait, (halive hnowait).trans hal, haway.not.mpr hcame,
        hreturned.not.mpr hthere⟩
  | after =>
      rw [hs] at h
      exact fun hdirect hnowait => hreturned.mpr (h hdirect hnowait)

/-- The caller goes on, and the centers do not. -/
theorem Part.restage {s u : Handoff α σ} {i : ℕ} (h : s.Part cfg i)
    (hcenters : u.centers = s.centers) (hexec : u.exec = s.exec)
    (hinside : u.monitor.inside = s.monitor.inside) (hleft : u.monitor.left = s.monitor.left)
    (hperformed : cfg.direct = false → u.performed = s.performed)
    (hsending : ∀ t, ((s.centers i).calls t).carries → (∃ rest, s.stage = .sending i rest) →
      ∃ rest, u.stage = .sending i rest)
    (htodo : u.stage.todo cfg = s.stage.todo cfg) : u.Part cfg i where
  kept := by
    rw [hcenters]
    exact h.kept
  carries := by
    rw [hcenters]
    exact fun t ht => ⟨(h.carries t ht).1, hsending t ht (h.carries t ht).2⟩
  sent := by
    rw [hcenters, htodo]
    exact h.sent
  begun := by
    rw [hcenters, hexec, hleft]
    exact h.begun
  inside := by
    rw [hexec, hinside]
    exact h.inside
  unlocked := by
    rw [hexec, hleft]
    exact h.unlocked
  performed hd := by
    rw [hexec, hperformed hd, hleft]
    exact h.performed hd

namespace Owned

variable {s u : Handoff α σ}

theorem of_fresh (h : s.Fresh cfg) : s.Owned cfg := by
  have hcalls (i : ℕ) (t : Thread) : ((s.centers i).calls t).carries = false := by
    rw [(h.centers i).calls]
    rfl
  have hpart (i : ℕ) : s.Part cfg i := by
    refine ⟨.of_fresh (h.centers i), fun t ht => ?_, ?_, ?_, ?_, fun hi => ?_, fun _ => ?_⟩
    · rw [hcalls] at ht
      cases ht
    · rw [External.sentBy, hcalls, (h.centers i).dispatched, h.stage, List.countP_nil]
      exact Nat.zero_add _
    · rw [External.begun, (h.centers i).ran, h.exec, h.monitor]
      rfl
    · rw [h.exec, h.monitor]
      exact ⟨nofun, fun ⟨_, hinside⟩ => nomatch hinside⟩
    · rw [h.exec] at hi
      cases hi
    · rw [h.performed, h.exec, h.monitor]
      rfl
  refine ⟨hpart, .start h.monitor, ?_, fun _ => ?_, fun _ => .inl h.stage, ?_, h.touched⟩
  · rw [CallerAt, h.stage, h.monitor]
    rfl
  · rw [h.performed, h.stage]
    rfl
  · unfold FreedAt
    split
    · intro i _
      rw [h.freed, h.exec, h.monitor]
      rfl
    · exact h.freed

/-- Once a center has begun, the caller is on its way. -/
theorem of_begun (h : s.Owned cfg) {i : ℕ} (hbegun : 0 < (s.centers i).begun) :
    s.stage ≠ .before ∧ cfg.direct = false := by
  have hle := (h.parts i).kept.begun_le_sentBy cfg.caller
  have hsent := (h.parts i).sent
  have hbefore : s.stage.todo cfg ≠ cfg.targets := by
    intro htodo
    rw [htodo] at hsent
    omega
  refine ⟨?_, ?_⟩
  · intro hstage
    rw [hstage] at hbefore
    exact hbefore rfl
  · cases hdirect : cfg.direct with
    | false => rfl
    | true =>
        have hat := h.callerAt
        rw [CallerAt] at hat
        cases hstage : s.stage with
        | before =>
            rw [hstage] at hbefore
            exact absurd rfl hbefore
        | dispatching rest | sending j rest | waiting =>
            simp [hstage, hdirect] at hat
        | after =>
            rw [hstage, Stage.todo, if_pos hdirect] at hbefore
            exact absurd rfl hbefore

/-- A center that has begun is one of those that the callback goes to, and has not begun before. -/
theorem of_pending (h : s.Owned cfg) (hproper : cfg.Proper) {i : ℕ}
    (hpending : (s.exec i).pending = true) : i ∈ cfg.targets ∧ i ∉ s.monitor.left := by
  have hbegun := (h.parts i).begun
  have hle := (h.parts i).kept.begun_le_sentBy cfg.caller
  have hsent := (h.parts i).sent
  have honce := List.nodup_iff_count_le_one.mp hproper.nodup i
  rw [hpending, Bool.toNat_true] at hbegun
  exact ⟨List.count_pos_iff.mp (by omega), List.count_eq_zero.mp (by omega)⟩

/-- The object is there for a center that has begun, as long as it has not left, or is going to
delete the object. -/
theorem alive_of_begun (h : s.Owned cfg) {i : ℕ} (hmem : i ∈ cfg.targets)
    (hbegun : 0 < (s.centers i).begun)
    (huses : i ∉ s.monitor.left ∨ cfg.nowait = true ∧ s.exec i = .unlocked) : s.alive = true := by
  obtain ⟨hstage, hdirect⟩ := h.of_begun hbegun
  cases halive : s.alive with
  | true => rfl
  | false =>
      rcases h.alive halive with hbefore | hdirect' | hall
      · exact absurd hbefore hstage
      · rw [hdirect] at hdirect'
        cases hdirect'
      · obtain ⟨hleft, hdeleted⟩ := hall i hmem
        rcases huses with hnew | ⟨hnowait, hunlocked⟩
        · exact absurd hleft hnew
        · exact absurd hunlocked (hdeleted hnowait)

/-- What holds while a center is in `do_request` and uses the object. -/
theorem uses (h : s.Owned cfg) (hproper : cfg.Proper) {i : ℕ}
    (hpending : (s.exec i).pending = true) :
    i ∈ cfg.targets ∧ i ∉ s.monitor.left ∧ s.alive = true ∧ cfg.direct = false := by
  obtain ⟨hmem, hnew⟩ := h.of_pending hproper hpending
  have hbegun : 0 < (s.centers i).begun := by
    rw [(h.parts i).begun, hpending]
    exact Nat.lt_of_lt_of_le Nat.zero_lt_one (Nat.le_add_right 1 _)
  exact ⟨hmem, hnew, h.alive_of_begun hmem hbegun (.inl hnew), (h.of_begun hbegun).2⟩

/-! ### The centers -/

/-- A step of a center that leaves its part in `do_request` alone. -/
theorem setCenter (h : s.Owned cfg) {i : ℕ} {a : ExternalAction (Option α)}
    {c : External (Option α)} (hordinary : a.ordinary) (hstep : (s.centers i).step a = some c)
    (hbegins : (s.centers i).begins a = false) : (s.setCenter i c).Owned cfg := by
  have hi := h.parts i
  have hpasses := External.passes_step hordinary (fun t ht => (hi.carries t ht).1) hstep
  rw [hbegins] at hpasses
  refine ⟨fun j => ?_, h.monitor, h.callerAt, h.direct, h.alive, h.freedAt, h.touched⟩
  by_cases hj : j = i
  · subst hj
    have hc : (s.setCenter j c).centers j = c := Function.update_self ..
    refine ⟨?_, ?_, ?_, ?_, hi.inside, hi.unlocked, hi.performed⟩
    · exact hc.symm ▸ hi.kept.step hstep
    · exact hc.symm ▸ fun t ht => hi.carries t (hpasses.carries t ht)
    · exact hc.symm ▸ hpasses.sentBy ▸ hi.sent
    · exact hc.symm ▸ hpasses.begun ▸ hi.begun
  · refine (h.parts j).of_same ⟨?_, rfl, Iff.rfl, rfl, rfl⟩ rfl
    exact Function.update_of_ne hj ..

/-- A center that was not in `do_request` calls it. -/
theorem begins (h : s.Owned cfg) {i : ℕ} {a : ExternalAction (Option α)}
    {c : External (Option α)} (hordinary : a.ordinary) (hstep : (s.centers i).step a = some c)
    (hbegins : (s.centers i).begins a = true) (hidle : s.exec i = .idle) :
    ((s.setCenter i c).setExec i .called).Owned cfg := by
  have hi := h.parts i
  have hpasses := External.passes_step hordinary (fun t ht => (hi.carries t ht).1) hstep
  rw [hbegins] at hpasses
  have hexec (j : ℕ) (hj : j ≠ i) : Function.update s.exec i .called j = s.exec j :=
    Function.update_of_ne hj ..
  have hself : Function.update s.exec i .called i = .called := Function.update_self ..
  have hunlocked (j : ℕ) :
      Function.update s.exec i .called j = .unlocked ↔ s.exec j = .unlocked := by
    by_cases hj : j = i
    · rw [hj, hself, hidle]
      exact ⟨nofun, nofun⟩
    · rw [hexec j hj]
  refine ⟨fun j => ?_, h.monitor, h.callerAt, h.direct, fun halive => ?_, ?_, h.touched⟩
  · by_cases hj : j = i
    · subst hj
      have hc : ((s.setCenter j c).setExec j .called).centers j = c := Function.update_self ..
      have hx : ((s.setCenter j c).setExec j .called).exec j = .called := hself
      refine ⟨?_, ?_, ?_, ?_, ?_, ?_, fun hdirect => ?_⟩
      · exact hc.symm ▸ hi.kept.step hstep
      · exact hc.symm ▸ fun t ht => hi.carries t (hpasses.carries t ht)
      · exact hc.symm ▸ hpasses.sentBy ▸ hi.sent
      · have hbegun := hi.begun
        rw [hidle] at hbegun
        rw [hc, hx, hpasses.begun, hbegun]
        exact Nat.add_right_comm 0 _ 1
      · rw [hx]
        refine ⟨nofun, fun hinside => ?_⟩
        have hwas := hi.inside.mpr hinside
        rw [hidle] at hwas
        cases hwas
      · rw [hx]
        nofun
      · have hperformed := hi.performed hdirect
        rw [hidle] at hperformed
        rw [hx]
        exact hperformed
    · refine (h.parts j).of_same ⟨?_, hexec j hj, Iff.rfl, rfl, rfl⟩ rfl
      exact Function.update_of_ne hj ..
  · exact (h.alive halive).mono rfl (fun _ hj => hj) fun j hj => (hunlocked j).mp hj
  · exact h.freedAt.of_same rfl rfl hunlocked

/-- A step of a center. -/
theorem centerStep (h : s.Owned cfg) {i : ℕ} {a : ExternalAction (Option α)}
    (hstep : s.centerStep i a = some u) : u.Owned cfg := by
  simp only [Handoff.centerStep] at hstep
  split at hstep
  · rename_i hguard
    obtain ⟨hordinary, hallows⟩ := hguard
    split at hstep
    · rename_i c hc
      split at hstep
      · rename_i hbegins
        rw [← Option.some.inj hstep]
        refine h.begins hordinary hc hbegins ?_
        have ha : a = .run := by
          by_contra hrun
          rw [External.begins_of_ne hrun] at hbegins
          cases hbegins
        subst ha
        cases hx : s.exec i with
        | idle => rfl
        | called | performed | inside | unlocked =>
            rw [hx] at hallows
            cases hallows
      · rename_i hbegins
        rw [← Option.some.inj hstep]
        exact h.setCenter hordinary hc (Bool.not_eq_true _ ▸ hbegins)
    · cases hstep
  · cases hstep

/-! ### `do_request` -/

/-- A step of a center in `do_request`, which goes on to `x`. -/
theorem execs (h : s.Owned cfg) {i : ℕ} {x : Exec} (hcenters : u.centers = s.centers)
    (hexec : u.exec = Function.update s.exec i x) (hstage : u.stage = s.stage)
    (htouched : u.touched = s.touched)
    (hreached : (Monitor.machine ℕ cfg.code).ReachedUnder (Monitor.Once cfg.targets.toFinset)
      u.monitor)
    (hcallerAt : u.CallerAt cfg)
    (hinside : x = .inside ↔ ∃ rest, u.monitor.inside = some (i, rest))
    (hothers : ∀ j, j ≠ i →
      ((∃ rest, u.monitor.inside = some (j, rest)) ↔ ∃ rest, s.monitor.inside = some (j, rest)) ∧
        u.monitor.left.count j = s.monitor.left.count j ∧
        u.performed.count j = s.performed.count j)
    (hpending : x.pending.toNat + u.monitor.left.count i =
      (s.exec i).pending.toNat + s.monitor.left.count i)
    (hunlocked : x = .unlocked → i ∈ u.monitor.left)
    (hperformed : cfg.direct = false →
      u.performed.count i = x.done.toNat + u.monitor.left.count i)
    (hdirect : cfg.direct = true → u.performed = s.performed)
    (halive : u.alive = false → u.Settled cfg) (hfreed : u.FreedAt cfg) : u.Owned cfg := by
  refine ⟨fun j => ?_, hreached, hcallerAt, fun hd => ?_, halive, hfreed, htouched.trans h.touched⟩
  · by_cases hj : j = i
    · subst hj
      have hj := h.parts j
      have hx : u.exec j = x := by rw [hexec, Function.update_self]
      refine ⟨?_, ?_, ?_, ?_, ?_, ?_, ?_⟩
      · rw [hcenters]
        exact hj.kept
      · rw [hcenters, hstage]
        exact hj.carries
      · rw [hcenters, hstage]
        exact hj.sent
      · rw [hcenters, hx, hpending]
        exact hj.begun
      · rwa [hx]
      · rwa [hx]
      · rwa [hx]
    · obtain ⟨hin, hleft, hperf⟩ := hothers j hj
      refine (h.parts j).of_same ⟨by rw [hcenters], ?_, hin, hleft, hperf⟩ hstage
      rw [hexec, Function.update_of_ne hj]
  · rw [hdirect hd, hstage]
    exact h.direct hd

/-- Where a center goes on that neither has unlocked nor comes to have. -/
theorem unlocked_update_iff {i : ℕ} {x : Exec} (hold : s.exec i ≠ .unlocked) (hnew : x ≠ .unlocked)
    (j : ℕ) : Function.update s.exec i x j = .unlocked ↔ s.exec j = .unlocked := by
  by_cases hj : j = i
  · rw [hj, Function.update_self]
    exact ⟨fun h => absurd h hnew, fun h => absurd h hold⟩
  · rw [Function.update_of_ne hj]

theorem perform (h : s.Owned cfg) (hproper : cfg.Proper) {i : ℕ} (hcalled : s.exec i = .called) :
    ({ s.touch with performed := s.performed ++ [i] }.setExec i .performed).Owned cfg := by
  have hpending : (s.exec i).pending = true := by
    rw [hcalled]
    rfl
  obtain ⟨-, -, halive, hdirect⟩ := h.uses hproper hpending
  have hi := h.parts i
  rw [touch_of_alive halive]
  have hold : s.exec i ≠ .unlocked := by
    rw [hcalled]
    nofun
  have hquiet := unlocked_update_iff (x := .performed) hold nofun
  refine h.execs (x := .performed) rfl rfl rfl rfl h.monitor h.callerAt ?_ (fun j hj => ?_) ?_ nofun
    (fun hd => ?_) (fun hd => ?_) (fun hgone => ?_) ?_
  · refine ⟨nofun, fun hinside => ?_⟩
    have hwas := hi.inside.mpr hinside
    rw [hcalled] at hwas
    cases hwas
  · refine ⟨Iff.rfl, rfl, ?_⟩
    show (s.performed ++ [i]).count j = _
    rw [List.count_append, List.count_singleton]
    simp [Ne.symm hj]
  · rw [hcalled]
    rfl
  · have hperformed := hi.performed hd
    rw [hcalled] at hperformed
    show (s.performed ++ [i]).count i = _
    rw [List.count_append, hperformed, List.count_singleton_self]
    exact Nat.add_right_comm 0 _ 1
  · rw [hdirect] at hd
    cases hd
  · rw [show s.alive = false from hgone] at halive
    cases halive
  · exact h.freedAt.of_same rfl rfl hquiet

theorem enter (h : s.Owned cfg) (hproper : cfg.Proper) {i : ℕ} {m : Monitor σ ℕ}
    (hperformed : s.exec i = .performed) (hstep : s.monitor.step cfg.code (.enter i) = some m) :
    ((s.touch.setMonitor m).setExec i .inside).Owned cfg := by
  have hpending : (s.exec i).pending = true := by
    rw [hperformed]
    rfl
  obtain ⟨hmem, hnew, halive, hdirect⟩ := h.uses hproper hpending
  rw [touch_of_alive halive]
  have hold : s.exec i ≠ .unlocked := by
    rw [hperformed]
    nofun
  have hquiet := unlocked_update_iff (x := .inside) hold nofun
  have hreached : (Monitor.machine ℕ cfg.code).ReachedUnder
      (Monitor.Once cfg.targets.toFinset) m :=
    .step (a := .enter i) h.monitor ⟨List.mem_toFinset.mpr hmem, hnew⟩ hstep
  obtain ⟨hfree, rfl⟩ := Monitor.step_enter hstep
  obtain ⟨hnobody, -⟩ := Monitor.free_iff.mp hfree
  refine h.execs (x := .inside) rfl rfl rfl rfl hreached
    (h.callerAt.mono rfl Iff.rfl Iff.rfl fun _ => rfl) ?_ (fun j hj => ?_) ?_ nofun
    (fun hd => ?_) (fun hd => ?_) (fun hgone => ?_) ?_
  · exact ⟨fun _ => ⟨_, rfl⟩, fun _ => rfl⟩
  · refine ⟨⟨fun ⟨rest, hin⟩ => ?_, fun ⟨rest, hin⟩ => ?_⟩, rfl, rfl⟩
    · exact absurd (Prod.mk.inj (Option.some.inj hin)).1.symm hj
    · rw [hnobody] at hin
      cases hin
  · rw [hperformed]
    rfl
  · have hdone := (h.parts i).performed hd
    rw [hperformed] at hdone
    exact hdone
  · rw [hdirect] at hd
    cases hd
  · rw [show s.alive = false from hgone] at halive
    cases halive
  · exact h.freedAt.of_same rfl rfl hquiet

/-- The monitor, after somebody in the section has run a statement. -/
theorem exec (h : s.Owned cfg) (hproper : cfg.Proper) {i : ℕ} {m : Monitor σ ℕ}
    (hinside : s.exec i = .inside) (hstep : s.monitor.step cfg.code .exec = some m) :
    (s.touch.setMonitor m).Owned cfg := by
  have hpending : (s.exec i).pending = true := by
    rw [hinside]
    rfl
  obtain ⟨hmem, hnew, halive, hdirect⟩ := h.uses hproper hpending
  have hi := h.parts i
  rw [touch_of_alive halive]
  have hreached : (Monitor.machine ℕ cfg.code).ReachedUnder
      (Monitor.Once cfg.targets.toFinset) m := .step (a := .exec) h.monitor trivial hstep
  obtain ⟨k, stmt, rest, hin, rfl⟩ := Monitor.step_exec hstep
  obtain ⟨rest', hin'⟩ := hi.inside.mp hinside
  obtain ⟨rfl, -⟩ := Prod.mk.inj (Option.some.inj (hin.symm.trans hin'))
  have hcallerAt : (s.setMonitor { s.monitor with
      value := stmt.run s.monitor.value
      waiter := if stmt.wakes s.monitor.value then s.monitor.waiter.woken else s.monitor.waiter
      inside := some (k, rest) }).CallerAt cfg := by
    refine h.callerAt.mono rfl ?_ ?_ fun _ => rfl
    · show (if stmt.wakes s.monitor.value then s.monitor.waiter.woken else s.monitor.waiter) =
        .away ↔ _
      split
      · exact Waiter.woken_eq_away_iff
      · rfl
    · show (if stmt.wakes s.monitor.value then s.monitor.waiter.woken else s.monitor.waiter) =
        .returned ↔ _
      split
      · exact Waiter.woken_eq_returned_iff
      · rfl
  have hsame : s.exec = Function.update s.exec k .inside := by
    rw [← hinside, Function.update_eq_self]
  refine h.execs (x := .inside) rfl hsame rfl rfl hreached hcallerAt ?_ (fun j hj => ?_) ?_ nofun
    (fun hd => ?_) (fun hd => ?_) (fun hgone => ?_) ?_
  · exact ⟨fun _ => ⟨_, rfl⟩, fun _ => rfl⟩
  · refine ⟨⟨fun ⟨rest, hr⟩ => ?_, fun ⟨rest, hr⟩ => ?_⟩, rfl, rfl⟩
    · exact absurd (Prod.mk.inj (Option.some.inj hr)).1.symm hj
    · exact absurd (Prod.mk.inj (Option.some.inj (hin.symm.trans hr))).1.symm hj
  · rw [hinside]
    rfl
  · have hdone := hi.performed hd
    rw [hinside] at hdone
    exact hdone
  · rw [hdirect] at hd
    cases hd
  · rw [show s.alive = false from hgone] at halive
    cases halive
  · exact h.freedAt.of_same rfl rfl fun j => Iff.rfl

theorem leave (h : s.Owned cfg) (hproper : cfg.Proper) {i : ℕ} {m : Monitor σ ℕ}
    (hinside : s.exec i = .inside) (hstep : s.monitor.step cfg.code .leave = some m) :
    ((s.touch.setMonitor m).setExec i .unlocked).Owned cfg := by
  have hpending : (s.exec i).pending = true := by
    rw [hinside]
    rfl
  obtain ⟨hmem, hnew, halive, hdirect⟩ := h.uses hproper hpending
  have hi := h.parts i
  rw [touch_of_alive halive]
  have hreached : (Monitor.machine ℕ cfg.code).ReachedUnder
      (Monitor.Once cfg.targets.toFinset) m := .step (a := .leave) h.monitor trivial hstep
  obtain ⟨k, hin, rfl⟩ := Monitor.step_leave hstep
  obtain ⟨rest', hin'⟩ := hi.inside.mp hinside
  obtain ⟨rfl, -⟩ := Prod.mk.inj (Option.some.inj (hin.symm.trans hin'))
  have hcount (j : ℕ) (hj : j ≠ k) :
      (s.monitor.left ++ [k]).count j = s.monitor.left.count j := by
    rw [List.count_append, List.count_singleton]
    simp [Ne.symm hj]
  have hself : (s.monitor.left ++ [k]).count k = s.monitor.left.count k + 1 := by
    rw [List.count_append, List.count_singleton_self]
  refine h.execs (x := .unlocked) rfl rfl rfl rfl hreached
    (h.callerAt.mono rfl Iff.rfl Iff.rfl fun _ => rfl) ?_ (fun j hj => ?_) ?_ (fun _ => ?_)
    (fun hd => ?_) (fun hd => ?_) (fun hgone => ?_) ?_
  · exact ⟨nofun, fun ⟨_, hr⟩ => nomatch hr⟩
  · refine ⟨⟨?_, fun ⟨rest, hr⟩ => ?_⟩, hcount j hj, rfl⟩
    · rintro ⟨_, hr⟩
      cases hr
    · exact absurd (Prod.mk.inj (Option.some.inj (hin.symm.trans hr))).1.symm hj
  · rw [hinside]
    show 0 + (s.monitor.left ++ [k]).count k = 1 + _
    rw [hself, Nat.zero_add, Nat.add_comm]
  · exact List.mem_append_right _ (List.mem_singleton_self k)
  · have hdone := hi.performed hd
    rw [hinside] at hdone
    show s.performed.count k = 0 + (s.monitor.left ++ [k]).count k
    rw [hself, hdone, Nat.zero_add, Nat.add_comm]
    rfl
  · rw [hdirect] at hd
    cases hd
  · rw [show s.alive = false from hgone] at halive
    cases halive
  · have hfreed := h.freedAt
    unfold FreedAt at hfreed ⊢
    split
    · rename_i hnowait
      rw [if_pos hnowait] at hfreed
      intro j hj
      show s.freed + (decide (Function.update s.exec k .unlocked j = .unlocked)).toNat =
        (s.monitor.left ++ [k]).count j
      have hold := hfreed j hj
      by_cases hjk : j = k
      · subst hjk
        rw [hinside] at hold
        rw [Function.update_self, hself, ← hold]
        rfl
      · rw [Function.update_of_ne hjk, hcount j hjk, hold]
    · rename_i hnowait
      rw [if_neg hnowait] at hfreed
      exact hfreed

/-- A center returns from `do_request`, and deletes the object if nobody waits. -/
theorem finish (h : s.Owned cfg) (hproper : cfg.Proper) {i : ℕ} (hunlocked : s.exec i = .unlocked)
    (hu : u =
      if cfg.nowait then { s.touch with alive := false, freed := s.freed + 1 }.setExec i .idle
      else s.setExec i .idle) : u.Owned cfg := by
  have hi := h.parts i
  have hleft := hi.unlocked hunlocked
  have hmem : i ∈ cfg.targets := by
    have hexpects := (Monitor.expected_of_reached h.monitor).expects i hleft
    exact List.mem_toFinset.mp hexpects
  have hidle : Function.update s.exec i .idle i = .idle := Function.update_self ..
  have hinside : Exec.idle = .inside ↔ ∃ rest, s.monitor.inside = some (i, rest) := by
    rw [← hi.inside, hunlocked]
    exact ⟨nofun, nofun⟩
  have hperformed : cfg.direct = false → s.performed.count i = 0 + s.monitor.left.count i := by
    intro hd
    have hdone := hi.performed hd
    rw [hunlocked] at hdone
    exact hdone
  have hpending : 0 + s.monitor.left.count i =
      (s.exec i).pending.toNat + s.monitor.left.count i := by
    rw [hunlocked]
    rfl
  cases hnowait : cfg.nowait with
  | false =>
      rw [hnowait, if_neg Bool.false_ne_true] at hu
      subst hu
      refine h.execs (x := .idle) rfl rfl rfl rfl h.monitor h.callerAt hinside
        (fun j hj => ⟨Iff.rfl, rfl, rfl⟩) hpending nofun hperformed (fun _ => rfl)
        (fun hgone => ?_) ?_
      · refine (h.alive hgone).mono rfl (fun _ hj => hj) fun j hj => ?_
        by_cases hji : j = i
        · rwa [hji]
        · rwa [show (s.setExec i .idle).exec j = s.exec j from Function.update_of_ne hji ..] at hj
      · have hfreed := h.freedAt
        rw [FreedAt, hnowait] at hfreed
        rw [FreedAt, hnowait]
        exact hfreed
  | true =>
      obtain ⟨k, htargets⟩ := hproper.single hnowait
      rw [htargets, List.mem_singleton] at hmem
      subst hmem
      have hbegun : 0 < (s.centers i).begun := by
        rw [hi.begun]
        exact Nat.lt_of_lt_of_le (List.count_pos_iff.mpr hleft) (Nat.le_add_left _ _)
      have halive := h.alive_of_begun (htargets ▸ List.mem_singleton_self i) hbegun
        (.inr ⟨hnowait, hunlocked⟩)
      rw [hnowait, if_pos rfl, touch_of_alive halive] at hu
      subst hu
      refine h.execs (x := .idle) rfl rfl rfl rfl h.monitor
        (h.callerAt.mono rfl Iff.rfl Iff.rfl fun hwaits => ?_) hinside
        (fun j hj => ⟨Iff.rfl, rfl, rfl⟩) hpending nofun hperformed (fun _ => rfl) (fun _ => ?_) ?_
      · rw [hnowait] at hwaits
        cases hwaits
      · refine .inr (.inr fun j hj => ?_)
        rw [htargets, List.mem_singleton] at hj
        subst hj
        refine ⟨hleft, fun _ => ?_⟩
        show Function.update s.exec j .idle j ≠ .unlocked
        rw [hidle]
        nofun
      · have hfreed := h.freedAt
        rw [FreedAt, if_pos hnowait] at hfreed
        rw [FreedAt, if_pos hnowait]
        intro j hj
        have hold := hfreed j hj
        rw [htargets, List.mem_singleton] at hj
        subst hj
        rw [hunlocked] at hold
        show s.freed + 1 + (decide (Function.update s.exec j .idle j = .unlocked)).toNat = _
        rw [hidle]
        exact hold

theorem execStep (h : s.Owned cfg) (hproper : cfg.Proper) {a : HandoffAction α}
    (hstep : s.execStep cfg a = some u) : u.Owned cfg := by
  cases a with
  | perform i =>
      obtain ⟨⟨hcalled, -⟩, hu⟩ := Option.ite_none_right_eq_some.mp hstep
      exact Option.some.inj hu ▸ h.perform hproper hcalled
  | enter i =>
      obtain ⟨hperformed, hu⟩ := Option.ite_none_right_eq_some.mp hstep
      split at hu
      · rename_i m hm
        exact Option.some.inj hu ▸ h.enter hproper hperformed hm
      · cases hu
  | exec i =>
      obtain ⟨hinside, hu⟩ := Option.ite_none_right_eq_some.mp hstep
      split at hu
      · rename_i m hm
        exact Option.some.inj hu ▸ h.exec hproper hinside hm
      · cases hu
  | leave i =>
      obtain ⟨hinside, hu⟩ := Option.ite_none_right_eq_some.mp hstep
      split at hu
      · rename_i m hm
        exact Option.some.inj hu ▸ h.leave hproper hinside hm
      · cases hu
  | finish i =>
      obtain ⟨hunlocked, hu⟩ := Option.ite_none_right_eq_some.mp hstep
      refine h.finish hproper hunlocked ?_
      split at hu
      · rename_i hnowait
        rw [if_pos hnowait]
        exact (Option.some.inj hu).symm
      · rename_i hnowait
        rw [if_neg hnowait]
        exact (Option.some.inj hu).symm
  | center _ _ | start | send | sent | wait | waits _ => cases hstep

/-! ### The caller -/

theorem start (h : s.Owned cfg) (hstage : s.stage = .before)
    (hu : u = if cfg.direct then { s with performed := s.performed ++ cfg.targets, stage := .after }
      else { s with stage := .dispatching cfg.targets, alive := true }) : u.Owned cfg := by
  have hsending (t : Stage) (i : ℕ) : (∃ rest, s.stage = .sending i rest) →
      ∃ rest, t = .sending i rest := by
    rintro ⟨rest, hs⟩
    rw [hstage] at hs
    cases hs
  cases hdirect : cfg.direct with
  | true =>
      rw [if_pos hdirect] at hu
      subst hu
      have htodo : (Stage.after).todo cfg = s.stage.todo cfg := by
        rw [hstage]
        exact if_pos hdirect
      refine ⟨fun i => ?_, h.monitor, ?_, fun _ => ?_, fun _ => .inr (.inl hdirect), ?_, h.touched⟩
      · refine (h.parts i).restage rfl rfl rfl rfl (fun hd => ?_) (fun _ _ => hsending _ i) htodo
        rw [hdirect] at hd
        cases hd
      · intro hd
        rw [hdirect] at hd
        cases hd
      · have hnothing := h.direct hdirect
        rw [if_neg (by rw [hstage]; nofun)] at hnothing
        show s.performed ++ cfg.targets = cfg.targets
        rw [hnothing, List.nil_append]
      · exact h.freedAt.of_same rfl rfl fun _ => Iff.rfl
  | false =>
      rw [hdirect, if_neg Bool.false_ne_true] at hu
      subst hu
      have hat := h.callerAt
      rw [CallerAt, hstage] at hat
      have htodo : (Stage.dispatching cfg.targets).todo cfg = s.stage.todo cfg := by
        rw [hstage]
        rfl
      refine ⟨fun i => ?_, h.monitor, ⟨hdirect, hat, fun _ => rfl⟩, fun hd => ?_, nofun, ?_,
        h.touched⟩
      · exact (h.parts i).restage rfl rfl rfl rfl (fun _ => rfl) (fun _ _ => hsending _ i) htodo
      · rw [hdirect] at hd
        cases hd
      · exact h.freedAt.of_same rfl rfl fun _ => Iff.rfl

theorem send (h : s.Owned cfg) {i : ℕ} {rest : List ℕ} {c : External (Option α)}
    (hstage : s.stage = .dispatching (i :: rest))
    (hstep : (s.centers i).step (.lock cfg.caller none) = some c) :
    { s.setCenter i c with stage := .sending i rest }.Owned cfg := by
  obtain ⟨hcarries, hsent, hbegun⟩ := External.sends_step hstep
  have hat := h.callerAt
  rw [CallerAt, hstage] at hat
  have hnobody (j : ℕ) (t : Thread) : ¬ ((s.centers j).calls t).carries := by
    intro ht
    obtain ⟨-, rest', hs⟩ := (h.parts j).carries t ht
    rw [hstage] at hs
    cases hs
  refine ⟨fun j => ?_, h.monitor, hat, fun hd => ?_, fun halive => ?_, ?_, h.touched⟩
  · have hj := h.parts j
    by_cases hji : j = i
    · subst hji
      have hc : (s.setCenter j c).centers j = c := Function.update_self ..
      refine ⟨?_, ?_, ?_, ?_, hj.inside, hj.unlocked, hj.performed⟩
      · exact hc.symm ▸ hj.kept.step hstep
      · refine hc.symm ▸ fun t ht => ⟨?_, rest, rfl⟩
        exact (hcarries t ht).resolve_right (hnobody j t)
      · have hcount := hj.sent
        rw [hstage] at hcount
        show ((s.setCenter j c).centers j).sentBy cfg.caller + rest.count j = _
        rw [hc, hsent, ← hcount]
        show _ = _ + (j :: rest).count j
        rw [List.count_cons_self]
        omega
      · exact hc.symm ▸ hbegun ▸ hj.begun
    · have hc : (s.setCenter i c).centers j = s.centers j := Function.update_of_ne hji ..
      refine ⟨?_, ?_, ?_, ?_, hj.inside, hj.unlocked, hj.performed⟩
      · exact hc.symm ▸ hj.kept
      · exact hc.symm ▸ fun t ht => absurd ht (hnobody j t)
      · have hcount := hj.sent
        rw [hstage] at hcount
        show ((s.setCenter i c).centers j).sentBy cfg.caller + rest.count j = _
        rw [hc, ← hcount]
        show _ = _ + (i :: rest).count j
        rw [List.count_cons_of_ne (Ne.symm hji)]
      · exact hc.symm ▸ hj.begun
  · rw [hat.1] at hd
    cases hd
  · rcases h.alive halive with hbefore | hdone
    · rw [hstage] at hbefore
      cases hbefore
    · exact .inr hdone
  · exact h.freedAt.of_same rfl rfl fun _ => Iff.rfl

theorem sent (h : s.Owned cfg) {i : ℕ} {rest : List ℕ} (hstage : s.stage = .sending i rest)
    (hidle : ((s.centers i).calls cfg.caller).isIdle) :
    { s with stage := .dispatching rest }.Owned cfg := by
  have hat := h.callerAt
  rw [CallerAt, hstage] at hat
  refine ⟨fun j => ?_, h.monitor, hat, fun hd => ?_, fun halive => ?_, ?_, h.touched⟩
  · refine (h.parts j).restage rfl rfl rfl rfl (fun _ => rfl) (fun t ht hsending => ?_) ?_
    · obtain ⟨rest', hs⟩ := hsending
      rw [hstage] at hs
      obtain ⟨rfl, -⟩ := Stage.sending.inj hs
      rw [((h.parts i).carries t ht).1, Call.carries_of_isIdle hidle] at ht
      cases ht
    · rw [hstage]
      rfl
  · rw [hat.1] at hd
    cases hd
  · rcases h.alive halive with hbefore | hdone
    · rw [hstage] at hbefore
      cases hbefore
    · exact .inr hdone
  · exact h.freedAt.of_same rfl rfl fun _ => Iff.rfl

/-- The caller goes on to `t` with the monitor `m`, after it has dispatched to all. -/
theorem goes (h : s.Owned cfg) {m : Monitor σ ℕ} {w : Waiter} {t : Stage} (alive : Bool)
    (hdispatched : s.stage = .dispatching [] ∨ s.stage = .waiting) (hdirect : cfg.direct = false)
    (hreached : (Monitor.machine ℕ cfg.code).ReachedUnder (Monitor.Once cfg.targets.toFinset) m)
    (hm : m = { s.monitor with waiter := w }) (htodo : t.todo cfg = [])
    (hat : { s with monitor := m, stage := t, alive := alive }.CallerAt cfg)
    (hsettled : alive = false → { s with monitor := m, stage := t, alive := alive }.Settled cfg) :
    { s with monitor := m, stage := t, alive := alive }.Owned cfg := by
  subst hm
  have hidle (j : ℕ) (u : Thread) : ¬ ((s.centers j).calls u).carries := by
    intro hu
    obtain ⟨-, rest, hs⟩ := (h.parts j).carries u hu
    rcases hdispatched with hd | hd <;> rw [hd] at hs <;> cases hs
  have htodo' : s.stage.todo cfg = [] := by
    rcases hdispatched with hd | hd <;> rw [hd] <;> rfl
  refine ⟨fun j => ?_, hreached, hat, fun hd => ?_, hsettled, ?_, h.touched⟩
  · exact (h.parts j).restage rfl rfl rfl rfl (fun _ => rfl) (fun u hu => absurd hu (hidle j u))
      (htodo.trans htodo'.symm)
  · rw [hdirect] at hd
    cases hd
  · exact h.freedAt.of_same rfl rfl fun _ => Iff.rfl

theorem wait (h : s.Owned cfg) (hstage : s.stage = .dispatching [])
    (hstep : s.callerStep cfg .wait = some u) : u.Owned cfg := by
  have hat := h.callerAt
  rw [CallerAt, hstage] at hat
  obtain ⟨hdirect, haway, halive⟩ := hat
  simp only [callerStep, if_pos hstage] at hstep
  split at hstep
  · rename_i hnowait
    rw [← Option.some.inj hstep]
    refine h.goes (w := s.monitor.waiter) s.alive (.inl hstage) hdirect h.monitor rfl
      (if_neg (by rw [hdirect]; exact Bool.false_ne_true)) (fun _ hwaits => ?_) fun hgone => ?_
    · rw [hnowait] at hwaits
      cases hwaits
    · rcases h.alive hgone with hbefore | hdone
      · rw [hstage] at hbefore
        cases hbefore
      · exact .inr hdone
  · rename_i hnowait
    rw [Bool.not_eq_true] at hnowait
    split at hstep
    · rename_i m hm
      rw [touch_of_alive (halive hnowait)] at hstep
      rw [← Option.some.inj hstep]
      have hreached : (Monitor.machine ℕ cfg.code).ReachedUnder
          (Monitor.Once cfg.targets.toFinset) m := .step (a := .wait) h.monitor trivial hm
      obtain ⟨-, hm⟩ := Option.ite_none_right_eq_some.mp hm
      refine h.goes s.alive (.inl hstage) hdirect hreached (Option.some.inj hm).symm rfl ?_
        fun hgone => ?_
      · rw [← Option.some.inj hm]
        exact ⟨hdirect, hnowait, halive hnowait, nofun, nofun⟩
      · rw [halive hnowait] at hgone
        cases hgone
    · cases hstep

/-- A step of the caller while it waits. -/
theorem waits (h : s.Owned cfg) (hproper : cfg.Proper) {a : MonitorAction ℕ}
    (hstage : s.stage = .waiting) (ha : a.goesOn)
    (hstep : s.callerStep cfg (.waits a) = some u) : u.Owned cfg := by
  have hat := h.callerAt
  rw [CallerAt, hstage] at hat
  obtain ⟨hdirect, hnowait, halive, hcame, hthere⟩ := hat
  simp only [callerStep, if_pos (And.intro hstage ha), touch_of_alive halive] at hstep
  split at hstep
  · rename_i m hm
    have honce : Monitor.Once cfg.targets.toFinset s.monitor a := by
      cases a with
      | enter _ => cases ha
      | _ => trivial
    have hreached : (Monitor.machine ℕ cfg.code).ReachedUnder
        (Monitor.Once cfg.targets.toFinset) m := .step h.monitor honce hm
    obtain ⟨w, hw, rfl⟩ := Monitor.step_goesOn ha hm
    split at hstep
    · rename_i hreturned
      rw [← Option.some.inj hstep]
      obtain ⟨hall, -⟩ := Monitor.all_left_of_returned hproper.announces hproper.counts hreached
        hreturned
      refine h.goes _ (.inr hstage) hdirect hreached rfl
        (if_neg (by rw [hdirect]; exact Bool.false_ne_true)) (fun _ _ => hreturned) fun _ => ?_
      refine .inr (.inr fun j hj => ⟨hall j (List.mem_toFinset.mpr hj), fun hn => ?_⟩)
      rw [hnowait] at hn
      cases hn
    · rename_i hreturned
      rw [← Option.some.inj hstep]
      have hgoes := h.goes (t := s.stage) s.alive (.inr hstage) hdirect hreached rfl
        (by rw [hstage]; rfl) ?_ fun hgone => ?_
      · exact hgoes
      · rw [CallerAt, hstage]
        exact ⟨hdirect, hnowait, halive, hw, hreturned⟩
      · rw [halive] at hgone
        cases hgone
  · cases hstep

theorem callerStep (h : s.Owned cfg) (hproper : cfg.Proper) {a : HandoffAction α}
    (hstep : s.callerStep cfg a = some u) : u.Owned cfg := by
  cases a with
  | start =>
      obtain ⟨hstage, hu⟩ := Option.ite_none_right_eq_some.mp hstep
      refine h.start hstage ?_
      split at hu
      · rename_i hdirect
        rw [if_pos hdirect]
        exact (Option.some.inj hu).symm
      · rename_i hdirect
        rw [if_neg hdirect]
        exact (Option.some.inj hu).symm
  | send =>
      simp only [Handoff.callerStep] at hstep
      split at hstep
      · rename_i i rest hstage
        split at hstep
        · rename_i c hc
          exact Option.some.inj hstep ▸ h.send hstage hc
        · cases hstep
      · cases hstep
  | sent =>
      simp only [Handoff.callerStep] at hstep
      split at hstep
      · rename_i i rest hstage
        split at hstep
        · rename_i hidle
          exact Option.some.inj hstep ▸ h.sent hstage hidle
        · cases hstep
      · cases hstep
  | wait =>
      obtain ⟨hstage, -⟩ := Option.ite_none_right_eq_some.mp hstep
      exact h.wait hstage hstep
  | waits a =>
      obtain ⟨⟨hstage, ha⟩, -⟩ := Option.ite_none_right_eq_some.mp hstep
      exact h.waits hproper hstage ha hstep
  | center _ _ | perform _ | enter _ | exec _ | leave _ | finish _ => cases hstep

/-- **The step lemma.** -/
theorem step (h : s.Owned cfg) (hproper : cfg.Proper) {a : HandoffAction α}
    (hstep : s.step cfg a = some u) : u.Owned cfg := by
  simp only [Handoff.step] at hstep
  split at hstep
  case h_1 => exact h.centerStep hstep
  case h_7 => exact h.execStep hproper hstep
  all_goals exact h.callerStep hproper hstep

end Owned

theorem owned_of_reached (hproper : cfg.Proper) {s : Handoff α σ}
    (hreached : (machine α cfg).Reached s) : s.Owned cfg :=
  hreached.invariant (Owned cfg) (fun _ hfresh => .of_fresh hfresh)
    fun _ _ _ h _ hstep => h.step hproper hstep

/-! ## What the caller can rely on -/

/-- The callback in question was dispatched once, and has been called after all that had been
dispatched before it. -/
def RanAfterEarlier (c : External (Option α)) : Prop :=
  ∃ earlier later t, c.dispatched = earlier ++ (none, t) :: later ∧
    earlier ++ [(none, t)] <+: c.ran ∧ ∀ e ∈ earlier ++ later, e.1.isSome

namespace Owned

variable {s : Handoff α σ}

theorem sentBy_le_one (h : s.Owned cfg) (hproper : cfg.Proper) (i : ℕ) :
    (s.centers i).sentBy cfg.caller ≤ 1 := by
  have hsent := (h.parts i).sent
  have honce := List.nodup_iff_count_le_one.mp hproper.nodup i
  omega

/-- A center that has begun to run the callback has run what had been dispatched before. -/
theorem ranAfterEarlier (h : s.Owned cfg) (hproper : cfg.Proper) {i : ℕ}
    (hbegun : 0 < (s.centers i).begun) : RanAfterEarlier (s.centers i) := by
  obtain ⟨⟨e, t⟩, hmem, hown⟩ := List.countP_pos_iff.mp hbegun
  obtain rfl : e = none := Option.isNone_iff_eq_none.mp hown
  obtain ⟨earlier, ran, hran⟩ := List.append_of_mem hmem
  have hqueue := Fifo.delivered_append_held (h.parts i).kept.queue
  have hdispatched : (s.centers i).dispatched =
      earlier ++ (none, t) :: (ran ++ (s.centers i).queue.held) := by
    rw [show (s.centers i).dispatched = (s.centers i).queue.arrived from rfl, ← hqueue]
    show (s.centers i).ran ++ _ = _
    rw [hran, List.append_assoc, List.cons_append]
  refine ⟨earlier, _, t, hdispatched, ?_, fun e he => ?_⟩
  · rw [hran]
    exact ⟨ran, by rw [List.append_assoc, List.singleton_append]⟩
  · have hle := (Nat.le_add_right _ _).trans (h.sentBy_le_one hproper i)
    rw [hdispatched, List.countP_append, List.countP_cons] at hle
    have hothers : (earlier ++ (ran ++ (s.centers i).queue.held)).countP isOwn = 0 := by
      rw [List.countP_append]
      simp only [isOwn, Option.isNone_none, if_true] at hle ⊢
      omega
    have hother := List.countP_eq_zero.mp hothers e he
    rwa [isOwn, Bool.not_eq_true, Option.isNone_eq_false_iff] at hother

end Owned

/-! ## The wait ends -/

/-- A center that has not run the callback runs it, or has it in its queues and does not sleep: if
it waits with a timeout, there is something in its pipe or going to be. -/
def Attended (s : Handoff α σ) (i : ℕ) : Prop :=
  (s.exec i).pending = true ∨
    (∃ t, (none, t) ∈ (s.centers i).curProcess ++ (s.centers i).externalEvents) ∧
      ∀ timeout triggerTime, (s.centers i).phase = .waiting timeout triggerTime → timeout ≠ 0 →
        0 < (s.centers i).pipe ∨ ∃ t, (s.centers i).AboutToWrite t

/-- A step of the caller while it waits. -/
def ByCaller (_ : Handoff α σ) (a : HandoffAction α) : Prop := ∃ b, a = .waits b

namespace Owned

variable {s : Handoff α σ}

/-- While the caller waits, the callback is in the queues of a center that has not begun. -/
theorem mem_queues (h : s.Owned cfg) (hproper : cfg.Proper) (hstage : s.stage = .waiting) {i : ℕ}
    (hmem : i ∈ cfg.targets) (hnew : i ∉ s.monitor.left) (hpending : (s.exec i).pending = false) :
    ∃ t, (none, t) ∈ (s.centers i).curProcess ++ (s.centers i).externalEvents := by
  have hi := h.parts i
  have hsent := hi.sent
  have hbegun := hi.begun
  rw [hpending, List.count_eq_zero.mpr hnew] at hbegun
  rw [hstage, List.count_eq_one_of_mem hproper.nodup hmem] at hsent
  have hcarries : ((s.centers i).calls cfg.caller).carries = false := by
    rw [← Bool.not_eq_true]
    intro ht
    obtain ⟨-, rest, hs⟩ := hi.carries _ ht
    rw [hstage] at hs
    cases hs
  have hone : (s.centers i).dispatched.countP isOwn = 1 := by
    rw [External.sentBy, hcarries] at hsent
    exact hsent
  rw [show (s.centers i).dispatched = (s.centers i).queue.arrived from rfl,
    ← Fifo.delivered_append_held hi.kept.queue, List.countP_append] at hone
  have hran : (s.centers i).queue.delivered.countP isOwn = 0 := hbegun
  have hheld : 0 < (s.centers i).queue.held.countP isOwn := by
    rw [hran, Nat.zero_add] at hone
    rw [hone]
    exact Nat.zero_lt_one
  obtain ⟨⟨e, t⟩, he, hown⟩ := List.countP_pos_iff.mp hheld
  obtain rfl : e = none := Option.isNone_iff_eq_none.mp hown
  exact ⟨t, he⟩

theorem attended (h : s.Owned cfg) (hproper : cfg.Proper) (hstage : s.stage = .waiting) {i : ℕ}
    (hmem : i ∈ cfg.targets) (hnew : i ∉ s.monitor.left) : s.Attended i := by
  cases hpending : (s.exec i).pending with
  | true => exact .inl hpending
  | false =>
      obtain ⟨t, ht⟩ := h.mem_queues hproper hstage hmem hnew hpending
      refine .inr ⟨⟨t, ht⟩, fun timeout triggerTime hphase htimeout => ?_⟩
      have hstands := (h.parts i).kept.stands
      rw [hphase] at hstands
      obtain ⟨hcur, hheard⟩ := hstands
      rw [hcur, List.nil_append] at ht
      cases hevents : (s.centers i).externalEvents with
      | nil =>
          rw [hevents] at ht
          cases ht
      | cons e rest =>
          exact (hheard htimeout e rest hevents).imp_right fun habout => ⟨e.2, habout⟩

/-- The steps of the waiting thread on the monitor are steps of the caller. -/
theorem returns (h : s.Owned cfg) (hproper : cfg.Proper) (hstage : s.stage = .waiting)
    {m : Monitor σ ℕ} (hreturned : m.waiter = .returned)
    (hmoves : Relation.ReflTransGen ((Monitor.machine ℕ cfg.code).Moves Monitor.ByWaiter)
      s.monitor m) :
    ∃ t, Relation.ReflTransGen ((machine α cfg).Moves ByCaller) s t ∧ t.stage = .after := by
  generalize hn : s.monitor = n at hmoves
  induction hmoves using Relation.ReflTransGen.head_induction_on generalizing s with
  | refl =>
      have hat := h.callerAt
      rw [CallerAt, hstage] at hat
      exact absurd (hn ▸ hreturned) hat.2.2.2.2
  | @head n k hmove _ ih =>
      subst hn
      obtain ⟨a, hby, hk⟩ := hmove
      have hgoesOn : a.goesOn := by
        cases a with
        | lock | look | pass => rfl
        | _ => cases hby
      have hat := h.callerAt
      rw [CallerAt, hstage] at hat
      obtain ⟨-, -, halive, -⟩ := hat
      have hstep : s.step cfg (.waits a) =
          if k.waiter = .returned then
            some { s.setMonitor k with stage := .after, alive := false }
          else some (s.setMonitor k) := by
        show s.callerStep cfg (.waits a) = _
        simp only [Handoff.callerStep, if_pos (And.intro hstage hgoesOn), touch_of_alive halive]
        rw [show s.monitor.step cfg.code a = some k from hk]
      by_cases hover : k.waiter = .returned
      · rw [if_pos hover] at hstep
        exact ⟨_, .single ⟨.waits a, ⟨a, rfl⟩, hstep⟩, rfl⟩
      · rw [if_neg hover] at hstep
        obtain ⟨t, ht, hafter⟩ := ih (s := s.setMonitor k) (h.step hproper hstep) hstage rfl
        exact ⟨t, .head ⟨.waits a, ⟨a, rfl⟩, hstep⟩ ht, hafter⟩

end Owned

section Wait

variable {s : Handoff α σ}

/-- **No wakeup is lost.**  While the caller waits, every center that has not run the callback
attends to it; and when all have run it, the caller returns without anybody's help. -/
theorem wait_ends (hproper : cfg.Proper) (hreached : (machine α cfg).Reached s)
    (hstage : s.stage = .waiting) :
    (∀ i ∈ cfg.targets, i ∉ s.monitor.left → s.Attended i) ∧
      ((∀ i ∈ cfg.targets, i ∈ s.monitor.left) →
        ∃ t, Relation.ReflTransGen ((machine α cfg).Moves ByCaller) s t ∧ t.stage = .after) := by
  have h := owned_of_reached hproper hreached
  refine ⟨fun i hmem hnew => h.attended hproper hstage hmem hnew, fun hall => ?_⟩
  have hat := h.callerAt
  rw [CallerAt, hstage] at hat
  have hmoves := Monitor.returns_of_all_left hproper.announces hproper.counts h.monitor
    (fun i hi => hall i (List.mem_toFinset.mp hi)) hat.2.2.2.1
  exact h.returns hproper hstage rfl hmoves

end Wait

/-! ## The object and the function -/

/-- **What holds of a callback that is handed over.**  The object is never used while it is not
there.  No center calls the function twice, and none that the callback does not go to calls it.
A center that calls it has run what had been dispatched before.  A caller that calls it itself does
so at once, and dispatches nothing.  When a caller that waits is back, all have called the function
and left.  The object is deleted only if nobody waits for it, once, and then the center it went to
has returned. -/
structure Handed (cfg : HandoffConfig σ) (s : Handoff α σ) : Prop where
  untouched : s.touched = false
  once : s.performed.Nodup
  only : ∀ i ∈ s.performed, i ∈ cfg.targets
  inTurn : cfg.direct = false → ∀ i ∈ s.performed, RanAfterEarlier (s.centers i)
  atOnce : cfg.direct = true → (∀ i, (s.centers i).sentBy cfg.caller = 0) ∧
    (s.stage = .before ∧ s.performed = [] ∨ s.stage = .after ∧ s.performed = cfg.targets)
  back : s.stage = .after → cfg.nowait = false →
    (∀ i ∈ cfg.targets, i ∈ s.performed) ∧
      (cfg.direct = false → ∀ i ∈ cfg.targets, i ∈ s.monitor.left)
  freedOnce : s.freed ≤ 1
  freed : s.freed = 1 ↔
    cfg.nowait = true ∧ ∀ i ∈ cfg.targets, i ∈ s.monitor.left ∧ s.exec i = .idle

namespace Owned

variable {s : Handoff α σ}

theorem begun_le_one (h : s.Owned cfg) (hproper : cfg.Proper) (i : ℕ) :
    (s.centers i).begun ≤ 1 :=
  ((h.parts i).kept.begun_le_sentBy cfg.caller).trans (h.sentBy_le_one hproper i)

/-- A function that has been called is about to be followed by the section, or has been. -/
theorem performed_le (h : s.Owned cfg) (hdirect : cfg.direct = false) (i : ℕ) :
    s.performed.count i ≤ (s.centers i).begun := by
  rw [(h.parts i).performed hdirect, (h.parts i).begun]
  apply Nat.add_le_add_right
  cases s.exec i <;> decide

theorem performed_once (h : s.Owned cfg) (hproper : cfg.Proper) :
    s.performed.Nodup ∧ ∀ i ∈ s.performed, i ∈ cfg.targets := by
  cases hdirect : cfg.direct with
  | true =>
      rw [h.direct hdirect]
      split
      · exact ⟨hproper.nodup, fun i hi => hi⟩
      · exact ⟨List.nodup_nil, nofun⟩
  | false =>
      refine ⟨List.nodup_iff_count_le_one.mpr fun i => ?_, fun i hi => ?_⟩
      · exact (h.performed_le hdirect i).trans (h.begun_le_one hproper i)
      · have hbegun := (List.count_pos_iff.mpr hi).trans_le (h.performed_le hdirect i)
        have hsent := (h.parts i).sent
        have hle := (h.parts i).kept.begun_le_sentBy cfg.caller
        exact List.count_pos_iff.mp (by omega)

/-- A caller that calls the function itself is never between the start and the end. -/
theorem atOnce (h : s.Owned cfg) (hdirect : cfg.direct = true) :
    (∀ i, (s.centers i).sentBy cfg.caller = 0) ∧
      (s.stage = .before ∧ s.performed = [] ∨ s.stage = .after ∧ s.performed = cfg.targets) := by
  have hat := h.callerAt
  rw [CallerAt, hdirect] at hat
  have hperformed := h.direct hdirect
  have hnone (htodo : s.stage.todo cfg = cfg.targets) (i : ℕ) :
      (s.centers i).sentBy cfg.caller = 0 := by
    have hsent := (h.parts i).sent
    rw [htodo] at hsent
    omega
  cases hstage : s.stage with
  | before =>
      rw [hstage] at hperformed
      exact ⟨hnone (by rw [hstage]; rfl), .inl ⟨rfl, hperformed⟩⟩
  | after =>
      rw [hstage] at hperformed
      exact ⟨hnone (by rw [hstage, Stage.todo, if_pos hdirect]), .inr ⟨rfl, hperformed⟩⟩
  | dispatching rest | sending j rest | waiting =>
      rw [hstage] at hat
      cases hat.1

theorem back (h : s.Owned cfg) (hproper : cfg.Proper) (hstage : s.stage = .after)
    (hnowait : cfg.nowait = false) :
    (∀ i ∈ cfg.targets, i ∈ s.performed) ∧
      (cfg.direct = false → ∀ i ∈ cfg.targets, i ∈ s.monitor.left) := by
  cases hdirect : cfg.direct with
  | true =>
      rw [h.direct hdirect, if_pos hstage]
      exact ⟨fun i hi => hi, nofun⟩
  | false =>
      have hat := h.callerAt
      rw [CallerAt, hstage] at hat
      obtain ⟨hall, -⟩ := Monitor.all_left_of_returned hproper.announces hproper.counts h.monitor
        (hat hdirect hnowait)
      have hleft (i : ℕ) (hi : i ∈ cfg.targets) : i ∈ s.monitor.left :=
        hall i (List.mem_toFinset.mpr hi)
      refine ⟨fun i hi => ?_, fun _ => hleft⟩
      have hperformed := (h.parts i).performed hdirect
      have hcount := List.count_pos_iff.mpr (hleft i hi)
      exact List.count_pos_iff.mp (by omega)

/-- Who has left and does not return is idle. -/
theorem idle_of_left (h : s.Owned cfg) (hproper : cfg.Proper) {i : ℕ} (hleft : i ∈ s.monitor.left)
    (hunlocked : s.exec i ≠ .unlocked) : s.exec i = .idle := by
  cases hx : s.exec i with
  | idle => rfl
  | unlocked => exact absurd hx hunlocked
  | called | performed | inside =>
      have hnew := (h.of_pending hproper (i := i) (by rw [hx]; rfl)).2
      exact absurd hleft hnew

theorem freed (h : s.Owned cfg) (hproper : cfg.Proper) :
    s.freed ≤ 1 ∧ (s.freed = 1 ↔
      cfg.nowait = true ∧ ∀ i ∈ cfg.targets, i ∈ s.monitor.left ∧ s.exec i = .idle) := by
  have hfreed := h.freedAt
  rw [FreedAt] at hfreed
  cases hnowait : cfg.nowait with
  | false =>
      rw [hnowait, if_neg Bool.false_ne_true] at hfreed
      rw [hfreed]
      exact ⟨Nat.zero_le 1, nofun, nofun⟩
  | true =>
      obtain ⟨k, htargets⟩ := hproper.single hnowait
      rw [if_pos hnowait, htargets] at hfreed
      have hk := hfreed k (List.mem_singleton_self k)
      have honce := List.nodup_iff_count_le_one.mp (Monitor.expected_of_reached h.monitor).nodup k
      refine ⟨by omega, fun hone => ⟨rfl, fun i hi => ?_⟩, fun ⟨_, hall⟩ => ?_⟩
      · rw [htargets, List.mem_singleton] at hi
        subst hi
        have hleft : i ∈ s.monitor.left := List.count_pos_iff.mp (by omega)
        refine ⟨hleft, h.idle_of_left hproper hleft fun hunlocked => ?_⟩
        rw [hunlocked, decide_eq_true rfl, Bool.toNat_true] at hk
        omega
      · obtain ⟨hleft, hidle⟩ := hall k (htargets ▸ List.mem_singleton_self k)
        rw [hidle, decide_eq_false nofun, Bool.toNat_false] at hk
        have hcount := List.count_pos_iff.mpr hleft
        omega

/-- **The invariant gives what the caller can rely on.** -/
theorem handed (h : s.Owned cfg) (hproper : cfg.Proper) : s.Handed cfg where
  untouched := h.touched
  once := (h.performed_once hproper).1
  only := (h.performed_once hproper).2
  inTurn hdirect i hi := h.ranAfterEarlier hproper
    ((List.count_pos_iff.mpr hi).trans_le (h.performed_le hdirect i))
  atOnce := h.atOnce
  back := h.back hproper
  freedOnce := (h.freed hproper).1
  freed := (h.freed hproper).2

end Owned

end Handoff

end HwAsync.Event
