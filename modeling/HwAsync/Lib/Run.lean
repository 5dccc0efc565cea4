/-
# Runs of guarded machines

Every component of this development is a guarded, executable step function: an
action either produces the next state or is disabled.  This module supplies the
vocabulary shared by all of them: the states a run can reach, the states a run
can reach when each of its steps meets a side condition, the induction rule
that turns a preserved predicate into an invariant, the rules that carry what is
known about one machine over to another, and a replay function that certifies a
concrete run.

Nothing here mentions sockets or sessions; a component instantiates `Machine`
and proves its own step lemmas.
-/

import Mathlib.Data.List.Basic
import Mathlib.Logic.Relation
import Mathlib.Tactic.Common

namespace HwAsync.Lib

universe us ua ut ub

/-- A guarded machine.  `step` answers `none` at a disabled action. -/
structure Machine (σ : Type us) (α : Type ua) where
  /-- The states a run may start in. -/
  start : σ → Prop
  /-- One guarded action. -/
  step : σ → α → Option σ

namespace Machine

variable {σ : Type us} {α : Type ua} (M : Machine σ α)

/-- The states reached by the runs each of whose steps meets `ok` in the state
it is taken from. -/
inductive ReachedUnder (ok : σ → α → Prop) : σ → Prop
  | start {s : σ} (hstart : M.start s) : ReachedUnder ok s
  | step {s t : σ} {a : α} (prior : ReachedUnder ok s) (hok : ok s a)
      (hstep : M.step s a = some t) : ReachedUnder ok t

/-- The states reached by all runs. -/
abbrev Reached : σ → Prop := M.ReachedUnder fun _ _ => True

variable {M}

/-- **The invariant rule.**  A predicate that holds at the start and survives
every step that meets the condition holds of every state reached. -/
theorem ReachedUnder.invariant {ok : σ → α → Prop} (P : σ → Prop)
    (hstart : ∀ s, M.start s → P s)
    (hstep : ∀ s a t, P s → ok s a → M.step s a = some t → P t) {s : σ}
    (hreached : M.ReachedUnder ok s) : P s := by
  induction hreached with
  | start h => exact hstart _ h
  | step _ hok h ih => exact hstep _ _ _ ih hok h

/-- A run whose steps meet a condition is a run. -/
theorem ReachedUnder.reached {ok : σ → α → Prop} {s : σ} (hreached : M.ReachedUnder ok s) :
    M.Reached s := by
  induction hreached with
  | start h => exact .start h
  | step _ _ h ih => exact .step ih trivial h

/-- A weaker condition admits more runs. -/
theorem ReachedUnder.mono {ok ok' : σ → α → Prop} (hweaker : ∀ s a, ok s a → ok' s a) {s : σ}
    (hreached : M.ReachedUnder ok s) : M.ReachedUnder ok' s := by
  induction hreached with
  | start h => exact .start h
  | step _ hok h ih => exact .step ih (hweaker _ _ hok) h

/-! ## Simulation -/

variable (M) in
/-- One step that meets a condition. -/
def Moves (ok : σ → α → Prop) (s t : σ) : Prop := ∃ a, ok s a ∧ M.step s a = some t

/-- A state that is reached, and the steps that go on from there. -/
theorem ReachedUnder.trans {ok : σ → α → Prop} {s t : σ} (hreached : M.ReachedUnder ok s)
    (hmoves : Relation.ReflTransGen (M.Moves ok) s t) : M.ReachedUnder ok t := by
  induction hmoves with
  | refl => exact hreached
  | tail _ hmove ih =>
      obtain ⟨a, hok, hstep⟩ := hmove
      exact .step ih hok hstep

/-- **The simulation rule.**  If every step of one machine is some steps of another, then what
the first reaches is seen as something that the second reaches. -/
theorem ReachedUnder.simulates {τ : Type ut} {β : Type ub} {N : Machine τ β} (view : σ → τ)
    {ok : σ → α → Prop} {ok' : τ → β → Prop} (hstart : ∀ s, M.start s → N.start (view s))
    (hstep : ∀ s a t, ok s a → M.step s a = some t →
      Relation.ReflTransGen (N.Moves ok') (view s) (view t))
    {s : σ} (hreached : M.ReachedUnder ok s) : N.ReachedUnder ok' (view s) := by
  induction hreached with
  | start h => exact .start (hstart _ h)
  | step _ hok h ih => exact ih.trans (hstep _ _ _ hok h)

/-- **The refinement rule.**  If what is related to a state that is reached can follow every step
with some steps of its own, then whatever the first machine reaches is related to something that
the second reaches. -/
theorem ReachedUnder.refines {τ : Type ut} {β : Type ub} {N : Machine τ β} (R : σ → τ → Prop)
    {ok : σ → α → Prop} {ok' : τ → β → Prop}
    (hstart : ∀ s, M.start s → ∃ t, N.start t ∧ R s t)
    (hstep : ∀ s a s' t, N.ReachedUnder ok' t → R s t → ok s a → M.step s a = some s' →
      ∃ t', Relation.ReflTransGen (N.Moves ok') t t' ∧ R s' t')
    {s : σ} (hreached : M.ReachedUnder ok s) : ∃ t, N.ReachedUnder ok' t ∧ R s t := by
  induction hreached with
  | start h =>
      obtain ⟨t, ht, hR⟩ := hstart _ h
      exact ⟨t, .start ht, hR⟩
  | step _ hok h ih =>
      obtain ⟨t, ht, hR⟩ := ih
      obtain ⟨t', hmoves, hR'⟩ := hstep _ _ _ t ht hR hok h
      exact ⟨t', ht.trans hmoves, hR'⟩

/-! ## Replay -/

section Replay

variable (M)
variable (ok : σ → α → Prop) [∀ s a, Decidable (ok s a)]

/-- Replay a list of actions, refusing an action whose side condition fails. -/
def replay : σ → List α → Option σ
  | s, [] => some s
  | s, a :: rest =>
      if ok s a then
        match M.step s a with
        | some t => replay t rest
        | none => none
      else none

variable {M ok}

/-- A successful replay stays among the states reached. -/
theorem ReachedUnder.of_replay {s t : σ} {actions : List α}
    (hreached : M.ReachedUnder ok s) (hreplay : M.replay ok s actions = some t) :
    M.ReachedUnder ok t := by
  induction actions generalizing s with
  | nil =>
      simp only [replay, Option.some.injEq] at hreplay
      exact hreplay ▸ hreached
  | cons a rest ih =>
      simp only [replay] at hreplay
      split at hreplay
      · rename_i hok
        split at hreplay
        · rename_i u hstep
          exact ih (.step hreached hok hstep) hreplay
        · cases hreplay
      · cases hreplay

/-- A successful replay goes on step by step. -/
theorem moves_of_replay {s t : σ} {actions : List α} (hreplay : M.replay ok s actions = some t) :
    Relation.ReflTransGen (M.Moves ok) s t := by
  induction actions generalizing s with
  | nil =>
      simp only [replay, Option.some.injEq] at hreplay
      exact hreplay ▸ .refl
  | cons a rest ih =>
      simp only [replay] at hreplay
      split at hreplay
      · rename_i hok
        split at hreplay
        · rename_i u hstep
          exact .head ⟨a, hok, hstep⟩ (ih hreplay)
        · cases hreplay
      · cases hreplay

end Replay

end Machine

end HwAsync.Lib
