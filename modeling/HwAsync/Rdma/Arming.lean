/-
# How the polling thread goes to sleep

`polling` looks at both completion queues again and again.  When nothing has come for a while it
asks for an event on both channels and looks once more; only then does it wait in `poll()`.  One
flag says that both queues were armed, and it stays set while completions are found that came after
that.

Completions come at any time.  What `polling` does with them, and with the queue pairs, does not
touch the channels and is left out; the numbers that it tests on the way are part of the steps.
-/

import Mathlib.Logic.Function.Basic
import HwAsync.Lib.Notified
import HwAsync.Lib.Run
import HwAsync.Rdma.Polling

namespace HwAsync.Rdma

open HwAsync.Lib

/-- The queue of sends or that of receives, each with its channel. -/
inductive Side
  | tx
  | rx
  deriving DecidableEq, Repr

/-- Where the polling thread is: before a poll of a queue, with what the polls so far returned;
in the branch without completions; before `rearm_notify` of a queue; in the test of the inner loop;
in `poll()`; before `get_cq_event` of a channel, with what `poll()` returned; or it has left. -/
inductive SleepPhase
  | top
  | txPolled (txRet : ℤ)
  | rxPolled (txRet rxRet : ℤ)
  | idle
  | rearming (side : Side)
  | testing (r : ℤ)
  | polling
  | reading (side : Side) (r : ℤ)
  | exited
  deriving DecidableEq, Repr

/-- The polling thread with the completion queues and channels. -/
structure Sleeper (W : Type) where
  cqs : Side → Notified W
  cqEventsThatNeedAck : Side → ℕ
  rearmed : Bool
  done : Bool
  phase : SleepPhase

/-- What happens next.  Completions arrive and `polling_stop` is called at any time; `ok` is whether
`ibv_poll_cq` succeeds, `inactive` whether the time without completions is over, and `r` what
`poll()` returns. -/
inductive SleepAction (W : Type)
  | arrive (side : Side) (w : W)
  | stop
  | pollTx (ok : Bool)
  | pollRx (ok : Bool)
  | decide
  | idle (numQpConn : ℕ) (inactive : Bool)
  | rearm
  | test
  | poll (r : ℤ)
  | getCqEvent

/-- `MAX_ACK_EVENT`. -/
def maxAckEvent : ℕ := 5000

namespace Sleeper

variable {W : Type}

def setCq (side : Side) (q : Notified W) (s : Sleeper W) : Sleeper W :=
  { s with cqs := Function.update s.cqs side q }

/-- `poll_cq`, with what it returns. -/
def pollCq (side : Side) (ok : Bool) (s : Sleeper W) : ℤ × Sleeper W :=
  if ok then
    let (wc, q) := (s.cqs side).take maxCompletions
    (wc.length, s.setCq side q)
  else (-1, s)

/-- `get_cq_event` on a channel that does not block. -/
def getCqEvent (side : Side) (s : Sleeper W) : Sleeper W :=
  if (s.cqs side).events = 0 then s
  else
    let n := s.cqEventsThatNeedAck side + 1
    { s.setCq side (s.cqs side).readEvent with
      cqEventsThatNeedAck :=
        Function.update s.cqEventsThatNeedAck side (if n = maxAckEvent then 0 else n) }

/-- One step; none if it is not enabled, or aborts. -/
def step (s : Sleeper W) : SleepAction W → Option (Sleeper W)
  | .arrive side w => some (s.setCq side ((s.cqs side).arrive w))
  | .stop => some { s with done := true }
  | .pollTx ok =>
      match s.phase with
      | .top =>
          let (txRet, s) := s.pollCq .tx ok
          some { s with phase := .txPolled txRet }
      | _ => none
  | .pollRx ok =>
      match s.phase with
      | .txPolled txRet =>
          let (rxRet, s) := s.pollCq .rx ok
          some { s with phase := .rxPolled txRet rxRet }
      | _ => none
  | .decide =>
      match s.phase with
      | .rxPolled txRet rxRet =>
          some { s with phase := if txRet = 0 ∧ rxRet = 0 then .idle else .top }
      | _ => none
  | .idle numQpConn inactive =>
      match s.phase with
      | .idle =>
          if numQpConn = 0 ∧ s.done then some { s with phase := .exited }
          else if inactive then
            some { s with phase := if s.rearmed then .testing 0 else .rearming .tx }
          else some { s with phase := .top }
      | _ => none
  | .rearm =>
      match s.phase with
      | .rearming .tx =>
          some { s.setCq .tx (s.cqs .tx).arm with phase := .rearming .rx }
      | .rearming .rx =>
          some { s.setCq .rx (s.cqs .rx).arm with rearmed := true, phase := .top }
      | _ => none
  | .test =>
      match s.phase with
      | .testing r =>
          some { s with phase := if ¬ s.done ∧ r = 0 then .polling else .reading .tx r }
      | _ => none
  | .poll r =>
      match s.phase with
      | .polling => if r < 0 then none else some { s with phase := .testing r }
      | _ => none
  | .getCqEvent =>
      match s.phase with
      | .reading .tx r =>
          some { if 0 < r then s.getCqEvent .tx else s with phase := .reading .rx r }
      | .reading .rx r =>
          some { if 0 < r then s.getCqEvent .rx else s with rearmed := false, phase := .top }
      | _ => none

/-- The thread as it is started. -/
structure Fresh (s : Sleeper W) : Prop where
  rearmed : s.rearmed = false
  phase : s.phase = .top

def machine (W : Type) : Machine (Sleeper W) (SleepAction W) := ⟨Fresh, step⟩

/-- The thread may wait on the channels: an event is unread, or both queues are armed and empty.
Then a completion leaves an unread event, whichever queue it comes to. -/
structure MaySleep (s : Sleeper W) : Prop where
  pending : 0 < (s.cqs .tx).events ∨ 0 < (s.cqs .rx).events ∨
    ∀ side, (s.cqs side).armed ∧ (s.cqs side).items = []
  ended : ∀ side w, 0 < ((s.cqs side).arrive w).events

/-! ## The invariant -/

/-- Everything that came since both queues were armed is announced. -/
def Watched (s : Sleeper W) : Prop := ∀ side, (s.cqs side).Watched

/-- Nothing is in the queues that is not announced. -/
def Settled (s : Sleeper W) : Prop := ∀ side, (s.cqs side).Settled

/-- What holds of the queues by where the thread is. -/
def Stands (s : Sleeper W) : SleepPhase → Prop
  | .top => s.rearmed → s.Watched
  | .txPolled txRet => s.rearmed → s.Watched ∧ (txRet = 0 → (s.cqs .tx).Settled)
  | .rxPolled txRet rxRet =>
      s.rearmed → s.Watched ∧ (txRet = 0 → (s.cqs .tx).Settled) ∧
        (rxRet = 0 → (s.cqs .rx).Settled)
  | .idle => s.rearmed → s.Settled
  | .rearming .rx => (s.cqs .tx).Watched
  | .testing _ | .polling => s.Settled
  | .rearming .tx | .reading _ _ | .exited => True

/-- A change of the queues that keeps what is announced. -/
theorem Stands.mono {s t : Sleeper W} {p : SleepPhase} (h : s.Stands p)
    (hrearmed : t.rearmed = s.rearmed) (hkeeps : ∀ side, (s.cqs side).Keeps (t.cqs side)) :
    t.Stands p := by
  have hwatched (hs : s.Watched) : t.Watched := fun side => (hkeeps side).watched (hs side)
  have hsettled (hs : s.Settled) : t.Settled := fun side => (hkeeps side).settled (hs side)
  cases p with
  | top => exact fun hr => hwatched (h (hrearmed ▸ hr))
  | txPolled txRet =>
    intro hr
    obtain ⟨hs, htx⟩ := h (hrearmed ▸ hr)
    exact ⟨hwatched hs, fun hzero => (hkeeps .tx).settled (htx hzero)⟩
  | rxPolled txRet rxRet =>
    intro hr
    obtain ⟨hs, htx, hrx⟩ := h (hrearmed ▸ hr)
    exact ⟨hwatched hs, fun hzero => (hkeeps .tx).settled (htx hzero),
      fun hzero => (hkeeps .rx).settled (hrx hzero)⟩
  | idle => exact fun hr => hsettled (h (hrearmed ▸ hr))
  | rearming side =>
    cases side with
    | tx => trivial
    | rx => exact (hkeeps .tx).watched h
  | testing r => exact hsettled h
  | polling => exact hsettled h
  | reading side r => trivial
  | exited => trivial

theorem setCq_self (side : Side) (q : Notified W) (s : Sleeper W) :
    (s.setCq side q).cqs side = q := Function.update_self ..

/-- One queue changes. -/
theorem keeps_setCq {s : Sleeper W} {side : Side} {q : Notified W}
    (hkeeps : (s.cqs side).Keeps q) (other : Side) :
    (s.cqs other).Keeps ((s.setCq side q).cqs other) := by
  by_cases hother : other = side
  · rw [hother, setCq_self]
    exact hkeeps
  · show (s.cqs other).Keeps (Function.update s.cqs side q other)
    rw [Function.update_of_ne hother]
    exact .refl _

/-- A poll of a watched queue that returns nothing leaves it settled. -/
theorem pollCq_spec (side : Side) (ok : Bool) (s : Sleeper W) :
    (s.pollCq side ok).2.rearmed = s.rearmed ∧
      (∀ other, (s.cqs other).Keeps ((s.pollCq side ok).2.cqs other)) ∧
      ((s.pollCq side ok).1 = 0 → (s.cqs side).Watched →
        ((s.pollCq side ok).2.cqs side).Settled) := by
  cases ok with
  | false => exact ⟨rfl, fun _ => .refl _, fun h => Int.noConfusion h⟩
  | true =>
    refine ⟨rfl, keeps_setCq (.of_take _ _), ?_⟩
    intro hzero hwatched
    have hempty : ((s.cqs side).take maxCompletions).1 = [] :=
      List.length_eq_zero_iff.mp (Int.ofNat_eq_zero.mp hzero)
    show ((s.setCq side _).cqs side).Settled
    rw [setCq_self]
    exact hwatched.settled (by decide) hempty

theorem stands_step {s t : Sleeper W} {a : SleepAction W} (h : s.Stands s.phase)
    (hstep : s.step a = some t) : t.Stands t.phase := by
  cases a with
  | arrive side w =>
    rw [← Option.some.inj hstep]
    exact h.mono rfl (keeps_setCq (.of_arrive _ _))
  | stop =>
    rw [← Option.some.inj hstep]
    exact h.mono rfl fun _ => .refl _
  | pollTx ok =>
    simp only [step] at hstep
    split at hstep
    · rename_i hp
      rw [hp] at h
      rw [← Option.some.inj hstep]
      obtain ⟨hrearmed, hkeeps, hsettled⟩ := pollCq_spec .tx ok s
      intro hr
      have hs := h (hrearmed ▸ hr)
      exact ⟨fun side => (hkeeps side).watched (hs side), fun hzero => hsettled hzero (hs .tx)⟩
    · cases hstep
  | pollRx ok =>
    simp only [step] at hstep
    split at hstep
    · rename_i txRet hp
      rw [hp] at h
      rw [← Option.some.inj hstep]
      obtain ⟨hrearmed, hkeeps, hsettled⟩ := pollCq_spec .rx ok s
      intro hr
      obtain ⟨hs, htx⟩ := h (hrearmed ▸ hr)
      exact ⟨fun side => (hkeeps side).watched (hs side),
        fun hzero => (hkeeps .tx).settled (htx hzero), fun hzero => hsettled hzero (hs .rx)⟩
    · cases hstep
  | decide =>
    simp only [step] at hstep
    split at hstep
    · rename_i txRet rxRet hp
      rw [hp] at h
      rw [← Option.some.inj hstep]
      show Stands _ (if txRet = 0 ∧ rxRet = 0 then .idle else .top)
      split
      · rename_i hzero
        intro hr side
        obtain ⟨-, htx, hrx⟩ := h hr
        cases side with
        | tx => exact htx hzero.1
        | rx => exact hrx hzero.2
      · exact fun hr => (h hr).1
    · cases hstep
  | idle numQpConn inactive =>
    simp only [step] at hstep
    split at hstep
    · rename_i hp
      rw [hp] at h
      split at hstep
      · rw [← Option.some.inj hstep]
        trivial
      · split at hstep
        · rw [← Option.some.inj hstep]
          show Stands _ (if s.rearmed = true then .testing 0 else .rearming .tx)
          split
          · rename_i hr
            exact h hr
          · trivial
        · rw [← Option.some.inj hstep]
          exact fun hr side => (h hr side).watched
    · cases hstep
  | rearm =>
    simp only [step] at hstep
    split at hstep
    · rw [← Option.some.inj hstep]
      show ((s.setCq .tx _).cqs .tx).Watched
      rw [setCq_self]
      exact .of_arm _
    · rename_i hp
      rw [hp] at h
      rw [← Option.some.inj hstep]
      intro _ side
      cases side with
      | tx => exact h
      | rx =>
        show ((s.setCq .rx _).cqs .rx).Watched
        rw [setCq_self]
        exact .of_arm _
    · cases hstep
  | test =>
    simp only [step] at hstep
    split at hstep
    · rename_i r hp
      rw [hp] at h
      rw [← Option.some.inj hstep]
      show Stands _ (if ¬ s.done ∧ r = 0 then .polling else .reading .tx r)
      split
      · exact h
      · trivial
    · cases hstep
  | poll r =>
    simp only [step] at hstep
    split at hstep
    · rename_i hp
      rw [hp] at h
      split at hstep
      · cases hstep
      · rw [← Option.some.inj hstep]
        exact h
    · cases hstep
  | getCqEvent =>
    simp only [step] at hstep
    split at hstep
    · rw [← Option.some.inj hstep]
      trivial
    · rw [← Option.some.inj hstep]
      exact fun hr => absurd hr Bool.false_ne_true
    · cases hstep

theorem stands_of_reached {s : Sleeper W} (hreached : (machine W).Reached s) :
    s.Stands s.phase := by
  apply hreached.invariant fun s => s.Stands s.phase
  · intro s hfresh
    show s.Stands s.phase
    rw [hfresh.phase]
    exact fun hr => absurd (hfresh.rearmed.symm.trans hr) Bool.false_ne_true
  · exact fun _ _ _ h _ hstep => stands_step h hstep

/-- **The polling thread does not sleep on a completion.** -/
theorem maySleep_of_polling {s : Sleeper W} (hreached : (machine W).Reached s)
    (hpolling : s.phase = .polling) : s.MaySleep := by
  have hsettled : s.Settled := by
    have h := stands_of_reached hreached
    rwa [hpolling] at h
  constructor
  · rcases hsettled .tx with htx | htx
    · exact .inl htx
    · rcases hsettled .rx with hrx | hrx
      · exact .inr (.inl hrx)
      · refine .inr (.inr ?_)
        intro side
        cases side with
        | tx => exact htx
        | rx => exact hrx
  · exact fun side w => (hsettled side).watched.arrive w

/-- The thread as it is started on queues that are armed. -/
def created : Sleeper ℕ where
  cqs _ := ⟨[], true, 0⟩
  cqEventsThatNeedAck _ := 0
  rearmed := false
  done := false
  phase := .top

/-- A completion comes after both queues were armed and is found by a poll; its event ends the next
wait at once. -/
theorem maySleep_of_polling_stale :
    ∃ s : Sleeper ℕ, s.phase = .polling ∧ (s.cqs .rx).events = 2 ∧
      (s.cqs .rx).armed = false ∧ s.MaySleep := by
  obtain ⟨s, hreplay, hp, hevents, harmed⟩ : ∃ s, (machine ℕ).replay (fun _ _ => True) created
      [.arrive .rx 7, .pollTx true, .pollRx true, .decide, .pollTx true, .pollRx true, .decide,
        .idle 1 true, .rearm, .rearm, .arrive .rx 8, .pollTx true, .pollRx true, .decide,
        .pollTx true, .pollRx true, .decide, .idle 1 true, .test] = some s ∧
      s.phase = .polling ∧ (s.cqs .rx).events = 2 ∧ (s.cqs .rx).armed = false :=
    ⟨_, rfl, rfl, rfl, rfl⟩
  have hreached : (machine ℕ).Reached s := .of_replay (.start ⟨rfl, rfl⟩) hreplay
  exact ⟨s, hp, hevents, harmed, maySleep_of_polling hreached hp⟩

end Sleeper

end HwAsync.Rdma
