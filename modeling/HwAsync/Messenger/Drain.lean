/-
# `NetworkStack::drain`

`drain` waits until all workers have run what had been dispatched to them.  It gives one `C_drain`,
on the stack of the caller, to each worker of the stack; `do_request` counts it down with the lock
held, and signals when the count is zero.  The caller must not be the thread of a worker, which an
assertion checks, so that it is always another thread here.

The stack has at most `MAX_EVENTCENTER` workers, whatever is configured.
-/

import HwAsync.Event.Handoff
import Mathlib.Data.UInt

namespace HwAsync.Messenger

open HwAsync.Lib HwAsync.Event

def maxEventcenter : ℕ := 24

/-- The number of workers, with so many threads configured. -/
def numWorkers (msAsyncOpThreads : ℕ) : ℕ :=
  if maxEventcenter ≤ msAsyncOpThreads then maxEventcenter else msAsyncOpThreads

theorem numWorkers_le (msAsyncOpThreads : ℕ) : numWorkers msAsyncOpThreads ≤ maxEventcenter := by
  unfold numWorkers
  split
  · exact le_rfl
  · rename_i h
    exact (Nat.lt_of_not_le h).le

/-- `C_drain` for so many workers. -/
def drainEvent (drainCount : ℕ) : MonitorCode UInt32 where
  initial := .ofNat drainCount
  ready drainCount := drainCount = 0
  body := [.write fun drainCount => drainCount - 1, .signal fun drainCount => drainCount = 0]

/-- `drain`, called by a thread that is not one of the workers. -/
def drain (msAsyncOpThreads caller : ℕ) : HandoffConfig UInt32 where
  code := drainEvent (numWorkers msAsyncOpThreads)
  targets := List.range (numWorkers msAsyncOpThreads)
  caller := .other caller
  nowait := false

theorem announces_drainEvent (n : ℕ) : Monitor.Announces (drainEvent n) := by
  intro v _ hready
  exact (Bool.false_or _).trans ((Bool.or_false _).trans hready)

/-- The count is what is missing. -/
theorem after_drainEvent {n k : ℕ} (hk : k ≤ n) : (drainEvent n).after k = .ofNat (n - k) := by
  induction k with
  | zero => rfl
  | succ k ih =>
      have hprior := ih (Nat.le_of_succ_le hk)
      have hsub : n - k = (n - (k + 1)) + 1 := by omega
      rw [MonitorCode.after] at hprior ⊢
      rw [Function.iterate_succ_apply', hprior, hsub]
      show UInt32.ofNat (n - (k + 1) + 1) - 1 = _
      rw [UInt32.ofNat_add]
      exact add_sub_cancel_right _ 1

theorem counts_drainEvent {n : ℕ} (hn : n < 2 ^ 32) : Monitor.Counts (drainEvent n) n where
  ready := by
    rw [after_drainEvent le_rfl, Nat.sub_self]
    rfl
  not_ready k hk := by
    rw [after_drainEvent hk.le]
    refine decide_eq_false fun hzero => ?_
    have htoNat := congrArg UInt32.toNat hzero
    have hsize : n - k < UInt32.size := (Nat.sub_le n k).trans_lt hn
    rw [UInt32.toNat_ofNat_of_lt' hsize] at htoNat
    have hpos := Nat.sub_pos_of_lt hk
    exact absurd htoNat hpos.ne'

theorem proper_drain (msAsyncOpThreads caller : ℕ) : (drain msAsyncOpThreads caller).Proper where
  nodup := List.nodup_range
  announces := announces_drainEvent _
  counts := by
    have hcard : (List.range (numWorkers msAsyncOpThreads)).toFinset.card =
        numWorkers msAsyncOpThreads := by
      rw [List.toFinset_card_of_nodup List.nodup_range, List.length_range]
    have hle := numWorkers_le msAsyncOpThreads
    rw [maxEventcenter] at hle
    show Monitor.Counts _ (List.range (numWorkers msAsyncOpThreads)).toFinset.card
    rw [hcard]
    exact counts_drainEvent (by omega)
  single h := by cases h

variable {α : Type} {msAsyncOpThreads caller : ℕ} {s : Handoff α UInt32}

/-- **What `drain` is for.**  The object on the stack is never used while it is not there, no
worker runs it twice, and when the caller is back, each worker has run it, and before it all that
had been dispatched to that worker before. -/
structure Drained (n : ℕ) (s : Handoff α UInt32) : Prop where
  untouched : s.touched = false
  once : s.performed.Nodup
  drained : s.stage = .after → ∀ i < n, i ∈ s.performed ∧ Handoff.RanAfterEarlier (s.centers i)

theorem drained_of_reached
    (hreached : (Handoff.machine α (drain msAsyncOpThreads caller)).Reached s) :
    Drained (numWorkers msAsyncOpThreads) s := by
  have hproper := proper_drain msAsyncOpThreads caller
  have h := (Handoff.owned_of_reached hproper hreached).handed hproper
  refine ⟨h.untouched, h.once, fun hafter i hi => ?_⟩
  have hperformed := (h.back hafter rfl).1
  have hmem : i ∈ (drain msAsyncOpThreads caller).targets := List.mem_range.mpr hi
  exact ⟨hperformed i hmem, h.inTurn rfl i (hperformed i hmem)⟩

/-- A call of `dispatch_event_external` after it has locked. -/
def restOfCall (i : ℕ) (t : Thread) : List (HandoffAction ℕ) :=
  [.center i (.push t), .center i (.load t), .center i (.count t), .center i (.unlock t),
    .center i (.wakeup t false)]

/-- A call of `process_events` up to where it runs what it has taken. -/
def untilRunning (i : ℕ) : List (HandoffAction ℕ) :=
  [.center i (.decide 0 500), .center i .wait, .center i (.wake []), .center i (.fired 1),
    .center i .check, .center i .swap, .center i .store, .center i .release]

/-- A call of `do_request`. -/
def doRequest (i : ℕ) : List (HandoffAction ℕ) :=
  [.center i .run, .perform i, .enter i, .exec i, .exec i, .leave i, .finish i]

/-- Two workers are drained, and the second runs first what it had been given before. -/
theorem drained_of_reached_two :
    ∃ s : Handoff ℕ UInt32, s.stage = .after ∧
      (s.centers 1).ran = [(some 5, .other 3), (none, .other 7)] ∧ Drained 2 s := by
  obtain ⟨s, hreplay, hafter, hran⟩ : ∃ s,
      (Handoff.machine ℕ (drain 2 7)).replay (fun _ _ => True) (.created (drain 2 7))
        ([.center 1 (.lock (.other 3) (some 5))] ++ restOfCall 1 (.other 3) ++ [.start, .send] ++
          restOfCall 0 (.other 7) ++ [.sent, .send] ++ restOfCall 1 (.other 7) ++ [.sent, .wait] ++
          untilRunning 0 ++ doRequest 0 ++ [.waits .lock, .waits .look] ++ untilRunning 1 ++
          [.center 1 .run] ++ doRequest 1 ++ [.waits .lock, .waits .look, .waits .pass]) =
        some s ∧
      s.stage = .after ∧ (s.centers 1).ran = [(some 5, .other 3), (none, .other 7)] :=
    ⟨_, rfl, rfl, rfl⟩
  exact ⟨s, hafter, hran,
    drained_of_reached (.of_replay (.start (Handoff.fresh_created _)) hreplay)⟩

/-- **`drain` ends.**  While the caller waits, each worker that has not counted down is about to: it
runs the callback, or has it in its queue and does not sleep; and when all have, the caller returns
without anybody's help. -/
theorem drain_ends_of_reached
    (hreached : (Handoff.machine α (drain msAsyncOpThreads caller)).Reached s)
    (hwaiting : s.stage = .waiting) :
    (∀ i < numWorkers msAsyncOpThreads, i ∉ s.monitor.left → s.Attended i) ∧
      ((∀ i < numWorkers msAsyncOpThreads, i ∈ s.monitor.left) →
        ∃ t, Relation.ReflTransGen
            ((Handoff.machine α (drain msAsyncOpThreads caller)).Moves Handoff.ByCaller) s t ∧
          t.stage = .after) := by
  have hends := Handoff.wait_ends (proper_drain msAsyncOpThreads caller) hreached hwaiting
  refine ⟨fun i hi => hends.1 i (List.mem_range.mpr hi), fun hall => ?_⟩
  exact hends.2 fun i hi => hall i (List.mem_range.mp hi)

/-- The caller sleeps until the only worker has run the callback. -/
theorem drain_ends_of_reached_one :
    ∃ s t : Handoff ℕ UInt32, s.monitor.waiter = .asleep ∧ s.Attended 0 ∧
      t.monitor.left = [0] ∧ t.monitor.waiter = .wanting ∧
      ∃ u, Relation.ReflTransGen ((Handoff.machine ℕ (drain 1 7)).Moves Handoff.ByCaller) t u ∧
        u.stage = .after := by
  obtain ⟨s, t, hreplay, hreplay', hasleep, hwaiting, hnone, hleft, hwanting, hwaiting'⟩ :
      ∃ s t,
      (Handoff.machine ℕ (drain 1 7)).replay (fun _ _ => True) (.created (drain 1 7))
        ([.start, .send] ++ restOfCall 0 (.other 7) ++ [.sent, .wait, .waits .lock, .waits .look]) =
        some s ∧
      (Handoff.machine ℕ (drain 1 7)).replay (fun _ _ => True) s
        (untilRunning 0 ++ doRequest 0) = some t ∧
      s.monitor.waiter = .asleep ∧ s.stage = .waiting ∧ s.monitor.left = [] ∧
        t.monitor.left = [0] ∧ t.monitor.waiter = .wanting ∧ t.stage = .waiting :=
    ⟨_, _, rfl, rfl, rfl, rfl, rfl, rfl, rfl, rfl⟩
  have hs : (Handoff.machine ℕ (drain 1 7)).Reached s :=
    .of_replay (.start (Handoff.fresh_created _)) hreplay
  have hattended := (drain_ends_of_reached hs hwaiting).1 0 (by decide) (by rw [hnone]; nofun)
  have hends := (drain_ends_of_reached (.of_replay hs hreplay') hwaiting').2 fun i hi => by
    obtain rfl := Nat.lt_one_iff.mp hi
    rw [hleft]
    exact List.mem_singleton_self 0
  exact ⟨s, t, hasleep, hattended, hleft, hwanting, hends⟩

end HwAsync.Messenger
