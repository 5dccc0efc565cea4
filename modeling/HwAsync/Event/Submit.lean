/-
# `submit_to`

A thread has a function run by the thread of a center.  `C_submit_event` holds the function: its
`do_request` calls it, and then notifies whoever waits and sets `done` with the lock held.  Without
`nowait` the event is on the stack of the caller, which waits for `done`; the caller calls the
function itself if it is the thread of the center.  With `nowait` the event is on the heap, and
deletes itself when it has unlocked.
-/

import HwAsync.Event.Handoff

namespace HwAsync.Event

open HwAsync.Lib

/-- What `C_submit_event` does with the lock held, and what it waits for. -/
def submitEvent : MonitorCode Bool where
  initial := false
  ready done := done
  body := [.signal fun _ => true, .write fun _ => true]

/-- `submit_to` for the center `i`. -/
def submitTo (i : ℕ) (caller : Thread) (nowait : Bool) : HandoffConfig Bool where
  code := submitEvent
  targets := [i]
  caller := caller
  nowait := nowait

theorem announces_submitEvent : Monitor.Announces submitEvent :=
  fun _ _ _ => rfl

theorem counts_submitEvent : Monitor.Counts submitEvent 1 where
  ready := rfl
  not_ready k hk := by
    obtain rfl := Nat.lt_one_iff.mp hk
    rfl

variable {i : ℕ} {caller : Thread} {nowait : Bool}

theorem proper_submitTo : (submitTo i caller nowait).Proper where
  nodup := List.nodup_singleton i
  announces := announces_submitEvent
  counts := counts_submitEvent
  single _ := ⟨i, rfl⟩

/-- **A function that is submitted.**  The event is never used before it is there or after it is
gone.  The function is called at most once.  If the thread of the center would wait, it calls the
function at once, whatever is in its queue, and dispatches nothing; otherwise the center calls it
when everything that had been dispatched before has run.  A caller that waits is not back before the
function has been called, and the center is through if the caller is another thread.  An event
nobody waits for is deleted once, when its center is through with it, and no other event is. -/
structure Submitted {α : Type} (i : ℕ) (caller : Thread) (nowait : Bool) (s : Handoff α Bool) :
    Prop where
  untouched : s.touched = false
  once : s.performed = [] ∨ s.performed = [i]
  inTurn : caller ≠ .owner ∨ nowait = true → i ∈ s.performed →
    Handoff.RanAfterEarlier (s.centers i)
  atOnce : caller = .owner → nowait = false → (s.centers i).sentBy caller = 0 ∧
    (s.stage = .before ∧ s.performed = [] ∨ s.stage = .after ∧ s.performed = [i])
  back : s.stage = .after → nowait = false → s.performed = [i] ∧
    (caller ≠ .owner → i ∈ s.monitor.left)
  freedOnce : s.freed ≤ 1
  freed : s.freed = 1 ↔ nowait = true ∧ i ∈ s.monitor.left ∧ s.exec i = .idle
  neverWaits : nowait = true → s.stage ≠ .waiting

/-- A list without repetitions of which all elements are the same. -/
theorem eq_nil_or_singleton {β : Type} {l : List β} {b : β} (hnodup : l.Nodup)
    (hall : ∀ c ∈ l, c = b) : l = [] ∨ l = [b] := by
  have hreplicate := List.eq_replicate_of_mem hall
  have hlength : l.length ≤ 1 := by
    rw [hreplicate] at hnodup
    exact List.nodup_replicate.mp hnodup
  rcases Nat.le_one_iff_eq_zero_or_eq_one.mp hlength with hlength | hlength
  · exact .inl (List.eq_nil_of_length_eq_zero hlength)
  · rw [hlength] at hreplicate
    exact .inr hreplicate

theorem submitted_of_reached {α : Type} {s : Handoff α Bool}
    (hreached : (Handoff.machine α (submitTo i caller nowait)).Reached s) :
    Submitted i caller nowait s := by
  have howned := Handoff.owned_of_reached proper_submitTo hreached
  have h := howned.handed proper_submitTo
  have hone : s.performed = [] ∨ s.performed = [i] :=
    eq_nil_or_singleton h.once fun j hj => List.mem_singleton.mp (h.only j hj)
  refine ⟨h.untouched, hone, fun hqueued => h.inTurn ?_ i, fun howner hnowait => ?_,
    fun hafter hnowait => ?_, h.freedOnce, ?_, ?_⟩
  · show (!nowait && decide (caller = .owner)) = false
    obtain hother | hnowait := hqueued
    · rw [decide_eq_false hother, Bool.and_false]
    · rw [hnowait]
      rfl
  · obtain ⟨hnone, hat⟩ := h.atOnce (by rw [HandoffConfig.direct, submitTo, howner, hnowait]; rfl)
    exact ⟨hnone i, hat⟩
  · obtain ⟨hperformed, hleft⟩ := h.back hafter hnowait
    refine ⟨hone.resolve_left fun hnil => ?_, fun hother => ?_⟩
    · have hmem := hperformed i (List.mem_singleton_self i)
      rw [hnil] at hmem
      cases hmem
    · refine hleft ?_ i (List.mem_singleton_self i)
      show (!nowait && decide (caller = .owner)) = false
      rw [decide_eq_false hother, Bool.and_false]
  · rw [h.freed]
    refine and_congr_right fun _ => ?_
    exact ⟨fun hall => hall i (List.mem_singleton_self i),
      fun hi j hj => List.mem_singleton.mp hj ▸ hi⟩
  · intro hnowait hwaiting
    have hat := howned.callerAt
    rw [Handoff.CallerAt, hwaiting] at hat
    have hwaits : nowait = false := hat.2.1
    rw [hnowait] at hwaits
    cases hwaits

/-- A thread submits a function and sleeps; the center is woken up, and the function is called. -/
theorem submitted_of_reached_slept :
    ∃ s t : Handoff ℕ Bool, s.monitor.waiter = .asleep ∧ Submitted 3 (.other 0) false s ∧
      t.stage = .after ∧ t.performed = [3] ∧ Submitted 3 (.other 0) false t := by
  obtain ⟨s, t, hreplay, hreplay', hasleep, hafter, hperformed⟩ : ∃ s t,
      (Handoff.machine ℕ (submitTo 3 (.other 0) false)).replay (fun _ _ => True)
        (.created (submitTo 3 (.other 0) false))
        [.center 3 (.decide 0 500), .center 3 .wait, .start, .send,
          .center 3 (.push (.other 0)), .center 3 (.load (.other 0)),
          .center 3 (.count (.other 0)), .center 3 (.unlock (.other 0)),
          .center 3 (.wakeup (.other 0) false), .sent, .wait, .waits .lock, .waits .look] =
        some s ∧
      (Handoff.machine ℕ (submitTo 3 (.other 0) false)).replay (fun _ _ => True) s
        [.center 3 (.wake [.notify]), .center 3 .fire, .center 3 .read, .center 3 .read,
          .center 3 (.fired 1), .center 3 .check, .center 3 .swap, .center 3 .store,
          .center 3 .release, .center 3 .run, .perform 3, .enter 3, .exec 3, .exec 3, .leave 3,
          .waits .lock, .waits .look, .waits .pass, .finish 3] = some t ∧
      s.monitor.waiter = .asleep ∧ t.stage = .after ∧ t.performed = [3] :=
    ⟨_, _, rfl, rfl, rfl, rfl, rfl⟩
  have hs : (Handoff.machine ℕ (submitTo 3 (.other 0) false)).Reached s :=
    .of_replay (.start (Handoff.fresh_created _)) hreplay
  exact ⟨s, t, hasleep, submitted_of_reached hs, hafter, hperformed,
    submitted_of_reached (.of_replay hs hreplay')⟩

end HwAsync.Event
