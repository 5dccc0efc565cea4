/-
# A wait is woken up

A throttle that refuses arms a wait timer only if `register_time_events` is empty, so an id that
stays there behind its timer blocks every later wait.  `wakeup_from` gets the id through the `int`
of `do_request`, and misses it from 2^31 on.  A connection that was moved to another center while
its tick timer was pending still names that timer, and may delete a wait timer of the same id.
-/

import HwAsync.Event.Shutdown

namespace HwAsync.Event

open HwAsync.Lib
open HwAsync.Connect (Policy)

namespace World

instance (w : World) (a : Action) : Decidable (w.Under Timing.Keeps a) := by
  cases a <;> unfold Under <;> infer_instance

/-- **Wait timers.**  As long as the id of every wait timer that fires survives its way to
`wakeup_from`, and no other timer is deleted by the id of one, `register_time_events` has exactly
the ids of the pending wait timers; and where a throttle refuses, one is pending. -/
theorem waits_of_keeps {needWritableEvent : Bool} {w : World}
    (hreached : (machine needWritableEvent).ReachedUnder (Under Timing.Keeps) w) :
    (∀ id, id ∈ w.conn.registerTimeEvents ↔
      ∃ e ∈ (w.centers w.conn.center).timeEvents, e.timeCb = .wakeupHandler ∧ e.id = id) ∧
    (∀ c, c ≠ w.conn.center → ∀ e ∈ (w.centers c).timeEvents, e.timeCb ≠ .wakeupHandler) ∧
    ∀ expire t, w.step needWritableEvent (.throttle expire) = some t →
      ∃ e ∈ (t.centers t.conn.center).timeEvents, e.timeCb = .wakeupHandler := by
  have hadmits : Timing.Admits Timing.Keeps :=
    ⟨fun _ _ _ => trivial, fun _ _ => trivial, fun _ => trivial,
      fun _ _ hzero hne => absurd hzero hne, fun _ _ => trivial⟩
  have hexact := Timing.exact_of_keeps (timing_of_reached hadmits hreached)
  refine ⟨fun id => ?_, fun c hc e he hcb => hexact.elsewhere c hc e ⟨he, hcb⟩, ?_⟩
  · rw [show (id ∈ w.conn.registerTimeEvents ↔ _) from hexact.registered id]
    simp only [Timing.Waits, and_assoc]
    rfl
  · intro expire t hstep
    have hunder : w.Under Timing.Keeps (.throttle expire) := trivial
    have hnext : t.timing.Exact :=
      Timing.exact_of_keeps (timing_of_reached hadmits (hreached.step hunder hstep))
    have hne : t.timing.registerTimeEvents ≠ [] := by
      simp only [step, throttle] at hstep
      split at hstep
      · rw [← Option.some.inj hstep]
        split
        · exact List.ne_nil_of_mem List.mem_insert_self
        · assumption
      · cases hstep
    obtain ⟨e, he, hcb⟩ := hnext.waits_of_ne_nil hne
    exact ⟨e, he, hcb⟩

/-- A connection waits for a throttle, is woken up and waits again. -/
theorem waits_of_keeps_again :
    ∃ w, (machine false).ReachedUnder (Under Timing.Keeps) w ∧ w.conn.registerTimeEvents = [] ∧
      (∀ id, id ∈ w.conn.registerTimeEvents ↔
        ∃ e ∈ (w.centers w.conn.center).timeEvents, e.timeCb = .wakeupHandler ∧ e.id = id) ∧
      ∃ t, w.step false (.throttle 20) = some t ∧
        ∃ e ∈ (t.centers t.conn.center).timeEvents, e.timeCb = .wakeupHandler := by
  obtain ⟨w, hreplay, hids, t, hthrottle⟩ : ∃ w, (machine false).replay (Under Timing.Keeps)
      (created .plain 1) [.accept 5, .accepting .all false,
        .advance .acceptingWaitConnectMsg false false, .advance .acceptingReady true false,
        .ready 900, .advance .openMessageThrottleBytes true false, .throttle 10,
        .fire 0 12 false false 0] = some w ∧ w.conn.registerTimeEvents = [] ∧
      ∃ t, w.step false (.throttle 20) = some t := ⟨_, rfl, rfl, _, rfl⟩
  have hwaits := waits_of_keeps (.of_replay (.start (fresh_created .plain (by decide))) hreplay)
  exact ⟨w, .of_replay (.start (fresh_created .plain (by decide))) hreplay, hids, hwaits.1,
    t, hthrottle, hwaits.2.2 20 t hthrottle⟩

/-- The wait timer with the id `2 ^ 31 + 1` fires, its id stays, and the throttle that refuses again
arms no timer.  And the id of the tick timer that a connection had in another center is the id of
its wait timer in this one, which is deleted when the connection becomes ready. -/
theorem not_waits_blocked :
    (∃ w t, (machine false).Reached w ∧ w.conn.registerTimeEvents = [2 ^ 31 + 1] ∧
      (w.centers 0).timeEvents = [⟨2 ^ 31, 900, .tickHandler⟩] ∧
      w.step false (.throttle 20) = some t ∧
      (t.centers 0).timeEvents = [⟨2 ^ 31, 900, .tickHandler⟩]) ∧
    ∃ w t, (machine false).Reached w ∧ w.conn.center = 1 ∧ w.conn.registerTimeEvents = [1] ∧
      (w.centers 1).timeEvents = [⟨2, 950, .tickHandler⟩] ∧
      w.step false (.throttle 20) = some t ∧
      (t.centers 1).timeEvents = [⟨2, 950, .tickHandler⟩] := by
  constructor
  · obtain ⟨w, t, hreplay, hfacts⟩ : ∃ w t, (machine false).replay (fun _ _ => True)
        (created .plain (2 ^ 31)) [.accept 5, .accepting .all false,
          .advance .acceptingWaitConnectMsg false false, .advance .acceptingReady true false,
          .ready 900, .advance .openMessageThrottleBytes true false, .throttle 10,
          .fire 0 12 false false 0] = some w ∧ w.conn.registerTimeEvents = [2 ^ 31 + 1] ∧
        (w.centers 0).timeEvents = [⟨2 ^ 31, 900, .tickHandler⟩] ∧
        w.step false (.throttle 20) = some t ∧
        (t.centers 0).timeEvents = [⟨2 ^ 31, 900, .tickHandler⟩] :=
      ⟨_, _, rfl, rfl, rfl, rfl, rfl⟩
    exact ⟨w, t, .of_replay (.start (fresh_created .plain (by decide))) hreplay, hfacts⟩
  · obtain ⟨w, t, hreplay, hfacts⟩ : ∃ w t, (machine false).replay (fun _ _ => True)
        (created .plain 1) [.accept 5, .accepting .all false,
          .advance .acceptingWaitConnectMsg false false, .advance .acceptingReady true false,
          .ready 900, .replace, .deactivate 1 7, .transfer, .fault true 0, .connecting (some 8),
          .fault true 200, .connecting (some 9), .connectingRe 1 .all false,
          .advance .connectingReady true false, .ready 950,
          .advance .openMessageThrottleBytes true false] = some w ∧ w.conn.center = 1 ∧
        w.conn.registerTimeEvents = [1] ∧
        (w.centers 1).timeEvents = [⟨2, 950, .tickHandler⟩] ∧
        w.step false (.throttle 20) = some t ∧
        (t.centers 1).timeEvents = [⟨2, 950, .tickHandler⟩] :=
      ⟨_, _, rfl, rfl, rfl, rfl, rfl, rfl⟩
    exact ⟨w, t, .of_replay (.start (fresh_created .plain (by decide))) hreplay, hfacts⟩

end World

end HwAsync.Event
