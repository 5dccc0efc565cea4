/-
# The time events of a center

`time_events` is a multimap by the time that an event expires, `event_map` has an iterator into it
for each id.  `process_time_events` reads the clock once and calls back what has expired, always the
first of the multimap, and a callback creates and deletes time events of its own, also while the
loop is at work.

The clock is not part of the repository.  Its time points are nanoseconds, and a sum of a time point
and of microseconds is exact as long as the clock can represent it.  The counter of ids is taken not
to wrap.
-/

import HwAsync.Lib.Multimap
import HwAsync.Lib.Run
import HwAsync.Event.Center
import Mathlib.Algebra.Group.Nat.Defs

namespace HwAsync.Event

open HwAsync.Lib

/-- `clock_type`: `after now us` stands for `now + std::chrono::microseconds(us)`. -/
structure Clock where
  range : ℕ
  after : ℕ → ℕ → ℕ
  after_eq : ∀ now us, now + 1000 * us < range → after now us = now + 1000 * us

/-- A time event, for callbacks of any kind, with the time that it is listed under. -/
structure TimedEvent (κ : Type) where
  id : ℕ
  expire : ℕ
  timeCb : κ
  deriving DecidableEq

/-- What happened, as it is seen from outside.  The calls of `process_time_events` are counted, and
`began` has what is pending when the call begins. -/
inductive TimeRecord (κ : Type)
  | created (event : TimedEvent κ)
  | deleted (call : Option ℕ) (id : ℕ)
  | began (call now : ℕ) (pending : List (TimedEvent κ))
  | fired (call clock : ℕ) (event : TimedEvent κ)
  | returned (call processed : ℕ)

namespace TimeRecord

variable {κ : Type}

/-- The event that was called back. -/
def firedId : TimeRecord κ → Option ℕ
  | .fired _ _ event => some event.id
  | _ => none

/-- The event whose `delete_time_event` returned. -/
def deletedId : TimeRecord κ → Option ℕ
  | .deleted _ id => some id
  | _ => none

/-- The call that a record of `process_time_events` is about. -/
def callOf : TimeRecord κ → Option ℕ
  | .began call _ _ => some call
  | .fired call _ _ => some call
  | .returned call _ => some call
  | _ => none

end TimeRecord

/-- What `process_time_events` has: the time it read, and how many events it processed. -/
structure TimeCall where
  now : ℕ
  processed : ℕ
  deriving DecidableEq, Repr

/-- `time_events`, where the value of an event is its id and its callback, `event_map` and the
counter; then the last time that was read, the call of `process_time_events` that is at work, how
many there were, and what happened, the latest first. -/
structure TimeTable (κ : Type) where
  timeEvents : Multimap ℕ (ℕ × κ)
  eventMap : ℕ → Option ℕ
  timeEventNextId : ℕ
  clock : ℕ
  call : Option TimeCall
  calls : ℕ
  log : List (TimeRecord κ)

namespace TimeTable

variable {κ : Type}

/-- An entry of `time_events` as an event. -/
def toTimed (n : MultimapNode ℕ (ℕ × κ)) : TimedEvent κ := ⟨n.value.1, n.key, n.value.2⟩

/-- The events that are pending. -/
def pending (t : TimeTable κ) : List (TimedEvent κ) := t.timeEvents.nodes.map toTimed

/-- The call that a callback is running in. -/
def inCall (t : TimeTable κ) : Option ℕ := t.call.map fun _ => t.calls

/-- `create_time_event`, where `it` is what `insert` returns. -/
def createTimeEvent (C : Clock) (now us it : ℕ) (ctxt : κ) (t : TimeTable κ)
    (hfresh : it ∉ t.timeEvents.its) : TimeTable κ :=
  let id := t.timeEventNextId
  let expire := C.after now us
  { t with
    timeEventNextId := id + 1
    timeEvents := t.timeEvents.insert ⟨it, expire, id, ctxt⟩ hfresh
    eventMap := Function.update t.eventMap id (some it)
    clock := now
    log := .created ⟨id, expire, ctxt⟩ :: t.log }

/-- `delete_time_event`; `none` where an iterator is erased that names no event.  A call is recorded
if its id was given out. -/
def deleteTimeEvent (id : ℕ) (t : TimeTable κ) : Option (TimeTable κ) :=
  if t.timeEventNextId ≤ id ∨ id = 0 then some t
  else
    match t.eventMap id with
    | none => some { t with log := .deleted t.inCall id :: t.log }
    | some it =>
        match t.timeEvents.erase it with
        | none => none
        | some timeEvents =>
            some { t with
              timeEvents := timeEvents
              eventMap := Function.update t.eventMap id none
              log := .deleted t.inCall id :: t.log }

/-- The first event, if it is due. -/
def due (now : ℕ) (t : TimeTable κ) : Option (MultimapNode ℕ (ℕ × κ)) :=
  match t.timeEvents.first with
  | none => none
  | some n => if n.key ≤ now then some n else none

/-- `process_time_events`, up to the loop. -/
def begin (now : ℕ) (t : TimeTable κ) : TimeTable κ :=
  { t with
    clock := now
    call := some ⟨now, 0⟩
    calls := t.calls + 1
    log := .began (t.calls + 1) now t.pending :: t.log }

/-- A round of its loop that goes on to the callback. -/
def fire (c : TimeCall) (n : MultimapNode ℕ (ℕ × κ)) (t : TimeTable κ) : Option (TimeTable κ) :=
  match t.timeEvents.erase n.it with
  | none => none
  | some timeEvents =>
      some { t with
        timeEvents := timeEvents
        eventMap := Function.update t.eventMap n.value.1 none
        call := some { c with processed := c.processed + 1 }
        log := .fired t.calls t.clock (toTimed n) :: t.log }

/-- Its return. -/
def finish (c : TimeCall) (t : TimeTable κ) : TimeTable κ :=
  { t with
    call := none
    log := .returned t.calls c.processed :: t.log }

/-- A center that was initialised. -/
structure Fresh (t : TimeTable κ) : Prop where
  timeEvents : t.timeEvents = .empty
  eventMap : t.eventMap = fun _ => none
  next_eq : t.timeEventNextId = 1
  call : t.call = none
  calls : t.calls = 0
  log : t.log = []

end TimeTable

/-- What the thread of a center does to its time events.  A callback does its `create` and `delete`
between `fire` and what `process_time_events` does next. -/
inductive TimeAction (κ : Type)
  | create (now us it : ℕ) (ctxt : κ)
  | delete (id : ℕ)
  | begin (now : ℕ)
  | fire
  | finish

/-- The time events of a center, under a clock that does not go back. -/
def timeMachine (κ : Type) (C : Clock) : Machine (TimeTable κ) (TimeAction κ) where
  start := TimeTable.Fresh
  step t
    | .create now us it ctxt =>
        if hfresh : it ∉ t.timeEvents.its then
          if t.clock ≤ now then some (t.createTimeEvent C now us it ctxt hfresh) else none
        else none
    | .delete id => t.deleteTimeEvent id
    | .begin now => if t.call = none ∧ t.clock ≤ now then some (t.begin now) else none
    | .fire =>
        match t.call with
        | none => none
        | some c =>
            match t.due c.now with
            | none => none
            | some n => t.fire c n
    | .finish =>
        match t.call with
        | none => none
        | some c =>
            match t.due c.now with
            | none => some (t.finish c)
            | some _ => none

namespace TimeTable

variable {κ : Type} {C : Clock} {t u : TimeTable κ}

/-! ## What is claimed of a center -/

/-- `event_map` and `time_events` hold the same ids. -/
structure Linked (t : TimeTable κ) : Prop where
  next_pos : 0 < t.timeEventNextId
  pos : ∀ e ∈ t.pending, 0 < e.id
  lt_next : ∀ e ∈ t.pending, e.id < t.timeEventNextId
  nodup : (t.pending.map TimedEvent.id).Nodup
  isSome_iff : ∀ id, (t.eventMap id).isSome ↔ id ∈ t.pending.map TimedEvent.id
  points : ∀ n ∈ t.timeEvents.nodes, t.eventMap n.value.1 = some n.it

/-- In every pair of records the first is the later one. -/
structure Orderly (t : TimeTable κ) : Prop where
  linked : t.Linked
  once : t.log.Pairwise fun later earlier =>
    ∀ id, later.firedId = some id → earlier.firedId ≠ some id
  not_deleted : t.log.Pairwise fun later earlier =>
    ∀ id, later.firedId = some id → earlier.deletedId ≠ some id
  due : ∀ call clock e, .fired call clock e ∈ t.log → .created e ∈ t.log ∧ e.expire ≤ clock
  complete : ∀ call now pending processed, .began call now pending ∈ t.log →
    .returned call processed ∈ t.log → ∀ e ∈ pending, e.expire ≤ now →
    (∃ clock, .fired call clock e ∈ t.log) ∨ .deleted (some call) e.id ∈ t.log

/-- The events of one call are called back in the order of their times. -/
def InOrder (t : TimeTable κ) : Prop :=
  t.log.Pairwise fun later earlier => ∀ call clock clock' e e',
    later = .fired call clock' e' → earlier = .fired call clock e → e.expire ≤ e'.expire

/-- The condition on a step: what a callback creates has a time that the clock can represent. -/
def timely (C : Clock) (t : TimeTable κ) : TimeAction κ → Prop
  | .create now us _ _ => t.call.isSome → now + 1000 * us < C.range
  | _ => True

instance (C : Clock) (t : TimeTable κ) (a : TimeAction κ) : Decidable (t.timely C a) :=
  match a with
  | .create now us _ _ => inferInstanceAs (Decidable (t.call.isSome → now + 1000 * us < C.range))
  | .delete _ => .isTrue trivial
  | .begin _ => .isTrue trivial
  | .fire => .isTrue trivial
  | .finish => .isTrue trivial

/-! ## The index -/

theorem mem_pending {e : TimedEvent κ} : e ∈ t.pending ↔ ∃ n ∈ t.timeEvents.nodes, toTimed n = e :=
  List.mem_map

/-- What is pending after `create_time_event`. -/
theorem mem_pending_create {now us it : ℕ} {ctxt : κ} {hfresh : it ∉ t.timeEvents.its}
    {e : TimedEvent κ} : e ∈ (t.createTimeEvent C now us it ctxt hfresh).pending ↔
      e = ⟨t.timeEventNextId, C.after now us, ctxt⟩ ∨ e ∈ t.pending := by
  rw [mem_pending, mem_pending]
  constructor
  · rintro ⟨n, hn, rfl⟩
    cases (Multimap.mem_insert hfresh).mp hn with
    | inl hnew => exact .inl (hnew ▸ rfl)
    | inr hold => exact .inr ⟨n, hold, rfl⟩
  · rintro (rfl | ⟨n, hn, rfl⟩)
    · exact ⟨_, (Multimap.mem_insert hfresh).mpr (.inl rfl), rfl⟩
    · exact ⟨n, (Multimap.mem_insert hfresh).mpr (.inr hn), rfl⟩

namespace Linked

/-- Two pending events have two ids. -/
theorem eq_of_id_eq (h : t.Linked) {e e' : TimedEvent κ} (he : e ∈ t.pending) (he' : e' ∈ t.pending)
    (hid : e.id = e'.id) : e = e' :=
  List.inj_on_of_nodup_map h.nodup he he' hid

/-- Where the index points, there is the event of the id. -/
theorem node_of_eventMap (h : t.Linked) {id it : ℕ} (hit : t.eventMap id = some it) :
    ∃ n ∈ t.timeEvents.nodes, n.value.1 = id ∧ n.it = it := by
  have hmem := (h.isSome_iff id).mp (by rw [hit]; rfl)
  obtain ⟨e, he, rfl⟩ := List.mem_map.mp hmem
  obtain ⟨n, hn, rfl⟩ := mem_pending.mp he
  have hpoints := h.points n hn
  refine ⟨n, hn, rfl, Option.some.inj (hpoints.symm.trans hit)⟩

theorem create (h : t.Linked) {now us it : ℕ} {ctxt : κ} (hfresh : it ∉ t.timeEvents.its) :
    (t.createTimeEvent C now us it ctxt hfresh).Linked := by
  have hperm : ((t.createTimeEvent C now us it ctxt hfresh).pending.map TimedEvent.id).Perm
      (t.timeEventNextId :: t.pending.map TimedEvent.id) :=
    ((Multimap.perm_insertNode _ t.timeEvents.nodes).map toTimed).map TimedEvent.id
  have hnew : t.timeEventNextId ∉ t.pending.map TimedEvent.id := by
    intro hmem
    obtain ⟨e, he, hid⟩ := List.mem_map.mp hmem
    exact absurd hid (h.lt_next e he).ne
  constructor
  · exact Nat.succ_pos _
  · intro e he
    cases mem_pending_create.mp he with
    | inl hcreated => exact hcreated ▸ h.next_pos
    | inr hold => exact h.pos e hold
  · intro e he
    cases mem_pending_create.mp he with
    | inl hcreated => exact hcreated ▸ Nat.lt_succ_self _
    | inr hold => exact Nat.lt_succ_of_lt (h.lt_next e hold)
  · rw [hperm.nodup_iff]
    exact List.nodup_cons.mpr ⟨hnew, h.nodup⟩
  · intro id
    rw [hperm.mem_iff, List.mem_cons]
    show (Function.update t.eventMap t.timeEventNextId (some it) id).isSome = true ↔ _
    by_cases hid : id = t.timeEventNextId
    · rw [hid, Function.update_self]
      exact iff_of_true rfl (.inl rfl)
    · rw [Function.update_of_ne hid, h.isSome_iff, or_iff_right hid]
  · intro n hn
    show Function.update t.eventMap t.timeEventNextId (some it) n.value.1 = some n.it
    cases (Multimap.mem_insert hfresh).mp hn with
    | inl hcreated => rw [hcreated, Function.update_self]
    | inr hold =>
        have hlt : n.value.1 < t.timeEventNextId := h.lt_next _ (mem_pending.mpr ⟨n, hold, rfl⟩)
        rw [Function.update_of_ne hlt.ne, h.points n hold]

/-- An iterator stands for an id. -/
theorem it_eq_iff (h : t.Linked) {n x : MultimapNode ℕ (ℕ × κ)} (hx : x ∈ t.timeEvents.nodes)
    (hn : n ∈ t.timeEvents.nodes) : x.it = n.it ↔ x.value.1 = n.value.1 := by
  constructor
  · intro hit
    rw [Multimap.eq_of_it_eq hx hn hit]
  · intro hid
    have hpoints := h.points x hx
    rw [hid, h.points n hn] at hpoints
    exact (Option.some.inj hpoints).symm

/-- What is pending without one event. -/
theorem mem_without (h : t.Linked) {n : MultimapNode ℕ (ℕ × κ)} (hn : n ∈ t.timeEvents.nodes)
    {e : TimedEvent κ} : e ∈ (t.timeEvents.without n.it).nodes.map toTimed ↔
      e ∈ t.pending ∧ e.id ≠ n.value.1 := by
  rw [mem_pending, List.mem_map]
  constructor
  · rintro ⟨x, hx, rfl⟩
    obtain ⟨hold, hit⟩ := Multimap.mem_without.mp hx
    exact ⟨⟨x, hold, rfl⟩, fun hid => hit ((h.it_eq_iff hold hn).mpr hid)⟩
  · rintro ⟨⟨x, hx, rfl⟩, hid⟩
    have hit : x.it ≠ n.it := fun hit => hid ((h.it_eq_iff hx hn).mp hit)
    exact ⟨x, Multimap.mem_without.mpr ⟨hx, hit⟩, rfl⟩

/-- Erasing an event from the multimap and from the index. -/
theorem erase (h : t.Linked) {n : MultimapNode ℕ (ℕ × κ)} (hn : n ∈ t.timeEvents.nodes)
    (hevents : u.timeEvents = t.timeEvents.without n.it)
    (hmap : u.eventMap = Function.update t.eventMap n.value.1 none)
    (hnext : u.timeEventNextId = t.timeEventNextId) : u.Linked := by
  have hpending (e : TimedEvent κ) : e ∈ u.pending ↔ e ∈ t.pending ∧ e.id ≠ n.value.1 := by
    unfold pending
    rw [hevents]
    exact h.mem_without hn
  have hsub : u.pending.Sublist t.pending := by
    unfold pending
    rw [hevents]
    exact List.filter_sublist.map _
  refine ⟨hnext ▸ h.next_pos, fun e he => h.pos e (hsub.subset he),
    fun e he => hnext ▸ h.lt_next e (hsub.subset he), h.nodup.sublist (hsub.map _),
    fun id => ?_, fun x hx => ?_⟩
  · rw [hmap, List.mem_map]
    by_cases hid : id = n.value.1
    · rw [hid, Function.update_self]
      refine iff_of_false Bool.noConfusion ?_
      rintro ⟨e, he, heq⟩
      exact ((hpending e).mp he).2 heq
    · rw [Function.update_of_ne hid, h.isSome_iff, List.mem_map]
      constructor
      · rintro ⟨e, he, rfl⟩
        exact ⟨e, (hpending e).mpr ⟨he, hid⟩, rfl⟩
      · rintro ⟨e, he, heq⟩
        exact ⟨e, ((hpending e).mp he).1, heq⟩
  · have hne : x.value.1 ≠ n.value.1 :=
      ((hpending (toTimed x)).mp (mem_pending.mpr ⟨x, hx, rfl⟩)).2
    rw [hevents] at hx
    rw [hmap, Function.update_of_ne hne, h.points x (Multimap.mem_without.mp hx).1]

end Linked

/-! ## What the operations do -/

/-- What `delete_time_event` can do. -/
inductive Unlisted (id : ℕ) (t : TimeTable κ) : TimeTable κ → Prop
  | invalid (hguard : t.timeEventNextId ≤ id ∨ id = 0) : Unlisted id t t
  | absent (hlt : id < t.timeEventNextId) (habsent : id ∉ t.pending.map TimedEvent.id) :
      Unlisted id t { t with log := .deleted t.inCall id :: t.log }
  | erased (n : MultimapNode ℕ (ℕ × κ)) (hn : n ∈ t.timeEvents.nodes) (hid : n.value.1 = id) :
      Unlisted id t { t with
        timeEvents := t.timeEvents.without n.it
        eventMap := Function.update t.eventMap n.value.1 none
        log := .deleted t.inCall id :: t.log }

/-- **A deletion returns**: it never erases by an iterator that names nothing. -/
theorem Linked.deleteTimeEvent (h : t.Linked) (id : ℕ) :
    ∃ u, t.deleteTimeEvent id = some u ∧ Unlisted id t u := by
  unfold TimeTable.deleteTimeEvent
  by_cases hguard : t.timeEventNextId ≤ id ∨ id = 0
  · rw [if_pos hguard]
    exact ⟨t, rfl, .invalid hguard⟩
  · rw [if_neg hguard]
    cases hit : t.eventMap id with
    | none =>
        refine ⟨_, rfl, .absent (by omega) fun hmem => ?_⟩
        rw [← h.isSome_iff, hit] at hmem
        cases hmem
    | some it =>
        obtain ⟨n, hn, hid, rfl⟩ := h.node_of_eventMap hit
        dsimp only
        rw [Multimap.erase_of_mem hn, ← hid]
        exact ⟨_, rfl, .erased n hn rfl⟩

/-- An event that is due is the first one. -/
theorem due_eq_some {now : ℕ} {n : MultimapNode ℕ (ℕ × κ)} (hdue : t.due now = some n) :
    t.timeEvents.first = some n ∧ n.key ≤ now := by
  unfold due at hdue
  split at hdue
  · cases hdue
  · rename_i x hfirst
    split at hdue
    · rename_i hle
      obtain rfl := Option.some.inj hdue
      exact ⟨hfirst, hle⟩
    · cases hdue

/-- If no event is due, none has expired. -/
theorem due_eq_none {now : ℕ} (hdue : t.due now = none) : ∀ e ∈ t.pending, now < e.expire := by
  unfold due at hdue
  rintro e he
  obtain ⟨n, hn, rfl⟩ := mem_pending.mp he
  split at hdue
  · rename_i hfirst
    rw [Multimap.first_eq_none.mp hfirst] at hn
    cases hn
  · rename_i x hfirst
    split at hdue
    · cases hdue
    · rename_i hlt
      exact (Nat.not_le.mp hlt).trans_le (Multimap.first_le hfirst hn)

/-- What a round of the loop leaves. -/
theorem fire_eq (c : TimeCall) {n : MultimapNode ℕ (ℕ × κ)} (hn : n ∈ t.timeEvents.nodes) :
    t.fire c n = some { t with
      timeEvents := t.timeEvents.without n.it
      eventMap := Function.update t.eventMap n.value.1 none
      call := some { c with processed := c.processed + 1 }
      log := .fired t.calls t.clock (toTimed n) :: t.log } := by
  unfold fire
  rw [Multimap.erase_of_mem hn]

/-- What a step of a center can do. -/
inductive Stepped (C : Clock) (t : TimeTable κ) : TimeAction κ → TimeTable κ → Prop
  | created (now us it : ℕ) (ctxt : κ) (hfresh : it ∉ t.timeEvents.its) (hclock : t.clock ≤ now) :
      Stepped C t (.create now us it ctxt) (t.createTimeEvent C now us it ctxt hfresh)
  | deleted (id : ℕ) {u : TimeTable κ} (hunlisted : Unlisted id t u) : Stepped C t (.delete id) u
  | began (now : ℕ) (hcall : t.call = none) (hclock : t.clock ≤ now) :
      Stepped C t (.begin now) (t.begin now)
  | fired (c : TimeCall) (n : MultimapNode ℕ (ℕ × κ)) (hcall : t.call = some c)
      (hfirst : t.timeEvents.first = some n) (hdue : n.key ≤ c.now) :
      Stepped C t .fire { t with
        timeEvents := t.timeEvents.without n.it
        eventMap := Function.update t.eventMap n.value.1 none
        call := some { c with processed := c.processed + 1 }
        log := .fired t.calls t.clock (toTimed n) :: t.log }
  | finished (c : TimeCall) (hcall : t.call = some c) (hdue : ∀ e ∈ t.pending, c.now < e.expire) :
      Stepped C t .finish (t.finish c)

theorem Linked.step_cases (h : t.Linked) {a : TimeAction κ}
    (hstep : (timeMachine κ C).step t a = some u) : Stepped C t a u := by
  cases a with
  | create now us it ctxt =>
      simp only [timeMachine] at hstep
      split at hstep
      · rename_i hfresh
        split at hstep
        · rename_i hclock
          obtain rfl := Option.some.inj hstep
          exact .created now us it ctxt hfresh hclock
        · cases hstep
      · cases hstep
  | delete id =>
      obtain ⟨v, hdelete, hunlisted⟩ := h.deleteTimeEvent id
      obtain rfl := Option.some.inj (hdelete.symm.trans hstep)
      exact .deleted id hunlisted
  | begin now =>
      simp only [timeMachine] at hstep
      split at hstep
      · rename_i hguard
        obtain rfl := Option.some.inj hstep
        exact .began now hguard.1 hguard.2
      · cases hstep
  | fire =>
      simp only [timeMachine] at hstep
      split at hstep
      · cases hstep
      · rename_i c hcall
        split at hstep
        · cases hstep
        · rename_i n hdue
          obtain ⟨hfirst, hle⟩ := due_eq_some hdue
          rw [fire_eq c (Multimap.mem_of_first hfirst)] at hstep
          obtain rfl := Option.some.inj hstep
          exact .fired c n hcall hfirst hle
  | finish =>
      simp only [timeMachine] at hstep
      split at hstep
      · cases hstep
      · rename_i c hcall
        split at hstep
        · rename_i hdue
          obtain rfl := Option.some.inj hstep
          exact .finished c hcall (due_eq_none hdue)
        · cases hstep

/-! ## Nothing is called back twice, early, or after its deletion -/

theorem firedId_eq_some {r : TimeRecord κ} {id : ℕ} (hfired : r.firedId = some id) :
    ∃ call clock e, r = .fired call clock e ∧ e.id = id := by
  cases r with
  | fired call clock e => exact ⟨call, clock, e, rfl, Option.some.inj hfired⟩
  | created => cases hfired
  | deleted => cases hfired
  | began => cases hfired
  | returned => cases hfired

/-- The parts of `Orderly` that are not about calls, and what they rest on: what is pending was
created, and what was called back or deleted is not pending. -/
structure Recorded (t : TimeTable κ) : Prop where
  linked : t.Linked
  once : t.log.Pairwise fun later earlier =>
    ∀ id, later.firedId = some id → earlier.firedId ≠ some id
  not_deleted : t.log.Pairwise fun later earlier =>
    ∀ id, later.firedId = some id → earlier.deletedId ≠ some id
  due : ∀ call clock e, .fired call clock e ∈ t.log → .created e ∈ t.log ∧ e.expire ≤ clock
  created : ∀ e ∈ t.pending, .created e ∈ t.log
  gone : ∀ r ∈ t.log, ∀ id, r.firedId = some id ∨ r.deletedId = some id →
    id < t.timeEventNextId ∧ id ∉ t.pending.map TimedEvent.id
  now_le : ∀ c, t.call = some c → c.now ≤ t.clock

/-- One more record. -/
theorem Recorded.push (h : t.Recorded) {r : TimeRecord κ} (hlog : u.log = r :: t.log)
    (hlinked : u.Linked) (hnext : t.timeEventNextId ≤ u.timeEventNextId)
    (hpending : ∀ e ∈ u.pending, e ∈ t.pending ∨ r = .created e ∧ e.id = t.timeEventNextId)
    (hdue : ∀ call clock e, r = .fired call clock e → e ∈ t.pending ∧ e.expire ≤ clock)
    (hgone : ∀ id, r.firedId = some id ∨ r.deletedId = some id →
      id < u.timeEventNextId ∧ id ∉ u.pending.map TimedEvent.id)
    (hnow : ∀ c, u.call = some c → c.now ≤ u.clock) : u.Recorded := by
  have hfired (id : ℕ) (hid : r.firedId = some id) : id ∈ t.pending.map TimedEvent.id := by
    obtain ⟨call, clock, e, hr, rfl⟩ := firedId_eq_some hid
    exact List.mem_map_of_mem (hdue call clock e hr).1
  constructor
  · exact hlinked
  · rw [hlog]
    refine .cons (fun x hx id hid hbefore => ?_) h.once
    exact (h.gone x hx id (.inl hbefore)).2 (hfired id hid)
  · rw [hlog]
    refine .cons (fun x hx id hid hbefore => ?_) h.not_deleted
    exact (h.gone x hx id (.inr hbefore)).2 (hfired id hid)
  · rw [hlog]
    intro call clock e he
    cases List.mem_cons.mp he with
    | inl hnew =>
        obtain ⟨hmem, hle⟩ := hdue call clock e hnew.symm
        exact ⟨List.mem_cons_of_mem _ (h.created e hmem), hle⟩
    | inr hold =>
        obtain ⟨hmem, hle⟩ := h.due call clock e hold
        exact ⟨List.mem_cons_of_mem _ hmem, hle⟩
  · rw [hlog]
    intro e he
    cases hpending e he with
    | inl hold => exact List.mem_cons_of_mem _ (h.created e hold)
    | inr hnew => exact hnew.1 ▸ List.mem_cons_self
  · rw [hlog]
    intro x hx id hid
    cases List.mem_cons.mp hx with
    | inl hnew => exact hgone id (hnew ▸ hid)
    | inr hold =>
        obtain ⟨hlt, hnot⟩ := h.gone x hold id hid
        refine ⟨hlt.trans_le hnext, fun hmem => ?_⟩
        obtain ⟨e, he, rfl⟩ := List.mem_map.mp hmem
        cases hpending e he with
        | inl hstill => exact hnot (List.mem_map_of_mem hstill)
        | inr hcreated => omega
  · exact hnow

/-- A record of an event that is erased. -/
theorem Recorded.erase (h : t.Recorded) {n : MultimapNode ℕ (ℕ × κ)} {r : TimeRecord κ}
    (hn : n ∈ t.timeEvents.nodes) (hlog : u.log = r :: t.log)
    (hevents : u.timeEvents = t.timeEvents.without n.it)
    (hmap : u.eventMap = Function.update t.eventMap n.value.1 none)
    (hnext : u.timeEventNextId = t.timeEventNextId)
    (hdue : ∀ call clock e, r = .fired call clock e → e = toTimed n ∧ e.expire ≤ clock)
    (hid : ∀ id, r.firedId = some id ∨ r.deletedId = some id → id = n.value.1)
    (hnow : ∀ c, u.call = some c → c.now ≤ u.clock) : u.Recorded := by
  have hmem : toTimed n ∈ t.pending := mem_pending.mpr ⟨n, hn, rfl⟩
  have hpending (e : TimedEvent κ) (he : e ∈ u.pending) : e ∈ t.pending ∧ e.id ≠ n.value.1 := by
    unfold pending at he
    rw [hevents] at he
    exact (h.linked.mem_without hn).mp he
  refine h.push hlog (h.linked.erase hn hevents hmap hnext) hnext.ge
    (fun e he => .inl (hpending e he).1) ?_ ?_ hnow
  · intro call clock e hr
    obtain ⟨rfl, hle⟩ := hdue call clock e hr
    exact ⟨hmem, hle⟩
  · intro id hr
    obtain rfl := hid id hr
    refine ⟨hnext ▸ h.linked.lt_next _ hmem, fun hstill => ?_⟩
    obtain ⟨e, he, heq⟩ := List.mem_map.mp hstill
    exact (hpending e he).2 heq

/-- Before the first call there is nothing. -/
theorem Fresh.recorded (h : t.Fresh) : t.Recorded := by
  have hpending : t.pending = [] := by
    unfold pending
    rw [h.timeEvents]
    rfl
  refine ⟨⟨?_, ?_, ?_, ?_, ?_, ?_⟩, ?_, ?_, ?_, ?_, ?_, ?_⟩
  · rw [h.next_eq]
    exact Nat.one_pos
  · simp [hpending]
  · simp [hpending]
  · simp [hpending]
  · simp [hpending, h.eventMap]
  · rw [h.timeEvents]
    intro n hn
    cases hn
  · simp [h.log]
  · simp [h.log]
  · simp [h.log]
  · simp [hpending]
  · simp [h.log]
  · simp [h.call]

/-- The step lemma. -/
theorem Recorded.step (h : t.Recorded) {a : TimeAction κ} (hstepped : Stepped C t a u) :
    u.Recorded := by
  have hlinked := h.linked
  cases hstepped with
  | created now us it ctxt hfresh hclock =>
      refine h.push rfl (hlinked.create hfresh) (Nat.le_succ _) (fun e he => ?_) ?_ ?_ ?_
      · cases mem_pending_create.mp he with
        | inl hnew => exact .inr ⟨hnew ▸ rfl, hnew ▸ rfl⟩
        | inr hold => exact .inl hold
      · rintro _ _ _ ⟨⟩
      · rintro id (⟨⟨⟩⟩ | ⟨⟨⟩⟩)
      · exact fun c hc => (h.now_le c hc).trans hclock
  | deleted id hunlisted =>
      cases hunlisted with
      | invalid => exact h
      | absent hlt habsent =>
          refine h.push rfl ⟨hlinked.next_pos, hlinked.pos, hlinked.lt_next, hlinked.nodup,
            hlinked.isSome_iff, hlinked.points⟩ le_rfl (fun _ => .inl) ?_ ?_ h.now_le
          · rintro _ _ _ ⟨⟩
          · rintro _ (⟨⟨⟩⟩ | ⟨⟨⟩⟩)
            exact ⟨hlt, habsent⟩
      | erased n hn hid =>
          refine h.erase hn rfl rfl rfl rfl ?_ ?_ h.now_le
          · rintro _ _ _ ⟨⟩
          · rintro _ (⟨⟨⟩⟩ | ⟨⟨⟩⟩)
            exact hid.symm
  | began now hcall hclock =>
      refine h.push rfl ⟨hlinked.next_pos, hlinked.pos, hlinked.lt_next, hlinked.nodup,
        hlinked.isSome_iff, hlinked.points⟩ le_rfl (fun _ => .inl) ?_ ?_ ?_
      · rintro _ _ _ ⟨⟩
      · rintro _ (⟨⟨⟩⟩ | ⟨⟨⟩⟩)
      · rintro _ ⟨⟩
        exact le_rfl
  | fired c n hcall hfirst hdue =>
      have hnow := h.now_le c hcall
      refine h.erase (Multimap.mem_of_first hfirst) rfl rfl rfl rfl ?_ ?_ ?_
      · rintro _ _ _ ⟨⟩
        exact ⟨rfl, hdue.trans hnow⟩
      · rintro _ (⟨⟨⟩⟩ | ⟨⟨⟩⟩)
        rfl
      · rintro _ ⟨⟩
        exact hnow
  | finished c hcall hdue =>
      refine h.push rfl ⟨hlinked.next_pos, hlinked.pos, hlinked.lt_next, hlinked.nodup,
        hlinked.isSome_iff, hlinked.points⟩ le_rfl (fun _ => .inl) ?_ ?_ ?_
      · rintro _ _ _ ⟨⟩
      · rintro _ (⟨⟨⟩⟩ | ⟨⟨⟩⟩)
      · rintro _ ⟨⟩

/-! ## Nothing is left over -/

/-- What was pending when a call began has been taken care of, at the end of each call, or is
pending still, in the call that is at work. -/
structure Accounted (t : TimeTable κ) : Prop where
  calls_le : ∀ r ∈ t.log, ∀ call, r.callOf = some call → call ≤ t.calls
  returned_lt : t.call.isSome → ∀ call processed, .returned call processed ∈ t.log → call < t.calls
  current : ∀ c, t.call = some c → ∀ now pending, .began t.calls now pending ∈ t.log →
    now = c.now ∧ ∀ e ∈ pending, e ∈ t.pending ∨
      (∃ clock, .fired t.calls clock e ∈ t.log) ∨ .deleted (some t.calls) e.id ∈ t.log
  complete : ∀ call now pending processed, .began call now pending ∈ t.log →
    .returned call processed ∈ t.log → ∀ e ∈ pending, e.expire ≤ now →
    (∃ clock, .fired call clock e ∈ t.log) ∨ .deleted (some call) e.id ∈ t.log

namespace Accounted

/-- What has been taken care of stays so. -/
theorem handled_cons {r : TimeRecord κ} {log : List (TimeRecord κ)} {call : ℕ} {e : TimedEvent κ}
    (hhandled : (∃ clock, .fired call clock e ∈ log) ∨ .deleted (some call) e.id ∈ log) :
    (∃ clock, .fired call clock e ∈ r :: log) ∨ .deleted (some call) e.id ∈ r :: log := by
  rcases hhandled with ⟨clock, hfired⟩ | hdeleted
  · exact .inl ⟨clock, List.mem_cons_of_mem r hfired⟩
  · exact .inr (List.mem_cons_of_mem r hdeleted)

theorem inCall_of_isSome (hin : t.call.isSome) : t.inCall = some t.calls := by
  obtain ⟨c, hcall⟩ := Option.isSome_iff_exists.mp hin
  unfold inCall
  rw [hcall]
  rfl

/-- A record of anything but the beginning or the end of a call. -/
theorem push (h : t.Accounted) {r : TimeRecord κ} (hlog : u.log = r :: t.log)
    (hcalls : u.calls = t.calls) (hcall : u.call.map TimeCall.now = t.call.map TimeCall.now)
    (hbegan : ∀ call now pending, r ≠ .began call now pending)
    (hreturned : ∀ call processed, r ≠ .returned call processed)
    (hle : ∀ call, r.callOf = some call → call = t.calls)
    (hpending : t.call.isSome → ∀ e ∈ t.pending,
      e ∈ u.pending ∨ (∃ clock, r = .fired t.calls clock e) ∨ r = .deleted (some t.calls) e.id) :
    u.Accounted := by
  have hsome : u.call.isSome = t.call.isSome := by
    rw [← Option.isSome_map, hcall, Option.isSome_map]
  constructor
  · rw [hlog, hcalls]
    intro x hx call hxcall
    cases List.mem_cons.mp hx with
    | inl hnew => exact (hle call (hnew ▸ hxcall)).le
    | inr hold => exact h.calls_le x hold call hxcall
  · rw [hlog, hcalls, hsome]
    intro hin call processed hmem
    cases List.mem_cons.mp hmem with
    | inl hnew => exact absurd hnew.symm (hreturned call processed)
    | inr hold => exact h.returned_lt hin call processed hold
  · rw [hlog, hcalls]
    intro c hc now pending hmem
    cases List.mem_cons.mp hmem with
    | inl hnew => exact absurd hnew.symm (hbegan _ now pending)
    | inr hold =>
        rw [hc, Option.map_some] at hcall
        obtain ⟨c', hc', hnow'⟩ := Option.map_eq_some_iff.mp hcall.symm
        obtain ⟨hnow, hstill⟩ := h.current c' hc' now pending hold
        refine ⟨hnow.trans hnow', fun e he => ?_⟩
        rcases hstill e he with hpend | hhandled
        · rcases hpending (by rw [hc']; rfl) e hpend with hleft | ⟨clock, rfl⟩ | rfl
          · exact .inl hleft
          · exact .inr (.inl ⟨clock, List.mem_cons_self⟩)
          · exact .inr (.inr List.mem_cons_self)
        · exact .inr (handled_cons hhandled)
  · rw [hlog]
    intro call now pending processed hbegin hreturn e he hle
    cases List.mem_cons.mp hbegin with
    | inl hnew => exact absurd hnew.symm (hbegan call now pending)
    | inr hbegin =>
        cases List.mem_cons.mp hreturn with
        | inl hnew => exact absurd hnew.symm (hreturned call processed)
        | inr hreturn =>
            exact handled_cons (h.complete call now pending processed hbegin hreturn e he hle)

/-- A call begins. -/
theorem begin (h : t.Accounted) (now : ℕ) : (t.begin now).Accounted := by
  have hbefore (call : ℕ) {r : TimeRecord κ} (hr : r ∈ t.log) (hcall : r.callOf = some call) :
      call < t.calls + 1 := Nat.lt_succ_of_le (h.calls_le r hr call hcall)
  constructor
  · intro r hr call hcall
    cases List.mem_cons.mp hr with
    | inl hnew =>
        obtain rfl := hnew
        exact (Option.some.inj hcall).ge
    | inr hold => exact (hbefore call hold hcall).le
  · intro _ call processed hmem
    cases List.mem_cons.mp hmem with
    | inl hnew => cases hnew
    | inr hold => exact hbefore call hold rfl
  · rintro c ⟨⟩ now' pending hmem
    cases List.mem_cons.mp hmem with
    | inl hnew =>
        cases hnew
        exact ⟨rfl, fun e he => .inl he⟩
    | inr hold => exact absurd rfl (hbefore _ hold rfl).ne
  · intro call now' pending processed hbegin hreturn e he hle
    cases List.mem_cons.mp hreturn with
    | inl hnew => cases hnew
    | inr hreturn =>
        cases List.mem_cons.mp hbegin with
        | inl hnew =>
            cases hnew
            exact absurd rfl (hbefore _ hreturn rfl).ne
        | inr hbegin =>
            exact handled_cons (h.complete call now' pending processed hbegin hreturn e he hle)

/-- A call returns: nothing that is pending has expired. -/
theorem finish (h : t.Accounted) {c : TimeCall} (hcall : t.call = some c)
    (hdue : ∀ e ∈ t.pending, c.now < e.expire) : (t.finish c).Accounted := by
  constructor
  · intro r hr call hrcall
    cases List.mem_cons.mp hr with
    | inl hnew =>
        obtain rfl := hnew
        exact (Option.some.inj hrcall).ge
    | inr hold => exact h.calls_le r hold call hrcall
  · intro hin
    cases hin
  · rintro c' ⟨⟩
  · intro call now pending processed hbegin hreturn e he hle
    cases List.mem_cons.mp hbegin with
    | inl hnew => cases hnew
    | inr hbegin =>
        cases List.mem_cons.mp hreturn with
        | inl hnew =>
            cases hnew
            obtain ⟨rfl, hstill⟩ := h.current c hcall now pending hbegin
            rcases hstill e he with hpend | hhandled
            · exact absurd (hdue e hpend) (Nat.not_lt.mpr hle)
            · exact handled_cons hhandled
        | inr hreturn =>
            exact handled_cons (h.complete call now pending processed hbegin hreturn e he hle)

/-- The step lemma. -/
theorem step (h : t.Accounted) (hlinked : t.Linked) {a : TimeAction κ}
    (hstepped : Stepped C t a u) : u.Accounted := by
  cases hstepped with
  | created now us it ctxt hfresh hclock =>
      refine h.push rfl rfl rfl ?_ ?_ ?_ fun _ e he => .inl (mem_pending_create.mpr (.inr he))
      · rintro _ _ _ ⟨⟩
      · rintro _ _ ⟨⟩
      · rintro _ ⟨⟩
  | deleted id hunlisted =>
      cases hunlisted with
      | invalid => exact h
      | absent hlt habsent =>
          refine h.push rfl rfl rfl ?_ ?_ ?_ fun _ e he => .inl he
          · rintro _ _ _ ⟨⟩
          · rintro _ _ ⟨⟩
          · rintro _ ⟨⟩
      | erased n hn hid =>
          refine h.push rfl rfl rfl ?_ ?_ ?_ fun hin e he => ?_
          · rintro _ _ _ ⟨⟩
          · rintro _ _ ⟨⟩
          · rintro _ ⟨⟩
          · by_cases heq : e.id = n.value.1
            · refine .inr (.inr ?_)
              rw [inCall_of_isSome hin, heq, hid]
            · exact .inl ((hlinked.mem_without hn).mpr ⟨he, heq⟩)
  | began now hcall hclock => exact h.begin now
  | fired c n hcall hfirst hdue =>
      refine h.push rfl rfl ?_ ?_ ?_ ?_ fun hin e he => ?_
      · rw [hcall]
        rfl
      · rintro _ _ _ ⟨⟩
      · rintro _ _ ⟨⟩
      · rintro _ ⟨⟩
        rfl
      · have hn := Multimap.mem_of_first hfirst
        by_cases heq : e.id = n.value.1
        · refine .inr (.inl ⟨t.clock, ?_⟩)
          rw [hlinked.eq_of_id_eq he (mem_pending.mpr ⟨n, hn, rfl⟩) heq]
        · exact .inl ((hlinked.mem_without hn).mpr ⟨he, heq⟩)
  | finished c hcall hdue => exact h.finish hcall hdue

end Accounted

theorem Fresh.accounted (h : t.Fresh) : t.Accounted := by
  constructor <;> simp [h.log]

/-- **In every run the time events are orderly**, whatever the delays are. -/
theorem recorded_of_reached (hreached : (timeMachine κ C).Reached t) :
    t.Recorded ∧ t.Accounted := by
  refine hreached.invariant (fun t => t.Recorded ∧ t.Accounted) ?_ ?_
  · intro t hfresh
    exact ⟨hfresh.recorded, hfresh.accounted⟩
  · rintro t a u ⟨hrecorded, haccounted⟩ - hstep
    have hstepped := hrecorded.linked.step_cases hstep
    exact ⟨hrecorded.step hstepped, haccounted.step hrecorded.linked hstepped⟩

/-! ## The order of a call -/

/-- What was called back in the call that is at work expires before everything pending. -/
structure Ahead (t : TimeTable κ) : Prop where
  inOrder : t.InOrder
  fired_le : ∀ c, t.call = some c → ∀ clock e, .fired t.calls clock e ∈ t.log →
    e.expire ≤ c.now ∧ ∀ e' ∈ t.pending, e.expire ≤ e'.expire

namespace Ahead

/-- A record of something else than a callback. -/
theorem push (h : t.Ahead) {r : TimeRecord κ} (hlog : u.log = r :: t.log)
    (hr : r.firedId = none) (hcalls : u.calls = t.calls)
    (hcall : ∀ c, u.call = some c → t.call = some c)
    (hpending : ∀ c, t.call = some c → ∀ e ∈ u.pending, e ∈ t.pending ∨ c.now ≤ e.expire) :
    u.Ahead := by
  have hne (call clock : ℕ) (e : TimedEvent κ) : r ≠ .fired call clock e := by
    rintro rfl
    cases hr
  constructor
  · unfold InOrder
    rw [hlog]
    exact .cons (fun _ _ call _ clock' _ e' hnew => absurd hnew (hne call clock' e')) h.inOrder
  · rw [hlog, hcalls]
    intro c hc clock e hmem
    cases List.mem_cons.mp hmem with
    | inl hnew => exact absurd hnew.symm (hne _ clock e)
    | inr hold =>
        obtain ⟨hle, hahead⟩ := h.fired_le c (hcall c hc) clock e hold
        refine ⟨hle, fun e' he' => ?_⟩
        cases hpending c (hcall c hc) e' he' with
        | inl hstill => exact hahead e' hstill
        | inr hlater => exact hle.trans hlater

/-- The step lemma. -/
theorem step (h : t.Ahead) (hrecorded : t.Recorded) (haccounted : t.Accounted) {a : TimeAction κ}
    (hok : t.timely C a) (hstepped : Stepped C t a u) : u.Ahead := by
  have hlinked := hrecorded.linked
  cases hstepped with
  | created now us it ctxt hfresh hclock =>
      refine h.push rfl rfl rfl (fun _ hc => hc) fun c hc e he => ?_
      cases mem_pending_create.mp he with
      | inr hold => exact .inl hold
      | inl hnew =>
          refine .inr ?_
          have hin : t.call.isSome := by rw [hc]; rfl
          have hnow := hrecorded.now_le c hc
          rw [hnew, C.after_eq now us (hok hin)]
          dsimp only
          omega
  | deleted id hunlisted =>
      cases hunlisted with
      | invalid => exact h
      | absent hlt habsent => exact h.push rfl rfl rfl (fun _ hc => hc) fun _ _ _ => .inl
      | erased n hn hid =>
          refine h.push rfl rfl rfl (fun _ hc => hc) fun _ _ e he => .inl ?_
          exact ((hlinked.mem_without hn).mp he).1
  | began now hcall hclock =>
      constructor
      · exact .cons (fun _ _ _ _ _ _ _ hnew => by cases hnew) h.inOrder
      · rintro c ⟨⟩ clock e hmem
        cases List.mem_cons.mp hmem with
        | inl hnew => cases hnew
        | inr hold => exact absurd (haccounted.calls_le _ hold _ rfl) (Nat.not_succ_le_self _)
  | fired c n hcall hfirst hdue =>
      have hn := Multimap.mem_of_first hfirst
      have hmem : toTimed n ∈ t.pending := mem_pending.mpr ⟨n, hn, rfl⟩
      constructor
      · refine .cons (fun x hx => ?_) h.inOrder
        rintro call clock clock' e e' ⟨⟩ rfl
        exact (h.fired_le c hcall clock e hx).2 _ hmem
      · rintro _ ⟨⟩ clock e he
        cases List.mem_cons.mp he with
        | inl hnew =>
            cases hnew
            refine ⟨hdue, fun e' he' => ?_⟩
            obtain ⟨x, hx, rfl⟩ := mem_pending.mp ((hlinked.mem_without hn).mp he').1
            exact Multimap.first_le hfirst hx
        | inr hold =>
            obtain ⟨hle, hahead⟩ := h.fired_le c hcall clock e hold
            exact ⟨hle, fun e' he' => hahead e' ((hlinked.mem_without hn).mp he').1⟩
  | finished c hcall hdue => exact h.push rfl rfl rfl (fun _ hc => by cases hc) fun _ _ _ => .inl

end Ahead

/-- **Time events are called back once, when they are due, not after their deletion, and in order**,
in runs in which a callback creates no event beyond the range of the clock. -/
theorem orderly_of_timely (hreached : (timeMachine κ C).ReachedUnder (timely C) t) :
    t.Orderly ∧ t.InOrder := by
  obtain ⟨hrecorded, haccounted⟩ := recorded_of_reached hreached.reached
  have hahead : t.Recorded ∧ t.Accounted ∧ t.Ahead := by
    refine hreached.invariant (fun t => t.Recorded ∧ t.Accounted ∧ t.Ahead) ?_ ?_
    · intro t hfresh
      exact ⟨hfresh.recorded, hfresh.accounted, by simp [InOrder, hfresh.log],
        by simp [hfresh.log]⟩
    · rintro t a u ⟨hrecorded, haccounted, hahead⟩ hok hstep
      have hstepped := hrecorded.linked.step_cases hstep
      exact ⟨hrecorded.step hstepped, haccounted.step hrecorded.linked hstepped,
        hahead.step hrecorded haccounted hok hstepped⟩
  exact ⟨⟨hrecorded.linked, hrecorded.once, hrecorded.not_deleted, hrecorded.due,
    haccounted.complete⟩, hahead.2.2.inOrder⟩

end TimeTable

/-- A clock of unsigned nanoseconds in 64 bits. -/
def unsignedClock : Clock where
  range := 2 ^ 64
  after now us := (now + 1000 * us) % 2 ^ 64
  after_eq _ _ := Nat.mod_eq_of_lt

namespace TimeTable

/-- A center without time events. -/
def untimed : TimeTable Callback := ⟨.empty, fun _ => none, 1, 0, none, 0, []⟩

theorem fresh_untimed : untimed.Fresh := ⟨rfl, rfl, rfl, rfl, rfl, rfl⟩

/-- Two events of the same time, and the callback of the first one deletes the second one and
creates another that is due at once. -/
theorem orderly_of_timely_callback :
    ∃ t : TimeTable Callback, t.call = none ∧ t.pending = [] ∧
      t.log.filterMap TimeRecord.firedId = [3, 1] ∧ t.Orderly ∧ t.InOrder := by
  obtain ⟨t, hreplay, hcall, hpending, hfired⟩ : ∃ t,
      (timeMachine Callback unsignedClock).replay (timely unsignedClock) untimed
        [.create 0 1 7 .tickHandler, .create 0 1 8 .other, .begin 1500, .fire, .delete 2,
          .create 1500 0 7 .wakeupHandler, .fire, .finish] = some t ∧
        t.call = none ∧ t.pending = [] ∧ t.log.filterMap TimeRecord.firedId = [3, 1] :=
    ⟨_, rfl, rfl, rfl, rfl⟩
  exact ⟨t, hcall, hpending, hfired,
    orderly_of_timely (.of_replay (.start fresh_untimed) hreplay)⟩

/-- A callback creates an event for a delay of 2^64 microseconds less one second.  This is
called back in the same call, with a time before that of the event whose callback created it. -/
theorem not_inOrder_wrapped :
    ∃ t : TimeTable Callback, (timeMachine Callback unsignedClock).Reached t ∧
      t.log.filterMap TimeRecord.firedId = [2, 1] ∧ ¬ t.InOrder := by
  obtain ⟨t, hreplay, hfired, r, log, hlog⟩ : ∃ t,
      (timeMachine Callback unsignedClock).replay (fun _ _ => True) untimed
        [.create 0 2000000 7 .tickHandler, .begin 2000000000, .fire,
          .create 2000000000 (2 ^ 64 - 1000000) 7 .tickHandler, .fire] = some t ∧
        t.log.filterMap TimeRecord.firedId = [2, 1] ∧
        ∃ r log, t.log = .fired 1 2000000000 ⟨2, 1000000000, .tickHandler⟩ :: r ::
          .fired 1 2000000000 ⟨1, 2000000000, .tickHandler⟩ :: log :=
    ⟨_, rfl, rfl, _, _, rfl⟩
  refine ⟨t, .of_replay (.start fresh_untimed) hreplay, hfired, fun hinOrder => ?_⟩
  unfold InOrder at hinOrder
  rw [hlog, List.pairwise_cons] at hinOrder
  have hle := hinOrder.1 _ (List.mem_cons_of_mem r List.mem_cons_self) _ _ _ _ _ rfl rfl
  exact absurd hle (by decide)

/-! ## The centers that a connection is on -/

/-- A pending event as one of such a center. -/
def toTimeEvent (n : MultimapNode ℕ (ℕ × Callback)) : TimeEvent := ⟨n.value.1, n.key, n.value.2⟩

/-- The time events of such a center. -/
def toTimers (t : TimeTable Callback) : Timers where
  timeEvents := t.timeEvents.nodes.map toTimeEvent
  timeEventNextId := t.timeEventNextId

variable {C : Clock} {t u : TimeTable Callback}

theorem toTimers_create {now us it : ℕ} {ctxt : Callback} (hfresh : it ∉ t.timeEvents.its) :
    (t.createTimeEvent C now us it ctxt hfresh).toTimers =
      t.toTimers.createTimeEvent (C.after now us) ctxt := by
  have hinsert : (Multimap.insertNode ⟨it, C.after now us, t.timeEventNextId, ctxt⟩
      t.timeEvents.nodes).map toTimeEvent =
      (t.timeEvents.nodes.map toTimeEvent).orderedInsert (fun a b => a.expire < b.expire)
        ⟨t.timeEventNextId, C.after now us, ctxt⟩ := by
    exact List.map_orderedInsert (fun a b : MultimapNode ℕ (ℕ × Callback) => a.key < b.key)
      (fun a b : TimeEvent => a.expire < b.expire) toTimeEvent _ _ (fun _ _ => Iff.rfl)
      fun _ _ => Iff.rfl
  unfold toTimers Timers.createTimeEvent
  exact congrArg (fun events => Timers.mk events (t.timeEventNextId + 1)) hinsert

/-- Erasing an event by its iterator is erasing it by its id. -/
theorem Linked.toTimers_without (h : t.Linked) {n : MultimapNode ℕ (ℕ × Callback)}
    (hn : n ∈ t.timeEvents.nodes) : (t.timeEvents.without n.it).nodes.map toTimeEvent =
      (t.timeEvents.nodes.map toTimeEvent).filter fun e => e.id ≠ n.value.1 := by
  show (t.timeEvents.nodes.filter _).map toTimeEvent = _
  rw [List.filter_map]
  refine congrArg (List.map toTimeEvent) (List.filter_congr fun x hx => ?_)
  exact decide_eq_decide.mpr (not_congr (h.it_eq_iff hx hn))

/-- A deletion is the `delete_time_event` of the center. -/
theorem toTimers_delete (h : t.Linked) {id : ℕ} (hunlisted : Unlisted id t u) :
    u.toTimers = t.toTimers.deleteTimeEvent id := by
  unfold Timers.deleteTimeEvent
  cases hunlisted with
  | invalid hguard => rw [if_pos (show t.toTimers.timeEventNextId ≤ id ∨ id = 0 from hguard)]
  | absent hlt habsent =>
      split
      · rfl
      · have hkeep : ∀ e ∈ t.toTimers.timeEvents, decide (e.id ≠ id) = true := by
          intro e he
          obtain ⟨n, hn, rfl⟩ := List.mem_map.mp he
          refine decide_eq_true fun hid => habsent (List.mem_map.mpr ⟨toTimed n, ?_, hid⟩)
          exact mem_pending.mpr ⟨n, hn, rfl⟩
        rw [List.filter_eq_self.mpr hkeep]
        rfl
  | erased n hn hid =>
      have hmem : toTimed n ∈ t.pending := mem_pending.mpr ⟨n, hn, rfl⟩
      have hlt : n.value.1 < t.timeEventNextId := h.lt_next _ hmem
      have hpos : 0 < n.value.1 := h.pos _ hmem
      have hguard : ¬ (t.toTimers.timeEventNextId ≤ id ∨ id = 0) := by
        show ¬ (t.timeEventNextId ≤ id ∨ id = 0)
        omega
      rw [if_neg hguard, ← hid]
      exact congrArg (fun events => Timers.mk events t.timeEventNextId) (h.toTimers_without hn)

/-- What is called back is what the center takes. -/
theorem toTimers_fire {now : ℕ} {n : MultimapNode ℕ (ℕ × Callback)}
    (hfirst : t.timeEvents.first = some n) (hdue : n.key ≤ now)
    (hevents : u.timeEvents = t.timeEvents.without n.it)
    (hnext : u.timeEventNextId = t.timeEventNextId) :
    t.toTimers.takeDue now = some (toTimeEvent n, u.toTimers) := by
  unfold Timers.takeDue toTimers
  rw [Multimap.nodes_without_first hfirst, hevents, hnext]
  exact if_pos hdue

end TimeTable

end HwAsync.Event
