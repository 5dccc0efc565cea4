/-
# The timers of a connection

A connection keeps the ids of its wait timers in `register_time_events` and the id of its tick
timer in `last_tick_id`.  Both name events of the center that the connection is on; the events
themselves stand in the center, next to those of everything else, and a replaced connection moves
to another center.

Only what concerns timers is here.  A whole connection does these steps while it goes through its
states, and takes the rest of its invariants from elsewhere.
-/

import HwAsync.Lib.Run
import HwAsync.Event.Center
import Mathlib.Algebra.Group.Nat.Defs

namespace HwAsync.Event

open HwAsync.Lib

/-- An id behind `do_request(int)` and `wakeup_from(uint64_t)`. -/
def throughInt (id : ℕ) : ℕ := ((BitVec.ofNat 32 id).signExtend 64).toNat

/-- The timers of all centers, and what the connection knows about its own. -/
structure Timing where
  timers : ℕ → Timers
  registerTimeEvents : List ℕ
  lastTickId : ℕ
  /-- The center that the connection is on. -/
  center : ℕ

/-- `otherCreate` and `otherDelete` are calls of anything else, `fire` is a round of
`process_time_events`, `arm` creates a wait timer, `clear` is the first part of `shutdown_socket`,
`startTick` creates a tick timer in place of an old one, and `moveTo` is the hand-over to another
center. -/
inductive TimingAction
  | otherCreate (c expire : ℕ)
  | otherDelete (c id : ℕ)
  | fire (c now : ℕ)
  | arm (expire : ℕ)
  | clear
  | startTick (expire : ℕ)
  | moveTo (c : ℕ)

/-- `delete_time_event` for each of the ids. -/
def Timers.deleteAll (ids : List ℕ) (t : Timers) : Timers :=
  ids.foldl (fun t id => t.deleteTimeEvent id) t

namespace Timing

/-- The timers of one center change. -/
def onTimers (c : ℕ) (f : Timers → Timers) (t : Timing) : Timing :=
  { t with timers := Function.update t.timers c (f (t.timers c)) }

/-- The callback of an event that was taken: `wakeup_from` erases the id that it gets, and `tick`
forgets the timer. -/
def calledBack (e : TimeEvent) (t : Timing) : Timing :=
  match e.timeCb with
  | .wakeupHandler =>
      { t with registerTimeEvents := t.registerTimeEvents.filter fun id => id ≠ throughInt e.id }
  | .tickHandler => { t with lastTickId := 0 }
  | _ => t

/-- A wait timer is created and registered. -/
def arm (expire : ℕ) (t : Timing) : Timing :=
  { t.onTimers t.center fun ts => ts.createTimeEvent expire .wakeupHandler with
    registerTimeEvents := t.registerTimeEvents.insert (t.timers t.center).timeEventNextId }

/-- The registered timers are deleted. -/
def clear (t : Timing) : Timing :=
  { t.onTimers t.center fun ts => ts.deleteAll t.registerTimeEvents with registerTimeEvents := [] }

/-- The timer that `last_tick_id` names is deleted, if it names one. -/
def dropTick (t : Timing) : Timing :=
  if t.lastTickId = 0 then t else t.onTimers t.center fun ts => ts.deleteTimeEvent t.lastTickId

/-- A tick timer is created. -/
def createTick (expire : ℕ) (t : Timing) : Timing :=
  { t.onTimers t.center fun ts => ts.createTimeEvent expire .tickHandler with
    lastTickId := (t.timers t.center).timeEventNextId }

def step (t : Timing) : TimingAction → Option Timing
  | .otherCreate c expire => some (t.onTimers c fun ts => ts.createTimeEvent expire .other)
  | .otherDelete c id => some (t.onTimers c fun ts => ts.deleteTimeEvent id)
  | .fire c now =>
      match (t.timers c).takeDue now with
      | some (e, ts) => some ((t.onTimers c fun _ => ts).calledBack e)
      | none => none
  | .arm expire => some (t.arm expire)
  | .clear => some t.clear
  | .startTick expire => some (t.dropTick.createTick expire)
  | .moveTo c => if t.registerTimeEvents = [] then some { t with center := c } else none

/-- No event belongs to the connection. -/
structure Fresh (t : Timing) : Prop where
  wellFormed : ∀ c, (t.timers c).WellFormed
  foreign : ∀ c, ∀ e ∈ (t.timers c).timeEvents, e.timeCb = .other
  registerTimeEvents : t.registerTimeEvents = []
  lastTickId : t.lastTickId = 0

/-- The timers, run from a connection without any. -/
def machine : Machine Timing TimingAction := ⟨Fresh, step⟩

/-! ## The ids -/

/-- The ids that survive: those that an `int` holds, and those that it turns negative and back. -/
theorem throughInt_eq_iff {id : ℕ} (hid : id < 2 ^ 64) :
    throughInt id = id ↔ id < 2 ^ 31 ∨ 2 ^ 64 - 2 ^ 31 ≤ id := by
  have hmsb : (BitVec.ofNat 32 id).msb = true ↔ 2 ^ 31 ≤ id % 2 ^ 32 := by
    rw [BitVec.msb_eq_decide]
    simp
  unfold throughInt
  rw [BitVec.toNat_signExtend]
  by_cases hnegative : (BitVec.ofNat 32 id).msb = true
  · have hhigh := hmsb.mp hnegative
    rw [if_pos hnegative]
    simp [BitVec.toNat_setWidth]
    omega
  · have hlow := mt hmsb.mpr hnegative
    rw [if_neg hnegative]
    simp [BitVec.toNat_setWidth]
    omega

/-! ## What the operations do to the events -/

theorem onTimers_self (c : ℕ) (f : Timers → Timers) (t : Timing) :
    (t.onTimers c f).timers c = f (t.timers c) := by
  simp only [onTimers, Function.update_self]

theorem onTimers_of_ne {c d : ℕ} (f : Timers → Timers) (t : Timing) (hne : d ≠ c) :
    (t.onTimers c f).timers d = t.timers d := by
  simp only [onTimers, Function.update_of_ne hne]

theorem wellFormed_onTimers {t : Timing} (h : ∀ c, (t.timers c).WellFormed) {c : ℕ}
    {f : Timers → Timers} (hf : (f (t.timers c)).WellFormed) (d : ℕ) :
    ((t.onTimers c f).timers d).WellFormed := by
  by_cases hd : d = c
  · rw [hd, onTimers_self]
    exact hf
  · rw [onTimers_of_ne f t hd]
    exact h d

/-- What `deleteAll` leaves. -/
theorem mem_deleteAll {ts : Timers} (h : ts.WellFormed) (ids : List ℕ) :
    (ts.deleteAll ids).WellFormed ∧
      ∀ e, e ∈ (ts.deleteAll ids).timeEvents ↔ e ∈ ts.timeEvents ∧ e.id ∉ ids := by
  induction ids generalizing ts with
  | nil => exact ⟨h, fun e => by simp [Timers.deleteAll]⟩
  | cons id rest ih =>
      obtain ⟨hwell, hmem⟩ := ih (h.deleteTimeEvent id)
      refine ⟨hwell, fun e => ?_⟩
      rw [List.mem_cons, not_or, ← and_assoc, ← h.mem_deleteTimeEvent]
      exact hmem e

/-! ## What holds in every run -/

/-- The ids that are registered belong to wait timers: no other event of the center has one. -/
structure Coherent (t : Timing) : Prop where
  wellFormed : ∀ c, (t.timers c).WellFormed
  lt_next : ∀ id ∈ t.registerTimeEvents, id < (t.timers t.center).timeEventNextId
  wakeup : ∀ id ∈ t.registerTimeEvents, ∀ e ∈ (t.timers t.center).timeEvents,
    e.id = id → e.timeCb = .wakeupHandler

namespace Coherent

variable {t : Timing}

/-- Fewer events in a center. -/
theorem fewer (h : t.Coherent) {c : ℕ} {ts : Timers} (hwell : ts.WellFormed)
    (hsub : ts.timeEvents ⊆ (t.timers c).timeEvents)
    (hnext : ts.timeEventNextId = (t.timers c).timeEventNextId) :
    (t.onTimers c fun _ => ts).Coherent where
  wellFormed := wellFormed_onTimers h.wellFormed hwell
  lt_next id hid := by
    have hlt := h.lt_next id hid
    show id < ((t.onTimers c fun _ => ts).timers t.center).timeEventNextId
    by_cases hc : t.center = c
    · rw [← hc, onTimers_self, hnext, ← hc]
      exact hlt
    · rw [onTimers_of_ne _ t hc]
      exact hlt
  wakeup id hid e he := by
    have he' : e ∈ ((t.onTimers c fun _ => ts).timers t.center).timeEvents := he
    by_cases hc : t.center = c
    · rw [← hc, onTimers_self] at he'
      exact h.wakeup id hid e (hc ▸ hsub he')
    · rw [onTimers_of_ne _ t hc] at he'
      exact h.wakeup id hid e he'

/-- One more event in a center; the id is new. -/
theorem more (h : t.Coherent) (c expire : ℕ) (ctxt : Callback) :
    (t.onTimers c fun ts => ts.createTimeEvent expire ctxt).Coherent where
  wellFormed := wellFormed_onTimers h.wellFormed ((h.wellFormed c).createTimeEvent expire ctxt)
  lt_next id hid := by
    have hlt := h.lt_next id hid
    show id < ((t.onTimers c _).timers t.center).timeEventNextId
    by_cases hc : t.center = c
    · rw [← hc, onTimers_self]
      exact Nat.lt_succ_of_lt hlt
    · rw [onTimers_of_ne _ t hc]
      exact hlt
  wakeup id hid e he hide := by
    have hlt := h.lt_next id hid
    have he' : e ∈ ((t.onTimers c _).timers t.center).timeEvents := he
    by_cases hc : t.center = c
    · rw [← hc, onTimers_self] at he'
      cases Timers.mem_createTimeEvent.mp he' with
      | inl hnew =>
          rw [hnew] at hide
          exact absurd hide.symm hlt.ne
      | inr hold => exact h.wakeup id hid e hold hide
    · rw [onTimers_of_ne _ t hc] at he'
      exact h.wakeup id hid e he' hide

/-- Fewer ids are registered. -/
theorem unregister (h : t.Coherent) {ids : List ℕ} (hsub : ids ⊆ t.registerTimeEvents) (n : ℕ) :
    ({ t with registerTimeEvents := ids, lastTickId := n } : Timing).Coherent where
  wellFormed := h.wellFormed
  lt_next id hid := h.lt_next id (hsub hid)
  wakeup id hid := h.wakeup id (hsub hid)

theorem calledBack (h : t.Coherent) (e : TimeEvent) : (t.calledBack e).Coherent := by
  unfold Timing.calledBack
  split
  · exact h.unregister List.filter_sublist.subset _
  · exact h.unregister (List.Subset.refl _) 0
  · exact h

theorem arm (h : t.Coherent) (expire : ℕ) : (t.arm expire).Coherent := by
  have hmore := h.more t.center expire .wakeupHandler
  refine ⟨hmore.wellFormed, fun id hid => ?_, fun id hid e he hide => ?_⟩
  · cases List.mem_insert_iff.mp hid with
    | inl hnew =>
        show id < ((t.onTimers t.center _).timers t.center).timeEventNextId
        rw [onTimers_self, hnew]
        exact Nat.lt_succ_self _
    | inr hold => exact hmore.lt_next id hold
  · cases List.mem_insert_iff.mp hid with
    | inr hold => exact hmore.wakeup id hold e he hide
    | inl hnew =>
        -- only the new event has the new id
        have he' : e ∈ ((t.onTimers t.center _).timers t.center).timeEvents := he
        rw [onTimers_self] at he'
        cases Timers.mem_createTimeEvent.mp he' with
        | inl hthis => rw [hthis]
        | inr hold =>
            have hlt := (h.wellFormed t.center).lt_next e hold
            rw [hide, hnew] at hlt
            exact absurd hlt (lt_irrefl _)

theorem clear (h : t.Coherent) : t.clear.Coherent where
  wellFormed :=
    wellFormed_onTimers h.wellFormed (mem_deleteAll (h.wellFormed t.center) _).1
  lt_next id hid := by cases hid
  wakeup id hid := by cases hid

theorem dropTick (h : t.Coherent) : t.dropTick.Coherent := by
  unfold Timing.dropTick
  split
  · exact h
  · have hwell := h.wellFormed t.center
    apply h.fewer (hwell.deleteTimeEvent t.lastTickId)
    · exact fun e he => (hwell.mem_deleteTimeEvent.mp he).1
    · exact Timers.deleteTimeEvent_timeEventNextId _ _

theorem createTick (h : t.Coherent) (expire : ℕ) : (t.createTick expire).Coherent :=
  (h.more t.center expire .tickHandler).unregister (List.Subset.refl _) _

theorem step (h : t.Coherent) {a : TimingAction} {t' : Timing} (hstep : t.step a = some t') :
    t'.Coherent := by
  cases a with
  | otherCreate c expire =>
      simp only [Timing.step, Option.some.injEq] at hstep
      exact hstep ▸ h.more c expire .other
  | otherDelete c id =>
      simp only [Timing.step, Option.some.injEq] at hstep
      have hwell := h.wellFormed c
      rw [← hstep]
      apply h.fewer (hwell.deleteTimeEvent id)
      · exact fun e he => (hwell.mem_deleteTimeEvent.mp he).1
      · exact Timers.deleteTimeEvent_timeEventNextId _ _
  | fire c now =>
      simp only [Timing.step] at hstep
      split at hstep
      · rename_i e ts hdue
        simp only [Option.some.injEq] at hstep
        obtain ⟨hevents, hnext⟩ := Timers.takeDue_eq_some hdue
        have hfewer := h.fewer ((h.wellFormed c).takeDue hdue)
          (hevents ▸ List.subset_cons_self e ts.timeEvents) hnext
        exact hstep ▸ hfewer.calledBack e
      · cases hstep
  | arm expire =>
      simp only [Timing.step, Option.some.injEq] at hstep
      exact hstep ▸ h.arm expire
  | clear =>
      simp only [Timing.step, Option.some.injEq] at hstep
      exact hstep ▸ h.clear
  | startTick expire =>
      simp only [Timing.step, Option.some.injEq] at hstep
      exact hstep ▸ h.dropTick.createTick expire
  | moveTo c =>
      simp only [Timing.step] at hstep
      split at hstep
      · rename_i hempty
        simp only [Option.some.injEq] at hstep
        rw [← hstep]
        refine ⟨h.wellFormed, fun id hid => ?_, fun id hid => ?_⟩
        · rw [hempty] at hid
          cases hid
        · rw [hempty] at hid
          cases hid
      · cases hstep

end Coherent

/-! ## The registered timers are the pending ones -/

/-- An event of a center is a wait timer of the connection. -/
def Waits (t : Timing) (c : ℕ) (e : TimeEvent) : Prop :=
  e ∈ (t.timers c).timeEvents ∧ e.timeCb = .wakeupHandler

/-- `register_time_events` has exactly the ids of the pending wait timers, all of which are in the
center of the connection. -/
structure Exact (t : Timing) : Prop where
  registered : ∀ id, id ∈ t.registerTimeEvents ↔ ∃ e, t.Waits t.center e ∧ e.id = id
  elsewhere : ∀ c, c ≠ t.center → ∀ e, ¬ t.Waits c e

/-- The steps after which the set is exact again: the id of a wait timer that fires survives its
way to `wakeup_from`, and a `delete_time_event` of anything else, or of an old tick timer, does not
hit a wait timer. -/
def Keeps (t : Timing) : TimingAction → Prop
  | .otherDelete c id => ∀ e ∈ (t.timers c).timeEvents, e.id = id → e.timeCb ≠ .wakeupHandler
  | .fire c now => ∀ e ∈ ((t.timers c).takeDue now).map Prod.fst,
      e.timeCb = .wakeupHandler → throughInt e.id = e.id
  | .startTick _ => t.lastTickId ≠ 0 → ∀ e ∈ (t.timers t.center).timeEvents,
      e.id = t.lastTickId → e.timeCb ≠ .wakeupHandler
  | _ => True

instance (t : Timing) (a : TimingAction) : Decidable (t.Keeps a) := by
  cases a <;> unfold Keeps <;> infer_instance

namespace Exact

variable {t t' : Timing}

/-- The same wait timers and the same ids. -/
theorem congr (h : t.Exact) (hids : t'.registerTimeEvents = t.registerTimeEvents)
    (hcenter : t'.center = t.center) (hwaits : ∀ c e, t'.Waits c e ↔ t.Waits c e) : t'.Exact where
  registered id := by
    rw [hids, hcenter, h.registered id]
    exact exists_congr fun e => and_congr_left fun _ => (hwaits t.center e).symm
  elsewhere c hc e hwait := h.elsewhere c (hcenter ▸ hc) e ((hwaits c e).mp hwait)

/-- A center changes, but for the wait timers in it. -/
theorem onTimers (h : t.Exact) {c : ℕ} {f : Timers → Timers}
    (hf : ∀ e, e.timeCb = .wakeupHandler →
      (e ∈ (f (t.timers c)).timeEvents ↔ e ∈ (t.timers c).timeEvents)) :
    (t.onTimers c f).Exact := by
  apply h.congr
  · rfl
  · rfl
  intro d e
  apply and_congr_left
  intro he
  by_cases hd : d = c
  · rw [hd, onTimers_self]
    exact hf e he
  · rw [onTimers_of_ne f t hd]

/-- An event of something else, or a tick timer, is created. -/
theorem more (h : t.Exact) (c expire : ℕ) {ctxt : Callback} (hctxt : ctxt ≠ .wakeupHandler) :
    (t.onTimers c fun ts => ts.createTimeEvent expire ctxt).Exact := by
  apply h.onTimers
  intro e he
  constructor
  · intro hmem
    cases Timers.mem_createTimeEvent.mp hmem with
    | inl hnew =>
        rw [hnew] at he
        exact absurd he hctxt
    | inr hold => exact hold
  · exact fun hmem => Timers.mem_createTimeEvent.mpr (.inr hmem)

/-- An event that is not a wait timer is deleted. -/
theorem delete (h : t.Exact) (hcoherent : t.Coherent) {c id : ℕ}
    (hother : ∀ e ∈ (t.timers c).timeEvents, e.id = id → e.timeCb ≠ .wakeupHandler) :
    (t.onTimers c fun ts => ts.deleteTimeEvent id).Exact := by
  apply h.onTimers
  intro e he
  rw [(hcoherent.wellFormed c).mem_deleteTimeEvent]
  exact ⟨And.left, fun hmem => ⟨hmem, fun hid => hother e hmem hid he⟩⟩

/-- A due event is taken that is not a wait timer. -/
theorem take (h : t.Exact) {c now : ℕ} {e : TimeEvent} {ts : Timers}
    (hdue : (t.timers c).takeDue now = some (e, ts)) (he : e.timeCb ≠ .wakeupHandler) :
    (t.onTimers c fun _ => ts).Exact := by
  apply h.onTimers
  intro e' he'
  rw [(Timers.takeDue_eq_some hdue).1, List.mem_cons]
  constructor
  · exact .inr
  · intro hmem
    cases hmem with
    | inl hfirst => exact absurd (hfirst ▸ he') he
    | inr hrest => exact hrest

/-- A wait timer fires, and its own id is erased. -/
theorem takeWait (h : t.Exact) (hcoherent : t.Coherent) {c now : ℕ} {e : TimeEvent} {ts : Timers}
    (hdue : (t.timers c).takeDue now = some (e, ts)) (he : e.timeCb = .wakeupHandler)
    (hid : throughInt e.id = e.id) : ((t.onTimers c fun _ => ts).calledBack e).Exact := by
  have hevents := (Timers.takeDue_eq_some hdue).1
  have hfirst : e ∈ (t.timers c).timeEvents := hevents ▸ List.mem_cons_self
  obtain rfl : c = t.center := by
    by_contra hc
    exact h.elsewhere c hc e ⟨hfirst, he⟩
  have hnodup := (hcoherent.wellFormed t.center).nodup
  rw [hevents, List.map_cons, List.nodup_cons] at hnodup
  have hafter : (t.onTimers t.center fun _ => ts).timers t.center = ts := onTimers_self _ _ _
  unfold calledBack
  simp only [he]
  constructor
  · intro id
    show id ∈ t.registerTimeEvents.filter (fun id => id ≠ throughInt e.id) ↔
      ∃ a, (t.onTimers t.center fun _ => ts).Waits t.center a ∧ a.id = id
    rw [List.mem_filter, h.registered id, hid, decide_eq_true_eq]
    constructor
    · rintro ⟨⟨a, ⟨ha, hwait⟩, rfl⟩, hne⟩
      rw [hevents, List.mem_cons] at ha
      cases ha with
      | inl hsame => exact absurd (congrArg TimeEvent.id hsame) hne
      | inr hrest => exact ⟨a, ⟨hafter.symm ▸ hrest, hwait⟩, rfl⟩
    · rintro ⟨a, ⟨ha, hwait⟩, rfl⟩
      rw [hafter] at ha
      refine ⟨⟨a, ⟨hevents ▸ List.mem_cons_of_mem e ha, hwait⟩, rfl⟩, fun hsame => ?_⟩
      exact hnodup.1 (List.mem_map.mpr ⟨a, ha, hsame⟩)
  · intro d hd a hwait
    apply h.elsewhere d hd a
    exact ⟨onTimers_of_ne (fun _ => ts) t hd ▸ hwait.1, hwait.2⟩

theorem arm (h : t.Exact) (expire : ℕ) : (t.arm expire).Exact := by
  have hafter : (t.arm expire).timers t.center =
      (t.timers t.center).createTimeEvent expire .wakeupHandler := onTimers_self _ _ _
  constructor
  · intro id
    show id ∈ t.registerTimeEvents.insert _ ↔ ∃ e, (t.arm expire).Waits t.center e ∧ e.id = id
    rw [List.mem_insert_iff, h.registered id]
    constructor
    · intro hid
      cases hid with
      | inl hnew =>
          refine ⟨⟨(t.timers t.center).timeEventNextId, expire, .wakeupHandler⟩, ⟨?_, rfl⟩, hnew.symm⟩
          rw [hafter]
          exact Timers.mem_createTimeEvent.mpr (.inl rfl)
      | inr hold =>
          obtain ⟨e, ⟨he, hwait⟩, hid⟩ := hold
          refine ⟨e, ⟨?_, hwait⟩, hid⟩
          rw [hafter]
          exact Timers.mem_createTimeEvent.mpr (.inr he)
    · rintro ⟨e, ⟨he, hwait⟩, hid⟩
      rw [hafter] at he
      cases Timers.mem_createTimeEvent.mp he with
      | inl hnew =>
          left
          rw [← hid, hnew]
      | inr hold => exact .inr ⟨e, ⟨hold, hwait⟩, hid⟩
  · intro d hd e hwait
    apply h.elsewhere d hd e
    exact ⟨onTimers_of_ne _ t hd ▸ hwait.1, hwait.2⟩

/-- Behind `clear` no wait timer is left anywhere. -/
theorem not_waits_clear (h : t.Exact) (hcoherent : t.Coherent) (c : ℕ) (e : TimeEvent) :
    ¬ t.clear.Waits c e := by
  intro hwait
  by_cases hc : c = t.center
  · subst hc
    have hmem := hwait.1
    have hafter : t.clear.timers t.center =
        (t.timers t.center).deleteAll t.registerTimeEvents := onTimers_self _ _ _
    rw [hafter, (mem_deleteAll (hcoherent.wellFormed t.center) _).2 e] at hmem
    exact hmem.2 ((h.registered e.id).mpr ⟨e, ⟨hmem.1, hwait.2⟩, rfl⟩)
  · apply h.elsewhere c hc e
    exact ⟨onTimers_of_ne _ t hc ▸ hwait.1, hwait.2⟩

theorem clear (h : t.Exact) (hcoherent : t.Coherent) : t.clear.Exact where
  registered id := by
    constructor
    · intro hid
      cases hid
    · rintro ⟨e, hwait, -⟩
      exact absurd hwait (h.not_waits_clear hcoherent _ e)
  elsewhere c _ e := h.not_waits_clear hcoherent c e

theorem step (h : t.Exact) (hcoherent : t.Coherent) {a : TimingAction} (hkeeps : t.Keeps a)
    (hstep : t.step a = some t') : t'.Exact := by
  cases a with
  | otherCreate c expire =>
      simp only [Timing.step, Option.some.injEq] at hstep
      exact hstep ▸ h.more c expire (by decide)
  | otherDelete c id =>
      simp only [Timing.step, Option.some.injEq] at hstep
      exact hstep ▸ h.delete hcoherent hkeeps
  | fire c now =>
      simp only [Timing.step] at hstep
      split at hstep
      · rename_i e ts hdue
        simp only [Option.some.injEq] at hstep
        rw [← hstep]
        by_cases he : e.timeCb = .wakeupHandler
        · apply h.takeWait hcoherent hdue he
          exact hkeeps e (by rw [hdue]; rfl) he
        · have htake := h.take hdue he
          unfold calledBack
          split
          · contradiction
          · exact htake.congr rfl rfl fun _ _ => Iff.rfl
          · exact htake
      · cases hstep
  | arm expire =>
      simp only [Timing.step, Option.some.injEq] at hstep
      exact hstep ▸ h.arm expire
  | clear =>
      simp only [Timing.step, Option.some.injEq] at hstep
      exact hstep ▸ h.clear hcoherent
  | startTick expire =>
      simp only [Timing.step, Option.some.injEq] at hstep
      have hdrop : t.dropTick.Exact := by
        unfold Timing.dropTick
        split
        · exact h
        · rename_i hne
          exact h.delete hcoherent (hkeeps hne)
      rw [← hstep]
      exact (hdrop.more t.dropTick.center expire (by decide)).congr rfl rfl fun _ _ => Iff.rfl
  | moveTo c =>
      simp only [Timing.step] at hstep
      split at hstep
      · rename_i hempty
        simp only [Option.some.injEq] at hstep
        have hnone (d : ℕ) (e : TimeEvent) : ¬ t.Waits d e := by
          intro hwait
          by_cases hd : d = t.center
          · have hid := (h.registered e.id).mpr ⟨e, hd ▸ hwait, rfl⟩
            rw [hempty] at hid
            cases hid
          · exact h.elsewhere d hd e hwait
        rw [← hstep]
        refine ⟨fun id => ⟨fun hid => ?_, ?_⟩, fun d _ e => hnone d e⟩
        · rw [hempty] at hid
          cases hid
        · rintro ⟨e, hwait, -⟩
          exact absurd hwait (hnone c e)
      · cases hstep

end Exact

/-- Where the set is exact, a wait timer is pending behind the arm of a throttle. -/
theorem Exact.waits_of_ne_nil {t : Timing} (h : t.Exact) (hne : t.registerTimeEvents ≠ []) :
    ∃ e, t.Waits t.center e := by
  obtain ⟨id, hid⟩ := List.exists_mem_of_ne_nil t.registerTimeEvents hne
  obtain ⟨e, hwait, -⟩ := (h.registered id).mp hid
  exact ⟨e, hwait⟩

/-! ## The tick timer -/

/-- `last_tick_id` is zero, or it names a tick timer that is pending. -/
def Ticking (t : Timing) : Prop :=
  t.lastTickId ≠ 0 →
    ∃ c, ∃ e ∈ (t.timers c).timeEvents, e.id = t.lastTickId ∧ e.timeCb = .tickHandler

/-- Nothing else deletes a tick timer of the connection. -/
def SparesTick (t : Timing) : TimingAction → Prop
  | .otherDelete c id => ∀ e ∈ (t.timers c).timeEvents, e.id = id → e.timeCb ≠ .tickHandler
  | _ => True

instance (t : Timing) (a : TimingAction) : Decidable (t.SparesTick a) := by
  cases a <;> unfold SparesTick <;> infer_instance

/-- The tick timers stay, and so does what `last_tick_id` names. -/
theorem Ticking.of_mem {t t' : Timing} (h : t.Ticking) (hid : t'.lastTickId = t.lastTickId)
    (hmem : ∀ c, ∀ e ∈ (t.timers c).timeEvents, e.timeCb = .tickHandler →
      e ∈ (t'.timers c).timeEvents) : t'.Ticking := by
  intro hne
  rw [hid] at hne
  obtain ⟨c, e, he, hide, htick⟩ := h hne
  exact ⟨c, e, hmem c e he htick, hide.trans hid.symm, htick⟩

theorem mem_onTimers {t : Timing} {c : ℕ} {f : Timers → Timers} {e : TimeEvent}
    (hf : e ∈ (t.timers c).timeEvents → e ∈ (f (t.timers c)).timeEvents) {d : ℕ}
    (he : e ∈ (t.timers d).timeEvents) : e ∈ ((t.onTimers c f).timers d).timeEvents := by
  by_cases hd : d = c
  · rw [hd, onTimers_self]
    exact hf (hd ▸ he)
  · rw [onTimers_of_ne f t hd]
    exact he

theorem Ticking.step {t t' : Timing} (h : t.Ticking) (hcoherent : t.Coherent) {a : TimingAction}
    (hspares : t.SparesTick a) (hstep : t.step a = some t') : t'.Ticking := by
  cases a with
  | otherCreate c expire =>
      simp only [Timing.step, Option.some.injEq] at hstep
      rw [← hstep]
      apply h.of_mem
      · rfl
      · exact fun d e he _ =>
          mem_onTimers (fun hmem => Timers.mem_createTimeEvent.mpr (.inr hmem)) he
  | otherDelete c id =>
      simp only [Timing.step, Option.some.injEq] at hstep
      rw [← hstep]
      apply h.of_mem
      · rfl
      · intro d e he htick
        apply mem_onTimers _ he
        intro hmem
        exact (hcoherent.wellFormed c).mem_deleteTimeEvent.mpr
          ⟨hmem, fun hid => hspares e hmem hid htick⟩
  | fire c now =>
      simp only [Timing.step] at hstep
      split at hstep
      · rename_i e ts hdue
        simp only [Option.some.injEq] at hstep
        rw [← hstep]
        have hmem (hother : e.timeCb ≠ .tickHandler) (d : ℕ) (a : TimeEvent)
            (ha : a ∈ (t.timers d).timeEvents) (htick : a.timeCb = .tickHandler) :
            a ∈ ((t.onTimers c fun _ => ts).timers d).timeEvents := by
          apply mem_onTimers _ ha
          intro hmem
          rw [(Timers.takeDue_eq_some hdue).1, List.mem_cons] at hmem
          cases hmem with
          | inl hfirst => exact absurd (hfirst ▸ htick) hother
          | inr hrest => exact hrest
        unfold calledBack
        split
        · rename_i hwakeup
          exact h.of_mem rfl (hmem (by rw [hwakeup]; decide))
        · exact fun hne => absurd rfl hne
        · rename_i hother
          exact h.of_mem rfl (hmem hother)
      · cases hstep
  | arm expire =>
      simp only [Timing.step, Option.some.injEq] at hstep
      rw [← hstep]
      apply h.of_mem
      · rfl
      · exact fun d e he _ =>
          mem_onTimers (fun hmem => Timers.mem_createTimeEvent.mpr (.inr hmem)) he
  | clear =>
      simp only [Timing.step, Option.some.injEq] at hstep
      rw [← hstep]
      apply h.of_mem
      · rfl
      · intro d e he htick
        apply mem_onTimers _ he
        intro hmem
        rw [(mem_deleteAll (hcoherent.wellFormed t.center) _).2 e]
        refine ⟨hmem, fun hid => ?_⟩
        rw [hcoherent.wakeup e.id hid e hmem rfl] at htick
        cases htick
  | startTick expire =>
      simp only [Timing.step, Option.some.injEq] at hstep
      rw [← hstep]
      -- the new timer is the one that is named now
      refine fun _ => ⟨t.dropTick.center,
        ⟨(t.dropTick.timers t.dropTick.center).timeEventNextId, expire, .tickHandler⟩, ?_, rfl, rfl⟩
      show _ ∈ ((t.dropTick.onTimers t.dropTick.center _).timers t.dropTick.center).timeEvents
      rw [onTimers_self]
      exact Timers.mem_createTimeEvent.mpr (.inl rfl)
  | moveTo c =>
      simp only [Timing.step] at hstep
      split at hstep
      · simp only [Option.some.injEq] at hstep
        rw [← hstep]
        exact h
      · cases hstep

/-! ## Runs -/

theorem Fresh.coherent {t : Timing} (h : t.Fresh) : t.Coherent where
  wellFormed := h.wellFormed
  lt_next id hid := by
    rw [h.registerTimeEvents] at hid
    cases hid
  wakeup id hid := by
    rw [h.registerTimeEvents] at hid
    cases hid

theorem Fresh.exact {t : Timing} (h : t.Fresh) : t.Exact := by
  have hnone (c : ℕ) (e : TimeEvent) : ¬ t.Waits c e := by
    intro hwait
    have hcb := hwait.2
    rw [h.foreign c e hwait.1] at hcb
    cases hcb
  constructor
  · intro id
    constructor
    · intro hid
      rw [h.registerTimeEvents] at hid
      cases hid
    · rintro ⟨e, hwait, -⟩
      exact absurd hwait (hnone _ e)
  · exact fun c _ e => hnone c e

theorem coherent_of_reached {t : Timing} (hreached : machine.Reached t) : t.Coherent :=
  hreached.invariant Coherent (fun _ h => Fresh.coherent h) fun _ _ _ h _ hstep => h.step hstep

/-- **The set of wait timers.**  It is exact as long as every step keeps it so. -/
theorem exact_of_keeps {t : Timing} (hreached : machine.ReachedUnder Keeps t) : t.Exact :=
  (hreached.invariant (fun t => t.Coherent ∧ t.Exact) (fun _ h => ⟨Fresh.coherent h, Fresh.exact h⟩)
    fun _ _ _ h hkeeps hstep => ⟨h.1.step hstep, h.2.step h.1 hkeeps hstep⟩).2

/-- `last_tick_id` names a pending timer as long as nothing else deletes it. -/
theorem ticking_of_sparesTick {t : Timing} (hreached : machine.ReachedUnder SparesTick t) :
    t.Ticking :=
  (hreached.invariant (fun t => t.Coherent ∧ t.Ticking)
    (fun _ h => ⟨Fresh.coherent h, fun hne => absurd (Fresh.lastTickId h) hne⟩)
    fun _ _ _ h hspares hstep => ⟨h.1.step hstep, h.2.step h.1 hspares hstep⟩).2

end Timing

end HwAsync.Event
