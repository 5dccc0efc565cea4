/-
# The events of a center

An `EventCenter` calls back when a time has come and when a file descriptor is ready.  The time
events are a multimap by the time they expire, with an index by id; the file events are a table
by descriptor with one callback for each direction.

A callback belongs to a connection or to anything else in the process.  The connection that is
looked at has four handlers, and everything that is not one of them is `other`.

The ids of time events come from a counter of 64 bits, which is taken not to wrap.
-/

import Mathlib.Data.List.Sort
import Mathlib.Logic.Function.Basic

namespace HwAsync.Event

/-- What is called back: one of the handlers of the connection, or something else. -/
inductive Callback
  | readHandler
  | writeHandler
  | wakeupHandler
  | tickHandler
  | other
  deriving DecidableEq, Repr

/-! ## Time events -/

/-- `TimeEvent`, with the time that it is listed under. -/
structure TimeEvent where
  id : ℕ
  expire : ℕ
  timeCb : Callback
  deriving DecidableEq, Repr

/-- `time_events`, in the order of the multimap, and the counter of their ids. -/
structure Timers where
  timeEvents : List TimeEvent
  timeEventNextId : ℕ

namespace Timers

/-- `create_time_event`, with the time that the event expires.  `multimap::insert` puts it behind
the events of the same time. -/
def createTimeEvent (expire : ℕ) (ctxt : Callback) (t : Timers) : Timers where
  timeEventNextId := t.timeEventNextId + 1
  timeEvents := t.timeEvents.orderedInsert (fun a b => a.expire < b.expire)
    ⟨t.timeEventNextId, expire, ctxt⟩

/-- `delete_time_event`. -/
def deleteTimeEvent (id : ℕ) (t : Timers) : Timers :=
  if t.timeEventNextId ≤ id ∨ id = 0 then t
  else { t with timeEvents := t.timeEvents.filter fun e => e.id ≠ id }

/-- One round of the loop of `process_time_events`, up to the callback. -/
def takeDue (now : ℕ) (t : Timers) : Option (TimeEvent × Timers) :=
  match t.timeEvents with
  | [] => none
  | e :: rest => if e.expire ≤ now then some (e, { t with timeEvents := rest }) else none

/-- What holds of every center: its time events have different ids between one and the counter. -/
structure WellFormed (t : Timers) : Prop where
  lt_next : ∀ e ∈ t.timeEvents, e.id < t.timeEventNextId
  pos : ∀ e ∈ t.timeEvents, 0 < e.id
  next_pos : 0 < t.timeEventNextId
  nodup : (t.timeEvents.map TimeEvent.id).Nodup

theorem mem_createTimeEvent {expire : ℕ} {ctxt : Callback} {t : Timers} {e : TimeEvent} :
    e ∈ (t.createTimeEvent expire ctxt).timeEvents ↔
      e = ⟨t.timeEventNextId, expire, ctxt⟩ ∨ e ∈ t.timeEvents :=
  List.mem_orderedInsert _

@[simp] theorem createTimeEvent_timeEventNextId (expire : ℕ) (ctxt : Callback) (t : Timers) :
    (t.createTimeEvent expire ctxt).timeEventNextId = t.timeEventNextId + 1 := rfl

@[simp] theorem deleteTimeEvent_timeEventNextId (id : ℕ) (t : Timers) :
    (t.deleteTimeEvent id).timeEventNextId = t.timeEventNextId := by
  unfold deleteTimeEvent
  split <;> rfl

/-- A due event is the first one, and the others stay. -/
theorem takeDue_eq_some {now : ℕ} {t t' : Timers} {e : TimeEvent}
    (hdue : t.takeDue now = some (e, t')) :
    t.timeEvents = e :: t'.timeEvents ∧ t'.timeEventNextId = t.timeEventNextId := by
  unfold takeDue at hdue
  split at hdue
  · cases hdue
  · rename_i a rest hevents
    split at hdue
    · simp only [Option.some.injEq, Prod.mk.injEq] at hdue
      obtain ⟨rfl, rfl⟩ := hdue
      exact ⟨hevents, rfl⟩
    · cases hdue

namespace WellFormed

variable {t : Timers}

/-- The guard of `delete_time_event` skips only ids that no event has. -/
theorem mem_deleteTimeEvent (h : t.WellFormed) {id : ℕ} {e : TimeEvent} :
    e ∈ (t.deleteTimeEvent id).timeEvents ↔ e ∈ t.timeEvents ∧ e.id ≠ id := by
  unfold deleteTimeEvent
  split
  · rename_i hguard
    constructor
    · intro he
      refine ⟨he, fun hid => ?_⟩
      have hlt := h.lt_next e he
      have hpos := h.pos e he
      omega
    · exact And.left
  · simp only [List.mem_filter, decide_eq_true_eq]

theorem createTimeEvent (h : t.WellFormed) (expire : ℕ) (ctxt : Callback) :
    (t.createTimeEvent expire ctxt).WellFormed where
  lt_next e he := by
    cases mem_createTimeEvent.mp he with
    | inl hnew => exact hnew ▸ Nat.lt_succ_self _
    | inr hold => exact Nat.lt_succ_of_lt (h.lt_next e hold)
  pos e he := by
    cases mem_createTimeEvent.mp he with
    | inl hnew => exact hnew ▸ h.next_pos
    | inr hold => exact h.pos e hold
  next_pos := Nat.succ_pos _
  nodup := by
    have hperm := (List.perm_orderedInsert (fun a b : TimeEvent => a.expire < b.expire)
      ⟨t.timeEventNextId, expire, ctxt⟩ t.timeEvents).map TimeEvent.id
    apply hperm.nodup_iff.mpr
    rw [List.map_cons, List.nodup_cons]
    refine ⟨fun hmem => ?_, h.nodup⟩
    obtain ⟨e, he, hid⟩ := List.mem_map.mp hmem
    exact absurd hid (h.lt_next e he).ne

/-- Fewer events below the same counter. -/
theorem of_sublist (h : t.WellFormed) {l : List TimeEvent} (hsub : l.Sublist t.timeEvents) :
    ({ t with timeEvents := l } : Timers).WellFormed where
  lt_next e he := h.lt_next e (hsub.subset he)
  pos e he := h.pos e (hsub.subset he)
  next_pos := h.next_pos
  nodup := h.nodup.sublist (hsub.map _)

theorem deleteTimeEvent (h : t.WellFormed) (id : ℕ) : (t.deleteTimeEvent id).WellFormed := by
  unfold Timers.deleteTimeEvent
  split
  · exact h
  · exact h.of_sublist List.filter_sublist

theorem takeDue (h : t.WellFormed) {now : ℕ} {e : TimeEvent} {t' : Timers}
    (hdue : t.takeDue now = some (e, t')) : t'.WellFormed := by
  obtain ⟨hevents, hnext⟩ := takeDue_eq_some hdue
  have hsub : t'.timeEvents.Sublist t.timeEvents := by
    rw [hevents]
    exact List.sublist_cons_self e t'.timeEvents
  have hfewer := h.of_sublist hsub
  rwa [← hnext] at hfewer

end WellFormed

end Timers

/-! ## File events -/

/-- The bits `EVENT_READABLE` and `EVENT_WRITABLE`. -/
structure Mask where
  readable : Bool
  writable : Bool
  deriving DecidableEq, Repr

namespace Mask

def none : Mask := ⟨false, false⟩
def read : Mask := ⟨true, false⟩
def write : Mask := ⟨false, true⟩
def both : Mask := ⟨true, true⟩

/-- `a | b`. -/
def or (a b : Mask) : Mask := ⟨a.readable || b.readable, a.writable || b.writable⟩

/-- `a & ~b`. -/
def without (a b : Mask) : Mask := ⟨a.readable && !b.readable, a.writable && !b.writable⟩

end Mask

/-- `FileEvent`. -/
structure FileEvent where
  mask : Mask
  readCb : Option Callback
  writeCb : Option Callback
  deriving DecidableEq, Repr

namespace FileEvent

/-- What `create_file_event` does to the entry of a descriptor. -/
def create (mask : Mask) (ctxt : Callback) (event : FileEvent) : FileEvent :=
  if event.mask = mask then event
  else
    { mask := event.mask.or mask
      readCb := if mask.readable then some ctxt else event.readCb
      writeCb := if mask.writable then some ctxt else event.writeCb }

/-- What `delete_file_event` does to it. -/
def delete (mask : Mask) (event : FileEvent) : FileEvent :=
  if event.mask = .none then event
  else
    { mask := event.mask.without mask
      readCb := if mask.readable then none else event.readCb
      writeCb := if mask.writable then none else event.writeCb }

/-- A callback stands under its bit. -/
structure WellFormed (event : FileEvent) : Prop where
  readable : event.readCb.isSome → event.mask.readable
  writable : event.writeCb.isSome → event.mask.writable

/-- No handler of the connection is called back. -/
structure Foreign (event : FileEvent) : Prop where
  readCb : ∀ cb, event.readCb = some cb → cb = .other
  writeCb : ∀ cb, event.writeCb = some cb → cb = .other

theorem WellFormed.create {event : FileEvent} (h : event.WellFormed) (mask : Mask)
    (ctxt : Callback) : (event.create mask ctxt).WellFormed := by
  have hread := h.readable
  have hwrite := h.writable
  unfold FileEvent.create
  split
  · exact h
  · constructor
    · cases hmask : mask.readable <;> simp_all [Mask.or]
    · cases hmask : mask.writable <;> simp_all [Mask.or]

theorem WellFormed.delete {event : FileEvent} (h : event.WellFormed) (mask : Mask) :
    (event.delete mask).WellFormed := by
  have hread := h.readable
  have hwrite := h.writable
  unfold FileEvent.delete
  split
  · exact h
  · constructor
    · cases hmask : mask.readable <;> simp_all [Mask.without]
    · cases hmask : mask.writable <;> simp_all [Mask.without]

/-- Deleting both directions leaves no callback. -/
theorem WellFormed.foreign_delete {event : FileEvent} (h : event.WellFormed) :
    (event.delete .both).Foreign := by
  unfold FileEvent.delete
  split
  · rename_i hmask
    constructor
    · intro cb hcb
      have hset := h.readable (by rw [hcb]; rfl)
      rw [hmask] at hset
      cases hset
    · intro cb hcb
      have hset := h.writable (by rw [hcb]; rfl)
      rw [hmask] at hset
      cases hset
  · constructor
    · intro cb hcb
      cases hcb
    · intro cb hcb
      cases hcb

end FileEvent

/-- The events of an `EventCenter`. -/
structure Center extends Timers where
  fileEvents : ℕ → FileEvent

namespace Center

/-- `create_file_event`. -/
def createFileEvent (fd : ℕ) (mask : Mask) (ctxt : Callback) (c : Center) : Center :=
  { c with
    fileEvents := Function.update c.fileEvents fd ((c.fileEvents fd).create mask ctxt) }

/-- `delete_file_event`. -/
def deleteFileEvent (fd : ℕ) (mask : Mask) (c : Center) : Center :=
  { c with fileEvents := Function.update c.fileEvents fd ((c.fileEvents fd).delete mask) }

/-- The time events change. -/
def onTimers (f : Timers → Timers) (c : Center) : Center := { c with toTimers := f c.toTimers }

/-- Every callback stands under its bit. -/
def FilesWellFormed (c : Center) : Prop := ∀ fd, (c.fileEvents fd).WellFormed

namespace FilesWellFormed

variable {c : Center}

theorem update (h : c.FilesWellFormed) (fd : ℕ) {event : FileEvent} (hevent : event.WellFormed) :
    ({ c with fileEvents := Function.update c.fileEvents fd event } : Center).FilesWellFormed := by
  intro f
  show (Function.update c.fileEvents fd event f).WellFormed
  by_cases hf : f = fd
  · rw [hf, Function.update_self]
    exact hevent
  · rw [Function.update_of_ne hf]
    exact h f

theorem createFileEvent (h : c.FilesWellFormed) (fd : ℕ) (mask : Mask) (ctxt : Callback) :
    (c.createFileEvent fd mask ctxt).FilesWellFormed :=
  h.update fd ((h fd).create mask ctxt)

theorem deleteFileEvent (h : c.FilesWellFormed) (fd : ℕ) (mask : Mask) :
    (c.deleteFileEvent fd mask).FilesWellFormed :=
  h.update fd ((h fd).delete mask)

end FilesWellFormed

end Center

end HwAsync.Event
