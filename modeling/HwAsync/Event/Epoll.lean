/-
# The epoll driver

`EpollDriver` keeps nothing about descriptors: it computes what epoll should watch from the mask
that the center passes, and `epoll_ctl` keeps it in the kernel.  The two can only agree as long as
every operation fits what the kernel has and computes all of the flags.

Here the calls of `epoll_ctl` succeed.  An operation that does not fit is carried out and noted.
-/

import HwAsync.Event.FileTable

namespace HwAsync.Event

open HwAsync.Lib

/-- `EPOLLET`, `EPOLLIN` and `EPOLLOUT` of `epoll_event::events`. -/
structure EpollEvents where
  et : Bool
  input : Bool
  output : Bool
  deriving DecidableEq, Repr

inductive EpollOp
  | add
  | mod
  | del
  deriving DecidableEq, Repr

/-- What epoll watches, and whether every operation was valid when it was called. -/
structure Epoll where
  watched : ℕ → Option EpollEvents
  valid : Bool

namespace Epoll

/-- The operations that the kernel has no objection to. -/
def accepts (k : Epoll) (fd : ℕ) : EpollOp → Bool
  | .add => (k.watched fd).isNone
  | .mod => (k.watched fd).isSome
  | .del => (k.watched fd).isSome

/-- `epoll_ctl`. -/
def epollCtl (op : EpollOp) (fd : ℕ) (ee : EpollEvents) (k : Epoll) : Epoll where
  watched := Function.update k.watched fd (if op = .del then none else some ee)
  valid := k.valid && k.accepts fd op

/-- `EpollDriver::add_event`. -/
def addEvent (fd : ℕ) (curMask addMask : Mask) (k : Epoll) : Epoll :=
  let op : EpollOp := if curMask = .none then .add else .mod
  let mask := addMask.or curMask
  k.epollCtl op fd ⟨true, mask.readable, mask.writable⟩

/-- `EpollDriver::del_event`. -/
def delEvent (fd : ℕ) (curMask delmask : Mask) (k : Epoll) : Epoll :=
  let mask := curMask.without delmask
  let ee : EpollEvents := ⟨false, mask.readable, mask.writable⟩
  if mask ≠ .none then k.epollCtl .mod fd ee else k.epollCtl .del fd ee

/-- After `EpollDriver::init`. -/
def Fresh (_ : ℕ) (k : Epoll) : Prop := k.watched = (fun _ => none) ∧ k.valid = true

end Epoll

/-- `EpollDriver`; `resize_events` and `event_wait` watch nothing else. -/
def epollDriver : Driver Epoll Unit where
  addEvent _ fd curMask addMask k := (true, k.addEvent fd curMask addMask)
  delEvent _ fd curMask delmask k := (true, k.delEvent fd curMask delmask)
  resizeEvents _ _ k := (true, k)
  eventWait _ k := (true, k)

namespace Mask

/-- What epoll watches for a mask, with or without `EPOLLET`. -/
def watchedAs (et : Bool) (mask : Mask) : Option EpollEvents :=
  if mask = Mask.none then Option.none else some ⟨et, mask.readable, mask.writable⟩

/-- What it has to watch. -/
def toEpoll (mask : Mask) : Option EpollEvents := mask.watchedAs true

theorem isSome_watchedAs (et : Bool) (mask : Mask) :
    (mask.watchedAs et).isSome = decide (mask ≠ .none) := by
  unfold watchedAs
  by_cases hmask : mask = .none
  · rw [if_pos hmask, decide_eq_false (not_not_intro hmask)]
    rfl
  · rw [if_neg hmask, decide_eq_true hmask]
    rfl

theorem watchedAs_of_ne {et : Bool} {mask : Mask} (hmask : mask ≠ .none) :
    mask.watchedAs et = some ⟨et, mask.readable, mask.writable⟩ := if_neg hmask

theorem or_comm (a b : Mask) : a.or b = b.or a := by
  unfold Mask.or
  rw [Bool.or_comm a.readable, Bool.or_comm a.writable]

/-- A mask that adds something to another one, or has something to add it to, is not empty. -/
theorem or_ne_none {a b : Mask} (hne : a ≠ b) : a.or b ≠ .none := by
  obtain ⟨ar, aw⟩ := a
  obtain ⟨br, bw⟩ := b
  revert hne
  cases ar <;> cases aw <;> cases br <;> cases bw <;> decide

end Mask

namespace FileTable

variable {κ : Type} {t u : FileTable κ Epoll}

/-- Epoll watches what the masks say, edge-triggered, and every operation was valid. -/
structure Mirrored (t : FileTable κ Epoll) : Prop where
  watched : ∀ fd, t.driver.watched fd = (t.entry fd).mask.toEpoll
  valid : t.driver.valid = true

/-- The condition on a step: a deletion leaves nothing of the mask, unless there was nothing. -/
def deletesAll (t : FileTable κ Epoll) : FileAction κ Unit → Prop
  | .delete _ fd mask => (t.entry fd).mask.without mask = .none
  | _ => True

instance (t : FileTable κ Epoll) (a : FileAction κ Unit) : Decidable (t.deletesAll a) :=
  match a with
  | .create .. => .isTrue trivial
  | .delete _ fd mask => inferInstanceAs (Decidable ((t.entry fd).mask.without mask = .none))
  | .wait _ => .isTrue trivial

/-! ## What every run keeps -/

/-- Epoll watches what the masks say, and every operation was valid; nothing is said about
`EPOLLET`. -/
structure Watches (t : FileTable κ Epoll) : Prop where
  sized : t.Sized
  watched : ∀ fd, ∃ et, t.driver.watched fd = (t.entry fd).mask.watchedAs et
  valid : t.driver.valid = true

theorem Fresh.watches (hfresh : t.Fresh Epoll.Fresh) : t.Watches where
  sized := hfresh.sized
  watched fd := by
    refine ⟨true, ?_⟩
    rw [hfresh.driver.1, hfresh.entry]
    rfl
  valid := hfresh.driver.2

/-- The driver is not concerned when the table grows. -/
theorem Grown.epoll {fd : ℕ} {ok : Bool} (hgrown : Grown epollDriver () fd t ok u) :
    ok = true ∧ u.driver = t.driver := by
  cases hgrown with
  | enough => exact ⟨rfl, rfl⟩
  | grown => exact ⟨rfl, rfl⟩
  | refused newSize hle hloop hresize => exact absurd hresize Bool.noConfusion

/-- What `epoll_ctl` watches afterwards. -/
theorem epollCtl_watched (op : EpollOp) (fd : ℕ) (ee : EpollEvents) (k : Epoll) (f : ℕ) :
    (k.epollCtl op fd ee).watched f =
      if f = fd then if op = .del then none else some ee else k.watched f := by
  show Function.update k.watched fd _ f = _
  by_cases hf : f = fd
  · rw [hf, Function.update_self, if_pos rfl]
  · rw [Function.update_of_ne hf, if_neg hf]

/-- `add_event` adds what is not watched and modifies what is. -/
theorem Watches.addEvent (h : t.Watches) (fd : ℕ) {mask : Mask}
    (hne : (t.entry fd).mask ≠ mask) :
    (t.driver.addEvent fd (t.entry fd).mask mask).valid = true ∧
      ∀ f, (t.driver.addEvent fd (t.entry fd).mask mask).watched f =
        if f = fd then ((t.entry fd).mask.or mask).toEpoll else t.driver.watched f := by
  obtain ⟨et, hwatched⟩ := h.watched fd
  have hsome := (t.entry fd).mask.isSome_watchedAs et
  unfold Epoll.addEvent
  constructor
  · unfold Epoll.epollCtl Epoll.accepts
    by_cases hmask : (t.entry fd).mask = .none
    · rw [hmask] at hwatched
      simp [h.valid, hmask, hwatched, Mask.watchedAs]
    · simp [h.valid, hmask, hwatched, hsome]
  · intro f
    have hop : (if (t.entry fd).mask = .none then EpollOp.add else EpollOp.mod) ≠ .del := by
      split <;> decide
    dsimp only
    rw [epollCtl_watched, if_neg hop, Mask.or_comm mask, Mask.toEpoll,
      Mask.watchedAs_of_ne (Mask.or_ne_none hne)]

/-- `del_event` modifies or deletes what is watched, and drops `EPOLLET`. -/
theorem Watches.delEvent (h : t.Watches) (fd : ℕ) (mask : Mask)
    (hmask : (t.entry fd).mask ≠ .none) :
    (t.driver.delEvent fd (t.entry fd).mask mask).valid = true ∧
      ∀ f, (t.driver.delEvent fd (t.entry fd).mask mask).watched f =
        if f = fd then ((t.entry fd).mask.without mask).watchedAs false
        else t.driver.watched f := by
  obtain ⟨et, hwatched⟩ := h.watched fd
  have hsome : (t.driver.watched fd).isSome = true := by
    rw [hwatched, Mask.isSome_watchedAs, decide_eq_true hmask]
  unfold Epoll.delEvent
  dsimp only
  by_cases hleft : (t.entry fd).mask.without mask = .none
  · rw [if_neg (not_not_intro hleft)]
    refine ⟨?_, fun f => ?_⟩
    · simp [Epoll.epollCtl, Epoll.accepts, h.valid, hsome]
    · rw [epollCtl_watched, Mask.watchedAs, if_pos hleft]
      rfl
  · rw [if_pos hleft]
    refine ⟨?_, fun f => ?_⟩
    · simp [Epoll.epollCtl, Epoll.accepts, h.valid, hsome]
    · rw [epollCtl_watched, Mask.watchedAs_of_ne hleft]
      rfl

/-- A call of `create_file_event` writes at most the flags of its descriptor, all of them. -/
theorem Watches.create (h : t.Watches) {fd : ℕ} {mask : Mask} {ctxt : κ} {r : ℤ}
    (hcreated : Created epollDriver () () fd mask ctxt t r u) :
    u.Watches ∧ ∀ f, u.driver.watched f = t.driver.watched f ∨
      u.driver.watched f = (u.entry f).mask.toEpoll := by
  have hsized := hcreated.sized h.sized
  cases hcreated with
  | refused u hgrown => exact absurd hgrown.epoll.1 Bool.noConfusion
  | same u hgrown =>
      obtain ⟨-, hdriver⟩ := hgrown.epoll
      refine ⟨⟨hsized, fun f => ?_, ?_⟩, fun f => .inl ?_⟩
      · rw [hdriver, hgrown.entry h.sized]
        exact h.watched f
      · rw [hdriver]
        exact h.valid
      · rw [hdriver]
  | added u hgrown hlt hmask =>
      obtain ⟨-, hdriver⟩ := hgrown.epoll
      obtain ⟨hvalid, hwatched⟩ := h.addEvent fd hmask
      have hafter (f : ℕ) : (u.driver.addEvent fd (t.entry fd).mask mask).watched f =
          if f = fd then ((t.entry fd).register mask ctxt).mask.toEpoll
          else t.driver.watched f := by
        rw [hdriver, hwatched]
        rfl
      refine ⟨⟨hsized, fun f => ?_, ?_⟩, fun f => ?_⟩
      · show ∃ et, (u.driver.addEvent fd (t.entry fd).mask mask).watched f = _
        rw [hafter, entry_set (hgrown.sized h.sized) hlt]
        by_cases hf : f = fd
        · rw [if_pos hf, hf, Function.update_self]
          exact ⟨true, rfl⟩
        · rw [if_neg hf, Function.update_of_ne hf, hgrown.entry h.sized]
          exact h.watched f
      · show (u.driver.addEvent fd (t.entry fd).mask mask).valid = true
        rw [hdriver]
        exact hvalid
      · show (u.driver.addEvent fd (t.entry fd).mask mask).watched f = _ ∨
          (u.driver.addEvent fd (t.entry fd).mask mask).watched f = _
        rw [hafter, entry_set (hgrown.sized h.sized) hlt]
        by_cases hf : f = fd
        · rw [if_pos hf, hf, Function.update_self]
          exact .inr rfl
        · rw [if_neg hf]
          exact .inl rfl

/-- A call of `delete_file_event` writes the flags of its descriptor, without `EPOLLET`. -/
theorem Watches.delete (h : t.Watches) {fd : ℕ} {mask : Mask}
    (hdeleted : Deleted epollDriver () fd mask t u) :
    u.Watches ∧ ((t.entry fd).mask = .none ∧ u = t ∨ ∀ f, u.driver.watched f =
      if f = fd then ((t.entry fd).mask.without mask).watchedAs false
      else t.driver.watched f) := by
  have hsized := hdeleted.sized h.sized
  cases hdeleted with
  | nothing hnone => exact ⟨h, .inl ⟨hnone, rfl⟩⟩
  | removed hlt hmask =>
      obtain ⟨hvalid, hwatched⟩ := h.delEvent fd mask hmask
      refine ⟨⟨hsized, fun f => ?_, hvalid⟩, .inr hwatched⟩
      rw [entry_set h.sized hlt]
      show ∃ et, (t.driver.delEvent fd (t.entry fd).mask mask).watched f = _
      rw [hwatched]
      by_cases hf : f = fd
      · rw [if_pos hf, hf, Function.update_self]
        exact ⟨false, rfl⟩
      · rw [if_neg hf, Function.update_of_ne hf]
        exact h.watched f

/-- The step lemma. -/
theorem Watches.step (h : t.Watches) {a : FileAction κ Unit}
    (hstep : (fileMachine κ epollDriver Epoll.Fresh).step t a = some u) : u.Watches := by
  cases a with
  | create e e' fd mask ctxt =>
      obtain ⟨⟨r, v⟩, hcreate, rfl⟩ := Option.map_eq_some_iff.mp hstep
      exact (h.create (createFileEvent_cases h.sized hcreate)).1
  | delete e fd mask => exact (h.delete (deleteFileEvent_cases h.sized hstep)).1
  | wait e =>
      obtain rfl := Option.some.inj hstep
      exact ⟨⟨h.sized.nevent_pos, h.sized.length_eq⟩, h.watched, h.valid⟩

/-- **Every operation is valid, and epoll watches what the masks say**, in all runs. -/
theorem watches_of_reached (hreached : (fileMachine κ epollDriver Epoll.Fresh).Reached t) :
    t.Watches := by
  refine hreached.invariant Watches (fun _ => Fresh.watches) ?_
  intro t a u h _ hstep
  exact h.step hstep

/-! ## Edge-triggered -/

/-- What is watched for a mask that has to be watched otherwise is the same with `EPOLLET`. -/
theorem Watches.mirrored_iff (h : t.Watches) :
    t.Mirrored ↔ ∀ fd ee, t.driver.watched fd = some ee → ee.et = true := by
  constructor
  · intro hmirrored fd ee hee
    rw [hmirrored.watched, Mask.toEpoll, Mask.watchedAs] at hee
    split at hee
    · cases hee
    · obtain rfl := Option.some.inj hee
      rfl
  · intro hedge
    refine ⟨fun fd => ?_, h.valid⟩
    obtain ⟨et, hwatched⟩ := h.watched fd
    rw [hwatched, Mask.toEpoll]
    by_cases hmask : (t.entry fd).mask = .none
    · rw [Mask.watchedAs, Mask.watchedAs, if_pos hmask, if_pos hmask]
    · rw [Mask.watchedAs_of_ne hmask] at hwatched
      have het : et = true := hedge fd _ hwatched
      rw [het]

/-- **A step keeps the mirror if and only if it deletes all or nothing.** -/
theorem Watches.mirrored_step_iff (h : t.Watches) (hmirrored : t.Mirrored) {a : FileAction κ Unit}
    (hstep : (fileMachine κ epollDriver Epoll.Fresh).step t a = some u) :
    u.Mirrored ↔ t.deletesAll a := by
  have hu := h.step hstep
  have hedge := h.mirrored_iff.mp hmirrored
  rw [hu.mirrored_iff]
  cases a with
  | create e e' fd mask ctxt =>
      obtain ⟨⟨r, v⟩, hcreate, rfl⟩ := Option.map_eq_some_iff.mp hstep
      refine iff_of_true ?_ trivial
      intro f ee hee
      rcases (h.create (createFileEvent_cases h.sized hcreate)).2 f with hold | hnew
      · exact hedge f ee (hold ▸ hee)
      · have hnew' : v.driver.watched f = (v.entry f).mask.toEpoll := hnew
        have hee' : v.driver.watched f = some ee := hee
        rw [hnew', Mask.toEpoll, Mask.watchedAs] at hee'
        split at hee'
        · cases hee'
        · obtain rfl := Option.some.inj hee'
          rfl
  | delete e fd mask =>
      show _ ↔ (t.entry fd).mask.without mask = .none
      rcases (h.delete (deleteFileEvent_cases h.sized hstep)).2 with ⟨hnone, rfl⟩ | hwatched
      · refine iff_of_true hedge ?_
        rw [hnone]
        rfl
      · constructor
        · intro hedge'
          by_contra hleft
          have hfd := hwatched fd
          rw [if_pos rfl, Mask.watchedAs_of_ne hleft] at hfd
          exact Bool.false_ne_true (hedge' fd _ hfd)
        · intro hleft f ee hee
          rw [hwatched, Mask.watchedAs, if_pos hleft] at hee
          split at hee
          · cases hee
          · exact hedge f ee hee
  | wait e =>
      obtain rfl := Option.some.inj hstep
      exact iff_of_true hedge trivial

/-- **Epoll mirrors the masks and stays edge-triggered**, in runs whose deletions leave nothing of
the mask that they change; and the first one that does takes `EPOLLET` away. -/
theorem mirrored_of_deletesAll
    (hreached : (fileMachine κ epollDriver Epoll.Fresh).ReachedUnder deletesAll t) :
    t.Mirrored ∧ ∀ a u, (fileMachine κ epollDriver Epoll.Fresh).step t a = some u →
      (u.Mirrored ↔ t.deletesAll a) := by
  have hkept : t.Watches ∧ t.Mirrored := by
    refine hreached.invariant (fun t => t.Watches ∧ t.Mirrored) ?_ ?_
    · intro t hfresh
      refine ⟨hfresh.watches, fun fd => ?_, hfresh.driver.2⟩
      rw [hfresh.driver.1, hfresh.entry]
      rfl
    · intro t a u h hok hstep
      exact ⟨h.1.step hstep, (h.1.mirrored_step_iff h.2 hstep).mpr hok⟩
  exact ⟨hkept.2, fun a u hstep => hkept.1.mirrored_step_iff hkept.2 hstep⟩

/-- A center for two descriptors with an epoll that watches nothing. -/
def unwatched : FileTable Callback Epoll := ⟨2, [.empty, .empty], ⟨fun _ => none, true⟩⟩

theorem fresh_unwatched : unwatched.Fresh Epoll.Fresh := ⟨by decide, rfl, rfl, rfl⟩

/-- A descriptor is registered in two steps and deleted, and another one, beyond the table, stays. -/
theorem mirrored_of_deletesAll_both :
    ∃ t : FileTable Callback Epoll, t.driver.watched 1 = none ∧
      t.driver.watched 2 = some ⟨true, true, true⟩ ∧ t.Mirrored := by
  obtain ⟨t, hreplay, hone, htwo⟩ : ∃ t,
      (fileMachine Callback epollDriver Epoll.Fresh).replay deletesAll unwatched
        [.create () () 1 .read .readHandler, .create () () 2 .read .readHandler,
          .create () () 2 .write .writeHandler, .delete () 1 .both] = some t ∧
        t.driver.watched 1 = none ∧ t.driver.watched 2 = some ⟨true, true, true⟩ :=
    ⟨_, rfl, rfl, rfl⟩
  exact ⟨t, hone, htwo,
    (mirrored_of_deletesAll (.of_replay (.start fresh_unwatched) hreplay)).1⟩

/-- A descriptor that is deleted for writing alone is watched level-triggered. -/
theorem not_mirrored_partial :
    ∃ t : FileTable Callback Epoll,
      (fileMachine Callback epollDriver Epoll.Fresh).Reached t ∧ (t.entry 1).mask = .read ∧
        t.driver.watched 1 = some ⟨false, true, false⟩ ∧ ¬ t.Mirrored := by
  obtain ⟨t, hreplay, hmask, hone⟩ : ∃ t,
      (fileMachine Callback epollDriver Epoll.Fresh).replay (fun _ _ => True) unwatched
        [.create () () 1 .both .readHandler, .delete () 1 .write] = some t ∧
        (t.entry 1).mask = .read ∧ t.driver.watched 1 = some ⟨false, true, false⟩ :=
    ⟨_, rfl, rfl, rfl⟩
  refine ⟨t, .of_replay (.start fresh_unwatched) hreplay, hmask, hone, ?_⟩
  intro hmirrored
  have hwatched := hmirrored.watched 1
  rw [hone, hmask] at hwatched
  exact absurd hwatched (by decide)

end FileTable

end HwAsync.Event
