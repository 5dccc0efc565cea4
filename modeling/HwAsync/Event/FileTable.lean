/-
# The table of file events

An `EventCenter` keeps an entry for each descriptor below `nevent`, and has a driver that tells the
system what to watch.  `create_file_event` makes room for its descriptor first: it shifts the size
of the table until the descriptor fits, tells the driver, and goes on to the entry, which it
finds behind an assertion.

The driver is a parameter.  A descriptor is not negative, and the sizes are plain numbers: as long
as four times the descriptor and four times the table are below 2^31, an `int` holds them.
-/

import HwAsync.Lib.Run
import HwAsync.Event.Center
import Mathlib.Algebra.Order.Ring.Nat
import Mathlib.Data.List.GetD

namespace HwAsync.Event

open HwAsync.Lib

def erange : ℕ := 34

/-! ## Directions -/

/-- The two directions of a descriptor. -/
inductive Direction
  | reading
  | writing
  deriving DecidableEq, Repr

instance Direction.decidableForall (P : Direction → Prop) [∀ d, Decidable (P d)] :
    Decidable (∀ d, P d) :=
  decidable_of_iff (P .reading ∧ P .writing)
    ⟨fun h d => Direction.casesOn d h.1 h.2, fun h => ⟨h .reading, h .writing⟩⟩

/-- The bit of a direction. -/
def Mask.has (m : Mask) : Direction → Bool
  | .reading => m.readable
  | .writing => m.writable

/-- `a & b`. -/
def Mask.and (a b : Mask) : Mask := ⟨a.readable && b.readable, a.writable && b.writable⟩

theorem Mask.has_or (a b : Mask) (d : Direction) : (a.or b).has d = (a.has d || b.has d) := by
  cases d <;> rfl

theorem Mask.has_without (a b : Mask) (d : Direction) :
    (a.without b).has d = (a.has d && !b.has d) := by
  cases d <;> rfl

theorem Mask.has_and (a b : Mask) (d : Direction) : (a.and b).has d = (a.has d && b.has d) := by
  cases d <;> rfl

theorem Mask.has_none (d : Direction) : Mask.none.has d = false := by
  cases d <;> rfl

/-- A mask with neither bit is empty. -/
theorem Mask.eq_none_iff {mask : Mask} : mask = .none ↔ ∀ d, mask.has d = false := by
  constructor
  · rintro rfl d
    exact Mask.has_none d
  · intro h
    obtain ⟨readable, writable⟩ := mask
    have hread : readable = false := h .reading
    have hwrite : writable = false := h .writing
    rw [hread, hwrite]
    rfl

/-! ## Entries -/

/-- `FileEvent`, for callbacks of any kind. -/
structure FileEntry (κ : Type) where
  mask : Mask
  readCb : Option κ
  writeCb : Option κ
  deriving DecidableEq

namespace FileEntry

variable {κ : Type}

/-- `FileEvent()`. -/
def empty : FileEntry κ := ⟨.none, none, none⟩

/-- The callback that an entry has for a direction. -/
def cb (event : FileEntry κ) : Direction → Option κ
  | .reading => event.readCb
  | .writing => event.writeCb

/-- What `create_file_event` writes once the driver has added the event. -/
def register (mask : Mask) (ctxt : κ) (event : FileEntry κ) : FileEntry κ where
  mask := event.mask.or mask
  readCb := if mask.readable then some ctxt else event.readCb
  writeCb := if mask.writable then some ctxt else event.writeCb

/-- What `delete_file_event` writes once the driver has deleted it. -/
def unregister (mask : Mask) (event : FileEntry κ) : FileEntry κ where
  mask := event.mask.without mask
  readCb := if mask.readable then none else event.readCb
  writeCb := if mask.writable then none else event.writeCb

/-- The entry of the centers that a connection is on. -/
def toFileEvent (event : FileEntry Callback) : FileEvent :=
  ⟨event.mask, event.readCb, event.writeCb⟩

end FileEntry

/-! ## Drivers -/

/-- `EventDriver`.  What a call does depends on what the system answers meanwhile, an `ε`, and
`false` stands for a negative result. -/
structure Driver (δ ε : Type) where
  addEvent : ε → ℕ → Mask → Mask → δ → Bool × δ
  delEvent : ε → ℕ → Mask → Mask → δ → Bool × δ
  resizeEvents : ε → ℕ → δ → Bool × δ
  eventWait : ε → δ → Bool × δ

/-- `nevent`, `file_events` and the state of the driver. -/
structure FileTable (κ δ : Type) where
  nevent : ℕ
  fileEvents : List (FileEntry κ)
  driver : δ

/-! ## The operations -/

/-- `while (fd > new_size) new_size <<= 2`, in at most so many rounds. -/
def growLoop : ℕ → ℕ → ℕ → Option ℕ
  | 0, _, _ => none
  | rounds + 1, fd, newSize =>
      if newSize < fd then growLoop rounds fd (newSize <<< 2) else some newSize

namespace FileTable

variable {κ δ ε : Type}

/-- `vector::resize`. -/
def resize (n : ℕ) (events : List (FileEntry κ)) : List (FileEntry κ) :=
  events.take n ++ List.replicate (n - events.length) .empty

/-- The beginning of `create_file_event`: whether the driver follows. -/
def grow (D : Driver δ ε) (e : ε) (fd : ℕ) (t : FileTable κ δ) :
    Option (Bool × FileTable κ δ) :=
  if t.nevent ≤ fd then
    match growLoop (fd + 1) fd (t.nevent <<< 2) with
    | none => none
    | some newSize =>
        let r := D.resizeEvents e newSize t.driver
        if r.1 then some (true, ⟨newSize, resize newSize t.fileEvents, r.2⟩)
        else some (false, { t with driver := r.2 })
  else some (true, t)

/-- `_get_file_event`, with its assertion. -/
def getFileEvent (fd : ℕ) (t : FileTable κ δ) : Option (FileEntry κ) :=
  if fd < t.nevent then t.fileEvents[fd]? else none

/-- `create_file_event`: what it returns, and the table; `none` where an assertion fails. -/
def createFileEvent (D : Driver δ ε) (e e' : ε) (fd : ℕ) (mask : Mask) (ctxt : κ)
    (t : FileTable κ δ) : Option (ℤ × FileTable κ δ) :=
  match t.grow D e fd with
  | none => none
  | some (false, u) => some (-erange, u)
  | some (true, u) =>
      match u.getFileEvent fd with
      | none => none
      | some event =>
          if event.mask = mask then some (0, u)
          else
            let r := D.addEvent e' fd event.mask mask u.driver
            if r.1 then
              some (0, { u with
                fileEvents := u.fileEvents.set fd (event.register mask ctxt)
                driver := r.2 })
            else none

/-- `delete_file_event`. -/
def deleteFileEvent (D : Driver δ ε) (e : ε) (fd : ℕ) (mask : Mask) (t : FileTable κ δ) :
    Option (FileTable κ δ) :=
  if t.nevent ≤ fd then some t
  else
    match t.getFileEvent fd with
    | none => none
    | some event =>
        if event.mask = .none then some t
        else
          let r := D.delEvent e fd event.mask mask t.driver
          if r.1 then
            some { t with
              fileEvents := t.fileEvents.set fd (event.unregister mask)
              driver := r.2 }
          else none

/-- After `EventCenter::init`, with a driver that `init` leaves so. -/
structure Fresh (init : ℕ → δ → Prop) (t : FileTable κ δ) : Prop where
  nevent_pos : 0 < t.nevent
  fileEvents : t.fileEvents = List.replicate t.nevent .empty
  driver : init t.nevent t.driver

end FileTable

/-- The calls of the owner of a center, with what the system answers during each call of the
driver. -/
inductive FileAction (κ ε : Type)
  | create (e e' : ε) (fd : ℕ) (mask : Mask) (ctxt : κ)
  | delete (e : ε) (fd : ℕ) (mask : Mask)
  | wait (e : ε)

/-- The table, under any calls. -/
def fileMachine {δ ε : Type} (κ : Type) (D : Driver δ ε) (init : ℕ → δ → Prop) :
    Machine (FileTable κ δ) (FileAction κ ε) where
  start := FileTable.Fresh init
  step t
    | .create e e' fd mask ctxt => (t.createFileEvent D e e' fd mask ctxt).map Prod.snd
    | .delete e fd mask => t.deleteFileEvent D e fd mask
    | .wait e => some { t with driver := (D.eventWait e t.driver).2 }

/-! ## The growth loop -/

theorem shiftLeft_two (n : ℕ) : n <<< 2 = n * 4 := by
  rw [Nat.shiftLeft_eq]

/-- Where the loop stops: at the first size that is not below the descriptor. -/
theorem growLoop_eq_some {rounds fd newSize r : ℕ} (hloop : growLoop rounds fd newSize = some r) :
    ∃ k, r = newSize * 4 ^ k ∧ fd ≤ r ∧ ∀ j < k, newSize * 4 ^ j < fd := by
  induction rounds generalizing newSize with
  | zero => cases hloop
  | succ rounds ih =>
      rw [growLoop] at hloop
      split at hloop
      · rename_i hlt
        rw [shiftLeft_two] at hloop
        obtain ⟨k, rfl, hle, hbelow⟩ := ih hloop
        refine ⟨k + 1, by rw [pow_succ', mul_assoc], hle, fun j hj => ?_⟩
        cases j with
        | zero => rwa [pow_zero, mul_one]
        | succ j =>
            have hj' := hbelow j (Nat.lt_of_succ_lt_succ hj)
            rwa [mul_assoc, ← pow_succ'] at hj'
      · rename_i hle
        obtain rfl := Option.some.inj hloop
        exact ⟨0, by rw [pow_zero, mul_one], Nat.not_lt.mp hle, fun j hj => absurd hj (by simp)⟩

/-- **The loop terminates**: a positive size grows in every round. -/
theorem growLoop_isSome {rounds fd newSize : ℕ} (hpos : 0 < newSize)
    (hrounds : fd ≤ rounds + newSize) : (growLoop (rounds + 1) fd newSize).isSome := by
  induction rounds generalizing newSize with
  | zero =>
      rw [growLoop, if_neg (by omega)]
      rfl
  | succ rounds ih =>
      rw [growLoop]
      split
      · rw [shiftLeft_two]
        exact ih (by omega) (by omega)
      · rfl

/-- The size is the descriptor only for the sizes that the loop can see. -/
theorem growLoop_eq_fd_iff {rounds fd newSize r : ℕ}
    (hloop : growLoop rounds fd newSize = some r) : r = fd ↔ ∃ k, fd = newSize * 4 ^ k := by
  obtain ⟨k, rfl, hle, hbelow⟩ := growLoop_eq_some hloop
  constructor
  · exact fun h => ⟨k, h.symm⟩
  · rintro ⟨j, rfl⟩
    have hkj : k ≤ j := by
      by_contra hjk
      exact lt_irrefl _ (hbelow j (Nat.not_le.mp hjk))
    have hpow : (4 : ℕ) ^ k ≤ 4 ^ j := Nat.pow_le_pow_right (by decide) hkj
    exact Nat.le_antisymm (Nat.mul_le_mul_left newSize hpow) hle

/-- The size is at most four times what it has to be. -/
theorem growLoop_le {rounds fd nevent r : ℕ} (hle : nevent ≤ fd)
    (hloop : growLoop rounds fd (nevent <<< 2) = some r) : r ≤ 4 * fd := by
  rw [shiftLeft_two] at hloop
  obtain ⟨k, rfl, -, hbelow⟩ := growLoop_eq_some hloop
  cases k with
  | zero =>
      rw [pow_zero, mul_one]
      omega
  | succ k =>
      have hlt := hbelow k (Nat.lt_succ_self k)
      rw [pow_succ, ← mul_assoc]
      omega

namespace FileTable

variable {κ δ ε : Type} {D : Driver δ ε} {t u : FileTable κ δ}

/-! ## What the operations do -/

/-- The entry of a descriptor, which is empty beyond the table. -/
def entry (t : FileTable κ δ) (fd : ℕ) : FileEntry κ := t.fileEvents.getD fd .empty

/-- What holds of every center: the table has as many entries as `nevent` says, one at least. -/
structure Sized (t : FileTable κ δ) : Prop where
  nevent_pos : 0 < t.nevent
  length_eq : t.fileEvents.length = t.nevent

theorem Sized.getFileEvent (h : t.Sized) (fd : ℕ) :
    t.getFileEvent fd = if fd < t.nevent then some (t.entry fd) else none := by
  unfold FileTable.getFileEvent entry
  split
  · rename_i hlt
    rw [List.getD_eq_getElem?_getD]
    rw [← h.length_eq] at hlt
    rw [List.getElem?_eq_getElem hlt, Option.getD_some]
  · rfl

/-- Beyond the table nothing is registered. -/
theorem Sized.entry_of_le (h : t.Sized) {fd : ℕ} (hle : t.nevent ≤ fd) : t.entry fd = .empty := by
  unfold entry
  rw [List.getD_eq_default _ _ (by rw [h.length_eq]; exact hle)]

theorem length_resize {n : ℕ} {events : List (FileEntry κ)} (hle : events.length ≤ n) :
    (resize n events).length = n := by
  unfold resize
  rw [List.length_append, List.length_take, List.length_replicate]
  omega

theorem getD_replicate_empty (n fd : ℕ) :
    (List.replicate n (FileEntry.empty : FileEntry κ)).getD fd .empty = .empty := by
  by_cases hfd : fd < n
  · exact List.getD_replicate _ hfd
  · rw [List.getD_eq_default _ _ (by rw [List.length_replicate]; exact Nat.not_lt.mp hfd)]

theorem getD_resize {n fd : ℕ} {events : List (FileEntry κ)} (hle : events.length ≤ n) :
    (resize n events).getD fd .empty = events.getD fd .empty := by
  unfold resize
  rw [List.take_of_length_le hle]
  by_cases hfd : fd < events.length
  · rw [List.getD_append _ _ _ _ hfd]
  · rw [List.getD_append_right _ _ _ _ (Nat.not_lt.mp hfd),
      List.getD_eq_default events _ (Nat.not_lt.mp hfd), getD_replicate_empty]

/-- What the beginning of `create_file_event` can do. -/
inductive Grown (D : Driver δ ε) (e : ε) (fd : ℕ) (t : FileTable κ δ) : Bool → FileTable κ δ → Prop
  | enough (hlt : fd < t.nevent) : Grown D e fd t true t
  | grown (newSize : ℕ) (hle : t.nevent ≤ fd)
      (hloop : growLoop (fd + 1) fd (t.nevent <<< 2) = some newSize)
      (hresize : (D.resizeEvents e newSize t.driver).1 = true) :
      Grown D e fd t true
        ⟨newSize, resize newSize t.fileEvents, (D.resizeEvents e newSize t.driver).2⟩
  | refused (newSize : ℕ) (hle : t.nevent ≤ fd)
      (hloop : growLoop (fd + 1) fd (t.nevent <<< 2) = some newSize)
      (hresize : (D.resizeEvents e newSize t.driver).1 = false) :
      Grown D e fd t false { t with driver := (D.resizeEvents e newSize t.driver).2 }

theorem grow_cases {e : ε} {fd : ℕ} {ok : Bool} (hgrow : t.grow D e fd = some (ok, u)) :
    Grown D e fd t ok u := by
  unfold grow at hgrow
  split at hgrow
  · rename_i hle
    split at hgrow
    · cases hgrow
    · rename_i newSize hloop
      dsimp only at hgrow
      split at hgrow
      · rename_i hresize
        cases hgrow
        exact .grown newSize hle hloop hresize
      · rename_i hresize
        cases hgrow
        exact .refused newSize hle hloop (Bool.not_eq_true _ ▸ hresize)
  · rename_i hlt
    cases hgrow
    exact .enough (Nat.not_le.mp hlt)

/-- Growing keeps every registration. -/
theorem Grown.entry {e : ε} {fd : ℕ} {ok : Bool} (h : t.Sized) (hgrown : Grown D e fd t ok u)
    (f : ℕ) : u.entry f = t.entry f := by
  cases hgrown with
  | enough => rfl
  | refused => rfl
  | grown newSize hle hloop =>
      obtain ⟨k, hsize, hfd, -⟩ := growLoop_eq_some hloop
      have hlength := h.length_eq
      exact getD_resize (by omega)

/-- A table that grows is bigger afterwards. -/
theorem Sized.lt_growLoop {fd newSize : ℕ} (h : t.Sized)
    (hloop : growLoop (fd + 1) fd (t.nevent <<< 2) = some newSize) : t.nevent < newSize := by
  obtain ⟨k, rfl, -⟩ := growLoop_eq_some hloop
  have hpos := h.nevent_pos
  have hpow : 1 ≤ 4 ^ k := Nat.one_le_pow _ _ (by decide)
  rw [shiftLeft_two]
  have hle := Nat.le_mul_of_pos_right (t.nevent * 4) hpow
  omega

theorem Grown.sized {e : ε} {fd : ℕ} {ok : Bool} (h : t.Sized) (hgrown : Grown D e fd t ok u) :
    u.Sized := by
  cases hgrown with
  | enough => exact h
  | refused => exact ⟨h.nevent_pos, h.length_eq⟩
  | grown newSize hle hloop =>
      have hlt := h.lt_growLoop hloop
      have hlength := h.length_eq
      exact ⟨by dsimp only; omega, length_resize (by omega)⟩

/-- What `create_file_event` can do. -/
inductive Created (D : Driver δ ε) (e e' : ε) (fd : ℕ) (mask : Mask) (ctxt : κ)
    (t : FileTable κ δ) : ℤ → FileTable κ δ → Prop
  | refused (u : FileTable κ δ) (hgrown : Grown D e fd t false u) :
      Created D e e' fd mask ctxt t (-erange) u
  | same (u : FileTable κ δ) (hgrown : Grown D e fd t true u) (hlt : fd < u.nevent)
      (hmask : (t.entry fd).mask = mask) : Created D e e' fd mask ctxt t 0 u
  | added (u : FileTable κ δ) (hgrown : Grown D e fd t true u) (hlt : fd < u.nevent)
      (hmask : (t.entry fd).mask ≠ mask)
      (hadd : (D.addEvent e' fd (t.entry fd).mask mask u.driver).1 = true) :
      Created D e e' fd mask ctxt t 0 { u with
        fileEvents := u.fileEvents.set fd ((t.entry fd).register mask ctxt)
        driver := (D.addEvent e' fd (t.entry fd).mask mask u.driver).2 }

theorem createFileEvent_cases (h : t.Sized) {e e' : ε} {fd : ℕ} {mask : Mask} {ctxt : κ} {r : ℤ}
    {v : FileTable κ δ} (hcreate : t.createFileEvent D e e' fd mask ctxt = some (r, v)) :
    Created D e e' fd mask ctxt t r v := by
  unfold createFileEvent at hcreate
  split at hcreate
  · cases hcreate
  · rename_i u hgrow
    cases hcreate
    exact .refused _ (grow_cases hgrow)
  · rename_i u hgrow
    have hgrown := grow_cases hgrow
    rw [(hgrown.sized h).getFileEvent, hgrown.entry h] at hcreate
    split at hcreate
    · cases hcreate
    · rename_i event hevent
      split at hevent
      · rename_i hlt
        obtain rfl := Option.some.inj hevent
        split at hcreate
        · rename_i hmask
          cases hcreate
          exact .same _ hgrown hlt hmask
        · rename_i hmask
          dsimp only at hcreate
          split at hcreate
          · rename_i hadd
            cases hcreate
            exact .added u hgrown hlt hmask hadd
          · cases hcreate
      · cases hevent

/-- What `delete_file_event` can do. -/
inductive Deleted (D : Driver δ ε) (e : ε) (fd : ℕ) (mask : Mask) (t : FileTable κ δ) :
    FileTable κ δ → Prop
  | nothing (hnone : (t.entry fd).mask = .none) : Deleted D e fd mask t t
  | removed (hlt : fd < t.nevent) (hmask : (t.entry fd).mask ≠ .none)
      (hdel : (D.delEvent e fd (t.entry fd).mask mask t.driver).1 = true) :
      Deleted D e fd mask t { t with
        fileEvents := t.fileEvents.set fd ((t.entry fd).unregister mask)
        driver := (D.delEvent e fd (t.entry fd).mask mask t.driver).2 }

theorem deleteFileEvent_cases (h : t.Sized) {e : ε} {fd : ℕ} {mask : Mask}
    (hdelete : t.deleteFileEvent D e fd mask = some u) : Deleted D e fd mask t u := by
  unfold deleteFileEvent at hdelete
  split at hdelete
  · rename_i hle
    obtain rfl := Option.some.inj hdelete
    exact .nothing (by rw [h.entry_of_le hle]; rfl)
  · rename_i hlt
    rw [h.getFileEvent, if_pos (Nat.not_le.mp hlt)] at hdelete
    dsimp only at hdelete
    split at hdelete
    · rename_i hnone
      obtain rfl := Option.some.inj hdelete
      exact .nothing hnone
    · rename_i hmask
      split at hdelete
      · rename_i hdel
        obtain rfl := Option.some.inj hdelete
        exact .removed (Nat.not_le.mp hlt) hmask hdel
      · cases hdelete

/-- Writing one entry. -/
theorem entry_set (h : t.Sized) {fd : ℕ} (hlt : fd < t.nevent) (event : FileEntry κ) (d : δ)
    (f : ℕ) : entry { t with fileEvents := t.fileEvents.set fd event, driver := d } f =
      Function.update t.entry fd event f := by
  unfold entry
  simp only [List.getD_eq_getElem?_getD]
  by_cases hf : f = fd
  · rw [hf, Function.update_self, List.getElem?_set_self (by rw [h.length_eq]; exact hlt),
      Option.getD_some]
  · rw [Function.update_of_ne hf, List.getElem?_set_ne (Ne.symm hf)]

theorem Sized.set (h : t.Sized) (fd : ℕ) (event : FileEntry κ) (d : δ) :
    Sized { t with fileEvents := t.fileEvents.set fd event, driver := d } where
  nevent_pos := h.nevent_pos
  length_eq := by
    dsimp only
    rw [List.length_set, h.length_eq]

theorem Created.sized (h : t.Sized) {e e' : ε} {fd : ℕ} {mask : Mask} {ctxt : κ} {r : ℤ}
    (hcreated : Created D e e' fd mask ctxt t r u) : u.Sized := by
  cases hcreated with
  | refused u hgrown => exact hgrown.sized h
  | same u hgrown => exact hgrown.sized h
  | added u hgrown => exact (hgrown.sized h).set fd _ _

theorem Deleted.sized (h : t.Sized) {e : ε} {fd : ℕ} {mask : Mask}
    (hdeleted : Deleted D e fd mask t u) : u.Sized := by
  cases hdeleted with
  | nothing => exact h
  | removed => exact h.set fd _ _

/-- After a call that returned zero the entry of the descriptor is that of the call. -/
theorem Created.entry (h : t.Sized) {e e' : ε} {fd : ℕ} {mask : Mask} {ctxt : κ} {r : ℤ}
    (hcreated : Created D e e' fd mask ctxt t r u) (hr : r = 0) :
    u.entry = Function.update t.entry fd
      (if (t.entry fd).mask = mask then t.entry fd else (t.entry fd).register mask ctxt) := by
  cases hcreated with
  | refused => exact absurd hr (by decide)
  | same u hgrown hlt hmask =>
      rw [if_pos hmask, Function.update_eq_self]
      exact funext (hgrown.entry h)
  | added u hgrown hlt hmask =>
      rw [if_neg hmask]
      funext f
      rw [entry_set (hgrown.sized h) hlt, funext (hgrown.entry h)]

/-- After any other the table is as it was. -/
theorem Created.entry_of_ne (h : t.Sized) {e e' : ε} {fd : ℕ} {mask : Mask} {ctxt : κ} {r : ℤ}
    (hcreated : Created D e e' fd mask ctxt t r u) (hr : r ≠ 0) :
    u.entry = t.entry ∧ u.nevent = t.nevent := by
  cases hcreated with
  | refused u hgrown =>
      refine ⟨funext (hgrown.entry h), ?_⟩
      cases hgrown
      rfl
  | same => exact absurd rfl hr
  | added => exact absurd rfl hr

/-- A descriptor inside the table does not make it grow. -/
theorem Created.nevent_of_lt {e e' : ε} {fd : ℕ} {mask : Mask} {ctxt : κ} {r : ℤ}
    (hcreated : Created D e e' fd mask ctxt t r u) (hlt : fd < t.nevent) :
    u.nevent = t.nevent := by
  have hgrown {ok : Bool} {v : FileTable κ δ} (hgrown : Grown D e fd t ok v) :
      v.nevent = t.nevent := by
    cases hgrown with
    | enough => rfl
    | grown newSize hle => exact absurd hlt (Nat.not_lt.mpr hle)
    | refused => rfl
  cases hcreated with
  | refused u h => exact hgrown h
  | same u h => exact hgrown h
  | added u h =>
      have hnevent := hgrown h
      exact hnevent

theorem Deleted.entry (h : t.Sized) {e : ε} {fd : ℕ} {mask : Mask}
    (hdeleted : Deleted D e fd mask t u) :
    u.nevent = t.nevent ∧ u.entry = Function.update t.entry fd
      (if (t.entry fd).mask = .none then t.entry fd else (t.entry fd).unregister mask) := by
  cases hdeleted with
  | nothing hnone =>
      rw [if_pos hnone, Function.update_eq_self]
      exact ⟨rfl, rfl⟩
  | removed hlt hmask =>
      rw [if_neg hmask]
      exact ⟨rfl, funext (entry_set h hlt _ _)⟩

theorem Fresh.sized {init : ℕ → δ → Prop} (hfresh : t.Fresh init) : t.Sized where
  nevent_pos := hfresh.nevent_pos
  length_eq := by rw [hfresh.fileEvents, List.length_replicate]

theorem Fresh.entry {init : ℕ → δ → Prop} (hfresh : t.Fresh init) (fd : ℕ) :
    t.entry fd = .empty := by
  unfold FileTable.entry
  rw [hfresh.fileEvents]
  exact getD_replicate_empty t.nevent fd

theorem sized_of_reached {init : ℕ → δ → Prop} (hreached : (fileMachine κ D init).Reached t) :
    t.Sized := by
  refine hreached.invariant Sized (fun _ => Fresh.sized) ?_
  intro t a u h _ hstep
  cases a with
  | create e e' fd mask ctxt =>
      obtain ⟨⟨r, v⟩, hcreate, rfl⟩ := Option.map_eq_some_iff.mp hstep
      exact (createFileEvent_cases h hcreate).sized h
  | delete e fd mask => exact (deleteFileEvent_cases h hstep).sized h
  | wait e =>
      obtain rfl := Option.some.inj hstep
      exact ⟨h.nevent_pos, h.length_eq⟩

/-! ## The centers that a connection is on -/

/-- The entries as the events of such a center. -/
def toCenter (timers : Timers) (t : FileTable Callback δ) : Center :=
  { timers with fileEvents := fun fd => (t.entry fd).toFileEvent }

theorem toCenter_congr (timers : Timers) {t u : FileTable Callback δ} {fd : ℕ}
    {event : FileEntry Callback} (hentry : u.entry = Function.update t.entry fd event) :
    u.toCenter timers = { t.toCenter timers with
      fileEvents := Function.update (t.toCenter timers).fileEvents fd event.toFileEvent } := by
  have hfiles : (fun f => (u.entry f).toFileEvent) =
      Function.update (fun f => (t.entry f).toFileEvent) fd event.toFileEvent := by
    funext f
    rw [hentry]
    by_cases hf : f = fd
    · rw [hf, Function.update_self, Function.update_self]
    · rw [Function.update_of_ne hf, Function.update_of_ne hf]
  unfold toCenter
  rw [hfiles]

theorem toFileEvent_create (event : FileEntry Callback) (mask : Mask) (ctxt : Callback) :
    (if event.mask = mask then event else event.register mask ctxt).toFileEvent =
      event.toFileEvent.create mask ctxt := by
  have hsame : event.toFileEvent.mask = event.mask := rfl
  unfold FileEvent.create
  by_cases hmask : event.mask = mask
  · rw [if_pos hmask, hsame, if_pos hmask]
  · rw [if_neg hmask, hsame, if_neg hmask]
    rfl

theorem toFileEvent_delete (event : FileEntry Callback) (mask : Mask) :
    (if event.mask = .none then event else event.unregister mask).toFileEvent =
      event.toFileEvent.delete mask := by
  have hsame : event.toFileEvent.mask = event.mask := rfl
  unfold FileEvent.delete
  by_cases hmask : event.mask = .none
  · rw [if_pos hmask, hsame, if_pos hmask]
  · rw [if_neg hmask, hsame, if_neg hmask]
    rfl

/-- A call that returned zero is the `create_file_event` of the center. -/
theorem toCenter_create {t u : FileTable Callback δ} (h : t.Sized) (timers : Timers) {e e' : ε}
    {fd : ℕ} {mask : Mask} {ctxt : Callback}
    (hcreate : t.createFileEvent D e e' fd mask ctxt = some (0, u)) :
    u.toCenter timers = (t.toCenter timers).createFileEvent fd mask ctxt := by
  rw [toCenter_congr timers ((createFileEvent_cases h hcreate).entry h rfl), toFileEvent_create]
  rfl

/-- And a deletion is the `delete_file_event` of the center. -/
theorem toCenter_delete {t u : FileTable Callback δ} (h : t.Sized) (timers : Timers) {e : ε}
    {fd : ℕ} {mask : Mask} (hdelete : t.deleteFileEvent D e fd mask = some u) :
    u.toCenter timers = (t.toCenter timers).deleteFileEvent fd mask := by
  rw [toCenter_congr timers ((deleteFileEvent_cases h hdelete).entry h).2, toFileEvent_delete]
  rfl

/-! ## Room for a descriptor -/

/-- A call of `create_file_event` returns, no assertion fails, the table has room for the
descriptor, and nothing else in it changes. -/
def MakesRoom (D : Driver δ ε) (e e' : ε) (fd : ℕ) (mask : Mask) (ctxt : κ)
    (t : FileTable κ δ) : Prop :=
  ∃ u, t.createFileEvent D e e' fd mask ctxt = some (0, u) ∧ fd < u.nevent ∧
    u.nevent = u.fileEvents.length ∧ u.nevent < 2 ^ 31 ∧ ∀ f, f ≠ fd → u.entry f = t.entry f

/-- The loop leaves room unless it stops at the descriptor itself. -/
theorem lt_growLoop_iff {rounds fd nevent r : ℕ}
    (hloop : growLoop rounds fd (nevent <<< 2) = some r) :
    fd < r ↔ ∀ k, fd ≠ nevent * 4 ^ (k + 1) := by
  rw [shiftLeft_two] at hloop
  have hiff := growLoop_eq_fd_iff hloop
  obtain ⟨-, -, hle, -⟩ := growLoop_eq_some hloop
  constructor
  · rintro hlt k rfl
    refine absurd (hiff.mpr ⟨k, ?_⟩) hlt.ne'
    rw [pow_succ', mul_assoc]
  · intro hne
    refine lt_of_le_of_ne hle fun heq => ?_
    obtain ⟨k, hk⟩ := hiff.mp heq.symm
    refine hne k ?_
    rw [pow_succ', ← mul_assoc]
    exact hk

/-- What a call does once the driver follows: it returns, if the table has room. -/
theorem createFileEvent_of_grow (h : t.Sized) {e e' : ε} {fd : ℕ} {mask : Mask} (ctxt : κ)
    (hgrow : t.grow D e fd = some (true, u))
    (hadd : ∀ cur d, (D.addEvent e' fd cur mask d).1 = true) :
    (fd < u.nevent → ∃ v, t.createFileEvent D e e' fd mask ctxt = some (0, v) ∧
      v.nevent = u.nevent ∧ ∀ f, f ≠ fd → v.entry f = t.entry f) ∧
    (u.nevent ≤ fd → t.createFileEvent D e e' fd mask ctxt = none) := by
  have hgrown := grow_cases hgrow
  have hsized := hgrown.sized h
  have hget := hsized.getFileEvent fd
  unfold createFileEvent
  rw [hgrow]
  dsimp only
  rw [hget]
  constructor
  · intro hlt
    rw [if_pos hlt]
    dsimp only
    split
    · exact ⟨u, rfl, rfl, fun f _ => hgrown.entry h f⟩
    · rw [if_pos (hadd _ _)]
      refine ⟨_, rfl, rfl, fun f hf => ?_⟩
      rw [entry_set hsized hlt, Function.update_of_ne hf, hgrown.entry h]
  · intro hle
    rw [if_neg (Nat.not_lt.mpr hle)]

/-- **Room for every descriptor but some.**  At any time a call of `create_file_event` that the
driver follows makes room for its descriptor if and only if this is not the size of the table times
a power of four: there the loop stops one short. -/
theorem makesRoom_iff_of_reached {init : ℕ → δ → Prop}
    (hreached : (fileMachine κ D init).Reached t) {e e' : ε} {fd : ℕ} {mask : Mask} {ctxt : κ}
    (hbound : 4 * max fd t.nevent < 2 ^ 31)
    (hresize : ∀ newSize, (D.resizeEvents e newSize t.driver).1 = true)
    (hadd : ∀ cur d, (D.addEvent e' fd cur mask d).1 = true) :
    t.MakesRoom D e e' fd mask ctxt ↔ ∀ k, fd ≠ t.nevent * 4 ^ (k + 1) := by
  have h := sized_of_reached hreached
  have hpos := h.nevent_pos
  by_cases hlt : fd < t.nevent
  · have hgrow : t.grow D e fd = some (true, t) := by
      rw [grow, if_neg (Nat.not_le.mpr hlt)]
    obtain ⟨v, hcreate, hnevent, hentry⟩ :=
      (createFileEvent_of_grow h ctxt hgrow hadd).1 hlt
    constructor
    · rintro - k rfl
      have hpow : 1 ≤ 4 ^ (k + 1) := Nat.one_le_pow _ _ (by decide)
      exact absurd hlt (Nat.not_lt.mpr (Nat.le_mul_of_pos_right _ hpow))
    · intro _
      have hsized := (createFileEvent_cases h hcreate).sized h
      refine ⟨v, hcreate, hnevent ▸ hlt, hsized.length_eq.symm, ?_, hentry⟩
      omega
  · have hle := Nat.not_lt.mp hlt
    obtain ⟨newSize, hloop⟩ := Option.isSome_iff_exists.mp
      (@growLoop_isSome fd fd (t.nevent <<< 2) (by rw [shiftLeft_two]; omega)
        (Nat.le_add_right _ _))
    have hgrow : t.grow D e fd = some (true,
        ⟨newSize, resize newSize t.fileEvents, (D.resizeEvents e newSize t.driver).2⟩) := by
      rw [grow, if_pos hle, hloop]
      dsimp only
      rw [if_pos (hresize newSize)]
    obtain ⟨hroom, hshort⟩ := createFileEvent_of_grow h ctxt hgrow hadd
    rw [← lt_growLoop_iff hloop]
    constructor
    · rintro ⟨u, hcreate, -⟩
      by_contra hfull
      rw [hshort (Nat.not_lt.mp hfull)] at hcreate
      cases hcreate
    · intro hfits
      obtain ⟨v, hcreate, hnevent, hentry⟩ := hroom hfits
      have hsized := (createFileEvent_cases h hcreate).sized h
      have hsmall := growLoop_le hle hloop
      have hnew : v.nevent = newSize := hnevent
      refine ⟨v, hcreate, hnew ▸ hfits, hsized.length_eq.symm, ?_, hentry⟩
      rw [hnew]
      have hmax := le_max_left fd t.nevent
      omega

end FileTable

/-- A driver that follows everything and knows nothing. -/
def compliantDriver : Driver Unit Unit where
  addEvent _ _ _ _ d := (true, d)
  delEvent _ _ _ _ d := (true, d)
  resizeEvents _ _ d := (true, d)
  eventWait _ d := (true, d)

namespace FileTable

/-- A center that was initialised for two descriptors. -/
def two : FileTable Callback Unit := ⟨2, [.empty, .empty], ()⟩

theorem fresh_two : two.Fresh fun _ _ => True := ⟨by decide, rfl, trivial⟩

/-- A descriptor far beyond the table. -/
theorem makesRoom_iff_of_reached_nine :
    two.MakesRoom compliantDriver () () 9 .read .readHandler ↔ ∀ k, 9 ≠ two.nevent * 4 ^ (k + 1) :=
  makesRoom_iff_of_reached (.start fresh_two) (by decide) (fun _ => rfl) fun _ _ => rfl

/-- Descriptor 8: the loop leaves room for the descriptors below it, and the assertion fails. -/
theorem not_makesRoom_eight :
    (fileMachine Callback compliantDriver fun _ _ => True).Reached two ∧
      two.grow compliantDriver () 8 = some (true, ⟨8, List.replicate 8 .empty, ()⟩) ∧
      two.createFileEvent compliantDriver () () 8 .read .readHandler = none ∧
      ¬ two.MakesRoom compliantDriver () () 8 .read .readHandler := by
  have hnone : two.createFileEvent compliantDriver () () 8 .read .readHandler = none := rfl
  refine ⟨.start fresh_two, rfl, hnone, ?_⟩
  rintro ⟨u, hcreate, -⟩
  rw [hnone] at hcreate
  cases hcreate

end FileTable

end HwAsync.Event
