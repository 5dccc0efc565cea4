/-
# The kqueue driver

A kqueue belongs to the thread that made it.  `KqueueDriver` saves what it registers in a table of
its own, and when it finds itself in another thread it makes a new kqueue and registers there what
the table says.  The table grows by `realloc`, which leaves what it adds as it is, and by a `memset`
that is to clear it.

The calls of `kqueue`, of `realloc` and of `kevent` for additions succeed.  A deletion fails where
nothing is registered.
-/

import HwAsync.Event.FileTable

namespace HwAsync.Event

open HwAsync.Lib

/-- What a kqueue has for a descriptor and a filter: whether `EV_CLEAR` is set. -/
abbrev Registrations := ℕ → Direction → Option Bool

namespace Registrations

/-- `EV_ADD` for each filter of a mask, with or without `EV_CLEAR`. -/
def evAdd (clear : Bool) (fd : ℕ) (mask : Mask) (q : Registrations) : Registrations :=
  Function.update q fd fun d => if mask.has d then some clear else q fd d

/-- `EV_DELETE` for each filter of a mask; `none` where one is not registered. -/
def evDelete (fd : ℕ) (mask : Mask) (q : Registrations) : Option Registrations :=
  if ∀ d, mask.has d → (q fd d).isSome then
    some (Function.update q fd fun d => if mask.has d then none else q fd d)
  else none

/-- A new kqueue. -/
def empty : Registrations := fun _ _ => none

end Registrations

/-- `KqueueDriver`.  `kqfd` stands for what the kqueue behind it has, `savEvents` for the masks in
the table, whose first `savMax` are allocated.  The registrations before and after each call of
`restore_events` are recorded. -/
structure Kqueue where
  kqfd : Option Registrations
  mythread : ℕ
  size : ℕ
  savMax : ℕ
  savEvents : ℕ → Mask
  restores : List (Registrations × Registrations)

/-- What the system answers during a call: the thread, whether `kqfd` has become invalid, and what
is in the memory that `realloc` adds. -/
structure KqueueEnv where
  thread : ℕ
  lost : Bool
  fresh : ℕ → Mask

namespace Kqueue

/-- What is registered. -/
def registered (k : Kqueue) : Registrations := k.kqfd.getD .empty

/-- The loop of `restore_events` for the descriptors below `n`. -/
def restoreLoop (savEvents : ℕ → Mask) : ℕ → Registrations
  | 0 => .empty
  | n + 1 => (restoreLoop savEvents n).evAdd false n (savEvents n)

/-- `restore_events`, on a new kqueue. -/
def restoreEvents (k : Kqueue) : Registrations := restoreLoop k.savEvents k.size

/-- The call goes on with a new kqueue. -/
def renews (e : KqueueEnv) (k : Kqueue) : Bool :=
  e.thread ≠ k.mythread || e.lost || k.kqfd.isNone

/-- `test_thread_change`. -/
def testThreadChange (e : KqueueEnv) (k : Kqueue) : Kqueue :=
  if k.renews e then
    { k with
      kqfd := some k.restoreEvents
      mythread := e.thread
      restores := k.restores ++ [(k.registered, k.restoreEvents)] }
  else k

/-- `resize_events`: `realloc` and `memset`. -/
def resizeEvents (e : KqueueEnv) (newsize : ℕ) (k : Kqueue) : Kqueue :=
  if k.savMax < newsize then
    { k with
      savMax := newsize
      savEvents := fun i =>
        if k.size ≤ i ∧ i < k.size + (newsize - k.savMax) then .none
        else if i < k.savMax then k.savEvents i
        else e.fresh i }
  else k

/-- `add_event`. -/
def addEvent (e : KqueueEnv) (fd : ℕ) (curMask addMask : Mask) (k : Kqueue) : Kqueue :=
  let k1 := k.testThreadChange e
  let k2 := { k1 with kqfd := some (k1.registered.evAdd true fd addMask) }
  let k3 := if k2.savMax ≤ fd then k2.resizeEvents e (k2.savMax + 5000) else k2
  { k3 with savEvents := Function.update k3.savEvents fd (curMask.or addMask) }

/-- `del_event`. -/
def delEvent (e : KqueueEnv) (fd : ℕ) (curMask delMask : Mask) (k : Kqueue) : Bool × Kqueue :=
  let k1 := k.testThreadChange e
  match k1.registered.evDelete fd (curMask.and delMask) with
  | none => (false, k1)
  | some q =>
      (true, { k1 with
        kqfd := some q
        savEvents := Function.update k1.savEvents fd (curMask.without delMask) })

/-- Whenever a kqueue was replaced the new one got what the old one had, with the flags that
`add_event` uses. -/
def RestoresExactly (k : Kqueue) : Prop :=
  ∀ r ∈ k.restores, ∀ fd d, r.2 fd d = (r.1 fd d).map fun _ => true

/-- After `KqueueDriver::init`. -/
structure Fresh (nevent : ℕ) (k : Kqueue) : Prop where
  kqfd : k.kqfd = none
  size : k.size = nevent
  savMax : k.savMax = nevent
  savEvents : ∀ fd < nevent, k.savEvents fd = .none
  restores : k.restores = []

end Kqueue

/-- `KqueueDriver`. -/
def kqueueDriver : Driver Kqueue KqueueEnv where
  addEvent e fd curMask addMask k := (true, k.addEvent e fd curMask addMask)
  delEvent e fd curMask delMask k := k.delEvent e fd curMask delMask
  resizeEvents e newsize k := (true, k.resizeEvents e newsize)
  eventWait e k := (true, k.testThreadChange e)

namespace FileTable

variable {κ : Type} {t u : FileTable κ Kqueue}

/-- The table of the driver is a copy of the masks, and every new kqueue got what the one before
had. -/
structure Copied (t : FileTable κ Kqueue) : Prop where
  saved : ∀ fd < t.driver.savMax, t.driver.savEvents fd = (t.entry fd).mask
  restored : t.driver.RestoresExactly

/-- A call that goes on with a new kqueue does so while nothing is registered. -/
def renewsNothing (t : FileTable κ Kqueue) (e : KqueueEnv) : Prop :=
  t.driver.renews e = true → ∀ fd < t.nevent, (t.entry fd).mask = .none

/-- The `memset` for a table of `newsize` descriptors hits no mask, and what it leaves out is clear
already, the descriptor apart that is going to be written. -/
def clears (t : FileTable κ Kqueue) (e : KqueueEnv) (fd : ℕ) (mask : Mask) (newsize : ℕ) : Prop :=
  let hit := t.driver.size + (newsize - t.driver.savMax)
  (∀ f < t.driver.savMax, t.driver.size ≤ f → f < hit → (t.entry f).mask = .none) ∧
    ∀ f < newsize, t.driver.savMax ≤ f → hit ≤ f → (f ≠ fd ∨ mask = .none) → e.fresh f = .none

/-- The condition on a step. -/
def copies (t : FileTable κ Kqueue) : FileAction κ KqueueEnv → Prop
  | .create e e' fd mask _ =>
      (t.nevent ≤ fd →
        ∀ newsize ∈ growLoop (fd + 1) fd (t.nevent <<< 2), t.clears e fd mask newsize) ∧
        ((t.entry fd).mask ≠ mask → t.renewsNothing e')
  | .delete e fd _ => (t.entry fd).mask ≠ .none → t.renewsNothing e
  | .wait e => t.renewsNothing e

instance (t : FileTable κ Kqueue) (e : KqueueEnv) : Decidable (t.renewsNothing e) :=
  inferInstanceAs (Decidable (_ → ∀ fd < t.nevent, (t.entry fd).mask = .none))

instance (t : FileTable κ Kqueue) (e : KqueueEnv) (fd : ℕ) (mask : Mask) (newsize : ℕ) :
    Decidable (t.clears e fd mask newsize) :=
  inferInstanceAs (Decidable ((∀ f < t.driver.savMax, _) ∧ ∀ f < newsize, _))

instance (t : FileTable κ Kqueue) (a : FileAction κ KqueueEnv) : Decidable (t.copies a) :=
  match a with
  | .create e e' fd mask _ =>
      inferInstanceAs (Decidable ((t.nevent ≤ fd →
        ∀ newsize ∈ growLoop (fd + 1) fd (t.nevent <<< 2), t.clears e fd mask newsize) ∧
        ((t.entry fd).mask ≠ mask → t.renewsNothing e')))
  | .delete e fd _ => inferInstanceAs (Decidable ((t.entry fd).mask ≠ .none → t.renewsNothing e))
  | .wait e => inferInstanceAs (Decidable (t.renewsNothing e))

/-! ## A new kqueue -/

theorem restoreLoop_eq (savEvents : ℕ → Mask) (n fd : ℕ) (d : Direction) :
    Kqueue.restoreLoop savEvents n fd d =
      if fd < n ∧ (savEvents fd).has d then some false else none := by
  induction n with
  | zero => simp [Kqueue.restoreLoop, Registrations.empty]
  | succ n ih =>
      unfold Kqueue.restoreLoop Registrations.evAdd
      by_cases hfd : fd = n
      · obtain rfl := hfd
        rw [Function.update_self]
        by_cases hd : (savEvents fd).has d = true
        · rw [if_pos hd, if_pos ⟨Nat.lt_succ_self fd, hd⟩]
        · rw [if_neg hd, if_neg fun h => hd h.2, ih, if_neg fun h => hd h.2]
      · rw [Function.update_of_ne hfd, ih]
        have hlt : fd < n ↔ fd < n + 1 := by omega
        exact if_congr (and_congr_left' hlt) rfl rfl

/-- What every run under the condition keeps besides the copy: the tables have one size, what is
registered is what the masks say, with `EV_CLEAR`, and the part of the table that is restored is a
copy. -/
structure Live (t : FileTable κ Kqueue) : Prop where
  sized : t.Sized
  savMax : t.driver.savMax = t.nevent
  size_le : t.driver.size ≤ t.nevent
  registered : ∀ fd d, t.driver.registered fd d =
    if (t.entry fd).mask.has d then some true else none
  saved : ∀ fd < t.driver.size, t.driver.savEvents fd = (t.entry fd).mask

namespace Live

/-- Nothing is registered beyond the table. -/
theorem mask_of_le (h : t.Live) {fd : ℕ} (hle : t.nevent ≤ fd) : (t.entry fd).mask = .none := by
  rw [h.sized.entry_of_le hle]
  rfl

/-- A condition on all masks is one on those in the table. -/
theorem renewsNothing_iff (h : t.Live) (e : KqueueEnv) :
    t.renewsNothing e ↔ (t.driver.renews e = true → ∀ fd, (t.entry fd).mask = .none) := by
  constructor
  · intro hok hrenews fd
    by_cases hlt : fd < t.nevent
    · exact hok hrenews fd hlt
    · exact h.mask_of_le (Nat.not_lt.mp hlt)
  · exact fun hok hrenews fd _ => hok hrenews fd

/-- What `restore_events` registers: the masks below the first size, without `EV_CLEAR`. -/
theorem restoreEvents_eq (h : t.Live) (fd : ℕ) (d : Direction) : t.driver.restoreEvents fd d =
    if fd < t.driver.size ∧ (t.entry fd).mask.has d then some false else none := by
  unfold Kqueue.restoreEvents
  rw [restoreLoop_eq]
  by_cases hlt : fd < t.driver.size
  · rw [h.saved fd hlt]
  · rw [if_neg fun hc => hlt hc.1, if_neg fun hc => hlt hc.1]

/-- **Only an empty kqueue is restored exactly**: the flags of every registration are others. -/
theorem restored_iff (h : t.Live) :
    (∀ fd d, t.driver.restoreEvents fd d = (t.driver.registered fd d).map fun _ => true) ↔
      ∀ fd, (t.entry fd).mask = .none := by
  constructor
  · intro hexact fd
    rw [Mask.eq_none_iff]
    intro d
    have hpair := hexact fd d
    rw [h.registered, h.restoreEvents_eq] at hpair
    by_contra hd
    rw [Bool.not_eq_false] at hd
    rw [if_pos hd] at hpair
    split at hpair
    · cases hpair
    · cases hpair
  · intro hnothing fd d
    rw [h.registered, h.restoreEvents_eq, hnothing fd, Mask.has_none]
    simp

/-- What `test_thread_change` does to the table: nothing, and to what is registered: nothing under
the condition. -/
theorem testThreadChange (h : t.Live) (hexactly : t.driver.RestoresExactly) (e : KqueueEnv) :
    ((t.driver.testThreadChange e).RestoresExactly ↔ t.renewsNothing e) ∧
      (t.renewsNothing e → (t.driver.testThreadChange e).registered = t.driver.registered) := by
  rw [h.renewsNothing_iff]
  unfold Kqueue.testThreadChange
  by_cases hrenews : t.driver.renews e = true
  · rw [if_pos hrenews]
    refine ⟨⟨?_, ?_⟩, ?_⟩
    · intro hexact _
      exact h.restored_iff.mp (hexact (t.driver.registered, t.driver.restoreEvents) (by simp))
    · intro hok r hr
      rcases List.mem_append.mp hr with hold | hnew
      · exact hexactly r hold
      · obtain rfl := List.mem_singleton.mp hnew
        exact h.restored_iff.mpr (hok hrenews)
    · intro hok
      funext fd d
      show t.driver.restoreEvents fd d = _
      rw [h.registered, h.restoreEvents_eq, hok hrenews fd, Mask.has_none]
      simp
  · rw [if_neg hrenews]
    exact ⟨iff_of_true hexactly fun hr => absurd hr hrenews, fun _ => rfl⟩

end Live

@[simp]
theorem testThreadChange_savMax (e : KqueueEnv) (k : Kqueue) :
    (k.testThreadChange e).savMax = k.savMax := by
  unfold Kqueue.testThreadChange
  split <;> rfl

@[simp]
theorem testThreadChange_size (e : KqueueEnv) (k : Kqueue) :
    (k.testThreadChange e).size = k.size := by
  unfold Kqueue.testThreadChange
  split <;> rfl

@[simp]
theorem testThreadChange_savEvents (e : KqueueEnv) (k : Kqueue) :
    (k.testThreadChange e).savEvents = k.savEvents := by
  unfold Kqueue.testThreadChange
  split <;> rfl

/-! ## A bigger table -/

/-- What the growth leaves of the copy. -/
theorem Live.resize_saved_iff (h : t.Live) (hcopied : t.Copied) (e : KqueueEnv) {fd newsize : ℕ}
    (hlt : t.nevent < newsize) (hle : t.nevent ≤ fd) (mask : Mask) :
    (∀ f < newsize, (f ≠ fd ∨ mask = .none) →
      (t.driver.resizeEvents e newsize).savEvents f = (t.entry f).mask) ↔
      t.clears e fd mask newsize := by
  have hmax := h.savMax
  have hsize := h.size_le
  unfold Kqueue.resizeEvents clears
  rw [if_pos (by omega)]
  dsimp only
  constructor
  · intro hall
    refine ⟨fun f hf hge hhit => ?_, fun f hf hge hmiss hother => ?_⟩
    · have hsaved := hall f (by omega) (.inl (by omega))
      rw [if_pos ⟨hge, hhit⟩] at hsaved
      exact hsaved.symm
    · have hsaved := hall f hf hother
      rw [if_neg (by omega), if_neg (by omega), h.mask_of_le (by omega)] at hsaved
      exact hsaved
  · rintro ⟨hhits, hleaves⟩ f hf hother
    by_cases hhit : t.driver.size ≤ f ∧ f < t.driver.size + (newsize - t.driver.savMax)
    · rw [if_pos hhit]
      by_cases hold : f < t.driver.savMax
      · exact (hhits f hold hhit.1 hhit.2).symm
      · rw [h.mask_of_le (by omega)]
    · rw [if_neg hhit]
      by_cases hold : f < t.driver.savMax
      · rw [if_pos hold]
        exact hcopied.saved f hold
      · rw [if_neg hold, hleaves f hf (by omega) (by omega) hother, h.mask_of_le (by omega)]

/-- Whatever the growth does to the copy, it keeps the rest. -/
theorem Live.grown (h : t.Live) {e : KqueueEnv} {fd : ℕ} {ok : Bool}
    (hgrown : Grown kqueueDriver e fd t ok u) :
    ok = true ∧ u.Live ∧ u.driver.restores = t.driver.restores ∧
      ∀ e', u.driver.renews e' = t.driver.renews e' := by
  have hentry := hgrown.entry h.sized
  have hsized := hgrown.sized h.sized
  cases hgrown with
  | enough => exact ⟨rfl, h, rfl, fun _ => rfl⟩
  | refused newSize hle hloop hresize => exact absurd hresize Bool.noConfusion
  | grown newSize hle hloop hresize =>
      have hlt := Sized.lt_growLoop h.sized hloop
      have hmax := h.savMax
      have hsize := h.size_le
      have hdriver : (kqueueDriver.resizeEvents e newSize t.driver).2 =
          t.driver.resizeEvents e newSize := rfl
      have hresized : t.driver.savMax < newSize := by omega
      rw [hdriver] at hsized hentry ⊢
      unfold Kqueue.resizeEvents at hsized hentry ⊢
      rw [if_pos hresized] at hsized hentry ⊢
      refine ⟨rfl, ⟨hsized, rfl, ?_, ?_, ?_⟩, rfl, fun _ => rfl⟩
      · exact Nat.le_trans hsize hlt.le
      · intro f d
        rw [hentry]
        exact h.registered f d
      · intro f hf
        dsimp only at hf ⊢
        rw [hentry, if_neg (by omega), if_pos (by omega)]
        exact h.saved f hf

/-! ## The calls -/

theorem addEvent_of_lt {e : KqueueEnv} {k : Kqueue} {fd : ℕ} (hlt : fd < k.savMax)
    (curMask addMask : Mask) : k.addEvent e fd curMask addMask =
      { k.testThreadChange e with
        kqfd := some ((k.testThreadChange e).registered.evAdd true fd addMask)
        savEvents := Function.update k.savEvents fd (curMask.or addMask) } := by
  have hmax : ¬ (k.testThreadChange e).savMax ≤ fd := by
    rw [testThreadChange_savMax]
    exact Nat.not_le.mpr hlt
  unfold Kqueue.addEvent
  dsimp only
  rw [if_neg hmax, testThreadChange_savEvents]

/-- What a call leaves that writes an entry and its copy, and has `q` registered. -/
theorem Live.written (h : t.Live) (hexactly : t.driver.RestoresExactly) {e : KqueueEnv} {fd : ℕ}
    (hlt : fd < t.nevent) {event : FileEntry κ} {q : Registrations} {v : FileTable κ Kqueue}
    (hv : v = { t with
      fileEvents := t.fileEvents.set fd event
      driver := { t.driver.testThreadChange e with
        kqfd := some q
        savEvents := Function.update t.driver.savEvents fd event.mask } })
    (hq : t.renewsNothing e → ∀ f d,
      q f d = if (Function.update t.entry fd event f).mask.has d then some true else none) :
    (v.Copied ↔ (∀ f < t.nevent, f ≠ fd → t.driver.savEvents f = (t.entry f).mask) ∧
      t.renewsNothing e) ∧ (t.renewsNothing e → v.Live) := by
  have hmax := h.savMax
  have hentry : v.entry = Function.update t.entry fd event := by
    rw [hv]
    exact funext (entry_set h.sized hlt _ _)
  have hsized : v.Sized := by
    rw [hv]
    exact h.sized.set fd _ _
  have hsaved (f : ℕ) : v.driver.savEvents f = (v.entry f).mask ↔
      (f ≠ fd → t.driver.savEvents f = (t.entry f).mask) := by
    rw [hentry, hv]
    dsimp only
    by_cases hf : f = fd
    · rw [hf, Function.update_self, Function.update_self]
      exact iff_of_true rfl fun hne => absurd rfl hne
    · rw [Function.update_of_ne hf, Function.update_of_ne hf]
      exact ⟨fun heq _ => heq, fun heq => heq hf⟩
  have hvnevent : v.nevent = t.nevent := by rw [hv]
  have hvmax : v.driver.savMax = t.driver.savMax := by
    rw [hv]
    exact testThreadChange_savMax e t.driver
  have hvsize : v.driver.size = t.driver.size := by
    rw [hv]
    exact testThreadChange_size e t.driver
  have hvexactly : v.driver.RestoresExactly ↔ t.renewsNothing e := by
    rw [hv]
    exact (h.testThreadChange hexactly e).1
  constructor
  · constructor
    · rintro ⟨hcopy, hexact⟩
      exact ⟨fun f hf => (hsaved f).mp (hcopy f (by omega)), hvexactly.mp hexact⟩
    · rintro ⟨hcopy, hok⟩
      exact ⟨fun f hf => (hsaved f).mpr (hcopy f (by omega)), hvexactly.mpr hok⟩
  · intro hok
    refine ⟨hsized, by omega, by rw [hvsize, hvnevent]; exact h.size_le, fun f d => ?_, ?_⟩
    · have hregistered : v.driver.registered = q := by
        rw [hv]
        rfl
      rw [hregistered, hentry]
      exact hq hok f d
    · intro f hf
      exact (hsaved f).mpr fun _ => h.saved f (by omega)

/-- What `create_file_event` does to the driver and the entry once the table has room. -/
theorem Live.added (h : t.Live) (hexactly : t.driver.RestoresExactly) (e : KqueueEnv) {fd : ℕ}
    (hlt : fd < t.nevent) (mask : Mask) (ctxt : κ) {v : FileTable κ Kqueue}
    (hv : v = { t with
      fileEvents := t.fileEvents.set fd ((t.entry fd).register mask ctxt)
      driver := t.driver.addEvent e fd (t.entry fd).mask mask }) :
    (v.Copied ↔ (∀ f < t.nevent, f ≠ fd → t.driver.savEvents f = (t.entry f).mask) ∧
      t.renewsNothing e) ∧ (t.renewsNothing e → v.Live) := by
  have hmax := h.savMax
  rw [addEvent_of_lt (by omega)] at hv
  refine h.written hexactly hlt hv fun hok f d => ?_
  rw [(h.testThreadChange hexactly e).2 hok]
  unfold Registrations.evAdd
  by_cases hf : f = fd
  · rw [hf, Function.update_self, Function.update_self, h.registered]
    show _ = if ((t.entry fd).mask.or mask).has d = true then some true else none
    rw [Mask.has_or]
    cases mask.has d <;> cases (t.entry fd).mask.has d <;> rfl
  · rw [Function.update_of_ne hf, Function.update_of_ne hf, h.registered]

/-- A call of `create_file_event` keeps the copy if and only if it meets the condition. -/
theorem Live.create (h : t.Live) (hcopied : t.Copied) {e e' : KqueueEnv} {fd : ℕ} {mask : Mask}
    {ctxt : κ} {r : ℤ} (hcreated : Created kqueueDriver e e' fd mask ctxt t r u) :
    (u.Copied ↔ t.copies (.create e e' fd mask ctxt)) ∧
      (t.copies (.create e e' fd mask ctxt) → u.Live) := by
  -- what the growth leaves of the copy
  have hcopy {v : FileTable κ Kqueue} (hgrown : Grown kqueueDriver e fd t true v) :
      (∀ f < v.nevent, (f ≠ fd ∨ (t.entry fd).mask = mask) →
        v.driver.savEvents f = (v.entry f).mask) ↔
        (t.nevent ≤ fd →
          ∀ newsize ∈ growLoop (fd + 1) fd (t.nevent <<< 2), t.clears e fd mask newsize) := by
    rw [funext (hgrown.entry h.sized)]
    cases hgrown with
    | enough hlt =>
        have hmax := h.savMax
        exact iff_of_true (fun f hf _ => hcopied.saved f (by omega)) fun hle => by omega
    | grown newSize hle hloop hresize =>
        rw [hloop, h.mask_of_le hle, @eq_comm _ Mask.none mask]
        have hiff := h.resize_saved_iff hcopied e (h.sized.lt_growLoop hloop) hle mask
        constructor
        · rintro hall - newsize hnewsize
          obtain rfl := Option.some.inj hnewsize
          exact hiff.mp hall
        · exact fun hclears => hiff.mpr (hclears hle newSize rfl)
  cases hcreated with
  | refused u hgrown => exact absurd (h.grown hgrown).1 Bool.noConfusion
  | same u hgrown hlt hmask =>
      obtain ⟨-, hlive, hrestores, -⟩ := h.grown hgrown
      have hexactly : u.driver.RestoresExactly := by
        unfold Kqueue.RestoresExactly
        rw [hrestores]
        exact hcopied.restored
      have hsame : (t.entry fd).mask ≠ mask → t.renewsNothing e' := fun hne => absurd hmask hne
      refine ⟨?_, fun _ => hlive⟩
      rw [copies, and_iff_left hsame, ← hcopy hgrown]
      constructor
      · intro hu f hf _
        exact hu.saved f (hlive.savMax ▸ hf)
      · refine fun hall => ⟨fun f hf => ?_, hexactly⟩
        exact hall f (hlive.savMax ▸ hf) (.inr hmask)
  | added u hgrown hlt hmask =>
      obtain ⟨-, hlive, hrestores, hrenews⟩ := h.grown hgrown
      have hexactly : u.driver.RestoresExactly := by
        unfold Kqueue.RestoresExactly
        rw [hrestores]
        exact hcopied.restored
      have hentry := funext (hgrown.entry h.sized)
      have hnothing : u.renewsNothing e' ↔ t.renewsNothing e' := by
        rw [hlive.renewsNothing_iff, h.renewsNothing_iff, hrenews, hentry]
      have hadded := hlive.added hexactly e' hlt mask ctxt rfl
      rw [hentry, hnothing] at hadded
      have hother (f : ℕ) : f ≠ fd ∨ (t.entry fd).mask = mask ↔ f ≠ fd := or_iff_left hmask
      have hok : t.copies (.create e e' fd mask ctxt) ↔
          (∀ f < u.nevent, f ≠ fd → u.driver.savEvents f = (t.entry f).mask) ∧
            t.renewsNothing e' := by
        rw [copies, ← hcopy hgrown, hentry, imp_iff_right hmask]
        simp only [hother]
      rw [hok]
      exact ⟨hadded.1, fun hboth => hadded.2 hboth.2⟩

theorem delEvent_of_true {e : KqueueEnv} {k : Kqueue} {fd : ℕ} {curMask delMask : Mask}
    (hdel : (k.delEvent e fd curMask delMask).1 = true) :
    (k.delEvent e fd curMask delMask).2 = { k.testThreadChange e with
      kqfd := some (Function.update (k.testThreadChange e).registered fd fun d =>
        if (curMask.and delMask).has d then none else (k.testThreadChange e).registered fd d)
      savEvents := Function.update k.savEvents fd (curMask.without delMask) } := by
  unfold Kqueue.delEvent Registrations.evDelete at hdel ⊢
  dsimp only at hdel ⊢
  rw [testThreadChange_savEvents] at *
  split at hdel
  · cases hdel
  · rename_i q hq
    split at hq
    · cases hq
      rfl
    · cases hq

/-- What `delete_file_event` does to the driver and the entry when there is something to delete. -/
theorem Live.deleted (h : t.Live) (hexactly : t.driver.RestoresExactly) {e : KqueueEnv} {fd : ℕ}
    (hlt : fd < t.nevent) {mask : Mask} {v : FileTable κ Kqueue}
    (hv : v = { t with
      fileEvents := t.fileEvents.set fd ((t.entry fd).unregister mask)
      driver := (t.driver.delEvent e fd (t.entry fd).mask mask).2 })
    (hdel : (t.driver.delEvent e fd (t.entry fd).mask mask).1 = true) :
    (v.Copied ↔ (∀ f < t.nevent, f ≠ fd → t.driver.savEvents f = (t.entry f).mask) ∧
      t.renewsNothing e) ∧ (t.renewsNothing e → v.Live) := by
  rw [delEvent_of_true hdel] at hv
  refine h.written hexactly hlt hv fun hok f d => ?_
  rw [(h.testThreadChange hexactly e).2 hok]
  by_cases hf : f = fd
  · rw [hf, Function.update_self, Function.update_self, h.registered]
    show _ = if ((t.entry fd).mask.without mask).has d = true then some true else none
    rw [Mask.has_without, Mask.has_and]
    cases mask.has d <;> cases (t.entry fd).mask.has d <;> rfl
  · rw [Function.update_of_ne hf, Function.update_of_ne hf, h.registered]

/-- A call of `delete_file_event` keeps the copy if and only if it meets the condition. -/
theorem Live.delete (h : t.Live) (hcopied : t.Copied) {e : KqueueEnv} {fd : ℕ} {mask : Mask}
    (hdeleted : Deleted kqueueDriver e fd mask t u) :
    (u.Copied ↔ t.copies (.delete e fd mask)) ∧ (t.copies (.delete e fd mask) → u.Live) := by
  cases hdeleted with
  | nothing hnone =>
      exact ⟨iff_of_true hcopied fun hmask => absurd hnone hmask, fun _ => h⟩
  | removed hlt hmask hdel =>
      have hmax := h.savMax
      have hothers : ∀ f < t.nevent, f ≠ fd → t.driver.savEvents f = (t.entry f).mask :=
        fun f hf _ => hcopied.saved f (by omega)
      have hok : t.copies (.delete e fd mask) ↔ t.renewsNothing e := imp_iff_right hmask
      rw [hok]
      have hdeleted := h.deleted hcopied.restored hlt rfl hdel
      rw [and_iff_right hothers] at hdeleted
      exact hdeleted

/-- So does `event_wait`. -/
theorem Live.wait (h : t.Live) (hcopied : t.Copied) (e : KqueueEnv)
    (hu : u = { t with driver := t.driver.testThreadChange e }) :
    (u.Copied ↔ t.copies (.wait e)) ∧ (t.copies (.wait e) → u.Live) := by
  obtain ⟨hrestores, hregistered⟩ := h.testThreadChange hcopied.restored e
  subst hu
  refine ⟨⟨fun hu => hrestores.mp hu.restored, fun hok => ⟨?_, hrestores.mpr hok⟩⟩, fun hok => ?_⟩
  · dsimp only
    rw [testThreadChange_savMax, testThreadChange_savEvents]
    exact hcopied.saved
  · refine ⟨⟨h.sized.nevent_pos, h.sized.length_eq⟩, ?_, ?_, ?_, ?_⟩
    · dsimp only
      rw [testThreadChange_savMax]
      exact h.savMax
    · dsimp only
      rw [testThreadChange_size]
      exact h.size_le
    · dsimp only
      rw [hregistered hok]
      exact h.registered
    · dsimp only
      rw [testThreadChange_size, testThreadChange_savEvents]
      exact h.saved

/-! ## Runs -/

/-- After `init` there is nothing to copy. -/
theorem Fresh.live (hfresh : t.Fresh Kqueue.Fresh) : t.Live ∧ t.Copied := by
  obtain ⟨hkqfd, hsize, hmax, hsaved, hrestores⟩ := hfresh.driver
  have hentry (fd : ℕ) : (t.entry fd).mask = .none := by
    rw [hfresh.entry]
    rfl
  refine ⟨⟨hfresh.sized, hmax, hsize.le, fun fd d => ?_, fun fd hfd => ?_⟩,
    ⟨fun fd hfd => ?_, fun r hr => ?_⟩⟩
  · rw [Kqueue.registered, hkqfd, hentry, Mask.has_none]
    rfl
  · rw [hentry, hsaved fd (hsize ▸ hfd)]
  · rw [hentry, hsaved fd (hmax ▸ hfd)]
  · rw [hrestores] at hr
    cases hr

/-- **A step keeps the copy if and only if it meets the condition.** -/
theorem Live.step_iff (h : t.Live) (hcopied : t.Copied) {a : FileAction κ KqueueEnv}
    (hstep : (fileMachine κ kqueueDriver Kqueue.Fresh).step t a = some u) :
    (u.Copied ↔ t.copies a) ∧ (t.copies a → u.Live) := by
  cases a with
  | create e e' fd mask ctxt =>
      obtain ⟨⟨r, v⟩, hcreate, rfl⟩ := Option.map_eq_some_iff.mp hstep
      exact h.create hcopied (createFileEvent_cases h.sized hcreate)
  | delete e fd mask => exact h.delete hcopied (deleteFileEvent_cases h.sized hstep)
  | wait e => exact h.wait hcopied e (Option.some.inj hstep).symm

/-- **The saved events are a copy of the masks, and a new kqueue gets what the old one had**, in
runs that change the thread while nothing is registered, and whose growths clear what they add and
nothing else; and the first call that does otherwise breaks it. -/
theorem copied_of_copies
    (hreached : (fileMachine κ kqueueDriver Kqueue.Fresh).ReachedUnder copies t) :
    t.Copied ∧ ∀ a u, (fileMachine κ kqueueDriver Kqueue.Fresh).step t a = some u →
      (u.Copied ↔ t.copies a) := by
  have hkept : t.Live ∧ t.Copied := by
    refine hreached.invariant (fun t => t.Live ∧ t.Copied) (fun _ => Fresh.live) ?_
    rintro t a u ⟨h, hcopied⟩ hok hstep
    obtain ⟨hiff, hlive⟩ := h.step_iff hcopied hstep
    exact ⟨hlive hok, hiff.mpr hok⟩
  exact ⟨hkept.2, fun a u hstep => (hkept.1.step_iff hkept.2 hstep).1⟩

/-- A center for two descriptors with a kqueue that was not made yet. -/
def unmade : FileTable Callback Kqueue :=
  ⟨2, [.empty, .empty], ⟨none, 0, 2, 2, fun _ => .none, []⟩⟩

theorem fresh_unmade : unmade.Fresh Kqueue.Fresh :=
  ⟨by decide, rfl, rfl, rfl, rfl, fun _ _ => rfl, rfl⟩

/-- The thread that made the center, where `realloc` finds memory that was used before. -/
def sameThread : KqueueEnv := ⟨0, false, fun _ => .both⟩

/-- Another thread. -/
def otherThread : KqueueEnv := ⟨1, false, fun _ => .both⟩

/-- The table grows once, and its owner goes to another thread before it registers anything that
stays. -/
theorem copied_of_copies_moved :
    ∃ t : FileTable Callback Kqueue, t.nevent = 8 ∧ t.driver.mythread = 1 ∧
      t.driver.savEvents 3 = .both ∧ t.Copied := by
  obtain ⟨t, hreplay, hnevent, hthread, hsaved⟩ : ∃ t,
      (fileMachine Callback kqueueDriver Kqueue.Fresh).replay copies unmade
        [.create sameThread sameThread 3 .read .readHandler, .delete sameThread 3 .both,
          .wait otherThread, .create otherThread otherThread 3 .read .readHandler,
          .create otherThread otherThread 3 .both .writeHandler] = some t ∧
        t.nevent = 8 ∧ t.driver.mythread = 1 ∧ t.driver.savEvents 3 = .both :=
    ⟨_, rfl, rfl, rfl, rfl⟩
  exact ⟨t, hnevent, hthread, hsaved,
    (copied_of_copies (.of_replay (.start fresh_unmade) hreplay)).1⟩

/-- A second growth clears the mask of descriptor 3, and a new kqueue reports descriptor 1 as long
as it is readable, not once. -/
theorem not_copied_grown :
    (∃ t : FileTable Callback Kqueue,
      (fileMachine Callback kqueueDriver Kqueue.Fresh).Reached t ∧
        (t.entry 3).mask = .read ∧ t.driver.savEvents 3 = .none ∧ ¬ t.Copied) ∧
    ∃ t : FileTable Callback Kqueue,
      (fileMachine Callback kqueueDriver Kqueue.Fresh).Reached t ∧
        (t.entry 1).mask = .read ∧ t.driver.registered 1 .reading = some false ∧ ¬ t.Copied := by
  constructor
  · obtain ⟨t, hreplay, hmask, hsaved, hmax⟩ : ∃ t,
        (fileMachine Callback kqueueDriver Kqueue.Fresh).replay (fun _ _ => True) unmade
          [.create sameThread sameThread 3 .read .readHandler,
            .create sameThread sameThread 9 .read .readHandler] = some t ∧
          (t.entry 3).mask = .read ∧ t.driver.savEvents 3 = .none ∧ t.driver.savMax = 32 :=
      ⟨_, rfl, rfl, rfl, rfl⟩
    refine ⟨t, .of_replay (.start fresh_unmade) hreplay, hmask, hsaved, fun hcopied => ?_⟩
    have hcopy := hcopied.saved 3 (by omega)
    rw [hsaved, hmask] at hcopy
    exact absurd hcopy (by decide)
  · obtain ⟨t, hreplay, hmask, hregistered, hrestored⟩ : ∃ t,
        (fileMachine Callback kqueueDriver Kqueue.Fresh).replay (fun _ _ => True) unmade
          [.create sameThread sameThread 1 .read .readHandler, .wait otherThread] = some t ∧
          (t.entry 1).mask = .read ∧ t.driver.registered 1 .reading = some false ∧
          ∃ r ∈ t.driver.restores, r.1 1 .reading = some true ∧ r.2 1 .reading = some false :=
      ⟨_, rfl, rfl, rfl, _, List.mem_cons_of_mem _ (List.mem_cons_self ..), rfl, rfl⟩
    refine ⟨t, .of_replay (.start fresh_unmade) hreplay, hmask, hregistered, fun hcopied => ?_⟩
    obtain ⟨r, hr, hbefore, hafter⟩ := hrestored
    have hexact := hcopied.restored r hr 1 .reading
    rw [hbefore, hafter] at hexact
    exact absurd hexact (by decide)

end FileTable

end HwAsync.Event
