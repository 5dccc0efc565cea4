/-
# The select driver

`SelectDriver` keeps two sets of descriptors and the largest one that was ever added.  It adds and
deletes as the center says, and what it fires is what stands in the sets and is ready.  The sets
have room for `FD_SETSIZE` descriptors, and nothing compares a descriptor with that.

A center with this driver is put together from the loop of `process_events` over any table: what
the driver fires is what is registered and ready, and a round calls it, once.
-/

import HwAsync.Event.Dispatch

namespace HwAsync.Event

open HwAsync.Lib

/-- `FD_SETSIZE`. -/
def fdSetSize : ℕ := 1024

/-- `rfds`, `wfds` and `max_fd`, and whether a bit outside of the sets was written. -/
structure Select where
  rfds : ℕ → Bool
  wfds : ℕ → Bool
  maxFd : ℕ
  overrun : Bool

namespace Select

/-- `FD_SET` or `FD_CLR`, if the mask says so. -/
def write (bit cond : Bool) (fd : ℕ) (fds : ℕ → Bool) : ℕ → Bool :=
  if cond then Function.update fds fd bit else fds

/-- Whether a bit outside of the sets is written for the mask. -/
def outside (fd : ℕ) (mask : Mask) : Bool := decide (fdSetSize ≤ fd ∧ mask ≠ .none)

/-- `SelectDriver::add_event`. -/
def addEvent (fd : ℕ) (curMask addMask : Mask) (k : Select) : Select :=
  let mask := curMask.or addMask
  { rfds := write true mask.readable fd k.rfds
    wfds := write true mask.writable fd k.wfds
    maxFd := max fd k.maxFd
    overrun := k.overrun || outside fd mask }

/-- `SelectDriver::del_event`. -/
def delEvent (fd : ℕ) (delmask : Mask) (k : Select) : Select :=
  { k with
    rfds := write false delmask.readable fd k.rfds
    wfds := write false delmask.writable fd k.wfds
    overrun := k.overrun || outside fd delmask }

/-- What `_rfds` and `_wfds` say about a descriptor after `select`. -/
def selected (ready : ℕ → Mask) (k : Select) (fd : ℕ) : Mask :=
  ⟨k.rfds fd && (ready fd).readable, k.wfds fd && (ready fd).writable⟩

/-- `SelectDriver::event_wait`: what it fires if `select` finds the descriptors ready, or if it
fails. -/
def eventWait : Option (ℕ → Mask) → Select → List FiredFileEvent
  | none, _ => []
  | some ready, k =>
      (List.range (k.maxFd + 1)).filterMap fun j =>
        if k.selected ready j = .none then none else some ⟨j, k.selected ready j⟩

/-- After `SelectDriver::init`. -/
def Fresh (_ : ℕ) (k : Select) : Prop :=
  k = ⟨fun _ => false, fun _ => false, 0, false⟩

/-- What stands in the sets for a descriptor. -/
def watches (k : Select) (fd : ℕ) : Mask := ⟨k.rfds fd, k.wfds fd⟩

end Select

/-- `SelectDriver`, with what `select` answers. -/
def selectDriver : Driver Select (Option (ℕ → Mask)) where
  addEvent _ fd curMask addMask k := (true, k.addEvent fd curMask addMask)
  delEvent _ fd _ delmask k := (true, k.delEvent fd delmask)
  resizeEvents _ _ k := (true, k)
  eventWait _ k := (true, k)

/-! ## What stands in the sets -/

namespace Select

variable {k : Select} {fd : ℕ} {mask : Mask} {ready : ℕ → Mask}

theorem write_apply (bit cond : Bool) (fd : ℕ) (fds : ℕ → Bool) (f : ℕ) :
    write bit cond fd fds f = if f = fd ∧ cond then bit else fds f := by
  unfold write
  cases cond with
  | false => simp
  | true => simp [Function.update_apply]

/-- Everything that the mask has or had is in the sets. -/
theorem addEvent_watches (cur : Mask) (f : ℕ) : (k.addEvent fd cur mask).watches f =
    if f = fd then (cur.or mask).or (k.watches fd) else k.watches f := by
  simp only [watches, addEvent, write_apply, Mask.or]
  by_cases hf : f = fd
  · subst hf
    cases cur.readable <;> cases mask.readable <;> cases cur.writable <;> cases mask.writable <;>
      simp
  · simp [hf]

theorem delEvent_watches (f : ℕ) : (k.delEvent fd mask).watches f =
    if f = fd then (k.watches fd).without mask else k.watches f := by
  simp only [watches, delEvent, write_apply, Mask.without]
  by_cases hf : f = fd
  · subst hf
    cases mask.readable <;> cases mask.writable <;> simp
  · simp [hf]

theorem selected_eq (f : ℕ) : k.selected ready f = (k.watches f).and (ready f) := rfl

/-- What is fired: what stands in the sets and is ready, up to the largest descriptor. -/
theorem mem_eventWait {f : FiredFileEvent} : f ∈ k.eventWait (some ready) ↔
    f.fd ≤ k.maxFd ∧ f.mask = k.selected ready f.fd ∧ f.mask ≠ .none := by
  simp only [eventWait, List.mem_filterMap, List.mem_range, Option.ite_none_left_eq_some,
    Option.some.injEq]
  constructor
  · rintro ⟨j, hj, hne, rfl⟩
    exact ⟨Nat.lt_succ_iff.mp hj, rfl, hne⟩
  · rintro ⟨hle, hmask, hne⟩
    refine ⟨f.fd, Nat.lt_succ_of_le hle, hmask ▸ hne, ?_⟩
    rw [← hmask]

/-- The descriptors are fired in order, each of them once. -/
theorem pairwise_eventWait (answer : Option (ℕ → Mask)) :
    (k.eventWait answer).Pairwise fun f g => f.fd < g.fd := by
  cases answer with
  | none => exact .nil
  | some ready =>
      refine List.pairwise_filterMap.mpr (List.pairwise_lt_range.imp ?_)
      intro i j hlt f hf g hg
      simp only [Option.ite_none_left_eq_some, Option.some.injEq] at hf hg
      obtain ⟨-, rfl⟩ := hf
      obtain ⟨-, rfl⟩ := hg
      exact hlt

end Select

/-! ## The table and the sets -/

namespace FileTable

variable {κ : Type} {t u : FileTable κ Select}

/-- What is registered stands in the sets, and nothing else. -/
structure Selects (t : FileTable κ Select) : Prop where
  sized : t.Sized
  watches : ∀ fd, t.driver.watches fd = (t.entry fd).mask
  maxFd : ∀ fd, (t.entry fd).mask ≠ .none → fd ≤ t.driver.maxFd

/-- Nothing was written outside of the sets, and nothing is registered there. -/
structure Inside (t : FileTable κ Select) : Prop where
  overrun : t.driver.overrun = false
  entry : ∀ fd, fdSetSize ≤ fd → (t.entry fd).mask = .none

/-- The condition on a step: a descriptor fits into the sets if there is anything to register. -/
def fits : FileAction κ (Option (ℕ → Mask)) → Prop
  | .create _ _ fd mask _ => mask = .none ∨ fd < fdSetSize
  | _ => True

instance decidableFits (a : FileAction κ (Option (ℕ → Mask))) : Decidable (fits a) :=
  match a with
  | .create _ _ fd mask _ => inferInstanceAs (Decidable (mask = .none ∨ fd < fdSetSize))
  | .delete .. => .isTrue trivial
  | .wait _ => .isTrue trivial

theorem Fresh.selects (hfresh : t.Fresh Select.Fresh) : t.Selects ∧ t.Inside := by
  have hdriver : t.driver = ⟨fun _ => false, fun _ => false, 0, false⟩ := hfresh.driver
  refine ⟨⟨hfresh.sized, fun fd => ?_, fun fd hne => ?_⟩, ⟨?_, fun fd _ => ?_⟩⟩
  · rw [hdriver, hfresh.entry]
    rfl
  · rw [hfresh.entry] at hne
    exact absurd rfl hne
  · rw [hdriver]
  · rw [hfresh.entry]
    rfl

/-- The driver is not concerned when the table grows. -/
theorem Grown.select {e : Option (ℕ → Mask)} {fd : ℕ} {ok : Bool}
    (hgrown : Grown selectDriver e fd t ok u) : ok = true ∧ u.driver = t.driver := by
  cases hgrown with
  | enough => exact ⟨rfl, rfl⟩
  | grown => exact ⟨rfl, rfl⟩
  | refused newSize hle hloop hresize => exact absurd hresize Bool.noConfusion

section Calls

variable {fd : ℕ} {mask : Mask} {ctxt : κ} {r : ℤ} {e e' : Option (ℕ → Mask)}

theorem Selects.create (h : t.Selects) (hcreated : Created selectDriver e e' fd mask ctxt t r u) :
    u.Selects := by
  have hsized := hcreated.sized h.sized
  cases hcreated with
  | refused u hgrown => exact absurd hgrown.select.1 Bool.noConfusion
  | same u hgrown =>
      obtain ⟨-, hdriver⟩ := hgrown.select
      refine ⟨hsized, fun f => ?_, fun f hne => ?_⟩
      · rw [hdriver, hgrown.entry h.sized]
        exact h.watches f
      · rw [hgrown.entry h.sized] at hne
        rw [hdriver]
        exact h.maxFd f hne
  | added u hgrown hlt =>
      obtain ⟨-, hdriver⟩ := hgrown.select
      have hentry (f : ℕ) := entry_set (hgrown.sized h.sized) hlt
        ((t.entry fd).register mask ctxt) (u.driver.addEvent fd (t.entry fd).mask mask) f
      refine ⟨hsized, fun f => ?_, fun f hne => ?_⟩
      · refine Eq.trans ?_ (congrArg FileEntry.mask (hentry f)).symm
        show (u.driver.addEvent fd (t.entry fd).mask mask).watches f = _
        rw [Select.addEvent_watches, hdriver, Function.update_apply]
        by_cases hf : f = fd
        · rw [if_pos hf, if_pos hf, h.watches]
          show ((t.entry fd).mask.or mask).or (t.entry fd).mask = (t.entry fd).mask.or mask
          simp [Mask.or, Bool.or_comm, Bool.or_left_comm]
        · rw [if_neg hf, if_neg hf, hgrown.entry h.sized]
          exact h.watches f
      · show f ≤ max fd u.driver.maxFd
        by_cases hf : f = fd
        · exact hf ▸ le_max_left _ _
        · have hsame : (t.entry f).mask ≠ .none := by
            intro hnone
            apply hne
            refine (congrArg FileEntry.mask (hentry f)).trans ?_
            rw [Function.update_of_ne hf, hgrown.entry h.sized]
            exact hnone
          exact le_max_of_le_right (hdriver ▸ h.maxFd f hsame)

theorem Selects.delete (h : t.Selects) (hdeleted : Deleted selectDriver e fd mask t u) :
    u.Selects := by
  have hsized := hdeleted.sized h.sized
  cases hdeleted with
  | nothing => exact h
  | removed hlt hmask =>
      have hentry (f : ℕ) := entry_set h.sized hlt ((t.entry fd).unregister mask)
        (t.driver.delEvent fd mask) f
      refine ⟨hsized, fun f => ?_, fun f hne => ?_⟩
      · refine Eq.trans ?_ (congrArg FileEntry.mask (hentry f)).symm
        show (t.driver.delEvent fd mask).watches f = _
        rw [Select.delEvent_watches, Function.update_apply]
        by_cases hf : f = fd
        · rw [if_pos hf, if_pos hf, h.watches]
          rfl
        · rw [if_neg hf, if_neg hf]
          exact h.watches f
      · show f ≤ t.driver.maxFd
        by_cases hf : f = fd
        · exact hf ▸ h.maxFd fd hmask
        · apply h.maxFd f
          intro hnone
          apply hne
          refine (congrArg FileEntry.mask (hentry f)).trans ?_
          rw [Function.update_of_ne hf]
          exact hnone

/-- A registration writes outside of the sets exactly if it does not fit. -/
theorem Inside.create (h : t.Selects) (hinside : t.Inside)
    (hcreated : Created selectDriver e e' fd mask ctxt t r u) :
    (u.driver.overrun = true ↔ ¬ (mask = .none ∨ fd < fdSetSize)) ∧
      (mask = .none ∨ fd < fdSetSize → u.Inside) := by
  have hsame (hdriver : u.driver = t.driver) (hentry : u.entry = t.entry) : u.Inside :=
    ⟨hdriver ▸ hinside.overrun, fun f hf => hentry ▸ hinside.entry f hf⟩
  have hnothing (hlarge : fdSetSize ≤ fd) := hinside.entry fd hlarge
  cases hcreated with
  | refused u hgrown => exact absurd hgrown.select.1 Bool.noConfusion
  | same u hgrown hlt hmask =>
      have hin := hsame hgrown.select.2 (funext (hgrown.entry h.sized))
      refine ⟨iff_of_false (by rw [hin.overrun]; nofun) (not_not_intro ?_), fun _ => hin⟩
      rcases Nat.lt_or_ge fd fdSetSize with hsmall | hlarge
      · exact .inr hsmall
      · exact .inl (hmask.symm.trans (hnothing hlarge))
  | added u hgrown hlt hmask =>
      have hover : (u.driver.addEvent fd (t.entry fd).mask mask).overrun =
          Select.outside fd ((t.entry fd).mask.or mask) := by
        show (u.driver.overrun || _) = _
        rw [hgrown.select.2, hinside.overrun, Bool.false_or]
      have hentry (f : ℕ) := entry_set (hgrown.sized h.sized) hlt
        ((t.entry fd).register mask ctxt) (u.driver.addEvent fd (t.entry fd).mask mask) f
      rcases Nat.lt_or_ge fd fdSetSize with hsmall | hlarge
      · have hfalse : Select.outside fd ((t.entry fd).mask.or mask) = false :=
          decide_eq_false fun hout => absurd hsmall (Nat.not_lt.mpr hout.1)
        refine ⟨iff_of_false ?_ (not_not_intro (.inr hsmall)), fun _ =>
          ⟨hover.trans hfalse, fun f hf => ?_⟩⟩
        · exact Bool.eq_false_iff.mp (hover.trans hfalse)
        · refine (congrArg FileEntry.mask (hentry f)).trans ?_
          rw [Function.update_of_ne (by omega), hgrown.entry h.sized]
          exact hinside.entry f hf
      · have hnone := hnothing hlarge
        rw [hnone] at hmask
        have hmask' : mask ≠ .none := Ne.symm hmask
        have htrue : Select.outside fd ((t.entry fd).mask.or mask) = true := by
          rw [hnone]
          exact decide_eq_true ⟨hlarge, hmask'⟩
        have hunfit : ¬ (mask = .none ∨ fd < fdSetSize) := by
          rintro (heq | hlt')
          · exact hmask' heq
          · omega
        exact ⟨iff_of_true (hover.trans htrue) hunfit, fun hfit => absurd hfit hunfit⟩

/-- What is deleted was registered, and inside. -/
theorem Inside.delete (h : t.Selects) (hinside : t.Inside)
    (hdeleted : Deleted selectDriver e fd mask t u) : u.Inside := by
  cases hdeleted with
  | nothing => exact hinside
  | removed hlt hmask =>
      have hsmall : fd < fdSetSize := by
        by_contra hlarge
        exact hmask (hinside.entry fd (Nat.not_lt.mp hlarge))
      refine ⟨?_, fun f hf => ?_⟩
      · show (t.driver.overrun || Select.outside fd mask) = false
        rw [hinside.overrun, Bool.false_or]
        exact decide_eq_false fun hout => absurd hsmall (Nat.not_lt.mpr hout.1)
      · have hentry := entry_set h.sized hlt ((t.entry fd).unregister mask)
          (t.driver.delEvent fd mask) f
        refine (congrArg FileEntry.mask hentry).trans ?_
        rw [Function.update_of_ne (by omega)]
        exact hinside.entry f hf

end Calls

/-- The step lemma: the sets say what is registered, and a step writes outside of them exactly if
it registers what does not fit. -/
theorem Selects.step (h : t.Selects) (hinside : t.Inside) {a : FileAction κ (Option (ℕ → Mask))}
    (hstep : (fileMachine κ selectDriver Select.Fresh).step t a = some u) :
    u.Selects ∧ (u.driver.overrun = true ↔ ¬ fits a) ∧ (fits a → u.Inside) := by
  cases a with
  | create e e' fd mask ctxt =>
      obtain ⟨⟨r, v⟩, hcreate, rfl⟩ := Option.map_eq_some_iff.mp hstep
      have hcreated := createFileEvent_cases h.sized hcreate
      exact ⟨h.create hcreated, hinside.create h hcreated⟩
  | delete e fd mask =>
      have hdeleted := deleteFileEvent_cases h.sized hstep
      have hin := hinside.delete h hdeleted
      exact ⟨h.delete hdeleted,
        iff_of_false (by rw [hin.overrun]; nofun) (not_not_intro trivial), fun _ => hin⟩
  | wait e =>
      obtain rfl := Option.some.inj hstep
      exact ⟨⟨⟨h.sized.nevent_pos, h.sized.length_eq⟩, h.watches, h.maxFd⟩,
        iff_of_false (Bool.eq_false_iff.mp hinside.overrun) (not_not_intro trivial),
        fun _ => ⟨hinside.overrun, hinside.entry⟩⟩

theorem selects_of_reached
    (hreached : (fileMachine κ selectDriver Select.Fresh).ReachedUnder (fun _ a => fits a) t) :
    t.Selects ∧ t.Inside := by
  refine hreached.invariant (fun t => t.Selects ∧ t.Inside) (fun _ => Fresh.selects) ?_
  intro t a u h hfits hstep
  obtain ⟨hselects, -, hinside⟩ := h.1.step h.2 hstep
  exact ⟨hselects, hinside hfits⟩

/-- What is fired is what is registered and ready. -/
theorem Selects.mem_eventWait (h : t.Selects) {ready : ℕ → Mask} {f : FiredFileEvent} :
    f ∈ t.driver.eventWait (some ready) ↔
      f.mask = (t.entry f.fd).mask.and (ready f.fd) ∧ f.mask ≠ .none := by
  rw [Select.mem_eventWait, Select.selected_eq, h.watches]
  constructor
  · rintro ⟨-, hmask, hne⟩
    exact ⟨hmask, hne⟩
  · rintro ⟨hmask, hne⟩
    refine ⟨h.maxFd f.fd fun hnone => hne ?_, hmask, hne⟩
    rw [hmask, hnone]
    rfl

/-- **The driver fires what is registered and ready**, in order and each descriptor once, as long
as every descriptor fits into the sets; and the first one that does not writes outside of them. -/
theorem fires_of_fits
    (hreached : (fileMachine κ selectDriver Select.Fresh).ReachedUnder (fun _ a => fits a) t) :
    (∀ ready f, f ∈ t.driver.eventWait (some ready) ↔
        f.mask = (t.entry f.fd).mask.and (ready f.fd) ∧ f.mask ≠ .none) ∧
      (∀ answer, (t.driver.eventWait answer).Pairwise fun f g => f.fd < g.fd) ∧
      t.driver.overrun = false ∧
      ∀ a u, (fileMachine κ selectDriver Select.Fresh).step t a = some u →
        (u.driver.overrun = true ↔ ¬ fits a) := by
  obtain ⟨hselects, hinside⟩ := selects_of_reached hreached
  refine ⟨fun ready f => hselects.mem_eventWait, Select.pairwise_eventWait, hinside.overrun, ?_⟩
  intro a u hstep
  exact (hselects.step hinside hstep).2.1

set_option maxRecDepth 20000 in
/-- The center makes room for a descriptor that the sets have no room for. -/
theorem fires_of_fits_largest :
    ∃ t u : FileTable Callback Select, t.driver.overrun = false ∧
      t.driver.eventWait (some fun _ => .both) = [⟨3, .read⟩] ∧
      u.driver.rfds 1025 = true ∧ u.driver.overrun = true := by
  obtain ⟨t, u, hreplay, hstep, hfired, hwatched⟩ :
      ∃ t u : FileTable Callback Select,
      (fileMachine Callback selectDriver Select.Fresh).replay (fun _ a => fits a)
        ⟨4, List.replicate 4 .empty, ⟨fun _ => false, fun _ => false, 0, false⟩⟩
        [.create none none 3 .both .readHandler, .delete none 3 .write] = some t ∧
      (fileMachine Callback selectDriver Select.Fresh).step t
        (.create none none 1025 .read .readHandler) = some u ∧
      t.driver.eventWait (some fun _ => .both) = [⟨3, .read⟩] ∧ u.driver.rfds 1025 = true :=
    ⟨_, _, rfl, rfl, rfl, rfl⟩
  have hfresh : Fresh (κ := Callback) Select.Fresh
      ⟨4, List.replicate 4 .empty, ⟨fun _ => false, fun _ => false, 0, false⟩⟩ :=
    ⟨by decide, rfl, rfl⟩
  obtain ⟨-, -, hinside, hover⟩ := fires_of_fits (.of_replay (.start hfresh) hreplay)
  exact ⟨t, u, hinside, hfired, hwatched, (hover _ u hstep).mpr (by decide)⟩

end FileTable

/-- Of the fired events one at most is that of a descriptor. -/
theorem FileTable.Selects.filter_eventWait {κ : Type} {t : FileTable κ Select} (h : t.Selects)
    (ready : ℕ → Mask) (fd : ℕ) :
    ((t.driver.eventWait (some ready)).filter fun f => f.fd = fd) =
      if (t.entry fd).mask.and (ready fd) = .none then []
      else [⟨fd, (t.entry fd).mask.and (ready fd)⟩] := by
  have hpairwise := (Select.pairwise_eventWait (k := t.driver) (some ready)).filter
    fun f => decide (f.fd = fd)
  have hmem (f : FiredFileEvent) :
      f ∈ ((t.driver.eventWait (some ready)).filter fun f => decide (f.fd = fd)) ↔
        f = ⟨fd, (t.entry fd).mask.and (ready fd)⟩ ∧
          (t.entry fd).mask.and (ready fd) ≠ .none := by
    rw [List.mem_filter, h.mem_eventWait, decide_eq_true_iff]
    obtain ⟨f, mask⟩ := f
    constructor
    · rintro ⟨⟨hmask, hne⟩, hfd⟩
      dsimp only at hmask hne hfd
      rw [hfd] at hmask
      exact ⟨by rw [hfd, hmask], hmask ▸ hne⟩
    · rintro ⟨heq, hne⟩
      cases heq
      exact ⟨⟨rfl, hne⟩, rfl⟩
  generalize (t.driver.eventWait (some ready)).filter (fun f => decide (f.fd = fd)) = l
    at hpairwise hmem
  cases l with
  | nil =>
      rw [if_pos]
      by_contra hne
      exact absurd ((hmem _).mpr ⟨rfl, hne⟩) List.not_mem_nil
  | cons f rest =>
      obtain ⟨rfl, hne⟩ := (hmem f).mp List.mem_cons_self
      rw [if_neg hne]
      cases rest with
      | nil => rfl
      | cons g rest =>
          -- two of them would have the same descriptor, and one would come first
          obtain ⟨rfl, -⟩ := (hmem g).mp (by simp)
          exact absurd (List.rel_of_pairwise_cons hpairwise List.mem_cons_self) (lt_irrefl _)

/-! ## A round of `process_events` -/

/-- The loop holds the address of an entry. -/
def DispatchPhase.holdsEntry {κ : Type} : DispatchPhase κ → Bool
  | between .. => true
  | _ => false

/-- What the entries say that is registered. -/
def FileTable.registered {κ δ : Type} (t : FileTable κ δ) : Registered κ :=
  fun fd => (t.entry fd).cb

/-- A bit of an entry is set exactly where it has a callback. -/
structure FileTable.Marks {κ δ : Type} (t : FileTable κ δ) : Prop where
  sized : t.Sized
  marked : ∀ fd, (t.entry fd).Marked

namespace FileTable

variable {κ δ ε : Type} {D : Driver δ ε} {init : ℕ → δ → Prop} {t u : FileTable κ δ}

theorem Fresh.marks (hfresh : t.Fresh init) : t.Marks := by
  refine ⟨hfresh.sized, fun fd d => ?_⟩
  rw [hfresh.entry]
  cases d <;> rfl

theorem Marks.step (h : t.Marks) {a : FileAction κ ε}
    (hstep : (fileMachine κ D init).step t a = some u) : u.Marks := by
  have hset (fd : ℕ) {event : FileEntry κ} (hevent : event.Marked)
      (hentry : u.entry = Function.update t.entry fd event) (f : ℕ) : (u.entry f).Marked := by
    rw [hentry, Function.update_apply]
    split
    · exact hevent
    · exact h.marked f
  cases a with
  | create e e' fd mask ctxt =>
      obtain ⟨⟨ret, v⟩, hcreate, rfl⟩ := Option.map_eq_some_iff.mp hstep
      have hcreated := createFileEvent_cases h.sized hcreate
      refine ⟨hcreated.sized h.sized, ?_⟩
      by_cases hret : ret = 0
      · refine hset fd ?_ (hcreated.entry h.sized hret)
        split
        · exact h.marked fd
        · exact (h.marked fd).register mask ctxt
      · intro f
        rw [(hcreated.entry_of_ne h.sized hret).1]
        exact h.marked f
  | delete e fd mask =>
      have hdeleted := deleteFileEvent_cases h.sized hstep
      refine ⟨hdeleted.sized h.sized, hset fd ?_ (hdeleted.entry h.sized).2⟩
      split
      · exact h.marked fd
      · exact (h.marked fd).unregister mask
  | wait e =>
      obtain rfl := Option.some.inj hstep
      exact ⟨⟨h.sized.nevent_pos, h.sized.length_eq⟩, h.marked⟩

end FileTable

namespace Dispatch

variable {κ : Type} {r s t : Dispatch κ Select}

/-- The calls for a descriptor. -/
def callsFor (fd : ℕ) (called : List (Invocation κ)) : List (Invocation κ) :=
  called.filter fun i => i.fd = fd

/-- The condition on a step: a descriptor fits into the sets, and no callback for reading makes the
table grow, as the loop goes on with the address of an entry. -/
def roomy (r : Dispatch κ Select) : DispatchAction κ (Option (ℕ → Mask)) → Prop
  | .call (.create e e' fd mask ctxt) =>
      FileTable.fits (.create e e' fd mask ctxt) ∧
        (r.phase.holdsEntry = true → fd < r.table.nevent)
  | _ => True

instance decidableRoomy (r : Dispatch κ Select) (a : DispatchAction κ (Option (ℕ → Mask))) :
    Decidable (r.roomy a) :=
  match a with
  | .call (.create e e' fd mask ctxt) =>
      inferInstanceAs (Decidable (FileTable.fits (.create e e' fd mask ctxt) ∧
        (r.phase.holdsEntry = true → fd < r.table.nevent)))
  | .call (.delete ..) => .isTrue trivial
  | .call (.wait _) => .isTrue trivial
  | .fire .. => .isTrue trivial
  | .testReading => .isTrue trivial
  | .testWriting _ => .isTrue trivial
  | .finish => .isTrue trivial

/-- The step belongs to a round, and leaves the registrations of a descriptor alone. -/
def sparing (fd : ℕ) : DispatchAction κ (Option (ℕ → Mask)) → Prop
  | .call (.create _ _ f _ _) => f ≠ fd
  | .call (.delete _ f _) => f ≠ fd
  | .fire .. => False
  | .finish => False
  | _ => True

instance decidableSparing (fd : ℕ) (a : DispatchAction κ (Option (ℕ → Mask))) :
    Decidable (sparing fd a) :=
  match a with
  | .call (.create _ _ f _ _) => inferInstanceAs (Decidable (f ≠ fd))
  | .call (.delete _ f _) => inferInstanceAs (Decidable (f ≠ fd))
  | .call (.wait _) => .isTrue trivial
  | .fire .. => .isFalse id
  | .testReading => .isTrue trivial
  | .testWriting _ => .isTrue trivial
  | .finish => .isFalse id

/-- The condition on the steps of such a round. -/
def inRound (fd : ℕ) (r : Dispatch κ Select) (a : DispatchAction κ (Option (ℕ → Mask))) : Prop :=
  r.roomy a ∧ sparing fd a

instance decidableInRound (fd : ℕ) (r : Dispatch κ Select)
    (a : DispatchAction κ (Option (ℕ → Mask))) : Decidable (r.inRound fd a) :=
  inferInstanceAs (Decidable (_ ∧ _))

/-! ### The calls of the owner -/

/-- A call of the owner is a step of the table, and leaves what was called alone. -/
theorem ownerCall_eq (hsized : r.table.Sized) {b : FileAction κ (Option (ℕ → Mask))}
    (hstep : r.ownerCall selectDriver b = some t) :
    (fileMachine κ selectDriver Select.Fresh).step r.table b = some t.table ∧
      t.called = r.called ∧ t.phase = r.phase.move (t.table.nevent ≠ r.table.nevent) := by
  cases b with
  | create e e' fd mask ctxt =>
      simp only [ownerCall] at hstep
      split at hstep
      · cases hstep
      · split at hstep
        · cases hstep
        · rename_i ret table hcreate
          obtain rfl := Option.some.inj hstep
          exact ⟨Option.map_eq_some_iff.mpr ⟨_, hcreate, rfl⟩, rfl, rfl⟩
  | delete e fd mask =>
      simp only [ownerCall] at hstep
      split at hstep
      · cases hstep
      · rename_i table hdelete
        obtain rfl := Option.some.inj hstep
        have hnevent := ((FileTable.deleteFileEvent_cases hsized hdelete).entry hsized).1
        refine ⟨hdelete, rfl, ?_⟩
        dsimp only
        rw [hnevent, decide_eq_false (not_not_intro rfl)]
        cases r.phase <;> simp [DispatchPhase.move]
  | wait e => cases hstep

/-- A call for another descriptor leaves the entry alone. -/
theorem entry_of_sparing {u : FileTable κ Select} {b : FileAction κ (Option (ℕ → Mask))} {fd : ℕ}
    {v : FileTable κ Select} (hsized : u.Sized) (hsparing : sparing fd (.call b))
    (hstep : (fileMachine κ selectDriver Select.Fresh).step u b = some v) :
    v.entry fd = u.entry fd := by
  cases b with
  | create e e' f mask ctxt =>
      have hne : fd ≠ f := Ne.symm hsparing
      obtain ⟨⟨ret, w⟩, hcreate, rfl⟩ := Option.map_eq_some_iff.mp hstep
      have hcreated := FileTable.createFileEvent_cases hsized hcreate
      by_cases hret : ret = 0
      · rw [hcreated.entry hsized hret, Function.update_of_ne hne]
      · rw [(hcreated.entry_of_ne hsized hret).1]
  | delete e f mask =>
      have hne : fd ≠ f := Ne.symm hsparing
      have hdeleted := FileTable.deleteFileEvent_cases hsized hstep
      rw [(hdeleted.entry hsized).2, Function.update_of_ne hne]
  | wait e =>
      obtain rfl := Option.some.inj hstep
      rfl

/-- And the table stays where it is while the loop holds the address of an entry. -/
theorem nevent_of_roomy (hsized : r.table.Sized) {b : FileAction κ (Option (ℕ → Mask))}
    (hroomy : r.roomy (.call b)) (hholds : r.phase.holdsEntry = true) {v : FileTable κ Select}
    (hstep : (fileMachine κ selectDriver Select.Fresh).step r.table b = some v) :
    v.nevent = r.table.nevent := by
  cases b with
  | create e e' f mask ctxt =>
      obtain ⟨⟨ret, w⟩, hcreate, rfl⟩ := Option.map_eq_some_iff.mp hstep
      exact (FileTable.createFileEvent_cases hsized hcreate).nevent_of_lt (hroomy.2 hholds)
  | delete e f mask =>
      exact ((FileTable.deleteFileEvent_cases hsized hstep).entry hsized).1
  | wait e =>
      obtain rfl := Option.some.inj hstep
      rfl

/-! ### The two tests -/

/-- What the test for reading calls for an entry. -/
def readingCalls (event : FileEntry κ) (f : FiredFileEvent) : List (Invocation κ) :=
  if event.mask.readable && f.mask.readable then [⟨f.fd, .reading, event.readCb⟩] else []

theorem testReading_eq (f : FiredFileEvent) (rest : List FiredFileEvent) (event : FileEntry κ) :
    (r.testReading f rest event).table = r.table ∧
      (r.testReading f rest event).called = r.called ++ readingCalls event f ∧
      ∃ cb served, (r.testReading f rest event).phase =
        .between f (event.mask.readable && f.mask.readable) cb false served rest := by
  unfold testReading readingCalls
  cases event.mask.readable && f.mask.readable with
  | true => exact ⟨rfl, rfl, _, _, rfl⟩
  | false => exact ⟨rfl, (List.append_nil _).symm, _, _, rfl⟩

theorem callsFor_append (fd : ℕ) (l l' : List (Invocation κ)) :
    callsFor fd (l ++ l') = callsFor fd l ++ callsFor fd l' := List.filter_append _ _

/-- A call that is made is one for its descriptor, and for no other. -/
theorem callsFor_made (fd : ℕ) (made : Bool) (i : Invocation κ) :
    callsFor fd (if made then [i] else []) =
      if i.fd = fd then if made then [i] else [] else [] := by
  cases made with
  | true => simp [callsFor, List.filter_cons]
  | false => simp [callsFor]

theorem callsFor_readingCalls (fd : ℕ) (event : FileEntry κ) (f : FiredFileEvent) :
    callsFor fd (readingCalls event f) = if f.fd = fd then readingCalls event f else [] :=
  callsFor_made fd _ _

variable [DecidableEq κ]

/-- What a fired event is to call. -/
def eventDue (latest : Registered κ) (f : FiredFileEvent) : List (Invocation κ) :=
  Invocation.ofDue f.fd .reading (latest.dueReading f) ++
    Invocation.ofDue f.fd .writing (latest.dueWriting f (latest.dueReading f))

/-- And what the test for writing calls. -/
def writingCalls (event : FileEntry κ) (f : FiredFileEvent) (rfired : Bool) :
    List (Invocation κ) :=
  if event.mask.writable && f.mask.writable && (!rfired || event.readCb ≠ event.writeCb) then
    [⟨f.fd, .writing, event.writeCb⟩]
  else []

/-- What both call, if nobody changes the entry between them. -/
def eventCalls (event : FileEntry κ) (f : FiredFileEvent) : List (Invocation κ) :=
  readingCalls event f ++ writingCalls event f (event.mask.readable && f.mask.readable)

theorem testWriting_eq (f : FiredFileEvent) (rfired : Bool) (served : Option κ)
    (rest : List FiredFileEvent) (event : FileEntry κ) :
    (r.testWriting f rfired served rest event).table = r.table ∧
      (r.testWriting f rfired served rest event).called =
        r.called ++ writingCalls event f rfired ∧
      (r.testWriting f rfired served rest event).phase = .next rest := by
  unfold testWriting writingCalls
  split
  · exact ⟨rfl, rfl, rfl⟩
  · exact ⟨rfl, (List.append_nil _).symm, rfl⟩

/-- They call what is due. -/
theorem eventCalls_eq_due {t : FileTable κ Select} {f : FiredFileEvent}
    (hmarked : (t.entry f.fd).Marked) :
    eventCalls (t.entry f.fd) f = eventDue t.registered f := by
  have hreadable : (t.entry f.fd).mask.readable = (t.entry f.fd).readCb.isSome :=
    hmarked .reading
  have hwritable : (t.entry f.fd).mask.writable = (t.entry f.fd).writeCb.isSome :=
    hmarked .writing
  have hreading : t.registered f.fd .reading = (t.entry f.fd).readCb := rfl
  have hwriting : t.registered f.fd .writing = (t.entry f.fd).writeCb := rfl
  unfold eventCalls eventDue readingCalls writingCalls Registered.dueReading Registered.dueWriting
  rw [hreadable, hwritable, hreading, hwriting]
  cases (t.entry f.fd).readCb with
  | none =>
      cases (t.entry f.fd).writeCb <;> cases f.mask.readable <;> cases f.mask.writable <;>
        simp [Invocation.ofDue]
  | some c =>
      cases (t.entry f.fd).writeCb with
      | none =>
          cases f.mask.readable <;> cases f.mask.writable <;> simp [Invocation.ofDue]
      | some d =>
          by_cases hsame : c = d
          · cases f.mask.readable <;> cases f.mask.writable <;> simp [Invocation.ofDue, hsame]
          · have hother : d ≠ c := fun h => hsame h.symm
            cases f.mask.readable <;> cases f.mask.writable <;>
              simp [Invocation.ofDue, hsame, hother]

/-- What is registered and ready is due exactly if what is ready is. -/
theorem eventDue_and {t : FileTable κ Select} {fd : ℕ} (hmarked : (t.entry fd).Marked)
    (ready : Mask) :
    eventDue t.registered ⟨fd, (t.entry fd).mask.and ready⟩ =
      eventDue t.registered ⟨fd, ready⟩ := by
  have hreading : (t.entry fd).mask.readable = (t.registered fd .reading).isSome :=
    hmarked .reading
  have hwriting : (t.entry fd).mask.writable = (t.registered fd .writing).isSome :=
    hmarked .writing
  unfold eventDue Registered.dueReading Registered.dueWriting Mask.and
  rw [hreading, hwriting]
  cases t.registered fd .reading <;> cases t.registered fd .writing <;> simp

/-- The center with its driver. -/
abbrev selectMachine (κ : Type) [DecidableEq κ] :
    Machine (Dispatch κ Select) (DispatchAction κ (Option (ℕ → Mask))) :=
  dispatchMachine κ selectDriver Select.Fresh

/-- A step of the center is a step of its table or none. -/
theorem table_of_reached (hreached : (selectMachine κ).ReachedUnder roomy r) :
    r.table.Marks ∧
      (fileMachine κ selectDriver Select.Fresh).ReachedUnder (fun _ a => FileTable.fits a)
        r.table := by
  refine hreached.invariant (fun r => r.table.Marks ∧
    (fileMachine κ selectDriver Select.Fresh).ReachedUnder (fun _ a => FileTable.fits a)
      r.table) ?_ ?_
  · intro r hfresh
    have htable : r.table.Fresh Select.Fresh := Fresh.table hfresh
    exact ⟨htable.marks, .start htable⟩
  · rintro r a t ⟨hmarks, htable⟩ hok hstep
    cases a with
    | call b =>
        simp only [dispatchMachine, Dispatch.step] at hstep
        split at hstep
        · have hnext := (ownerCall_eq hmarks.sized hstep).1
          have hfits : FileTable.fits b := by
            cases b with
            | create e e' fd mask ctxt => exact hok.1
            | delete e fd mask => exact trivial
            | wait e => exact trivial
          exact ⟨hmarks.step hnext, htable.step (a := b) hfits hnext⟩
        · cases hstep
    | fire answer fired =>
        simp only [dispatchMachine, Dispatch.step] at hstep
        split at hstep
        · obtain rfl := Option.some.inj hstep
          exact ⟨hmarks, htable⟩
        · cases hstep
    | testReading =>
        simp only [dispatchMachine, Dispatch.step] at hstep
        split at hstep
        · split at hstep
          · cases hstep
          · obtain rfl := Option.some.inj hstep
            rw [(testReading_eq _ _ _).1]
            exact ⟨hmarks, htable⟩
        · cases hstep
    | testWriting freed =>
        simp only [dispatchMachine, Dispatch.step] at hstep
        split at hstep
        · obtain rfl := Option.some.inj hstep
          rw [(testWriting_eq _ _ _ _ _).1]
          exact ⟨hmarks, htable⟩
        · cases hstep
    | finish =>
        simp only [dispatchMachine, Dispatch.step] at hstep
        split at hstep
        · obtain rfl := Option.some.inj hstep
          exact ⟨hmarks, htable⟩
        · cases hstep

/-! ### One descriptor in a round -/

/-- What the round still has to call for a descriptor whose entry stays as it is. -/
def toCome (event : FileEntry κ) (fd : ℕ) : DispatchPhase κ → List (Invocation κ)
  | .outside => []
  | .next rest => (rest.filter fun f => f.fd = fd).flatMap (eventCalls event)
  | .between f rfired _ _ _ rest =>
      (if f.fd = fd then writingCalls event f rfired else []) ++
        (rest.filter fun f => f.fd = fd).flatMap (eventCalls event)

/-- What was called for a descriptor since the round began, and what is to come. -/
structure Underway (event : FileEntry κ) (fd : ℕ) (total : List (Invocation κ))
    (s : Dispatch κ Select) : Prop where
  marks : s.table.Marks
  entry_eq : s.table.entry fd = event
  still : ∀ f rfired cb moved served rest, s.phase = .between f rfired cb moved served rest →
    moved = false
  total_eq : callsFor fd s.called ++ toCome event fd s.phase = total

theorem callsFor_writingCalls (fd : ℕ) (event : FileEntry κ) (f : FiredFileEvent)
    (rfired : Bool) : callsFor fd (writingCalls event f rfired) =
      if f.fd = fd then writingCalls event f rfired else [] :=
  callsFor_made fd _ _

theorem toCome_move (event : FileEntry κ) (fd : ℕ) (replaced : Bool) (p : DispatchPhase κ) :
    toCome event fd (p.move replaced) = toCome event fd p := by
  cases p <;> rfl

namespace Underway

variable {event : FileEntry κ} {fd : ℕ} {total : List (Invocation κ)}

theorem testReading (h : s.Underway event fd total) {f : FiredFileEvent}
    {rest : List FiredFileEvent} (hphase : s.phase = .next (f :: rest)) :
    (s.testReading f rest (s.table.entry f.fd)).Underway event fd total := by
  obtain ⟨htable, hcalled, cb, served, hnext⟩ := @testReading_eq κ s f rest (s.table.entry f.fd)
  refine ⟨by rw [htable]; exact h.marks, by rw [htable]; exact h.entry_eq, ?_, ?_⟩
  · intro f' rfired cb' moved served' rest' hbetween
    cases hnext.symm.trans hbetween
    rfl
  · rw [hcalled, hnext, ← h.total_eq, hphase, callsFor_append, callsFor_readingCalls]
    simp only [toCome]
    by_cases hf : f.fd = fd
    · have hevent : s.table.entry f.fd = event := by rw [hf, h.entry_eq]
      rw [hevent]
      simp [hf, eventCalls]
    · simp [hf]

theorem testWriting (h : s.Underway event fd total) {f : FiredFileEvent} {rfired moved : Bool}
    {cb served : Option κ} {rest : List FiredFileEvent}
    (hphase : s.phase = .between f rfired cb moved served rest) :
    (s.testWriting f rfired served rest (s.table.entry f.fd)).Underway event fd total := by
  obtain ⟨htable, hcalled, hnext⟩ :=
    @testWriting_eq κ s _ f rfired served rest (s.table.entry f.fd)
  refine ⟨by rw [htable]; exact h.marks, by rw [htable]; exact h.entry_eq, ?_, ?_⟩
  · intro f' rfired' cb' moved' served' rest' hbetween
    cases hnext.symm.trans hbetween
  · rw [hcalled, hnext, ← h.total_eq, hphase, callsFor_append, callsFor_writingCalls]
    simp only [toCome]
    by_cases hf : f.fd = fd
    · have hevent : s.table.entry f.fd = event := by rw [hf, h.entry_eq]
      rw [hevent]
      simp [hf]
    · simp [hf]

/-- A call for another descriptor. -/
theorem call (h : s.Underway event fd total) {b : FileAction κ (Option (ℕ → Mask))}
    (hround : s.inRound fd (.call b)) (hstep : s.ownerCall selectDriver b = some t) :
    t.Underway event fd total := by
  obtain ⟨htable, hcalled, hphase⟩ := ownerCall_eq h.marks.sized hstep
  refine ⟨h.marks.step htable, ?_, ?_, ?_⟩
  · rw [entry_of_sparing h.marks.sized hround.2 htable]
    exact h.entry_eq
  · intro f rfired cb moved served rest hbetween
    cases hold : s.phase with
    | outside | next =>
        rw [hphase, hold] at hbetween
        cases hbetween
    | between f' rfired' cb' moved' served' rest' =>
        have hnevent := nevent_of_roomy h.marks.sized hround.1 (by rw [hold]; rfl) htable
        rw [hphase, hold, hnevent] at hbetween
        cases hbetween
        rw [h.still _ _ _ _ _ _ hold, Bool.false_or]
        exact decide_eq_false (not_not_intro rfl)
  · rw [hcalled, hphase, toCome_move]
    exact h.total_eq

/-- The step lemma. -/
theorem step (h : s.Underway event fd total) {a : DispatchAction κ (Option (ℕ → Mask))}
    (hround : s.inRound fd a) (hstep : s.step selectDriver a = some t) :
    t.Underway event fd total := by
  cases a with
  | call b =>
      simp only [Dispatch.step] at hstep
      split at hstep
      · exact h.call hround hstep
      · cases hstep
  | fire answer fired => exact hround.2.elim
  | testReading =>
      simp only [Dispatch.step] at hstep
      split at hstep
      · rename_i f rest hphase
        rw [h.marks.sized.getFileEvent] at hstep
        split at hstep
        · cases hstep
        · rename_i event' hevent
          obtain rfl := Option.some.inj hstep
          split at hevent
          · obtain rfl := Option.some.inj hevent
            exact h.testReading hphase
          · cases hevent
      · cases hstep
  | testWriting freed =>
      simp only [Dispatch.step] at hstep
      split at hstep
      · rename_i f rfired cb moved served rest hphase
        obtain rfl := Option.some.inj hstep
        obtain rfl := h.still _ _ _ _ _ _ hphase
        exact h.testWriting hphase
      · cases hstep
  | finish => exact hround.2.elim

end Underway

/-- **A round calls what is registered and ready, once.**  A descriptor whose registrations nobody
touches during the round is called as its entry said in the beginning: for each direction that
`select` found ready, and one callback for both directions once; and for nothing else. -/
theorem callsFor_of_round {ready : ℕ → Mask} {fd : ℕ}
    (hreached : (selectMachine κ).ReachedUnder roomy r)
    (hfire : (selectMachine κ).step r
      (.fire (some ready) (r.table.driver.eventWait (some ready))) = some s)
    (hround : Relation.ReflTransGen ((selectMachine κ).Moves (inRound fd)) s t)
    (hend : t.phase = .next []) :
    callsFor fd t.called =
      callsFor fd r.called ++ eventDue r.table.registered ⟨fd, ready fd⟩ := by
  obtain ⟨hmarks, htable⟩ := table_of_reached hreached
  have hselects := (FileTable.selects_of_reached htable).1
  have hunderway : t.Underway (r.table.entry fd) fd (callsFor fd r.called ++
      ((r.table.driver.eventWait (some ready)).filter fun f => f.fd = fd).flatMap
        (eventCalls (r.table.entry fd))) := by
    clear hend
    induction hround with
    | refl =>
        simp only [dispatchMachine, Dispatch.step] at hfire
        split at hfire
        · obtain rfl := Option.some.inj hfire
          exact ⟨hmarks, rfl, by rintro _ _ _ _ _ _ ⟨⟩, rfl⟩
        · cases hfire
    | tail _ hmove ih =>
        obtain ⟨a, hok, hstep⟩ := hmove
        exact ih.step hok hstep
  have htotal := hunderway.total_eq
  rw [hend, toCome, List.filter_nil, List.flatMap_nil, List.append_nil] at htotal
  rw [htotal, hselects.filter_eventWait, ← eventDue_and (hmarks.marked fd)]
  split
  · rename_i hnone
    rw [hnone]
    rfl
  · have hdue := @eventCalls_eq_due κ _ r.table ⟨fd, (r.table.entry fd).mask.and (ready fd)⟩
      (hmarks.marked fd)
    rw [List.flatMap_singleton, ← hdue]

/-- A center with its driver, and nothing registered. -/
def selecting : Dispatch Callback Select where
  table := ⟨4, List.replicate 4 .empty, ⟨fun _ => false, fun _ => false, 0, false⟩⟩
  phase := .outside
  latest := fun _ _ => none
  called := []
  due := []

theorem fresh_selecting : selecting.Fresh Select.Fresh :=
  ⟨⟨by decide, rfl, rfl⟩, rfl, rfl, rfl, rfl⟩

/-- The callback of another descriptor, which is called first, deletes itself. -/
theorem callsFor_of_round_other :
    ∃ t : Dispatch Callback Select, t.table.driver.rfds 1 = false ∧
      callsFor 2 t.called =
        [⟨2, .reading, some .readHandler⟩, ⟨2, .writing, some .writeHandler⟩] := by
  obtain ⟨r, s, t, hreplay, hfire, hround, hend, hcalled, hdue, hrfds⟩ : ∃ r s t,
      (selectMachine Callback).replay roomy selecting
        [.call (.create none none 1 .read .other), .call (.create none none 2 .read .readHandler),
          .call (.create none none 2 .write .writeHandler)] = some r ∧
      (selectMachine Callback).step r
        (.fire (some fun _ => .both) (r.table.driver.eventWait (some fun _ => .both))) = some s ∧
      (selectMachine Callback).replay (inRound 2) s
        [.testReading, .call (.delete none 1 .read), .testWriting .empty, .testReading,
          .testWriting .empty] = some t ∧
      t.phase = .next [] ∧ r.called = [] ∧
      eventDue r.table.registered ⟨2, .both⟩ =
        [⟨2, .reading, some .readHandler⟩, ⟨2, .writing, some .writeHandler⟩] ∧
      t.table.driver.rfds 1 = false :=
    ⟨_, _, _, rfl, rfl, rfl, rfl, rfl, rfl, rfl⟩
  refine ⟨t, hrfds, ?_⟩
  rw [callsFor_of_round (.of_replay (.start fresh_selecting) hreplay) hfire
    (Machine.moves_of_replay hround) hend, hcalled]
  exact hdue

end Dispatch

end HwAsync.Event
