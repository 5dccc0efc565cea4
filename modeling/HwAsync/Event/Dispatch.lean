/-
# The dispatch of file events

`process_events` goes through the events that the driver fired.  It takes the address of the entry
of a descriptor once, calls back for reading, and then looks at the entry again for writing.  A
callback may register and delete whatever it likes, its own entry included; if it makes the table
grow, the address is one into memory that was freed, and what stands there may be anything.

Next to the table stands what it is for: the callback registered last for each descriptor and
direction and not deleted since.  What has to be called is said in these terms alone.
-/

import HwAsync.Event.FileTable

namespace HwAsync.Event

open HwAsync.Lib

/-- `FiredFileEvent`. -/
structure FiredFileEvent where
  fd : ℕ
  mask : Mask
  deriving DecidableEq

/-! ## What has to be called -/

/-- The callback registered last for each descriptor and direction, if it was not deleted. -/
abbrev Registered (κ : Type) := ℕ → Direction → Option κ

namespace Registered

variable {κ : Type}

/-- A callback is registered. -/
def create (fd : ℕ) (mask : Mask) (ctxt : κ) (latest : Registered κ) : Registered κ :=
  Function.update latest fd fun d => if mask.has d then some ctxt else latest fd d

/-- Callbacks are deleted. -/
def delete (fd : ℕ) (mask : Mask) (latest : Registered κ) : Registered κ :=
  Function.update latest fd fun d => if mask.has d then none else latest fd d

/-- Whom a fired event calls for reading. -/
def dueReading (f : FiredFileEvent) (latest : Registered κ) : Option κ :=
  if f.mask.readable then latest f.fd .reading else none

/-- Whom it calls for writing after `served` was called for reading: the same callback is not
called again as long as it is registered for both. -/
def dueWriting [DecidableEq κ] (f : FiredFileEvent) (served : Option κ) (latest : Registered κ) :
    Option κ :=
  if f.mask.writable then
    if served.isSome ∧ latest f.fd .reading = served ∧ latest f.fd .writing = served then none
    else latest f.fd .writing
  else none

end Registered

/-! ## The loop -/

/-- A call of what an entry points to; `cb` is `none` for a null pointer. -/
structure Invocation (κ : Type) where
  fd : ℕ
  direction : Direction
  cb : Option κ
  deriving DecidableEq

/-- Where `process_events` is: outside, at the head of its loop, or between its two tests of an
event, with its variables `rfired` and `cb`.  `moved` holds once the table is not the one that
`event` points into, and `served` is what had to be called for reading. -/
inductive DispatchPhase (κ : Type)
  | outside
  | next (rest : List FiredFileEvent)
  | between (f : FiredFileEvent) (rfired : Bool) (cb : Option κ) (moved : Bool)
      (served : Option κ) (rest : List FiredFileEvent)

namespace DispatchPhase

variable {κ : Type}

/-- Callbacks or other code of the owner may run. -/
def callsBack : DispatchPhase κ → Bool
  | outside => true
  | next _ => true
  | between _ rfired _ _ _ _ => rfired

/-- The table may have got a new place in memory. -/
def move (replaced : Bool) : DispatchPhase κ → DispatchPhase κ
  | between f rfired cb moved served rest => between f rfired cb (moved || replaced) served rest
  | p => p

end DispatchPhase

/-- A center that dispatches.  What is registered, and what had to be called so far, stand next to
the table and to what was called. -/
structure Dispatch (κ δ : Type) where
  table : FileTable κ δ
  phase : DispatchPhase κ
  latest : Registered κ
  called : List (Invocation κ)
  due : List (Invocation κ)

/-- `call` is a call of the owner, from a callback or from elsewhere; `fire` is `event_wait`, with
what it fires; then come the two tests for each event, the second of which reads what is `freed`
if the table has moved. -/
inductive DispatchAction (κ ε : Type)
  | call (a : FileAction κ ε)
  | fire (e : ε) (fired : List FiredFileEvent)
  | testReading
  | testWriting (freed : FileEntry κ)
  | finish

/-- What is due, as a list. -/
def Invocation.ofDue {κ : Type} (fd : ℕ) (d : Direction) (due : Option κ) : List (Invocation κ) :=
  due.toList.map fun cb => ⟨fd, d, some cb⟩

namespace Dispatch

variable {κ δ ε : Type}

/-- A call of `create_file_event` or `delete_file_event`, with a mask that is not empty. -/
def ownerCall (D : Driver δ ε) (r : Dispatch κ δ) : FileAction κ ε → Option (Dispatch κ δ)
  | .create e e' fd mask ctxt =>
      if mask = .none then none
      else
        match r.table.createFileEvent D e e' fd mask ctxt with
        | none => none
        | some (ret, table) =>
            some { r with
              table := table
              phase := r.phase.move (table.nevent ≠ r.table.nevent)
              latest := if ret = 0 then r.latest.create fd mask ctxt else r.latest }
  | .delete e fd mask =>
      match r.table.deleteFileEvent D e fd mask with
      | none => none
      | some table => some { r with table := table, latest := r.latest.delete fd mask }
  | .wait _ => none

/-- The test for reading. -/
def testReading (f : FiredFileEvent) (rest : List FiredFileEvent) (event : FileEntry κ)
    (r : Dispatch κ δ) : Dispatch κ δ :=
  let due := r.latest.dueReading f
  let r' := { r with due := r.due ++ Invocation.ofDue f.fd .reading due }
  if event.mask.readable && f.mask.readable then
    { r' with
      called := r'.called ++ [⟨f.fd, .reading, event.readCb⟩]
      phase := .between f true event.readCb false due rest }
  else { r' with phase := .between f false none false due rest }

/-- The test for writing. -/
def testWriting [DecidableEq κ] (f : FiredFileEvent) (rfired : Bool) (served : Option κ)
    (rest : List FiredFileEvent) (event : FileEntry κ) (r : Dispatch κ δ) : Dispatch κ δ :=
  let r' := { r with
    due := r.due ++ Invocation.ofDue f.fd .writing (r.latest.dueWriting f served)
    phase := .next rest }
  if event.mask.writable && f.mask.writable && (!rfired || event.readCb ≠ event.writeCb) then
    { r' with called := r'.called ++ [⟨f.fd, .writing, event.writeCb⟩] }
  else r'

def step [DecidableEq κ] (D : Driver δ ε) (r : Dispatch κ δ) :
    DispatchAction κ ε → Option (Dispatch κ δ)
  | .call a => if r.phase.callsBack then r.ownerCall D a else none
  | .fire e fired =>
      match r.phase with
      | .outside =>
          some { r with
            table := { r.table with driver := (D.eventWait e r.table.driver).2 }
            phase := .next fired }
      | _ => none
  | .testReading =>
      match r.phase with
      | .next (f :: rest) =>
          match r.table.getFileEvent f.fd with
          | none => none
          | some event => some (r.testReading f rest event)
      | _ => none
  | .testWriting freed =>
      match r.phase with
      | .between f rfired _ moved served rest =>
          some (r.testWriting f rfired served rest (if moved then freed else r.table.entry f.fd))
      | _ => none
  | .finish =>
      match r.phase with
      | .next [] => some { r with phase := .outside }
      | _ => none

/-- A center after `init`, with nothing registered. -/
structure Fresh (init : ℕ → δ → Prop) (r : Dispatch κ δ) : Prop where
  table : r.table.Fresh init
  phase : r.phase = .outside
  latest : r.latest = fun _ _ => none
  called : r.called = []
  due : r.due = []

/-- What was called is what had to be called. -/
def Faithful (r : Dispatch κ δ) : Prop := r.called = r.due

/-- The condition on a step.  A callback is not registered with exactly the mask that the descriptor
has already, unless it is the callback that it has; the callback for reading does not make the
table grow; and it does not leave its descriptor, where writing has fired too, with one other
callback for both directions. -/
def follows (r : Dispatch κ δ) : DispatchAction κ ε → Prop
  | .call (.create _ _ fd mask ctxt) =>
      ((r.table.entry fd).mask = mask → ∀ d, mask.has d → r.latest fd d = some ctxt) ∧
        match r.phase with
        | .between .. => fd < r.table.nevent
        | _ => True
  | .testWriting _ =>
      match r.phase with
      | .between f rfired cb _ _ _ =>
          let event := r.table.entry f.fd
          f.mask.writable → event.mask.writable → rfired → event.readCb = event.writeCb →
            event.writeCb = cb
      | _ => True
  | _ => True

instance [DecidableEq κ] (r : Dispatch κ δ) (a : DispatchAction κ ε) : Decidable (r.follows a) := by
  unfold follows
  split
  · have hroom (p : DispatchPhase κ) (fd : ℕ) : Decidable
        (match p with
        | .between .. => fd < r.table.nevent
        | _ => True) := by
      split <;> infer_instance
    exact instDecidableAnd
  · split <;> infer_instance
  · infer_instance

end Dispatch

/-- The dispatch, under any calls between and inside the callbacks. -/
def dispatchMachine {δ ε : Type} (κ : Type) [DecidableEq κ] (D : Driver δ ε)
    (init : ℕ → δ → Prop) : Machine (Dispatch κ δ) (DispatchAction κ ε) where
  start := Dispatch.Fresh init
  step := Dispatch.step D

/-! ## Entries and what is registered -/

namespace FileEntry

variable {κ : Type}

theorem cb_register (mask : Mask) (ctxt : κ) (event : FileEntry κ) (d : Direction) :
    (event.register mask ctxt).cb d = if mask.has d then some ctxt else event.cb d := by
  cases d <;> rfl

theorem cb_unregister (mask : Mask) (event : FileEntry κ) (d : Direction) :
    (event.unregister mask).cb d = if mask.has d then none else event.cb d := by
  cases d <;> rfl

/-- A bit is set exactly where there is a callback. -/
def Marked (event : FileEntry κ) : Prop := ∀ d, event.mask.has d = (event.cb d).isSome

theorem Marked.register {event : FileEntry κ} (h : event.Marked) (mask : Mask) (ctxt : κ) :
    (event.register mask ctxt).Marked := by
  intro d
  have hmask : (event.register mask ctxt).mask.has d = (event.mask.has d || mask.has d) :=
    Mask.has_or event.mask mask d
  rw [hmask, cb_register, h d]
  cases mask.has d
  · simp
  · simp

theorem Marked.unregister {event : FileEntry κ} (h : event.Marked) (mask : Mask) :
    (event.unregister mask).Marked := by
  intro d
  have hmask : (event.unregister mask).mask.has d = (event.mask.has d && !mask.has d) :=
    Mask.has_without event.mask mask d
  rw [hmask, cb_unregister, h d]
  cases mask.has d
  · simp
  · simp

end FileEntry

/-! ## Runs -/

namespace Dispatch

variable {κ δ ε : Type} {D : Driver δ ε} {r t : Dispatch κ δ}

/-- The entries are what is registered, and what was called is what was due. -/
structure Kept (r : Dispatch κ δ) : Prop where
  sized : r.table.Sized
  marked : ∀ fd, (r.table.entry fd).Marked
  cb_eq : ∀ fd d, (r.table.entry fd).cb d = r.latest fd d
  between : ∀ f rfired cb moved served rest, r.phase = .between f rfired cb moved served rest →
    moved = false ∧ cb = served ∧ rfired = served.isSome
  faithful : r.Faithful

theorem Fresh.kept {init : ℕ → δ → Prop} (hfresh : r.Fresh init) : r.Kept where
  sized := hfresh.table.sized
  marked fd d := by
    rw [hfresh.table.entry]
    cases d <;> rfl
  cb_eq fd d := by
    rw [hfresh.table.entry, hfresh.latest]
    cases d <;> rfl
  between f rfired cb moved served rest hphase := by
    rw [hfresh.phase] at hphase
    cases hphase
  faithful := by rw [Faithful, hfresh.called, hfresh.due]

namespace Kept

/-- Nothing is registered for a descriptor whose mask is empty. -/
theorem latest_of_none (h : r.Kept) {fd : ℕ} (hnone : (r.table.entry fd).mask = .none)
    (d : Direction) : r.latest fd d = none := by
  rw [← h.cb_eq, ← Option.isNone_iff_eq_none, ← Option.not_isSome, ← h.marked fd d, hnone]
  cases d <;> rfl

/-- A call of the owner that writes one entry. -/
theorem ownerCall_entry (h : r.Kept) {table : FileTable κ δ} {phase : DispatchPhase κ}
    {latest : Registered κ} {fd : ℕ} {event : FileEntry κ} (hsized : table.Sized)
    (hentry : table.entry = Function.update r.table.entry fd event) (hmarked : event.Marked)
    (hlatest : latest = Function.update r.latest fd event.cb)
    (hbetween : ∀ f rfired cb moved served rest, phase = .between f rfired cb moved served rest →
      moved = false ∧ cb = served ∧ rfired = served.isSome) :
    Kept { r with table := table, phase := phase, latest := latest } where
  sized := hsized
  marked f := by
    dsimp only
    rw [hentry]
    by_cases hf : f = fd
    · rw [hf, Function.update_self]
      exact hmarked
    · rw [Function.update_of_ne hf]
      exact h.marked f
  cb_eq f d := by
    dsimp only
    rw [hentry, hlatest]
    by_cases hf : f = fd
    · rw [hf, Function.update_self, Function.update_self]
    · rw [Function.update_of_ne hf, Function.update_of_ne hf]
      exact h.cb_eq f d
  between := hbetween
  faithful := h.faithful

/-- The table does not move under the feet of the loop. -/
theorem move (h : r.Kept) {e e' : ε} {fd : ℕ} {mask : Mask} {ctxt : κ} {ret : ℤ}
    {table : FileTable κ δ} (hok : r.follows (.call (.create e e' fd mask ctxt)))
    (hcreated : FileTable.Created D e e' fd mask ctxt r.table ret table)
    (f : FiredFileEvent) (rfired : Bool) (cb : Option κ) (moved : Bool) (served : Option κ)
    (rest : List FiredFileEvent)
    (hphase : r.phase.move (table.nevent ≠ r.table.nevent) =
      .between f rfired cb moved served rest) :
    moved = false ∧ cb = served ∧ rfired = served.isSome := by
  cases hold : r.phase with
  | outside =>
    rw [hold] at hphase
    cases hphase
  | next rest' =>
    rw [hold] at hphase
    cases hphase
  | between f' rfired' cb' moved' served' rest' =>
    have hroom := hok.2
    rw [hold] at hroom hphase
    cases hphase
    obtain ⟨hmoved, hcb, hrfired⟩ := h.between _ _ _ _ _ _ hold
    refine ⟨?_, hcb, hrfired⟩
    rw [hmoved, Bool.false_or, hcreated.nevent_of_lt hroom]
    exact decide_eq_false (not_not_intro rfl)

theorem create (h : r.Kept) {e e' : ε} {fd : ℕ} {mask : Mask} {ctxt : κ}
    (hok : r.follows (.call (.create e e' fd mask ctxt)))
    (hstep : r.ownerCall D (.create e e' fd mask ctxt) = some t) : t.Kept := by
  simp only [ownerCall] at hstep
  split at hstep
  · cases hstep
  · split at hstep
    · cases hstep
    · rename_i ret table hcreate
      obtain rfl := Option.some.inj hstep
      have hcreated := FileTable.createFileEvent_cases h.sized hcreate
      have hbetween := h.move hok hcreated
      by_cases hret : ret = 0
      · rw [if_pos hret]
        refine h.ownerCall_entry (hcreated.sized h.sized) (hcreated.entry h.sized hret) ?_ ?_
          hbetween
        · split
          · exact h.marked fd
          · exact (h.marked fd).register mask ctxt
        · unfold Registered.create
          congr 1
          funext d
          by_cases hmask : (r.table.entry fd).mask = mask
          · rw [if_pos hmask, h.cb_eq]
            split
            · rename_i hd
              exact (hok.1 hmask d hd).symm
            · rfl
          · rw [if_neg hmask, FileEntry.cb_register, h.cb_eq]
      · rw [if_neg hret]
        have hentry := (hcreated.entry_of_ne h.sized hret).1
        refine ⟨hcreated.sized h.sized, ?_, ?_, hbetween, h.faithful⟩
        · intro f
          dsimp only
          rw [hentry]
          exact h.marked f
        · intro f d
          dsimp only
          rw [hentry]
          exact h.cb_eq f d

theorem delete (h : r.Kept) {e : ε} {fd : ℕ} {mask : Mask}
    (hstep : r.ownerCall D (.delete e fd mask) = some t) : t.Kept := by
  simp only [ownerCall] at hstep
  split at hstep
  · cases hstep
  · rename_i table hdelete
    obtain rfl := Option.some.inj hstep
    have hdeleted := FileTable.deleteFileEvent_cases h.sized hdelete
    obtain ⟨-, hentry⟩ := hdeleted.entry h.sized
    refine h.ownerCall_entry (hdeleted.sized h.sized) hentry ?_ ?_ h.between
    · split
      · exact h.marked fd
      · exact (h.marked fd).unregister mask
    · unfold Registered.delete
      congr 1
      funext d
      by_cases hnone : (r.table.entry fd).mask = .none
      · rw [if_pos hnone, h.cb_eq, h.latest_of_none hnone, ite_self]
      · rw [if_neg hnone, FileEntry.cb_unregister, h.cb_eq]

theorem testReading (h : r.Kept) (f : FiredFileEvent) (rest : List FiredFileEvent) :
    (r.testReading f rest (r.table.entry f.fd)).Kept := by
  have hfaithful : r.called = r.due := h.faithful
  have hmarked : (r.table.entry f.fd).mask.readable = (r.table.entry f.fd).readCb.isSome :=
    h.marked f.fd .reading
  have hcb : (r.table.entry f.fd).readCb = r.latest f.fd .reading := h.cb_eq f.fd .reading
  unfold Dispatch.testReading Registered.dueReading
  rw [hmarked, hcb]
  cases hfired : f.mask.readable with
  | false =>
    rw [Bool.and_false]
    refine ⟨h.sized, h.marked, h.cb_eq, ?_, ?_⟩
    · rintro _ _ _ _ _ _ ⟨⟩
      exact ⟨rfl, rfl, rfl⟩
    · exact hfaithful.trans (List.append_nil _).symm
  | true =>
    rw [Bool.and_true]
    cases hlatest : r.latest f.fd .reading with
    | none =>
      refine ⟨h.sized, h.marked, h.cb_eq, ?_, ?_⟩
      · rintro _ _ _ _ _ _ ⟨⟩
        exact ⟨rfl, rfl, rfl⟩
      · exact hfaithful.trans (List.append_nil _).symm
    | some c =>
      refine ⟨h.sized, h.marked, h.cb_eq, ?_, ?_⟩
      · rintro _ _ _ _ _ _ ⟨⟩
        exact ⟨rfl, rfl, rfl⟩
      · exact congrArg (· ++ [⟨f.fd, .reading, some c⟩]) hfaithful

section Writing

variable [DecidableEq κ]

theorem testWriting (h : r.Kept) {f : FiredFileEvent} {rfired : Bool} {cb served : Option κ}
    {moved : Bool} {rest : List FiredFileEvent} (freed : FileEntry κ)
    (hphase : r.phase = .between f rfired cb moved served rest)
    (hok : r.follows (.testWriting (ε := ε) freed)) :
    (r.testWriting f rfired served rest (r.table.entry f.fd)).Kept := by
  have hfaithful : r.called = r.due := h.faithful
  have hmarked : (r.table.entry f.fd).mask.writable = (r.table.entry f.fd).writeCb.isSome :=
    h.marked f.fd .writing
  have hread : (r.table.entry f.fd).readCb = r.latest f.fd .reading := h.cb_eq f.fd .reading
  have hwrite : (r.table.entry f.fd).writeCb = r.latest f.fd .writing := h.cb_eq f.fd .writing
  obtain ⟨-, rfl, hrfired⟩ := h.between _ _ _ _ _ _ hphase
  simp only [follows, hphase, hmarked, hread, hwrite] at hok
  have hcalled (called due : List (Invocation κ)) (heq : called = due) :
      Kept { r with called := called, due := due, phase := .next rest } :=
    ⟨h.sized, h.marked, h.cb_eq, by rintro _ _ _ _ _ _ ⟨⟩, heq⟩
  unfold Dispatch.testWriting Registered.dueWriting
  rw [hmarked, hread, hwrite]
  cases hfired : f.mask.writable with
  | false =>
    rw [Bool.and_false]
    exact hcalled _ _ (hfaithful.trans (List.append_nil _).symm)
  | true =>
    rw [Bool.and_true]
    cases hlatest : r.latest f.fd .writing with
    | none =>
      rw [if_pos rfl, ite_self]
      exact hcalled _ _ (hfaithful.trans (List.append_nil _).symm)
    | some c =>
      rw [hfired, hlatest] at hok
      rw [Option.isSome_some, Bool.true_and, if_pos rfl]
      by_cases hskip : rfired = true ∧ r.latest f.fd .reading = some c
      · -- the callback for reading is the one for writing, and it was called
        obtain ⟨hrf, hboth⟩ := hskip
        have hcb := hok rfl rfl hrf hboth
        rw [if_neg (by simp [hrf, hboth]), if_pos ⟨hrfired ▸ hrf, hboth.trans hcb, hcb⟩]
        exact hcalled _ _ (hfaithful.trans (List.append_nil _).symm)
      · have hcalls : (!rfired || decide (r.latest f.fd .reading ≠ some c)) = true := by
          rw [Bool.or_eq_true, Bool.not_eq_true', decide_eq_true_iff]
          by_cases hrf : rfired = true
          · exact .inr fun hboth => hskip ⟨hrf, hboth⟩
          · exact .inl (Bool.not_eq_true _ ▸ hrf)
        rw [if_pos hcalls, if_neg]
        · exact hcalled _ _ (congrArg (· ++ [⟨f.fd, .writing, some c⟩]) hfaithful)
        · rintro ⟨hserved, hreading, hwriting⟩
          exact hskip ⟨hrfired.trans hserved, hreading.trans hwriting.symm⟩

/-- **The step lemma.** -/
theorem step (h : r.Kept) {a : DispatchAction κ ε} (hok : r.follows a)
    (hstep : r.step D a = some t) : t.Kept := by
  cases a with
  | call a =>
    simp only [Dispatch.step] at hstep
    split at hstep
    · cases a with
      | create e e' fd mask ctxt => exact h.create hok hstep
      | delete e fd mask => exact h.delete hstep
      | wait e => cases hstep
    · cases hstep
  | fire e fired =>
    simp only [Dispatch.step] at hstep
    split at hstep
    · obtain rfl := Option.some.inj hstep
      exact ⟨⟨h.sized.nevent_pos, h.sized.length_eq⟩, h.marked, h.cb_eq,
        by rintro _ _ _ _ _ _ ⟨⟩, h.faithful⟩
    · cases hstep
  | testReading =>
    simp only [Dispatch.step] at hstep
    split at hstep
    · rename_i f rest hphase
      rw [h.sized.getFileEvent] at hstep
      split at hstep
      · cases hstep
      · rename_i event hevent
        obtain rfl := Option.some.inj hstep
        split at hevent
        · obtain rfl := Option.some.inj hevent
          exact h.testReading f rest
        · cases hevent
    · cases hstep
  | testWriting freed =>
    simp only [Dispatch.step] at hstep
    split at hstep
    · rename_i f rfired cb moved served rest hphase
      obtain rfl := Option.some.inj hstep
      obtain ⟨rfl, -, -⟩ := h.between _ _ _ _ _ _ hphase
      exact h.testWriting freed hphase hok
    · cases hstep
  | finish =>
    simp only [Dispatch.step] at hstep
    split at hstep
    · obtain rfl := Option.some.inj hstep
      exact ⟨h.sized, h.marked, h.cb_eq, by rintro _ _ _ _ _ _ ⟨⟩, h.faithful⟩
    · cases hstep

end Writing

end Kept

variable [DecidableEq κ]

/-- **The latest registration is called**, in runs whose steps meet the condition: whatever the
callbacks register and delete, what was called for the fired events is what was registered last for
their descriptors and directions, never a null pointer, and a callback for both directions once. -/
theorem faithful_of_follows {init : ℕ → δ → Prop}
    (hreached : (dispatchMachine κ D init).ReachedUnder follows r) : r.Faithful := by
  have hkept : r.Kept := by
    refine hreached.invariant Kept (fun _ => Fresh.kept) ?_
    intro r a t h hok hstep
    exact h.step hok hstep
  exact hkept.faithful

end Dispatch

namespace Dispatch

/-- A center for four descriptors. -/
def four : Dispatch Callback Unit where
  table := ⟨4, List.replicate 4 .empty, ()⟩
  phase := .outside
  latest := fun _ _ => none
  called := []
  due := []

theorem fresh_four : four.Fresh fun _ _ => True := ⟨⟨by decide, rfl, trivial⟩, rfl, rfl, rfl, rfl⟩

/-- One callback for both directions is called once, and what a callback has deleted is not called
any more. -/
theorem faithful_of_follows_both :
    ∃ r : Dispatch Callback Unit, r.called = [⟨2, .reading, some .readHandler⟩] ∧ r.Faithful := by
  obtain ⟨r, hreplay, hcalled⟩ : ∃ r,
      (dispatchMachine Callback compliantDriver fun _ _ => True).replay follows four
        [.call (.create () () 2 .both .readHandler), .call (.create () () 3 .read .other),
          .fire () [⟨2, .both⟩, ⟨3, .read⟩], .testReading, .call (.delete () 3 .read),
          .testWriting .empty, .testReading, .testWriting .empty, .finish] = some r ∧
        r.called = [⟨2, .reading, some .readHandler⟩] := ⟨_, rfl, rfl⟩
  exact ⟨r, hcalled, faithful_of_follows (.of_replay (.start fresh_four) hreplay)⟩

/-- A second registration with the same mask is dropped, and the first callback is called. -/
theorem not_faithful_same :
    ∃ r : Dispatch Callback Unit,
      (dispatchMachine Callback compliantDriver fun _ _ => True).Reached r ∧
        r.latest 2 .reading = some .other ∧ r.called = [⟨2, .reading, some .readHandler⟩] ∧
        ¬ r.Faithful := by
  obtain ⟨r, hreplay, hlatest, hcalled, hdue⟩ : ∃ r,
      (dispatchMachine Callback compliantDriver fun _ _ => True).replay (fun _ _ => True) four
        [.call (.create () () 2 .read .readHandler), .call (.create () () 2 .read .other),
          .fire () [⟨2, .read⟩], .testReading] = some r ∧
        r.latest 2 .reading = some .other ∧ r.called = [⟨2, .reading, some .readHandler⟩] ∧
        r.due = [⟨2, .reading, some .other⟩] := ⟨_, rfl, rfl, rfl, rfl⟩
  refine ⟨r, .of_replay (.start fresh_four) hreplay, hlatest, hcalled, ?_⟩
  rw [Faithful, hcalled, hdue]
  decide

-- The callback for reading leaves another one for both directions, which is not called.
example :
    ((dispatchMachine Callback compliantDriver fun _ _ => True).replay (fun _ _ => True) four
      [.call (.create () () 2 .both .readHandler), .fire () [⟨2, .both⟩], .testReading,
        .call (.delete () 2 .both), .call (.create () () 2 .both .other),
        .testWriting .empty]).map (fun r => (r.called, r.due)) =
      some ([⟨2, .reading, some .readHandler⟩],
        [⟨2, .reading, some .readHandler⟩, ⟨2, .writing, some .other⟩]) := rfl

end Dispatch

end HwAsync.Event
