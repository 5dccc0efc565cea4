/-
# The table of pollers

A center keeps its pollers in a vector, and every poller knows its index there.  The destructor puts
the last poller in the place of the one that goes, so that it can be called while `process_events`
goes through the vector by index: whoever is moved goes to a lower index, where the scan has been
before or will come to anyway.

A `slot` is an `int`, and the index of the scan a `uint32_t`.  Both are kept as such: the size of
the vector is cut down where a poller is constructed, and the slot is extended where it is an index.
-/

import HwAsync.Lib.Run
import HwAsync.Lib.SwapRemove
import Mathlib.Algebra.Group.Int.Defs
import Mathlib.Algebra.Group.Nat.Defs
import Mathlib.Data.Finset.Basic
import Mathlib.Tactic.Common

namespace HwAsync.Event

open HwAsync.Lib

/-- The loop over the pollers.  `moved` are those that a destructor moved since it began, and
`since` is what number the next poller had then; nothing reads either. -/
structure Scan where
  i : UInt32
  numevents : Int32
  /-- The call of `poll()` has not returned. -/
  polling : Bool
  invoked : List ℕ
  moved : List ℕ
  since : ℕ

/-- The pollers of a center, numbered as they are constructed. -/
structure PollerRun where
  pollers : List ℕ
  slot : ℕ → Int32
  scan : Option Scan
  created : ℕ
  /-- The pollers that were constructed and not destroyed. -/
  live : Finset ℕ

/-- What happens to the pollers. -/
inductive PollerAction
  | construct
  | destroy (p : ℕ)
  | beginScan
  | invoke
  | returned (n : Int32)
  | endScan

/-- The index that an `int` is in a vector. -/
def toIndex (slot : Int32) : ℕ := (slot.toInt % 2 ^ 64).toNat

theorem toIndex_of_toInt {slot : Int32} {k : ℕ} (hslot : slot.toInt = k) : toIndex slot = k := by
  have hbound := slot.toInt_lt
  rw [toIndex, hslot]
  omega

namespace Scan

/-- A destructor moved a poller. -/
def move (p : ℕ) (sc : Scan) : Scan := { sc with moved := p :: sc.moved }

/-- A call of `poll()`. -/
def invoke (p : ℕ) (sc : Scan) : Scan :=
  { sc with polling := true, invoked := sc.invoked ++ [p] }

/-- The call returns. -/
def returned (n : Int32) (sc : Scan) : Scan :=
  { sc with i := sc.i + 1, numevents := sc.numevents + n, polling := false }

/-- The indices below are behind the scan. -/
def front (sc : Scan) : ℕ := sc.i.toNat + sc.polling.toNat

end Scan

namespace PollerRun

/-! ## The operations -/

/-- `Poller()`. -/
def construct (r : PollerRun) : PollerRun :=
  { r with
    pollers := r.pollers ++ [r.created]
    slot := Function.update r.slot r.created (.ofNat r.pollers.length)
    created := r.created + 1
    live := insert r.created r.live }

/-- `~Poller()`; an index outside of the vector is not defined. -/
def destroy (p : ℕ) (r : PollerRun) : Option PollerRun :=
  match r.pollers.getLast? with
  | none => none
  | some last =>
      if toIndex (r.slot p) < r.pollers.length then
        some { r with
          pollers := swapRemove (toIndex (r.slot p)) r.pollers
          slot := Function.update (Function.update r.slot last (r.slot p)) p (-1)
          scan := r.scan.map (Scan.move last)
          live := r.live.erase p }
      else none

/-- One step.  Pollers come and go at any time, also before a call of `poll()` has returned. -/
def step (r : PollerRun) : PollerAction → Option PollerRun
  | .construct => some r.construct
  | .destroy p => if p ∈ r.live then r.destroy p else none
  | .beginScan =>
      match r.scan with
      | none => some { r with scan := some ⟨0, 0, false, [], [], r.created⟩ }
      | some _ => none
  | .invoke =>
      match r.scan with
      | none => none
      | some sc =>
          match sc.polling, r.pollers[sc.i.toNat]? with
          | false, some p => some { r with scan := some (sc.invoke p) }
          | _, _ => none
  | .returned n =>
      match r.scan with
      | none => none
      | some sc =>
          if sc.polling then some { r with scan := some (sc.returned n) } else none
  | .endScan =>
      match r.scan with
      | none => none
      | some sc =>
          if sc.polling = false ∧ r.pollers.length ≤ sc.i.toNat then some { r with scan := none }
          else none

/-- A center without pollers. -/
structure Fresh (r : PollerRun) : Prop where
  pollers : r.pollers = []
  scan : r.scan = none
  live : r.live = ∅

/-- Any sequence of constructions, destructions and scans. -/
def machine : Machine PollerRun PollerAction where
  start := Fresh
  step := step

/-- The size of the vector is a slot. -/
def Fits (r : PollerRun) : PollerAction → Prop
  | .construct => r.pollers.length < 2 ^ 31
  | _ => True

instance (r : PollerRun) (a : PollerAction) : Decidable (r.Fits a) :=
  match a with
  | .construct => inferInstanceAs (Decidable (_ < _))
  | .destroy _ | .beginScan | .invoke | .returned _ | .endScan => inferInstanceAs (Decidable True)

/-- The table survives: slots are indices, the pollers in it are those that live, each can be
destroyed, and a scan invokes none twice and none that was destroyed. -/
structure Survives (r : PollerRun) : Prop where
  slot_eq : ∀ i p : ℕ, r.pollers[i]? = some p → (r.slot p).toInt = i
  nodup : r.pollers.Nodup
  mem_iff : ∀ p, p ∈ r.pollers ↔ p ∈ r.live
  destroys : ∀ p ∈ r.live, (r.destroy p).isSome = true
  once : ∀ sc ∈ r.scan, sc.invoked.Nodup
  invokes : ∀ sc ∈ r.scan, sc.polling = false → ∀ p, r.pollers[sc.i.toNat]? = some p →
    p ∈ r.live ∧ p ∉ sc.invoked

/-! ## The steps of the scan -/

variable {r t : PollerRun}

theorem step_invoke (hstep : r.step .invoke = some t) :
    ∃ sc p, r.scan = some sc ∧ sc.polling = false ∧ r.pollers[sc.i.toNat]? = some p ∧
      t = { r with scan := some (sc.invoke p) } := by
  simp only [step] at hstep
  split at hstep
  · cases hstep
  · rename_i sc hscan
    split at hstep
    · rename_i p hpolling hget
      exact ⟨sc, p, hscan, hpolling, hget, (Option.some.inj hstep).symm⟩
    · cases hstep

theorem step_returned {n : Int32} (hstep : r.step (.returned n) = some t) :
    ∃ sc, r.scan = some sc ∧ sc.polling = true ∧
      t = { r with scan := some (sc.returned n) } := by
  simp only [step] at hstep
  split at hstep
  · cases hstep
  · rename_i sc hscan
    obtain ⟨hpolling, heq⟩ := Option.ite_none_right_eq_some.mp hstep
    exact ⟨sc, hscan, hpolling, (Option.some.inj heq).symm⟩

theorem step_endScan (hstep : r.step .endScan = some t) :
    ∃ sc, r.scan = some sc ∧ sc.polling = false ∧ r.pollers.length ≤ sc.i.toNat ∧
      t = { r with scan := none } := by
  simp only [step] at hstep
  split at hstep
  · cases hstep
  · rename_i sc hscan
    obtain ⟨⟨hpolling, hpassed⟩, heq⟩ := Option.ite_none_right_eq_some.mp hstep
    exact ⟨sc, hscan, hpolling, hpassed, (Option.some.inj heq).symm⟩

/-! ## The table -/

/-- What construction and destruction keep of the table. -/
structure Kept (r : PollerRun) : Prop where
  length_le : r.pollers.length ≤ 2 ^ 31
  slot_eq : ∀ i p : ℕ, r.pollers[i]? = some p → (r.slot p).toInt = i
  nodup : r.pollers.Nodup
  mem_iff : ∀ p, p ∈ r.pollers ↔ p ∈ r.live
  lt_created : ∀ p ∈ r.pollers, p < r.created

theorem Kept.onScan (h : r.Kept) (scan : Option Scan) : Kept { r with scan := scan } :=
  ⟨h.length_le, h.slot_eq, h.nodup, h.mem_iff, h.lt_created⟩

theorem Kept.construct (h : r.Kept) (hfits : r.pollers.length < 2 ^ 31) : r.construct.Kept := by
  have hfresh : r.created ∉ r.pollers := fun hmem => Nat.lt_irrefl _ (h.lt_created _ hmem)
  refine ⟨?_, fun i p hp => ?_, ?_, fun p => ?_, fun p hp => ?_⟩
  · rw [PollerRun.construct, List.length_append, List.length_singleton]
    exact hfits
  · simp only [PollerRun.construct] at hp ⊢
    rcases Nat.lt_or_ge i r.pollers.length with hlt | hge
    · rw [List.getElem?_append_left hlt] at hp
      have hne : p ≠ r.created := fun heq => hfresh (heq ▸ List.mem_of_getElem? hp)
      rw [Function.update_of_ne hne]
      exact h.slot_eq i p hp
    · rw [List.getElem?_append_right hge, List.getElem?_singleton] at hp
      obtain ⟨hi, heq⟩ := Option.ite_none_right_eq_some.mp hp
      obtain rfl := Option.some.inj heq
      obtain rfl : i = r.pollers.length := by omega
      rw [Function.update_self, Int32.toInt_ofNat_of_lt hfits]
  · exact List.nodup_append.mpr
      ⟨h.nodup, List.nodup_singleton _, fun p hp q hq heq =>
        hfresh (List.mem_singleton.mp hq ▸ heq ▸ hp)⟩
  · simp only [PollerRun.construct]
    rw [List.mem_append, List.mem_singleton, Finset.mem_insert, h.mem_iff, or_comm]
  · simp only [PollerRun.construct] at hp ⊢
    rcases List.mem_append.mp hp with hold | hnew
    · exact Nat.lt_succ_of_lt (h.lt_created p hold)
    · rw [List.mem_singleton.mp hnew]
      exact Nat.lt_succ_self _

/-- What `~Poller()` does to a poller of the table. -/
theorem Kept.exists_destroy (h : r.Kept) {p : ℕ} (hp : p ∈ r.live) :
    ∃ k last, r.pollers[k]? = some p ∧ r.pollers.getLast? = some last ∧
      r.destroy p = some { r with
        pollers := swapRemove k r.pollers
        slot := Function.update (Function.update r.slot last (r.slot p)) p (-1)
        scan := r.scan.map (Scan.move last)
        live := r.live.erase p } := by
  obtain ⟨k, hlt, hk⟩ := List.mem_iff_getElem.mp ((h.mem_iff p).mpr hp)
  have hget : r.pollers[k]? = some p := by rw [List.getElem?_eq_getElem hlt, hk]
  have hindex : toIndex (r.slot p) = k := toIndex_of_toInt (h.slot_eq k p hget)
  cases hlast : r.pollers.getLast? with
  | none =>
      rw [List.getLast?_eq_none_iff.mp hlast] at hget
      cases hget
  | some last =>
      refine ⟨k, last, hget, rfl, ?_⟩
      rw [destroy, hlast]
      simp only [hindex, if_pos hlt]

theorem Kept.destroy (h : r.Kept) {p : ℕ} (hp : p ∈ r.live) (hdestroy : r.destroy p = some t) :
    t.Kept := by
  obtain ⟨k, last, hget, hlast, heq⟩ := h.exists_destroy hp
  obtain rfl := Option.some.inj (heq.symm.trans hdestroy)
  have hperm := perm_swapRemove hget
  obtain ⟨hgone, hnodup⟩ := List.nodup_cons.mp (hperm.nodup_iff.mp h.nodup)
  have hrest : ∀ q, q ∈ swapRemove k r.pollers ↔ q ≠ p ∧ q ∈ r.pollers := by
    intro q
    rw [hperm.mem_iff, List.mem_cons]
    constructor
    · exact fun hq => ⟨fun heq => hgone (heq ▸ hq), .inr hq⟩
    · exact fun hq => hq.2.resolve_left hq.1
  refine ⟨?_, fun i q hq => ?_, hnodup, fun q => ?_, fun q hq => ?_⟩
  · rw [length_swapRemove]
    exact (Nat.sub_le _ _).trans h.length_le
  · have hne : q ≠ p := ((hrest q).mp (List.mem_of_getElem? hq)).1
    simp only [Function.update_of_ne hne]
    by_cases hi : i = k
    · -- the slot that was freed has the last poller now
      subst hi
      obtain rfl := Option.some.inj (hlast.symm.trans (getLast?_of_getElem?_swapRemove hq))
      rw [Function.update_self]
      exact h.slot_eq i p hget
    · have hold := getElem?_swapRemove_of_ne hi hq
      have hother : q ≠ last := by
        rintro rfl
        have hlt := (List.getElem?_eq_some_iff.mp hq).1
        rw [length_swapRemove] at hlt
        rw [List.getLast?_eq_getElem?] at hlast
        have hsame : i = r.pollers.length - 1 :=
          (List.getElem?_inj (by omega) h.nodup).mp (hold.trans hlast.symm)
        omega
      rw [Function.update_of_ne hother]
      exact h.slot_eq i q hold
  · rw [hrest, h.mem_iff, Finset.mem_erase]
  · exact h.lt_created q ((hrest q).mp hq).2

/-! ## The scan -/

/-- Whoever was invoked and is still in the table is behind the scan; and whoever is behind the scan
was invoked, or was moved or constructed while it went on. -/
structure Ordered (r : PollerRun) (sc : Scan) : Prop where
  front_le : sc.front ≤ 2 ^ 31
  nodup : sc.invoked.Nodup
  behind : ∀ p ∈ sc.invoked, ∀ k : ℕ, r.pollers[k]? = some p → k < sc.front
  lt_created : ∀ p ∈ sc.invoked, p < r.created
  covers : ∀ k p : ℕ, k < sc.front → r.pollers[k]? = some p →
    p ∈ sc.invoked ∨ p ∈ sc.moved ∨ sc.since ≤ p
  since_le : sc.since ≤ r.created

theorem Ordered.construct {sc : Scan} (h : r.Ordered sc) : r.construct.Ordered sc := by
  refine ⟨h.front_le, h.nodup, fun p hp k hk => ?_,
    fun p hp => Nat.lt_succ_of_lt (h.lt_created p hp), fun k p hlt hk => ?_,
    Nat.le_succ_of_le h.since_le⟩
  · simp only [PollerRun.construct] at hk
    rcases Nat.lt_or_ge k r.pollers.length with hlt | hge
    · rw [List.getElem?_append_left hlt] at hk
      exact h.behind p hp k hk
    · rw [List.getElem?_append_right hge, List.getElem?_singleton] at hk
      have heq := Option.some.inj (Option.ite_none_right_eq_some.mp hk).2
      exact absurd (h.lt_created p hp) (heq ▸ Nat.lt_irrefl _)
  · simp only [PollerRun.construct] at hk
    rcases Nat.lt_or_ge k r.pollers.length with hold | hge
    · rw [List.getElem?_append_left hold] at hk
      exact h.covers k p hlt hk
    · rw [List.getElem?_append_right hge, List.getElem?_singleton] at hk
      have heq := Option.some.inj (Option.ite_none_right_eq_some.mp hk).2
      exact .inr (.inr (heq ▸ h.since_le))

/-- No element of the table comes back in front of the scan. -/
theorem Ordered.move {sc : Scan} (h : r.Ordered sc) {k last : ℕ}
    (hlast : r.pollers.getLast? = some last) {slot : ℕ → Int32} {scan : Option Scan}
    {live : Finset ℕ} :
    Ordered ⟨swapRemove k r.pollers, slot, scan, r.created, live⟩ (sc.move last) := by
  refine ⟨h.front_le, h.nodup, fun p hp j hj => ?_, h.lt_created, fun j p hlt hj => ?_, h.since_le⟩
  · obtain ⟨j', hle, hj'⟩ := exists_le_of_getElem?_swapRemove hj
    exact Nat.lt_of_le_of_lt hle (h.behind p hp j' hj')
  · by_cases hself : j = k
    · subst hself
      obtain rfl := Option.some.inj (hlast.symm.trans (getLast?_of_getElem?_swapRemove hj))
      exact .inr (.inl List.mem_cons_self)
    · rcases h.covers j p hlt (getElem?_swapRemove_of_ne hself hj) with hin | hmoved | hnew
      · exact .inl hin
      · exact .inr (.inl (List.mem_cons_of_mem _ hmoved))
      · exact .inr (.inr hnew)

/-- Whoever is next was not invoked. -/
theorem Ordered.not_mem {sc : Scan} (h : r.Ordered sc) {p : ℕ} (hpolling : sc.polling = false)
    (hget : r.pollers[sc.i.toNat]? = some p) : p ∉ sc.invoked := by
  intro hmem
  have hlt := h.behind p hmem _ hget
  rw [Scan.front, hpolling] at hlt
  exact Nat.lt_irrefl _ hlt

theorem Ordered.invoke {sc : Scan} (h : r.Ordered sc) (hkept : r.Kept) {p : ℕ}
    (hpolling : sc.polling = false) (hget : r.pollers[sc.i.toNat]? = some p) :
    Ordered { r with scan := some (sc.invoke p) } (sc.invoke p) := by
  have hlt := (List.getElem?_eq_some_iff.mp hget).1
  have hfront : sc.front = sc.i.toNat := by rw [Scan.front, hpolling]; rfl
  refine ⟨hlt.trans_le hkept.length_le, ?_, fun q hq k hk => ?_, fun q hq => ?_,
    fun k q hk hq => ?_, h.since_le⟩
  · rw [Scan.invoke, List.nodup_append_comm]
    exact List.nodup_cons.mpr ⟨h.not_mem hpolling hget, h.nodup⟩
  · rcases List.mem_append.mp hq with hold | hnew
    · have hbehind := h.behind q hold k hk
      rw [hfront] at hbehind
      exact Nat.lt_succ_of_lt hbehind
    · obtain rfl := List.mem_singleton.mp hnew
      have hsame : sc.i.toNat = k := (List.getElem?_inj hlt hkept.nodup).mp (hget.trans hk.symm)
      exact Nat.lt_succ_of_le (Nat.le_of_eq hsame.symm)
  · rcases List.mem_append.mp hq with hold | hnew
    · exact h.lt_created q hold
    · rw [List.mem_singleton.mp hnew]
      exact hkept.lt_created p (List.mem_of_getElem? hget)
  · rcases Nat.lt_succ_iff_lt_or_eq.mp hk with hold | rfl
    · rcases h.covers k q (by rwa [hfront]) hq with hin | hrest
      · exact .inl (List.mem_append_left _ hin)
      · exact .inr hrest
    · obtain rfl := Option.some.inj (hget.symm.trans hq)
      exact .inl (List.mem_append_right _ (List.mem_singleton_self _))

/-- `i++` does not wrap. -/
theorem Ordered.returned {sc : Scan} (h : r.Ordered sc) (hpolling : sc.polling = true)
    (n : Int32) : Ordered { r with scan := some (sc.returned n) } (sc.returned n) := by
  have hle := h.front_le
  have hfront : (sc.returned n).front = sc.front := by
    rw [Scan.front, hpolling] at hle
    rw [Scan.front, Scan.front, Scan.returned, hpolling, UInt32.toNat_add,
      show (1 : UInt32).toNat = 1 from rfl]
    change _ + 1 ≤ _ at hle
    rw [Nat.mod_eq_of_lt (by omega)]
    rfl
  refine ⟨?_, h.nodup, ?_, h.lt_created, ?_, h.since_le⟩ <;> rw [hfront]
  · exact hle
  · exact h.behind
  · exact h.covers

/-! ## Runs -/

/-- The step lemma. -/
theorem Kept.step {a : PollerAction} (h : r.Kept) (hscan : ∀ sc ∈ r.scan, r.Ordered sc)
    (hfits : r.Fits a) (hstep : r.step a = some t) :
    t.Kept ∧ ∀ sc ∈ t.scan, t.Ordered sc := by
  cases a with
  | construct =>
      cases hstep
      exact ⟨h.construct hfits, fun sc hsc => (hscan sc hsc).construct⟩
  | destroy p =>
      simp only [PollerRun.step, Option.ite_none_right_eq_some] at hstep
      obtain ⟨hp, hdestroy⟩ := hstep
      refine ⟨h.destroy hp hdestroy, fun sc hsc => ?_⟩
      obtain ⟨k, last, hget, hlast, heq⟩ := h.exists_destroy hp
      obtain rfl := Option.some.inj (heq.symm.trans hdestroy)
      obtain ⟨before, hbefore, rfl⟩ := Option.map_eq_some_iff.mp hsc
      exact (hscan before hbefore).move hlast
  | beginScan =>
      simp only [PollerRun.step] at hstep
      split at hstep
      · cases hstep
        refine ⟨h.onScan _, fun sc hsc => ?_⟩
        obtain rfl := Option.some.inj hsc
        exact ⟨Nat.zero_le _, List.nodup_nil, nofun, nofun,
          fun k p hk => absurd hk (Nat.not_lt_zero k), Nat.le_refl _⟩
      · cases hstep
  | invoke =>
      obtain ⟨sc, p, hsome, hpolling, hget, rfl⟩ := step_invoke hstep
      refine ⟨h.onScan _, fun sc' hsc => ?_⟩
      obtain rfl := Option.some.inj hsc
      exact (hscan sc hsome).invoke h hpolling hget
  | returned n =>
      obtain ⟨sc, hsome, hpolling, rfl⟩ := step_returned hstep
      refine ⟨h.onScan _, fun sc' hsc => ?_⟩
      obtain rfl := Option.some.inj hsc
      exact (hscan sc hsome).returned hpolling n
  | endScan =>
      obtain ⟨sc, -, -, -, rfl⟩ := step_endScan hstep
      exact ⟨h.onScan _, nofun⟩

/-- The run lemma. -/
theorem kept_of_reached (hreached : machine.ReachedUnder Fits r) :
    r.Kept ∧ ∀ sc ∈ r.scan, r.Ordered sc := by
  apply hreached.invariant fun r => r.Kept ∧ ∀ sc ∈ r.scan, r.Ordered sc
  · rintro r ⟨hpollers, hscan, hlive⟩
    refine ⟨⟨?_, ?_, ?_, ?_, ?_⟩, ?_⟩ <;> simp [hpollers, hscan, hlive]
  · rintro r a t ⟨h, hscan⟩ hfits hstep
    exact h.step hscan hfits hstep

theorem Kept.survives (h : r.Kept) (hscan : ∀ sc ∈ r.scan, r.Ordered sc) : r.Survives := by
  refine ⟨h.slot_eq, h.nodup, h.mem_iff, fun p hp => ?_, fun sc hsc => (hscan sc hsc).nodup,
    fun sc hsc hpolling p hget => ⟨?_, (hscan sc hsc).not_mem hpolling hget⟩⟩
  · obtain ⟨k, last, -, -, heq⟩ := h.exists_destroy hp
    rw [heq]
    rfl
  · exact (h.mem_iff p).mp (List.mem_of_getElem? hget)

/-- A slot that the size of the vector is not. -/
theorem not_survives_construct (h : r.Kept) (hfull : ¬ r.pollers.length < 2 ^ 31) :
    ¬ r.construct.Survives := by
  intro hsurvives
  have hlength : r.pollers.length = 2 ^ 31 :=
    Nat.le_antisymm h.length_le (Nat.le_of_not_lt hfull)
  have hslot := hsurvives.slot_eq r.pollers.length r.created (by
    rw [PollerRun.construct, List.getElem?_concat_length])
  simp only [PollerRun.construct, Function.update_self, hlength] at hslot
  exact absurd hslot (by decide)

/-- **The table of pollers.**  In every run that has at most `2 ^ 31` pollers at any time the table
survives, whenever pollers come and go; and the next step leaves it so exactly if that is kept. -/
theorem survives_of_fits (hreached : machine.ReachedUnder Fits r) :
    r.Survives ∧ ∀ a t, r.step a = some t → (t.Survives ↔ r.Fits a) := by
  obtain ⟨h, hscan⟩ := kept_of_reached hreached
  refine ⟨h.survives hscan, fun a t hstep => ⟨fun hsurvives => ?_, fun hfits => ?_⟩⟩
  · cases a with
    | construct =>
        cases hstep
        exact not_not.mp fun hfull => not_survives_construct h hfull hsurvives
    | destroy p | beginScan | invoke | returned n | endScan => exact trivial
  · obtain ⟨hkept, hscan'⟩ := h.step hscan hfits hstep
    exact hkept.survives hscan'

/-- A center without pollers. -/
def noPollers : PollerRun := ⟨[], fun _ => -1, none, 0, ∅⟩

theorem fresh_noPollers : noPollers.Fresh := ⟨rfl, rfl, rfl⟩

/-- The first of three pollers destroys itself and constructs another one, and the poller that was
moved is not invoked. -/
theorem survives_of_fits_moved :
    ∃ r, machine.replay Fits noPollers
        [.construct, .construct, .construct, .beginScan, .invoke, .destroy 0, .construct,
          .returned 1, .invoke, .returned 0, .invoke, .returned 0] = some r ∧
      r.pollers = [2, 1, 3] ∧ r.scan.map Scan.invoked = some [0, 1, 3] ∧ r.Survives := by
  obtain ⟨r, hreplay, hpollers, hinvoked⟩ : ∃ r, machine.replay Fits noPollers
      [.construct, .construct, .construct, .beginScan, .invoke, .destroy 0, .construct,
        .returned 1, .invoke, .returned 0, .invoke, .returned 0] = some r ∧
      r.pollers = [2, 1, 3] ∧ r.scan.map Scan.invoked = some [0, 1, 3] := ⟨_, rfl, rfl, rfl⟩
  have hreached : machine.ReachedUnder Fits r := .of_replay (.start fresh_noPollers) hreplay
  exact ⟨r, hreplay, hpollers, hinvoked, (survives_of_fits hreached).1⟩

/-- The table gets as large as it may. -/
theorem exists_length (n : ℕ) (hn : n ≤ 2 ^ 31) :
    ∃ r, machine.ReachedUnder Fits r ∧ r.pollers.length = n := by
  induction n with
  | zero => exact ⟨noPollers, .start fresh_noPollers, rfl⟩
  | succ n ih =>
      obtain ⟨r, hreached, hlength⟩ := ih (Nat.le_of_succ_le hn)
      refine ⟨r.construct, hreached.step (a := .construct) ?_ rfl, ?_⟩
      · show r.pollers.length < 2 ^ 31
        omega
      · rw [construct, List.length_append, List.length_singleton, hlength]

/-- After `2 ^ 31 + 1` constructions the last poller has a negative slot, and cannot be
destroyed. -/
theorem not_survives_last :
    ∃ r, machine.Reached r ∧ ∃ p ∈ r.live, r.pollers[2 ^ 31]? = some p ∧
      (r.slot p).toInt = -2 ^ 31 ∧ r.destroy p = none ∧ ¬ r.Survives := by
  obtain ⟨r, hreached, hlength⟩ := exists_length (2 ^ 31) (Nat.le_refl _)
  have hslot : (r.construct.slot r.created).toInt = -2 ^ 31 := by
    simp only [construct, Function.update_self, hlength]
    decide
  refine ⟨r.construct, hreached.reached.step (a := .construct) trivial rfl, r.created,
    Finset.mem_insert_self _ _, ?_, hslot, ?_, ?_⟩
  · rw [construct, ← hlength, List.getElem?_concat_length]
  · rw [destroy, toIndex, hslot]
    simp only [construct, List.getLast?_concat, List.length_append, List.length_singleton, hlength]
    exact if_neg (by decide)
  · exact not_survives_construct (kept_of_reached hreached).1 (by omega)

/-- The worst that happens: a scan that ends has passed over those only that a destructor moved, or
that were constructed, while it went on. -/
theorem covered_of_endScan (hreached : machine.ReachedUnder Fits r) {sc : Scan}
    (hscan : r.scan = some sc) (hend : r.step .endScan = some t) {p : ℕ} (hp : p ∈ r.pollers) :
    p ∈ sc.invoked ∨ p ∈ sc.moved ∨ sc.since ≤ p := by
  have hordered := (kept_of_reached hreached).2 sc hscan
  obtain ⟨sc', hscan', -, hpassed, -⟩ := step_endScan hend
  obtain rfl := Option.some.inj (hscan.symm.trans hscan')
  obtain ⟨k, hk, hget⟩ := List.mem_iff_getElem.mp hp
  refine hordered.covers k p ?_ (by rw [List.getElem?_eq_getElem hk, hget])
  exact (hk.trans_le hpassed).trans_le (Nat.le_add_right _ _)

end PollerRun

end HwAsync.Event
