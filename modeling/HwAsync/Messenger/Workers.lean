/-
# The references of a worker

`get_worker` hands a new connection to the worker with the fewest references and counts it there.
`_stop` gives the reference back, and the replacement of a connection on another worker moves it.

`Processor::accept` asks for a worker before it knows whether there is a connection to accept, and
every one of its loops ends with an `accept` that fails.  That worker keeps the reference.

The counter has 32 bits and is taken not to wrap.
-/

import HwAsync.Lib.Run
import Mathlib.Algebra.BigOperators.Intervals
import Mathlib.Algebra.BigOperators.Ring.Finset
import Mathlib.Algebra.Order.BigOperators.Group.Finset
import Mathlib.Tactic.Ring

namespace HwAsync.Messenger

open HwAsync.Lib

/-- Whether a connection is open, is being replaced and waits for `deactivate_existing`, which is
to move it to another worker, or is closed. -/
inductive Life
  | opened
  | replacing (newWorker : ℕ)
  | closed
  deriving DecidableEq, Repr

/-- A connection and the worker that it is assigned to. -/
structure Assigned where
  worker : ℕ
  life : Life
  deriving DecidableEq, Repr

/-- What a connection counts for a worker. -/
def Assigned.load (a : Assigned) (w : ℕ) : ℤ :=
  if a.worker = w ∧ a.life ≠ .closed then 1 else 0

/-- The stack and the connections of a messenger, numbered as they are created; the first is the
loopback connection.  `looping` is whether the processor of a worker is in the loop of `accept`.
`surplus` records the references that stand for no connection: those of an `accept` that failed,
less the connections that were accepted without one. -/
structure Workers where
  references : ℕ → ℤ
  created : ℕ
  conns : ℕ → Assigned
  looping : ℕ → Bool
  surplus : ℕ → ℤ

/-- `loads` are the references that `get_worker` reads, one worker after the other.  `acceptRound`
is a round of the loop of a processor, with what `accept` returns; `replace` has the connection
that arrives and the one that it replaces, which may be lossy. -/
inductive WorkerAction
  | construct (loads : List ℕ)
  | createConnect (loads : List ℕ)
  | readable (p : ℕ)
  | acceptRound (p : ℕ) (loads : List ℕ) (r : ℤ)
  | stop (c : ℕ)
  | replace (c e : ℕ) (lossy : Bool)
  | deactivate (e : ℕ)

def eintr : ℤ := 4
def econnaborted : ℤ := 103

/-- The loop of `get_worker`, with the best worker so far and its load. -/
def scan : List ℕ → ℕ → Option ℕ → ℕ → Option ℕ
  | [], _, best, _ => best
  | load :: rest, i, best, minLoad =>
      if load < minLoad then scan rest (i + 1) (some i) load else scan rest (i + 1) best minLoad

/-- The worker that `get_worker` chooses; none if its assertion fails.  `numeric_limits<int>::max()`
is where the comparison starts. -/
def getWorker (loads : List ℕ) : Option ℕ := scan loads 0 none (2 ^ 31 - 1)

/-- The scan keeps the best worker, or finds the first one with the least load. -/
theorem scan_eq_some {loads : List ℕ} {i : ℕ} {best : Option ℕ} {minLoad w : ℕ}
    (h : scan loads i best minLoad = some w) :
    (best = some w ∧ ∀ l ∈ loads, minLoad ≤ l) ∨
      ∃ j l, w = i + j ∧ loads[j]? = some l ∧ l < minLoad ∧ ∀ l' ∈ loads, l ≤ l' := by
  induction loads generalizing i best minLoad with
  | nil => exact .inl ⟨h, fun _ hl => absurd hl List.not_mem_nil⟩
  | cons load rest ih =>
      rw [scan] at h
      split at h
      · rename_i hless
        right
        cases ih h with
        | inl hbest =>
            obtain ⟨hw, hleast⟩ := hbest
            refine ⟨0, load, (Option.some.inj hw).symm, rfl, hless, ?_⟩
            exact List.forall_mem_cons.mpr ⟨le_rfl, hleast⟩
        | inr hlater =>
            obtain ⟨j, l, rfl, hj, hlt, hleast⟩ := hlater
            refine ⟨j + 1, l, by omega, hj, hlt.trans hless, ?_⟩
            exact List.forall_mem_cons.mpr ⟨hlt.le, hleast⟩
      · rename_i hmore
        cases ih h with
        | inl hbest =>
            left
            exact ⟨hbest.1, List.forall_mem_cons.mpr ⟨not_lt.mp hmore, hbest.2⟩⟩
        | inr hlater =>
            right
            obtain ⟨j, l, rfl, hj, hlt, hleast⟩ := hlater
            refine ⟨j + 1, l, by omega, hj, hlt, ?_⟩
            exact List.forall_mem_cons.mpr ⟨hlt.le.trans (not_lt.mp hmore), hleast⟩

/-- `get_worker` chooses a worker with the least load that it read. -/
theorem getWorker_least {loads : List ℕ} {w : ℕ} (h : getWorker loads = some w) :
    ∃ l, loads[w]? = some l ∧ ∀ l' ∈ loads, l ≤ l' := by
  cases scan_eq_some h with
  | inl hbest => cases hbest.1
  | inr hfound =>
      obtain ⟨j, l, rfl, hj, -, hleast⟩ := hfound
      rw [Nat.zero_add]
      exact ⟨l, hj, hleast⟩

namespace Workers

/-- `++references` and `references--`. -/
def refer (w : ℕ) (n : ℤ) (s : Workers) : Workers :=
  { s with references := Function.update s.references w (s.references w + n) }

/-- `create_connection`. -/
def construct (w : ℕ) (s : Workers) : Workers :=
  { s with
    created := s.created + 1
    conns := Function.update s.conns s.created ⟨w, .opened⟩ }

/-- A connection changes. -/
def setConn (c : ℕ) (a : Assigned) (s : Workers) : Workers :=
  { s with conns := Function.update s.conns c a }

/-- `_stop`; none if the assertion of `release_worker` fails. -/
def stop (c : ℕ) (s : Workers) : Option Workers :=
  let conn := s.conns c
  if conn.life = .closed then some s
  else if 0 < s.references conn.worker then
    some ((s.refer conn.worker (-1)).setConn c { conn with life := .closed })
  else none

/-- The record of a reference without a connection, or the other way round. -/
def record (w : ℕ) (n : ℤ) (s : Workers) : Workers :=
  { s with surplus := Function.update s.surplus w (s.surplus w + n) }

/-- A round of the loop of `Processor::accept` on the worker `p`. -/
def acceptRound (localTable : Bool) (p : ℕ) (loads : List ℕ) (r : ℤ)
    (s : Workers) : Option Workers :=
  match if localTable then some p else getWorker loads with
  | none => none
  | some w =>
      let s := if localTable then s else s.refer w 1
      if r = 0 then
        let s := s.construct w
        some (if localTable then s.record w (-1) else s)
      else
        let s := if localTable then s else s.record w 1
        if r = -eintr ∨ r = -econnaborted then some s
        else some { s with looping := Function.update s.looping p false }

/-- Behind the label `replace`. -/
def replace (c e : ℕ) (lossy : Bool) (s : Workers) : Option Workers :=
  if lossy then s.stop e
  else
    (s.stop c).map
      (setConn e { s.conns e with life := .replacing (s.conns c).worker })

/-- `deactivate_existing`; the connection may have been closed meanwhile. -/
def deactivate (e : ℕ) (s : Workers) : Workers :=
  let existing := s.conns e
  match existing.life with
  | .replacing newWorker =>
      ((s.refer existing.worker (-1)).refer newWorker 1).setConn e ⟨newWorker, .opened⟩
  | _ => s

/-- One step, on a stack with local listen tables or without. -/
def step (localTable : Bool) (s : Workers) : WorkerAction → Option Workers
  | .construct loads =>
      if s.created = 0 then
        (getWorker loads).map fun w => (s.refer w 1).construct w
      else none
  | .createConnect loads =>
      if 0 < s.created then (getWorker loads).map fun w => (s.refer w 1).construct w else none
  | .readable p =>
      if 0 < s.created then some { s with looping := Function.update s.looping p true } else none
  | .acceptRound p loads r =>
      if s.looping p then s.acceptRound localTable p loads r else none
  | .stop c => if c < s.created then s.stop c else none
  | .replace c e lossy =>
      if c < s.created ∧ e < s.created ∧ c ≠ e ∧ (s.conns c).life = .opened ∧
          (s.conns e).life = .opened then s.replace c e lossy
      else none
  | .deactivate e => if e < s.created then some (s.deactivate e) else none

/-- Before the messenger is constructed. -/
def Fresh (s : Workers) : Prop :=
  s.created = 0 ∧ s.references = 0 ∧ s.surplus = 0 ∧ ∀ p, s.looping p = false

/-- The workers of a messenger. -/
def machine (localTable : Bool) : Machine Workers WorkerAction := ⟨Fresh, step localTable⟩

/-- The number of open connections that are assigned to a worker. -/
def openOn (s : Workers) (w : ℕ) : ℕ :=
  ((Finset.range s.created).filter fun c =>
    (s.conns c).worker = w ∧ (s.conns c).life ≠ .closed).card

/-! ## Every step keeps the balance -/

/-- What the references of a worker are beyond its open connections and what was recorded. -/
def gap (s : Workers) (w : ℕ) : ℤ :=
  s.references w - ∑ c ∈ Finset.range s.created, (s.conns c).load w - s.surplus w

theorem openOn_eq_sum (s : Workers) (w : ℕ) :
    (s.openOn w : ℤ) = ∑ c ∈ Finset.range s.created, (s.conns c).load w :=
  Finset.natCast_card_filter _ _

theorem gap_refer (w : ℕ) (n : ℤ) (s : Workers) (v : ℕ) :
    (s.refer w n).gap v = s.gap v + if v = w then n else 0 := by
  by_cases hv : v = w
  · subst hv
    simp [gap, refer]
    ring
  · simp [gap, refer, hv]

theorem gap_record (w : ℕ) (n : ℤ) (s : Workers) (v : ℕ) :
    (s.record w n).gap v = s.gap v - if v = w then n else 0 := by
  by_cases hv : v = w
  · subst hv
    simp [gap, record]
    ring
  · simp [gap, record, hv]

theorem gap_construct (w : ℕ) (s : Workers) (v : ℕ) :
    (s.construct w).gap v = s.gap v - if v = w then 1 else 0 := by
  have hothers : ∑ c ∈ Finset.range s.created, ((s.construct w).conns c).load v =
      ∑ c ∈ Finset.range s.created, (s.conns c).load v := by
    apply Finset.sum_congr rfl
    intro c hc
    have hne : c ≠ s.created := (Finset.mem_range.mp hc).ne
    simp only [construct, Function.update_of_ne hne]
  have hnew : ((s.construct w).conns s.created).load v = if v = w then 1 else 0 := by
    simp [construct, Assigned.load, eq_comm]
  have hsum := Finset.sum_range_succ (fun c => ((s.construct w).conns c).load v) s.created
  rw [hothers, hnew] at hsum
  show s.references v - ∑ c ∈ Finset.range (s.created + 1), _ - s.surplus v = _
  rw [hsum, gap]
  ring

theorem gap_setConn {c : ℕ} (a : Assigned) {s : Workers} (hc : c < s.created) (v : ℕ) :
    (s.setConn c a).gap v = s.gap v + (s.conns c).load v - a.load v := by
  have hmem : c ∈ Finset.range s.created := Finset.mem_range.mpr hc
  have hothers : ∑ d ∈ Finset.range s.created \ {c}, ((s.setConn c a).conns d).load v =
      ∑ d ∈ Finset.range s.created \ {c}, (s.conns d).load v := by
    apply Finset.sum_congr rfl
    intro d hd
    have hne : d ≠ c := by
      rw [Finset.mem_sdiff, Finset.mem_singleton] at hd
      exact hd.2
    simp only [setConn, Function.update_of_ne hne]
  have hself : ((s.setConn c a).conns c).load v = a.load v := by
    simp only [setConn, Function.update_self]
  have hafter := Finset.sum_eq_add_sum_sdiff_singleton_of_mem hmem
    fun d => ((s.setConn c a).conns d).load v
  have hbefore := Finset.sum_eq_add_sum_sdiff_singleton_of_mem hmem fun d => (s.conns d).load v
  rw [hothers, hself] at hafter
  show s.references v - ∑ d ∈ Finset.range s.created, _ - s.surplus v = _
  rw [hafter, gap, hbefore]
  ring

/-- The references of a worker are its open connections and the surplus. -/
def Balanced (s : Workers) : Prop := ∀ w, s.gap w = 0

/-- An open connection counts for its worker, and a closed one for none. -/
theorem load_of_ne {a : Assigned} (h : a.life ≠ .closed) (w : ℕ) :
    a.load w = if w = a.worker then 1 else 0 := by
  simp [Assigned.load, h, eq_comm]

theorem load_closed (w v : ℕ) : (⟨w, .closed⟩ : Assigned).load v = 0 := by
  simp [Assigned.load]

namespace Balanced

variable {s : Workers}

/-- `get_worker` and `create_connection`. -/
theorem construct (h : s.Balanced) (w : ℕ) : ((s.refer w 1).construct w).Balanced := by
  intro v
  rw [gap_construct, gap_refer, h v]
  ring

theorem stop (h : s.Balanced) {c : ℕ} (hc : c < s.created) {t : Workers}
    (hstop : s.stop c = some t) : t.Balanced := by
  simp only [Workers.stop] at hstop
  split at hstop
  · exact Option.some.inj hstop ▸ h
  split at hstop
  · rename_i hlife _
    have hc' : c < (s.refer (s.conns c).worker (-1)).created := hc
    intro v
    rw [← Option.some.inj hstop, gap_setConn _ hc', gap_refer, h v, load_closed]
    show _ + (s.conns c).load v - 0 = 0
    rw [load_of_ne hlife]
    split <;> rfl
  · cases hstop

/-- A connection that stays open on its worker. -/
theorem setLife (h : s.Balanced) {c : ℕ} (hc : c < s.created) {life : Life}
    (hopen : (s.conns c).life ≠ .closed) (hlife : life ≠ .closed) :
    (s.setConn c { s.conns c with life := life }).Balanced := by
  intro v
  rw [gap_setConn _ hc, h v, load_of_ne hopen, load_of_ne hlife]
  ring

theorem replace (h : s.Balanced) {c e : ℕ} {lossy : Bool} (hc : c < s.created)
    (he : e < s.created) (hce : c ≠ e) (hopen : (s.conns e).life = .opened) {t : Workers}
    (hreplace : s.replace c e lossy = some t) : t.Balanced := by
  unfold Workers.replace at hreplace
  split at hreplace
  · exact h.stop he hreplace
  · rw [Option.map_eq_some_iff] at hreplace
    obtain ⟨u, hstop, rfl⟩ := hreplace
    have hbalanced := h.stop hc hstop
    have hkept : u.created = s.created ∧ u.conns e = s.conns e := by
      simp only [Workers.stop] at hstop
      split at hstop
      · exact Option.some.inj hstop ▸ ⟨rfl, rfl⟩
      split at hstop
      · rw [← Option.some.inj hstop]
        exact ⟨rfl, Function.update_of_ne (Ne.symm hce) _ _⟩
      · cases hstop
    rw [← hkept.2]
    apply hbalanced.setLife
    · exact hkept.1 ▸ he
    · rw [hkept.2, hopen]
      decide
    · exact Life.noConfusion

theorem deactivate (h : s.Balanced) {e : ℕ} (he : e < s.created) : (s.deactivate e).Balanced := by
  simp only [Workers.deactivate]
  split
  · rename_i newWorker hlife
    have hopen : (s.conns e).life ≠ .closed := by
      rw [hlife]
      exact Life.noConfusion
    have he' : e < ((s.refer (s.conns e).worker (-1)).refer newWorker 1).created := he
    intro v
    rw [gap_setConn _ he', gap_refer, gap_refer, h v]
    show 0 + _ + _ + (s.conns e).load v - _ = 0
    have hmoved : (⟨newWorker, .opened⟩ : Assigned).life ≠ .closed := Life.noConfusion
    rw [load_of_ne hopen, load_of_ne hmoved]
    split <;> split <;> rfl
  · exact h

theorem acceptRound (h : s.Balanced) {localTable : Bool} {p : ℕ} {loads : List ℕ} {r : ℤ}
    {t : Workers} (hround : s.acceptRound localTable p loads r = some t) : t.Balanced := by
  unfold Workers.acceptRound at hround
  split at hround
  · cases hround
  · rename_i w _
    cases localTable with
    | true =>
        -- a connection that was not counted
        simp only [↓reduceIte] at hround
        split at hround
        · intro v
          rw [← Option.some.inj hround, gap_record, gap_construct, h v]
          split <;> rfl
        split at hround
        · exact Option.some.inj hround ▸ h
        · exact Option.some.inj hround ▸ h
    | false =>
        simp only [Bool.false_eq_true, ↓reduceIte] at hround
        have hfailed : ((s.refer w 1).record w 1).Balanced := by
          intro v
          rw [gap_record, gap_refer, h v]
          ring
        split at hround
        · exact Option.some.inj hround ▸ h.construct w
        split at hround
        · exact Option.some.inj hround ▸ hfailed
        · exact Option.some.inj hround ▸ hfailed

theorem step (h : s.Balanced) {localTable : Bool} {a : WorkerAction} {t : Workers}
    (hstep : s.step localTable a = some t) : t.Balanced := by
  cases a with
  | construct loads | createConnect loads =>
      simp only [Workers.step] at hstep
      split at hstep
      · rw [Option.map_eq_some_iff] at hstep
        obtain ⟨w, -, rfl⟩ := hstep
        exact h.construct w
      · cases hstep
  | readable p =>
      simp only [Workers.step] at hstep
      split at hstep
      · exact Option.some.inj hstep ▸ h
      · cases hstep
  | acceptRound p loads r =>
      simp only [Workers.step] at hstep
      split at hstep
      · exact h.acceptRound hstep
      · cases hstep
  | stop c =>
      simp only [Workers.step] at hstep
      split at hstep
      · rename_i hc
        exact h.stop hc hstep
      · cases hstep
  | replace c e lossy =>
      simp only [Workers.step] at hstep
      split at hstep
      · rename_i hguard
        obtain ⟨hc, he, hce, -, hopen⟩ := hguard
        exact h.replace hc he hce hopen hstep
      · cases hstep
  | deactivate e =>
      simp only [Workers.step] at hstep
      split at hstep
      · rename_i he
        exact Option.some.inj hstep ▸ h.deactivate he
      · cases hstep

end Balanced

/-! ## Runs -/

theorem balanced_of_reached {localTable : Bool} {s : Workers}
    (hreached : (machine localTable).Reached s) (w : ℕ) :
    s.references w = s.openOn w + s.surplus w := by
  have hbalanced := hreached.invariant Balanced
    (fun s hfresh w => by
      obtain ⟨hcreated, hreferences, hsurplus, -⟩ := hfresh
      simp [gap, hcreated, hreferences, hsurplus])
    fun _ _ _ h _ hstep => h.step hstep
  have hgap := hbalanced w
  rw [gap, ← openOn_eq_sum] at hgap
  omega

/-- No reference is taken in vain: the stack has no local listen tables, and `accept` finds a
connection. -/
def Pays (localTable : Bool) (_ : Workers) : WorkerAction → Prop
  | .acceptRound _ _ r => localTable = false ∧ r = 0
  | _ => True

instance (localTable : Bool) (s : Workers) (a : WorkerAction) : Decidable (Pays localTable s a) := by
  cases a <;> unfold Pays <;> infer_instance

theorem surplus_stop {c : ℕ} {s t : Workers} (hstop : s.stop c = some t) :
    t.surplus = s.surplus := by
  simp only [stop] at hstop
  split at hstop
  · rw [← Option.some.inj hstop]
  split at hstop
  · rw [← Option.some.inj hstop]
    rfl
  · cases hstop

theorem surplus_of_step {localTable : Bool} {s t : Workers} {a : WorkerAction}
    (hpays : Pays localTable s a) (hstep : s.step localTable a = some t) :
    t.surplus = s.surplus := by
  cases a with
  | construct loads | createConnect loads =>
      simp only [step] at hstep
      split at hstep
      · rw [Option.map_eq_some_iff] at hstep
        obtain ⟨w, -, rfl⟩ := hstep
        rfl
      · cases hstep
  | readable p =>
      simp only [step] at hstep
      split at hstep
      · rw [← Option.some.inj hstep]
      · cases hstep
  | acceptRound p loads r =>
      obtain ⟨rfl, rfl⟩ := hpays
      simp only [step, acceptRound, Bool.false_eq_true, ↓reduceIte] at hstep
      split at hstep
      · split at hstep
        · cases hstep
        · rw [← Option.some.inj hstep]
          rfl
      · cases hstep
  | stop c =>
      simp only [step] at hstep
      split at hstep
      · exact surplus_stop hstep
      · cases hstep
  | replace c e lossy =>
      simp only [step, replace] at hstep
      split at hstep
      · split at hstep
        · exact surplus_stop hstep
        · rw [Option.map_eq_some_iff] at hstep
          obtain ⟨u, hstop, rfl⟩ := hstep
          have hkept := surplus_stop hstop
          exact hkept
      · cases hstep
  | deactivate e =>
      simp only [step, deactivate] at hstep
      split at hstep
      · rw [← Option.some.inj hstep]
        split <;> rfl
      · cases hstep

/-- **References.**  As long as no reference is taken in vain, the references of a worker are the
number of its open connections; so the worker of an open connection has one to release. -/
theorem references_of_pays {localTable : Bool} {s : Workers}
    (hreached : (machine localTable).ReachedUnder (Pays localTable) s) :
    (∀ w, s.references w = s.openOn w) ∧
      ∀ c < s.created, (s.conns c).life ≠ .closed → 0 < s.references (s.conns c).worker := by
  have hsurplus := hreached.invariant (fun s => s.surplus = 0)
    (fun s (hfresh : s.Fresh) => hfresh.2.2.1)
    fun _ _ _ h hpays hstep => (surplus_of_step hpays hstep).trans h
  have hexact (w : ℕ) : s.references w = s.openOn w := by
    rw [balanced_of_reached hreached.reached w, hsurplus]
    exact add_zero _
  refine ⟨hexact, fun c hc hopen => ?_⟩
  rw [hexact]
  apply Int.natCast_pos.mpr
  apply Finset.card_pos.mpr
  exact ⟨c, Finset.mem_filter.mpr ⟨Finset.mem_range.mpr hc, rfl, hopen⟩⟩

/-- A loop of `Processor::accept` that ends leaves a reference that stands for nothing. -/
theorem surplus_of_loop_end {s t : Workers} {p : ℕ} {loads : List ℕ} {r : ℤ}
    (hstep : s.step false (.acceptRound p loads r) = some t) (hend : t.looping p = false) :
    ∃ w, t.surplus w = s.surplus w + 1 := by
  simp only [step, acceptRound, Bool.false_eq_true, ↓reduceIte] at hstep
  split at hstep
  · rename_i hlooping
    split at hstep
    · cases hstep
    · rename_i w _
      split at hstep
      · rw [← Option.some.inj hstep] at hend
        exact absurd (hlooping.symm.trans hend) (by decide)
      · refine ⟨w, ?_⟩
        split at hstep <;> rw [← Option.some.inj hstep] <;> exact Function.update_self ..
  · cases hstep

/-- A messenger that is not constructed yet. -/
def unconstructed : Workers := ⟨0, 0, fun _ => ⟨0, .closed⟩, fun _ => false, 0⟩

/-- A connection is accepted and replaces the one to the same peer, which moves to its worker. -/
theorem references_of_pays_replaced :
    ∃ s, (machine false).ReachedUnder (Pays false) s ∧ s.references 0 = 1 ∧ s.references 1 = 0 ∧
      s.references 2 = 1 ∧ ∀ w, s.references w = s.openOn w := by
  obtain ⟨s, hreplay, h0, h1, h2⟩ : ∃ s, (machine false).replay (Pays false) unconstructed
      [.construct [0, 0, 0], .createConnect [1, 0, 0], .readable 0, .acceptRound 0 [1, 1, 0] 0,
        .replace 2 1 false, .deactivate 1] = some s ∧
      s.references 0 = 1 ∧ s.references 1 = 0 ∧ s.references 2 = 1 :=
    ⟨_, rfl, rfl, rfl, rfl⟩
  have hfresh : unconstructed.Fresh := ⟨rfl, rfl, rfl, fun _ => rfl⟩
  have hreached := Machine.ReachedUnder.of_replay (.start hfresh) hreplay
  exact ⟨s, hreached, h0, h1, h2, (references_of_pays hreached).1⟩

/-- One connection is accepted, and the next `accept` of the loop would block: its worker has a
reference for nothing, and keeps it when everything is closed. -/
theorem not_references_blocked :
    ∃ s, (machine false).Reached s ∧ (∀ c < s.created, (s.conns c).life = .closed) ∧
      s.references 0 = 1 ∧ s.openOn 0 = 0 := by
  obtain ⟨s, hreplay, hcreated, hclosed, hreferences⟩ : ∃ s, (machine false).replay
      (fun _ _ => True) unconstructed
      [.construct [0, 0], .readable 0, .acceptRound 0 [1, 0] 0, .acceptRound 0 [1, 1] (-11),
        .stop 0, .stop 1] = some s ∧ s.created = 2 ∧
      (∀ c < 2, (s.conns c).life = .closed) ∧ s.references 0 = 1 :=
    ⟨_, rfl, rfl, by decide, rfl⟩
  have hfresh : unconstructed.Fresh := ⟨rfl, rfl, rfl, fun _ => rfl⟩
  refine ⟨s, .of_replay (.start hfresh) hreplay, hcreated ▸ hclosed, hreferences, ?_⟩
  rw [openOn, Finset.card_eq_zero, Finset.filter_eq_empty_iff, hcreated]
  intro c hc hopen
  exact hopen.2 (hclosed c (Finset.mem_range.mp hc))

end Workers

end HwAsync.Messenger
