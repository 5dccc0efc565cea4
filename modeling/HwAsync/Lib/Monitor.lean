/-
# A monitor that counts arrivals

A value lies behind a mutex.  One thread waits until the value is ready: it looks at it with the
mutex held, and goes to sleep on a condition variable as long as it is not.  Others arrive, each
of them once; whoever arrives runs the same section with the mutex held, which writes the value and
wakes the sleeper up somewhere in between.

A sleeper may also wake up for no reason, and a signal is lost if nobody sleeps.  The object is
gone as soon as the waiting thread has returned, so that what matters is that nobody arrives
afterwards, and that nobody sleeps when all have arrived.
-/

import HwAsync.Lib.Run
import Mathlib.Data.Finset.Card
import Mathlib.Logic.Function.Iterate

namespace HwAsync.Lib

universe us ui

/-- A statement of a section: it writes the value, or wakes the sleeper up if the value meets a
condition. -/
inductive Stmt (σ : Type us)
  | write (f : σ → σ)
  | signal (p : σ → Bool)

namespace Stmt

variable {σ : Type us}

def run : Stmt σ → σ → σ
  | .write f, v => f v
  | .signal _, v => v

def wakes : Stmt σ → σ → Bool
  | .write _, _ => false
  | .signal p, v => p v

/-- The value after a section. -/
def runAll : List (Stmt σ) → σ → σ
  | [], v => v
  | s :: rest, v => runAll rest (s.run v)

/-- Whether a section that starts with this value wakes the sleeper up. -/
def wakesAny : List (Stmt σ) → σ → Bool
  | [], _ => false
  | s :: rest, v => s.wakes v || wakesAny rest (s.run v)

end Stmt

/-- The code of a monitor. -/
structure MonitorCode (σ : Type us) where
  initial : σ
  ready : σ → Bool
  body : List (Stmt σ)

/-- The value after so many arrivals. -/
def MonitorCode.after {σ : Type us} (code : MonitorCode σ) (arrivals : ℕ) : σ :=
  (Stmt.runAll code.body)^[arrivals] code.initial

/-- How far the waiting thread is: it has not come yet, it wants the mutex, it looks at the value
with the mutex held, it sleeps, it has seen the value ready and still holds the mutex, it has
returned. -/
inductive Waiter
  | away
  | wanting
  | looking
  | asleep
  | passing
  | returned
  deriving DecidableEq, Repr

namespace Waiter

def holds : Waiter → Bool
  | .looking | .passing => true
  | _ => false

/-- A signal reaches whoever sleeps. -/
def woken : Waiter → Waiter
  | .asleep => .wanting
  | w => w

@[simp] theorem holds_woken (w : Waiter) : w.woken.holds = w.holds := by
  cases w <;> rfl

theorem woken_ne_asleep (w : Waiter) : w.woken ≠ .asleep := by
  cases w <;> simp [woken]

theorem woken_eq_away_iff {w : Waiter} : w.woken = .away ↔ w = .away := by
  cases w <;> simp [woken]

theorem woken_eq_passing_iff {w : Waiter} : w.woken = .passing ↔ w = .passing := by
  cases w <;> simp [woken]

theorem woken_eq_returned_iff {w : Waiter} : w.woken = .returned ↔ w = .returned := by
  cases w <;> simp [woken]

end Waiter

/-- The monitor: the value, the waiting thread, who is in the section and what is left of it, and
who has left it so far. -/
structure Monitor (σ : Type us) (ι : Type ui) where
  value : σ
  waiter : Waiter
  inside : Option (ι × List (Stmt σ))
  left : List ι

/-- The steps of those who arrive, and of the waiting thread.  `wake` is a wakeup for no reason. -/
inductive MonitorAction (ι : Type ui)
  | enter (i : ι)
  | exec
  | leave
  | wait
  | lock
  | look
  | wake
  | pass
  deriving DecidableEq, Repr

/-- A step of the waiting thread after it has come. -/
def MonitorAction.goesOn {ι : Type ui} : MonitorAction ι → Bool
  | .lock | .look | .wake | .pass => true
  | _ => false

namespace Monitor

variable {σ : Type us} {ι : Type ui}

/-- The mutex is free. -/
def free (m : Monitor σ ι) : Bool := m.inside.isNone && !m.waiter.holds

theorem free_iff {m : Monitor σ ι} : m.free ↔ m.inside = none ∧ m.waiter.holds = false := by
  simp [free]

def created (code : MonitorCode σ) : Monitor σ ι := ⟨code.initial, .away, none, []⟩

/-- One step; none if it is not enabled. -/
def step (code : MonitorCode σ) (m : Monitor σ ι) : MonitorAction ι → Option (Monitor σ ι)
  | .enter i => if m.free then some { m with inside := some (i, code.body) } else none
  | .exec =>
      match m.inside with
      | some (i, s :: rest) =>
          some { m with
            value := s.run m.value
            waiter := if s.wakes m.value then m.waiter.woken else m.waiter
            inside := some (i, rest) }
      | _ => none
  | .leave =>
      match m.inside with
      | some (i, []) => some { m with inside := none, left := m.left ++ [i] }
      | _ => none
  | .wait => if m.waiter = .away then some { m with waiter := .wanting } else none
  | .lock => if m.free ∧ m.waiter = .wanting then some { m with waiter := .looking } else none
  | .look =>
      if m.waiter = .looking then
        some { m with waiter := if code.ready m.value then .passing else .asleep }
      else none
  | .wake => if m.waiter = .asleep then some { m with waiter := .wanting } else none
  | .pass => if m.waiter = .passing then some { m with waiter := .returned } else none

def machine (ι : Type ui) (code : MonitorCode σ) : Machine (Monitor σ ι) (MonitorAction ι) :=
  ⟨(· = created code), step code⟩

section Steps

variable {code : MonitorCode σ} {m n : Monitor σ ι}

theorem step_enter {i : ι} (hstep : m.step code (.enter i) = some n) :
    m.free ∧ n = { m with inside := some (i, code.body) } := by
  obtain ⟨hfree, hn⟩ := Option.ite_none_right_eq_some.mp hstep
  exact ⟨hfree, (Option.some.inj hn).symm⟩

theorem step_exec (hstep : m.step code .exec = some n) :
    ∃ i s rest, m.inside = some (i, s :: rest) ∧
      n = { m with
        value := s.run m.value
        waiter := if s.wakes m.value then m.waiter.woken else m.waiter
        inside := some (i, rest) } := by
  simp only [step] at hstep
  split at hstep
  · rename_i i s rest hinside
    exact ⟨i, s, rest, hinside, (Option.some.inj hstep).symm⟩
  · cases hstep

theorem step_leave (hstep : m.step code .leave = some n) :
    ∃ i, m.inside = some (i, []) ∧ n = { m with inside := none, left := m.left ++ [i] } := by
  simp only [step] at hstep
  split at hstep
  · rename_i i hinside
    exact ⟨i, hinside, (Option.some.inj hstep).symm⟩
  · cases hstep

/-- The waiting thread leaves everything but its own place alone. -/
theorem step_goesOn {a : MonitorAction ι} (ha : a.goesOn) (hstep : m.step code a = some n) :
    ∃ w, w ≠ .away ∧ n = { m with waiter := w } := by
  cases a with
  | enter _ | exec | leave | wait => cases ha
  | lock =>
      obtain ⟨-, hn⟩ := Option.ite_none_right_eq_some.mp hstep
      exact ⟨.looking, nofun, (Option.some.inj hn).symm⟩
  | look =>
      obtain ⟨-, hn⟩ := Option.ite_none_right_eq_some.mp hstep
      refine ⟨_, ?_, (Option.some.inj hn).symm⟩
      split <;> nofun
  | wake =>
      obtain ⟨-, hn⟩ := Option.ite_none_right_eq_some.mp hstep
      exact ⟨.wanting, nofun, (Option.some.inj hn).symm⟩
  | pass =>
      obtain ⟨-, hn⟩ := Option.ite_none_right_eq_some.mp hstep
      exact ⟨.returned, nofun, (Option.some.inj hn).symm⟩

end Steps

/-! ## The conditions -/

/-- A section that makes the value ready wakes the sleeper up. -/
def Announces (code : MonitorCode σ) : Prop :=
  ∀ v, code.ready v = false → code.ready (Stmt.runAll code.body v) = true →
    Stmt.wakesAny code.body v = true

/-- The value is ready after so many arrivals, and not before. -/
structure Counts (code : MonitorCode σ) (n : ℕ) : Prop where
  ready : code.ready (code.after n) = true
  not_ready : ∀ k, k < n → code.ready (code.after k) = false

/-- Those who are expected arrive, each of them once. -/
def Once (expected : Finset ι) (m : Monitor σ ι) : MonitorAction ι → Prop
  | .enter i => i ∈ expected ∧ i ∉ m.left
  | _ => True

/-! ## The invariant -/

variable {code : MonitorCode σ}

/-- The value counts the arrivals, and stands for that of the section that goes on. -/
def Tallied (code : MonitorCode σ) (m : Monitor σ ι) : Prop :=
  match m.inside with
  | none => m.value = code.after m.left.length
  | some (_, rest) => Stmt.runAll rest m.value = code.after (m.left.length + 1)

/-- Whoever sleeps has nothing to wake up for, or is going to be woken up by the section that goes
on. -/
def Rests (code : MonitorCode σ) (m : Monitor σ ι) : Prop :=
  match m.inside with
  | none => code.ready m.value = false
  | some (_, rest) =>
      code.ready (Stmt.runAll rest m.value) = true → Stmt.wakesAny rest m.value = true

/-- The invariant. -/
structure Sound (code : MonitorCode σ) (m : Monitor σ ι) : Prop where
  tallied : m.Tallied code
  alone : m.waiter.holds = true → m.inside = none
  rests : m.waiter = .asleep → m.Rests code
  ready : m.waiter = .passing → code.ready m.value = true
  passed : m.waiter = .returned → ∃ k, k ≤ m.left.length ∧ code.ready (code.after k) = true

namespace Sound

variable {m n : Monitor σ ι}

theorem created : (created code : Monitor σ ι).Sound code where
  tallied := rfl
  alone _ := rfl
  rests h := by cases h
  ready h := by cases h
  passed h := by cases h

/-- A step of the waiting thread that goes on to `w`. -/
theorem moves (h : m.Sound code) {w : Waiter}
    (halone : w.holds = true → m.inside = none) (hrests : w = .asleep → m.Rests code)
    (hready : w = .passing → code.ready m.value = true)
    (hpassed : w = .returned → ∃ k, k ≤ m.left.length ∧ code.ready (code.after k) = true) :
    ({ m with waiter := w } : Monitor σ ι).Sound code where
  tallied := h.tallied
  alone := halone
  rests := hrests
  ready := hready
  passed := hpassed

/-- Somebody enters. -/
theorem enter (h : m.Sound code) (hannounces : Announces code) (hfree : m.free) (i : ι) :
    ({ m with inside := some (i, code.body) } : Monitor σ ι).Sound code := by
  obtain ⟨hinside, hholds⟩ := free_iff.mp hfree
  have htallied := h.tallied
  rw [Tallied, hinside] at htallied
  refine ⟨?_, fun hheld => ?_, fun hasleep => ?_, fun hpassing => ?_, h.passed⟩
  · show Stmt.runAll code.body m.value = code.after (m.left.length + 1)
    rw [htallied, MonitorCode.after, MonitorCode.after, Function.iterate_succ_apply']
  · exact absurd hheld (by simp [hholds])
  · have hrests := h.rests hasleep
    rw [Rests, hinside] at hrests
    exact hannounces m.value hrests
  · rw [show m.waiter = .passing from hpassing] at hholds
    cases hholds

/-- Whoever is inside runs a statement. -/
theorem exec (h : m.Sound code) {i : ι} {s : Stmt σ} {rest : List (Stmt σ)}
    (hinside : m.inside = some (i, s :: rest)) :
    ({ m with
      value := s.run m.value
      waiter := if s.wakes m.value then m.waiter.woken else m.waiter
      inside := some (i, rest) } : Monitor σ ι).Sound code := by
  have htallied := h.tallied
  rw [Tallied, hinside] at htallied
  have hnobody : m.waiter.holds = false := by
    cases hholds : m.waiter.holds with
    | false => rfl
    | true => exact absurd (h.alone hholds) (by simp [hinside])
  cases hwakes : s.wakes m.value with
  | false =>
      refine ⟨htallied, fun hheld => ?_, fun hasleep => ?_, fun hpassing => ?_, h.passed⟩
      · exact absurd hheld (by simp [hnobody])
      · have hrests := h.rests hasleep
        rw [Rests, hinside] at hrests
        show code.ready (Stmt.runAll rest (s.run m.value)) = true →
          Stmt.wakesAny rest (s.run m.value) = true
        simpa [Stmt.runAll, Stmt.wakesAny, hwakes] using hrests
      · rw [show m.waiter = .passing from hpassing] at hnobody
        cases hnobody
  | true =>
      refine ⟨htallied, fun hheld => ?_, fun hasleep => ?_, fun hpassing => ?_, fun hreturned => ?_⟩
      · exact absurd hheld (by simp [hnobody])
      · exact absurd hasleep m.waiter.woken_ne_asleep
      · rw [Waiter.woken_eq_passing_iff.mp hpassing] at hnobody
        cases hnobody
      · exact h.passed (Waiter.woken_eq_returned_iff.mp hreturned)

/-- Whoever is inside has run all, and leaves. -/
theorem leave (h : m.Sound code) {i : ι} (hinside : m.inside = some (i, [])) :
    ({ m with inside := none, left := m.left ++ [i] } : Monitor σ ι).Sound code := by
  have htallied := h.tallied
  rw [Tallied, hinside] at htallied
  refine ⟨?_, fun _ => rfl, fun hasleep => ?_, h.ready, fun hreturned => ?_⟩
  · show m.value = code.after (m.left ++ [i]).length
    rwa [List.length_append, List.length_singleton]
  · have hrests := h.rests hasleep
    rw [Rests, hinside] at hrests
    show code.ready m.value = false
    simpa [Stmt.runAll, Stmt.wakesAny] using hrests
  · obtain ⟨k, hk, hready⟩ := h.passed hreturned
    refine ⟨k, hk.trans ?_, hready⟩
    simp

/-- **The step lemma.** -/
theorem step (h : m.Sound code) (hannounces : Announces code) {a : MonitorAction ι}
    (hstep : m.step code a = some n) : n.Sound code := by
  cases a with
  | enter i =>
      obtain ⟨hfree, rfl⟩ := step_enter hstep
      exact h.enter hannounces hfree i
  | exec =>
      obtain ⟨i, s, rest, hinside, rfl⟩ := step_exec hstep
      exact h.exec hinside
  | leave =>
      obtain ⟨i, hinside, rfl⟩ := step_leave hstep
      exact h.leave hinside
  | wait =>
      obtain ⟨-, hn⟩ := Option.ite_none_right_eq_some.mp hstep
      exact Option.some.inj hn ▸ h.moves nofun nofun nofun nofun
  | lock =>
      obtain ⟨⟨hfree, -⟩, hn⟩ := Option.ite_none_right_eq_some.mp hstep
      exact Option.some.inj hn ▸ h.moves (fun _ => (free_iff.mp hfree).1) nofun nofun nofun
  | look =>
      obtain ⟨hlooking, hn⟩ := Option.ite_none_right_eq_some.mp hstep
      have hinside : m.inside = none := h.alone (by rw [hlooking]; rfl)
      rw [← Option.some.inj hn]
      cases hready : code.ready m.value with
      | true => exact h.moves (fun _ => hinside) nofun (fun _ => hready) nofun
      | false =>
          refine h.moves nofun (fun _ => ?_) nofun nofun
          rw [Rests, hinside]
          exact hready
  | wake =>
      obtain ⟨-, hn⟩ := Option.ite_none_right_eq_some.mp hstep
      exact Option.some.inj hn ▸ h.moves nofun nofun nofun nofun
  | pass =>
      obtain ⟨hpassing, hn⟩ := Option.ite_none_right_eq_some.mp hstep
      rw [← Option.some.inj hn]
      refine h.moves nofun nofun nofun fun _ => ⟨m.left.length, le_rfl, ?_⟩
      have htallied := h.tallied
      rw [Tallied, h.alone (by rw [hpassing]; rfl)] at htallied
      exact htallied ▸ h.ready hpassing

end Sound

theorem sound_of_reached (hannounces : Announces code) {ok : Monitor σ ι → MonitorAction ι → Prop}
    {m : Monitor σ ι} (hreached : (machine ι code).ReachedUnder ok m) : m.Sound code := by
  refine hreached.invariant (Sound code) ?_ ?_
  · rintro m rfl
    exact .created
  · exact fun m a n h _ hstep => h.step hannounces hstep

/-! ## Those who are expected -/

/-- Nobody has arrived twice, and whoever is inside has not left. -/
structure Expected (expected : Finset ι) (m : Monitor σ ι) : Prop where
  nodup : m.left.Nodup
  expects : ∀ i ∈ m.left, i ∈ expected
  inside : ∀ i rest, m.inside = some (i, rest) → i ∈ expected ∧ i ∉ m.left

theorem Expected.step {expected : Finset ι} {m n : Monitor σ ι} (h : m.Expected expected)
    {a : MonitorAction ι} (honce : Once expected m a) (hstep : m.step code a = some n) :
    n.Expected expected := by
  obtain ⟨hnodup, hexpects, hinside⟩ := h
  cases a with
  | enter i =>
      obtain ⟨-, rfl⟩ := step_enter hstep
      refine ⟨hnodup, hexpects, fun j rest hj => ?_⟩
      obtain ⟨rfl, -⟩ := Prod.mk.inj (Option.some.inj hj)
      exact honce
  | exec =>
      obtain ⟨i, s, rest, hi, rfl⟩ := step_exec hstep
      refine ⟨hnodup, hexpects, fun j rest hj => ?_⟩
      obtain ⟨rfl, -⟩ := Prod.mk.inj (Option.some.inj hj)
      exact hinside _ _ hi
  | leave =>
      obtain ⟨i, hi, rfl⟩ := step_leave hstep
      obtain ⟨hmem, hnew⟩ := hinside _ _ hi
      refine ⟨List.nodup_append.mpr ⟨hnodup, by simp, ?_⟩, fun j hj => ?_, nofun⟩
      · rintro j hj k hk rfl
        rw [List.mem_singleton] at hk
        exact hnew (hk ▸ hj)
      · rcases List.mem_append.mp hj with hj | hj
        · exact hexpects j hj
        · exact (List.mem_singleton.mp hj) ▸ hmem
  | wait | lock | look | wake | pass =>
      obtain ⟨-, hn⟩ := Option.ite_none_right_eq_some.mp hstep
      rw [← Option.some.inj hn]
      exact ⟨hnodup, hexpects, hinside⟩

theorem expected_of_reached {expected : Finset ι} {m : Monitor σ ι}
    (hreached : (machine ι code).ReachedUnder (Once expected) m) : m.Expected expected := by
  refine hreached.invariant (Expected expected) ?_ fun m a n h honce hstep => h.step honce hstep
  rintro m rfl
  exact ⟨List.nodup_nil, nofun, nofun⟩

/-- Nobody is missing as soon as as many have left as are expected. -/
theorem Expected.all_left {expected : Finset ι} {m : Monitor σ ι} (h : m.Expected expected)
    (hcard : expected.card ≤ m.left.length) {i : ι} (hi : i ∈ expected) : i ∈ m.left := by
  classical
  have hsubset : m.left.toFinset ⊆ expected := fun j hj => h.expects j (List.mem_toFinset.mp hj)
  have heq : m.left.toFinset = expected := by
    apply Finset.eq_of_subset_of_card_le hsubset
    rwa [List.toFinset_card_of_nodup h.nodup]
  exact List.mem_toFinset.mp (heq ▸ hi)

/-- When nobody is missing, as many have left as are expected. -/
theorem Expected.length_eq {expected : Finset ι} {m : Monitor σ ι} (h : m.Expected expected)
    (hall : ∀ i ∈ expected, i ∈ m.left) : m.left.length = expected.card := by
  classical
  rw [← List.toFinset_card_of_nodup h.nodup]
  congr 1
  ext i
  exact ⟨fun hi => h.expects i (List.mem_toFinset.mp hi),
    fun hi => List.mem_toFinset.mpr (hall i hi)⟩

section Latch

variable {expected : Finset ι} {m : Monitor σ ι}

/-- **The wait is over only when all have left**, and then nobody is inside. -/
theorem all_left_of_returned (hannounces : Announces code) (hcounts : Counts code expected.card)
    (hreached : (machine ι code).ReachedUnder (Once expected) m)
    (hreturned : m.waiter = .returned) : (∀ i ∈ expected, i ∈ m.left) ∧ m.inside = none := by
  have hexpected := expected_of_reached hreached
  obtain ⟨k, hk, hready⟩ := (sound_of_reached hannounces hreached).passed hreturned
  have hcard : expected.card ≤ k := by
    by_contra hlt
    rw [hcounts.not_ready k (Nat.lt_of_not_le hlt)] at hready
    cases hready
  have hall : ∀ i ∈ expected, i ∈ m.left := fun i => hexpected.all_left (hcard.trans hk)
  refine ⟨hall, ?_⟩
  cases hinside : m.inside with
  | none => rfl
  | some p =>
      obtain ⟨hmem, hleft⟩ := hexpected.inside _ _ hinside
      exact absurd (hall _ hmem) hleft

/-- **No wakeup is lost**: whoever sleeps while nobody is inside has somebody to wait for. -/
theorem missing_of_asleep (hannounces : Announces code) (hcounts : Counts code expected.card)
    (hreached : (machine ι code).ReachedUnder (Once expected) m) (hasleep : m.waiter = .asleep)
    (hinside : m.inside = none) : ∃ i ∈ expected, i ∉ m.left := by
  by_contra hall
  push Not at hall
  have hexpected := expected_of_reached hreached
  have hsound := sound_of_reached hannounces hreached
  have htallied := hsound.tallied
  have hrests := hsound.rests hasleep
  rw [Tallied, hinside] at htallied
  rw [Rests, hinside] at hrests
  simp only at htallied hrests
  rw [htallied, hexpected.length_eq hall, hcounts.ready] at hrests
  cases hrests

/-- The steps that the waiting thread takes by itself. -/
def ByWaiter (_ : Monitor σ ι) : MonitorAction ι → Prop
  | .lock | .look | .pass => True
  | _ => False

/-- Whoever has seen the value ready returns. -/
theorem returns_of_passing (hpassing : m.waiter = .passing) :
    (machine ι code).Moves ByWaiter m { m with waiter := .returned } :=
  ⟨.pass, trivial, if_pos hpassing⟩

/-- Whoever looks at a value that is ready returns. -/
theorem returns_of_looking (hlooking : m.waiter = .looking) (hready : code.ready m.value = true) :
    Relation.ReflTransGen ((machine ι code).Moves ByWaiter) m { m with waiter := .returned } := by
  have hlook : (machine ι code).Moves ByWaiter m { m with waiter := .passing } := by
    refine ⟨.look, trivial, ?_⟩
    show m.step code .look = _
    rw [step, if_pos hlooking, if_pos hready]
  exact .tail (.single hlook) (returns_of_passing rfl)

/-- Whoever wants the mutex while nobody is inside gets it, and returns if the value is ready. -/
theorem returns_of_wanting (hwanting : m.waiter = .wanting) (hinside : m.inside = none)
    (hready : code.ready m.value = true) :
    Relation.ReflTransGen ((machine ι code).Moves ByWaiter) m { m with waiter := .returned } := by
  have hfree : m.free := free_iff.mpr ⟨hinside, by rw [hwanting]; rfl⟩
  have hlock : (machine ι code).Moves ByWaiter m { m with waiter := .looking } :=
    ⟨.lock, trivial, if_pos ⟨hfree, hwanting⟩⟩
  have hreturns := returns_of_looking (m := { m with waiter := .looking }) rfl hready
  exact .head hlock hreturns

/-- **The wait is over when all have left**: the waiting thread needs nobody else to return. -/
theorem returns_of_all_left (hannounces : Announces code) (hcounts : Counts code expected.card)
    (hreached : (machine ι code).ReachedUnder (Once expected) m)
    (hall : ∀ i ∈ expected, i ∈ m.left) (hcame : m.waiter ≠ .away) :
    Relation.ReflTransGen ((machine ι code).Moves ByWaiter) m { m with waiter := .returned } := by
  have hexpected := expected_of_reached hreached
  have hinside : m.inside = none := by
    cases hinside : m.inside with
    | none => rfl
    | some p =>
        obtain ⟨hmem, hnew⟩ := hexpected.inside _ _ hinside
        exact absurd (hall _ hmem) hnew
  have hready : code.ready m.value = true := by
    have htallied := (sound_of_reached hannounces hreached).tallied
    rw [Tallied, hinside] at htallied
    simp only at htallied
    rw [htallied, hexpected.length_eq hall]
    exact hcounts.ready
  cases hw : m.waiter with
  | away => exact absurd hw hcame
  | wanting => exact returns_of_wanting hw hinside hready
  | looking => exact returns_of_looking hw hready
  | asleep =>
      obtain ⟨i, hi, hnew⟩ := missing_of_asleep hannounces hcounts hreached hw hinside
      exact absurd (hall i hi) hnew
  | passing => exact .single (returns_of_passing hw)
  | returned => rw [← hw]

end Latch

end Monitor

end HwAsync.Lib
