/-
# A queue that announces one arrival

Whoever takes items off a queue may arm it.  The next arrival then puts one event on the queue's
channel and disarms it; nothing is announced that was in the queue already.  To sleep on the channel
is safe in a settled queue, and a queue gets settled by being armed first and found empty then.
-/

import Mathlib.Tactic.Common

namespace HwAsync.Lib

universe ua

/-- The items, whether the queue is armed, and how many events on its channel are unread. -/
structure Notified (α : Type ua) where
  items : List α
  armed : Bool
  events : ℕ

namespace Notified

variable {α : Type ua}

def arrive (a : α) (q : Notified α) : Notified α where
  items := q.items ++ [a]
  armed := false
  events := if q.armed then q.events + 1 else q.events

def arm (q : Notified α) : Notified α := { q with armed := true }

/-- Take up to `n` items. -/
def take (n : ℕ) (q : Notified α) : List α × Notified α :=
  (q.items.take n, { q with items := q.items.drop n })

/-- Read an event, if there is one. -/
def readEvent (q : Notified α) : Notified α := { q with events := q.events - 1 }

/-- An arrival since the queue was armed is announced by an unread event. -/
def Watched (q : Notified α) : Prop := 0 < q.events ∨ q.armed

/-- Nothing is in the queue that is not announced. -/
def Settled (q : Notified α) : Prop := 0 < q.events ∨ q.armed ∧ q.items = []

variable {q : Notified α}

theorem Watched.of_arm (q : Notified α) : q.arm.Watched := .inr rfl

theorem Watched.arrive (h : q.Watched) (a : α) : 0 < (q.arrive a).events := by
  unfold Notified.arrive
  rcases h with hevent | harmed
  · split
    · exact Nat.succ_pos _
    · exact hevent
  · rw [if_pos harmed]
    exact Nat.succ_pos _

/-- What is watched or settled stays so. -/
structure Keeps (q t : Notified α) : Prop where
  watched : q.Watched → t.Watched
  settled : q.Settled → t.Settled

theorem Settled.watched (h : q.Settled) : q.Watched := h.imp id And.left

theorem Keeps.refl (q : Notified α) : Keeps q q := ⟨id, id⟩

theorem Keeps.of_arrive (q : Notified α) (a : α) : Keeps q (q.arrive a) where
  watched h := .inl (h.arrive a)
  settled h := .inl (h.watched.arrive a)

theorem Keeps.of_take (q : Notified α) (n : ℕ) : Keeps q (q.take n).2 where
  watched := id
  settled h := by
    apply h.imp id
    rintro ⟨harmed, hitems⟩
    refine ⟨harmed, ?_⟩
    show q.items.drop n = []
    rw [hitems, List.drop_nil]

/-- A queue that is watched and found empty is settled. -/
theorem Watched.settled (h : q.Watched) {n : ℕ} (hn : 0 < n) (hempty : (q.take n).1 = []) :
    (q.take n).2.Settled := by
  apply h.imp id
  intro harmed
  refine ⟨harmed, ?_⟩
  have hitems : q.items = [] := by
    cases hq : q.items with
    | nil => rfl
    | cons a rest =>
      simp only [Notified.take, hq] at hempty
      rw [List.take_eq_nil_iff] at hempty
      exact hempty.elim (fun hzero => absurd hzero (Nat.ne_of_gt hn)) fun hnil => hnil
  show q.items.drop n = []
  rw [hitems, List.drop_nil]

end Notified

end HwAsync.Lib
