/-
# First in, first out

The purpose of every byte path in this development: what arrives at one end is
delivered at the other, in order, with nothing lost, repeated or overtaken.  A
component shows that it is such a queue by a forward simulation into
`fifoMachine`, and reads the conservation law off the simulation.
-/

import HwAsync.Lib.Run

namespace HwAsync.Lib

universe ue

/-- A queue together with everything that ever entered and left it. -/
structure Fifo (β : Type ue) where
  arrived : List β
  delivered : List β
  held : List β

/-- The two moves of a queue. -/
inductive Fifo.Move (β : Type ue)
  | arrive (items : List β)
  | deliver (count : ℕ)

namespace Fifo

variable {β : Type ue}

/-- One move: items enter at the back and leave at the front. -/
def step (q : Fifo β) : Move β → Fifo β
  | .arrive items => { q with arrived := q.arrived ++ items, held := q.held ++ items }
  | .deliver count =>
      { q with delivered := q.delivered ++ q.held.take count, held := q.held.drop count }

end Fifo

/-- The queue as a machine that starts empty. -/
def fifoMachine (β : Type ue) : Machine (Fifo β) (Fifo.Move β) where
  start q := q = ⟨[], [], []⟩
  step q m := some (q.step m)

namespace Fifo

variable {β : Type ue}

/-- What was delivered, followed by what is held, is what arrived. -/
theorem delivered_append_held {q : Fifo β} (hreached : (fifoMachine β).Reached q) :
    q.delivered ++ q.held = q.arrived := by
  refine hreached.invariant (fun q => q.delivered ++ q.held = q.arrived) ?_ ?_
  · rintro q rfl
    rfl
  · intro q m t hq _ hstep
    obtain rfl : q.step m = t := by simpa [fifoMachine] using hstep
    cases m with
    | arrive items => simp [step, ← hq]
    | deliver count => simp [step, ← hq]

/-- Items enter a reachable queue. -/
theorem reached_arrive {q : Fifo β} (hreached : (fifoMachine β).Reached q) (items : List β) :
    (fifoMachine β).Reached (q.step (.arrive items)) :=
  .step hreached trivial rfl

/-- The front of a reachable queue leaves it. -/
theorem reached_deliver {q : Fifo β} (hreached : (fifoMachine β).Reached q) {out rest : List β}
    (hheld : q.held = out ++ rest) :
    (fifoMachine β).Reached ⟨q.arrived, q.delivered ++ out, rest⟩ := by
  have h : q.step (.deliver out.length) = ⟨q.arrived, q.delivered ++ out, rest⟩ := by
    simp [step, hheld]
  exact h ▸ .step hreached trivial rfl

end Fifo

end HwAsync.Lib
