/-
# The receive budgets

A message that arrives takes units of three throttlers before its first part is read: one
message and its bytes from the throttlers of the policy, and its bytes from the dispatch
queue.  Until the message is decoded the connection owes them, and `reset_recv_state` gives
back those that the position of the state in its enumeration stands for.  Then the message
owes them: it returns two of them when it is destroyed and the third when it leaves the
dispatch queue.

The ledger below keeps every unit taken and given back.  It balances in every run, as long
as the units that a dropped message returns are left out of account: the connection still
owes those.
-/

import HwAsync.Framing.Pass
import HwAsync.Framing.Sync
import Mathlib.Algebra.BigOperators.Group.List.Basic
import Mathlib.Algebra.Group.Pi.Basic
import Mathlib.Algebra.Order.Group.Nat

namespace HwAsync.Framing

open HwAsync.Lib

/-- The throttlers: `policy.throttler_messages`, `policy.throttler_bytes` and the one of the
dispatch queue. -/
inductive Budget
  | messages
  | bytes
  | dispatch
  deriving DecidableEq, Repr

/-- An amount of each budget. -/
abbrev Units := Budget → ℕ

/-- The throttlers that the policy has. -/
structure Policy where
  throttlerMessages : Bool
  throttlerBytes : Bool

/-- What a message of `size` bytes takes. -/
def Policy.charge (policy : Policy) (size : ℕ) : Units
  | .messages => if policy.throttlerMessages then 1 else 0
  | .bytes => if policy.throttlerBytes then size else 0
  | .dispatch => size

/-- The part of a charge that the message returns when it is destroyed. -/
def ownPart (units : Units) : Units
  | .messages => units .messages
  | .bytes => units .bytes
  | .dispatch => 0

/-- The part that the dispatch queue returns. -/
def queuePart (units : Units) : Units
  | .messages => 0
  | .bytes => 0
  | .dispatch => units .dispatch

theorem ownPart_add_queuePart (units : Units) (b : Budget) :
    ownPart units b + queuePart units b = units b := by
  cases b <;> simp [ownPart, queuePart]

/-- The state in which a budget is asked for. -/
def Budget.throttleState : Budget → State
  | .messages => .messageThrottleMessage
  | .bytes => .messageThrottleBytes
  | .dispatch => .messageThrottleDispatchQueue

/-- The budget that a state asks for. -/
def State.asks : State → Option Budget
  | .messageThrottleMessage => some .messages
  | .messageThrottleBytes => some .bytes
  | .messageThrottleDispatchQueue => some .dispatch
  | _ => none

/-- `reset_recv_state`: what it gives back in a state, for a message of `size` bytes. -/
def Policy.resetRecvState (policy : Policy) (state : State) (size : ℕ) : Units := fun b =>
  if b.throttleState.toNat < state.toNat ∧
      state.toNat ≤ State.messageReadFooterAndDispatch.toNat then policy.charge size b
  else 0

namespace Receiver

/-- What the message in hand is charged. -/
def charge (r : Receiver) (policy : Policy) : Units :=
  policy.charge (curMsgSize r.currentHeader).toNat

/-- What the connection owes. -/
def held (r : Receiver) (policy : Policy) : Units :=
  policy.resetRecvState r.state (curMsgSize r.currentHeader).toNat

/-- A pass from `r` to `r'` decoded the message in hand. -/
def Decodes (r r' : Receiver) : Prop := r.state.Reading ∧ r'.received ≠ r.received

instance (r r' : Receiver) : Decidable (Decodes r r') := inferInstanceAs (Decidable (_ ∧ _))

/-- A pass from `r` to `r'` decoded it and put it without handing it on. -/
def Drops (r r' : Receiver) : Prop := Decodes r r' ∧ r'.dispatched = r.dispatched

instance (r r' : Receiver) : Decidable (Drops r r') := inferInstanceAs (Decidable (_ ∧ _))

end Receiver

/-- A connection with the units it took, and those that were given back: by
`reset_recv_state`, by messages that were handed on, and by messages that were dropped.
`queued` and `loose` are the messages that are alive, with the units they owe: in the dispatch
queue, and out of it. -/
structure ThrottleRun where
  receiver : Receiver
  taken : Units
  byReset : Units
  byMessage : Units
  byDropped : Units
  queued : List Units
  loose : List Units

inductive ThrottleAction
  | pass (p : Pass)
  | fault
  | stop
  | replace
  | reopen (inSeq : UInt64) (stream : Bytes)
  | leaveQueue (i : ℕ)
  | destroy (i : ℕ)

namespace ThrottleRun

variable {Addr : Type} (w : Wire Addr) (policy : Policy)

/-- Whether the throttler that the state asks grants: one that is missing, or asked for
nothing, is not asked. -/
def grants (r : ThrottleRun) (granted : Bool) : Bool :=
  match r.receiver.state.asks with
  | none => granted
  | some b => granted || r.receiver.charge policy b == 0

/-- The receiver after a pass. -/
def receive (r : ThrottleRun) (p : Pass) : Receiver :=
  r.receiver.step w ⟨p.answers, r.grants policy p.granted⟩

/-- A pass, with the `fault` behind `goto fail` and the `_stop` of `STATE_OPEN_TAG_CLOSE`. -/
def pass (r : ThrottleRun) (p : Pass) : ThrottleRun :=
  let after := r.receive w policy p
  let charge := r.receiver.charge policy
  let size := (Receiver.curMsgSize r.receiver.currentHeader).toNat
  { r with
    receiver := after
    taken := fun b =>
      if r.receiver.state.asks = some b ∧ r.grants policy p.granted = true then r.taken b + charge b
      else r.taken b
    byReset := fun b =>
      if after.state = .faulted then
        r.byReset b + policy.resetRecvState r.receiver.state.failsIn size b
      else if after.state = .stopped then
        r.byReset b + policy.resetRecvState r.receiver.state size b
      else r.byReset b
    byDropped := fun b =>
      if r.receiver.Drops after then r.byDropped b + ownPart charge b else r.byDropped b
    queued := if after.dispatched = r.receiver.dispatched then r.queued else r.queued ++ [charge] }

/-- `reset_recv_state`, and the state that follows it. -/
def leave (r : ThrottleRun) (state : State) : ThrottleRun :=
  { r with
    receiver := { r.receiver with state := state }
    byReset := fun b => r.byReset b + r.receiver.held policy b }

/-- One step.  A replaced connection leaves the open states like one that is at fault, and
both may be opened again. -/
def step (r : ThrottleRun) (a : ThrottleAction) : Option ThrottleRun :=
  if r.receiver.state = .aborted then none
  else
    match a with
    | .pass p => some (r.pass w policy p)
    | .fault | .replace =>
        if r.receiver.state = .stopped then none else some (r.leave policy .faulted)
    | .stop => if r.receiver.state = .stopped then none else some (r.leave policy .stopped)
    | .reopen inSeq stream =>
        if r.receiver.state = .faulted then
          some { r with receiver := Receiver.before inSeq stream }
        else none
    | .leaveQueue i =>
        match r.queued[i]? with
        | none => none
        | some units =>
            some { r with
              queued := r.queued.eraseIdx i
              loose := r.loose ++ [ownPart units]
              byMessage := fun b => r.byMessage b + queuePart units b }
    | .destroy i =>
        match r.loose[i]? with
        | none => none
        | some units =>
            some { r with
              loose := r.loose.eraseIdx i
              byMessage := fun b => r.byMessage b + units b }

/-- An open connection that has not taken anything. -/
structure Fresh (r : ThrottleRun) : Prop where
  state : r.receiver.state = .opened
  taken : r.taken = fun _ => 0
  byReset : r.byReset = fun _ => 0
  byMessage : r.byMessage = fun _ => 0
  byDropped : r.byDropped = fun _ => 0
  queued : r.queued = []
  loose : r.loose = []

/-- What messages that are alive owe. -/
def owed (r : ThrottleRun) : Units := r.queued.sum + r.loose.sum

/-- Every unit taken is owed once: it was given back by a reset or by a message that was
handed on, or the connection or such a message still owes it. -/
def Balanced (r : ThrottleRun) : Prop :=
  r.receiver.state ≠ .aborted →
    ∀ b, r.taken b = r.byReset b + r.byMessage b + (r.receiver.held policy b + r.owed b)

end ThrottleRun

/-- The budgets under the passes of `process`, the ways out of the open states, and the end
of messages. -/
def throttleMachine {Addr : Type} (w : Wire Addr) (policy : Policy) :
    Machine ThrottleRun ThrottleAction where
  start := ThrottleRun.Fresh
  step := ThrottleRun.step w policy

/-! ## What the connection owes -/

/-- Outside of messages the connection owes nothing. -/
theorem Policy.resetRecvState_of_outside (policy : Policy) {state : State} (size : ℕ)
    (houtside : state.Outside) (b : Budget) : policy.resetRecvState state size b = 0 := by
  have hb : State.messageThrottleMessage.toNat ≤ b.throttleState.toNat := by cases b <;> decide
  have hnot : ¬ (b.throttleState.toNat < state.toNat ∧
      state.toNat ≤ State.messageReadFooterAndDispatch.toNat) := by
    rintro ⟨hlt, hle⟩
    rcases houtside with h | h
    · omega
    · omega
  rw [resetRecvState, if_neg hnot]

theorem Receiver.held_of_outside (policy : Policy) {r : Receiver} (houtside : r.state.Outside)
    (b : Budget) : r.held policy b = 0 := policy.resetRecvState_of_outside _ houtside b

/-- Inside of one it owes the whole charge. -/
theorem Policy.resetRecvState_of_reading (policy : Policy) {state : State} (size : ℕ)
    (hreading : state.Reading) (b : Budget) :
    policy.resetRecvState state size b = policy.charge size b := by
  have hb : b.throttleState.toNat < State.messageReadFront.toNat := by cases b <;> decide
  rw [resetRecvState, if_pos ⟨lt_of_lt_of_le hb hreading.1, hreading.2⟩]

/-- The state behind a throttler. -/
def Budget.next : Budget → State
  | .messages => .messageThrottleBytes
  | .bytes => .messageThrottleDispatchQueue
  | .dispatch => .messageReadFront

/-- Behind a throttler it owes what that throttler gave. -/
theorem Policy.resetRecvState_next (policy : Policy) (b b' : Budget) (size : ℕ) :
    policy.resetRecvState b.next size b' =
      policy.resetRecvState b.throttleState size b' +
        if b' = b then policy.charge size b' else 0 := by
  cases b <;> cases b' <;>
    simp [resetRecvState, Budget.next, Budget.throttleState, State.toNat]

theorem State.asks_eq_some {s : State} {b : Budget} (h : s.asks = some b) :
    s = b.throttleState := by
  cases s <;> simp [State.asks] at h <;> subst h <;> rfl

theorem State.outside_of_asks {s : State} (hasks : s.asks = none) (hreading : ¬ s.Reading) :
    s.Outside := by
  revert hasks hreading
  cases s <;> decide

theorem State.asks_eq_none {s : State} (h : s.asks = none) : ¬ s.Throttling := by
  cases s <;> first | decide | simp [State.asks] at h

namespace ThrottleRun

variable {Addr : Type} {w : Wire Addr} {policy : Policy} {r t : ThrottleRun} {p : Pass}

/-- A throttler that grants lets the connection pass, and one that does not holds it. -/
theorem receive_throttle (w : Wire Addr) (policy : Policy) (p : Pass) {b : Budget}
    (hasks : r.receiver.state.asks = some b) :
    r.receive w policy p =
      { r.receiver with
        io := { r.receiver.io with answers := p.answers }
        state := if r.grants policy p.granted = true then b.next else r.receiver.state } := by
  have hstate := State.asks_eq_some hasks
  have hgrants : r.grants policy p.granted = true ∨ r.receiver.charge policy b ≠ 0 := by
    simp only [grants, hasks, Bool.or_eq_true, beq_iff_eq]
    by_cases h : r.receiver.charge policy b = 0
    · exact .inl (.inr h)
    · exact .inr h
  unfold receive Receiver.step
  generalize r.grants policy p.granted = granted at hgrants
  cases b with
  | messages =>
      cases granted <;>
        simp_all [Receiver.pass, Receiver.throttle, Budget.throttleState, Budget.next]
  | bytes | dispatch =>
      cases granted <;>
        simp_all [Receiver.pass, Receiver.throttle, Budget.throttleState, Budget.next,
          Receiver.charge, Policy.charge, ← UInt32.toNat_inj]

/-- Taking one message out of those that owe. -/
theorem sum_eraseIdx {owing : List Units} {i : ℕ} {units : Units} (h : owing[i]? = some units) :
    units + (owing.eraseIdx i).sum = owing.sum := by
  obtain ⟨hi, rfl⟩ := List.getElem?_eq_some_iff.mp h
  exact List.CommMonoid.add_sum_eraseIdx hi

theorem owed_append (units : Units) (b : Budget) :
    { r with queued := r.queued ++ [units] }.owed b = r.owed b + units b := by
  simp [owed, List.sum_append]
  omega

/-- The ledger of a pass outside of messages. -/
theorem Balanced.pass_outside (hr : r.Balanced policy) (halive : r.receiver.state ≠ .aborted)
    (houtside : r.receiver.state.Outside) (hasks : r.receiver.state.asks = none) :
    (r.pass w policy p).Balanced policy := by
  obtain ⟨hafter, hdispatched⟩ : (r.receive w policy p).state.Outside ∧
      (r.receive w policy p).dispatched = r.receiver.dispatched :=
    Receiver.pass_outside _ _ houtside (State.asks_eq_none hasks)
  have hnot := houtside.not_reading
  intro _ b
  have hbalance := hr halive b
  have howed : (r.pass w policy p).owed b = r.owed b := by
    simp [owed, pass, hdispatched]
  rw [howed]
  simpa [pass, hasks, Receiver.held, State.failsIn_of_not_reading hnot,
    policy.resetRecvState_of_outside _ houtside, policy.resetRecvState_of_outside _ hafter]
    using hbalance

/-- The ledger of a pass that asks a throttler. -/
theorem Balanced.pass_throttle (hr : r.Balanced policy) (halive : r.receiver.state ≠ .aborted)
    {b : Budget} (hasks : r.receiver.state.asks = some b) :
    (r.pass w policy p).Balanced policy := by
  have hstate := State.asks_eq_some hasks
  have hreceive := receive_throttle w policy p hasks
  have hnot : ¬ r.receiver.state.Reading := by
    rw [hstate]
    cases b <;> decide
  have hafter : (r.receive w policy p).state ≠ .faulted ∧
      (r.receive w policy p).state ≠ .stopped := by
    rw [hreceive]
    dsimp only
    split
    · cases b <;> simp [Budget.next]
    · rw [hstate]
      cases b <;> simp [Budget.throttleState]
  intro _ b'
  have hbalance := hr halive b'
  have howed : (r.pass w policy p).owed b' = r.owed b' := by
    simp [owed, pass, hreceive]
  have hheld : (r.receive w policy p).held policy b' =
      r.receiver.held policy b' +
        if b' = b ∧ r.grants policy p.granted = true then r.receiver.charge policy b' else 0 := by
    rw [hreceive]
    by_cases hgranted : r.grants policy p.granted = true
    · simpa [Receiver.held, Receiver.charge, hgranted, hstate]
        using policy.resetRecvState_next b b' (Receiver.curMsgSize r.receiver.currentHeader).toNat
    · simp [Receiver.held, hgranted]
  have hdrops : ¬ r.receiver.Drops (r.receive w policy p) := fun h => hnot h.1.1
  have hsame : (some b = some b') ↔ b' = b := by rw [Option.some.injEq, eq_comm]
  rw [howed]
  simp only [pass, hasks, hafter.1, hafter.2, if_false, hheld, hsame]
  split
  · omega
  · omega

/-- The ledger of a pass over a message. -/
theorem Balanced.pass_reading (hr : r.Balanced policy) (halive : r.receiver.state ≠ .aborted)
    (hreading : r.receiver.state.Reading) : (r.pass w policy p).Balanced policy := by
  have hreads : Receiver.Reads r.receiver.state r.receiver (r.receive w policy p) :=
    (Receiver.pass_reads { r.receiver with io := { r.receiver.io with answers := p.answers } } _
      hreading).of_same ⟨rfl, rfl, rfl, rfl⟩ le_rfl
  have hasks : r.receiver.state.asks = none := by
    revert hreading
    cases r.receiver.state <;> decide
  intro hdone b
  have hbalance := hr halive b
  have hheld : r.receiver.held policy b = r.receiver.charge policy b :=
    policy.resetRecvState_of_reading _ hreading b
  -- a connection that reads on owes what it owed
  have hon (hstate : (r.receive w policy p).state.Reading)
      (hheader : (r.receive w policy p).currentHeader = r.receiver.currentHeader)
      (hdispatched : (r.receive w policy p).dispatched = r.receiver.dispatched) :
      (r.pass w policy p).taken b = (r.pass w policy p).byReset b +
        (r.pass w policy p).byMessage b +
          ((r.pass w policy p).receiver.held policy b + (r.pass w policy p).owed b) := by
    have hheld' : (r.receive w policy p).held policy b = r.receiver.charge policy b := by
      rw [Receiver.held, policy.resetRecvState_of_reading _ hstate, hheader]
      rfl
    have hrunning : (r.receive w policy p).state ≠ .faulted ∧
        (r.receive w policy p).state ≠ .stopped := by
      constructor <;> intro h <;> rw [h] at hstate <;> revert hstate <;> decide
    have howed : (r.pass w policy p).owed b = r.owed b := by simp [owed, pass, hdispatched]
    rw [howed]
    simpa [pass, hasks, hrunning.1, hrunning.2, hheld', hheld] using hbalance
  cases hreads with
  | within hstate hsame =>
      exact hon (hstate.mono hreading.1) hsame.currentHeader hsame.dispatched
  | failed hstate hsame =>
      have howed : (r.pass w policy p).owed b = r.owed b := by
        simp [owed, pass, hsame.dispatched]
      have hheld' : (r.receive w policy p).held policy b = 0 :=
        Receiver.held_of_outside policy (by rw [hstate]; decide) b
      have hreset : policy.resetRecvState r.receiver.state.failsIn
          (Receiver.curMsgSize r.receiver.currentHeader).toNat b = r.receiver.charge policy b := by
        rw [State.failsIn_of_reading hreading]
        exact policy.resetRecvState_of_reading _ (by decide) b
      rw [howed]
      simp only [pass, hasks, hstate, if_true, hheld', hreset, reduceCtorEq, false_and, if_false]
      omega
  | handedOn front middle data hstate hnew hreceived hdispatched =>
      have hne : (r.receive w policy p).dispatched ≠ r.receiver.dispatched := by
        rw [hdispatched]
        simp
      have howed : (r.pass w policy p).owed b = r.owed b + r.receiver.charge policy b := by
        rw [← owed_append]
        simp [owed, pass, hne]
      have hheld' : (r.receive w policy p).held policy b = 0 :=
        Receiver.held_of_outside policy (by rw [hstate]; decide) b
      rw [howed]
      simp only [pass, hasks, hstate, hheld', reduceCtorEq, false_and, if_false]
      omega
  | dropped front middle data hstate hold hheader hinSeq hreceived hdispatched =>
      exact hon (by rw [hstate]; decide) hheader hdispatched
  | aborted hstate => exact absurd hstate hdone

/-- A pass keeps the ledger balanced. -/
theorem Balanced.pass (hr : r.Balanced policy) (halive : r.receiver.state ≠ .aborted) :
    (r.pass w policy p).Balanced policy := by
  cases hasks : r.receiver.state.asks with
  | some b => exact hr.pass_throttle halive hasks
  | none =>
      by_cases hreading : r.receiver.state.Reading
      · exact hr.pass_reading halive hreading
      · exact hr.pass_outside halive (State.outside_of_asks hasks hreading) hasks

/-- Leaving the open states gives back what the connection owes. -/
theorem Balanced.leave (hr : r.Balanced policy) (halive : r.receiver.state ≠ .aborted)
    {state : State} (houtside : state.Outside) : (r.leave policy state).Balanced policy := by
  intro _ b
  have hbalance := hr halive b
  have hheld : (r.leave policy state).receiver.held policy b = 0 :=
    Receiver.held_of_outside policy houtside b
  have howed : (r.leave policy state).owed b = r.owed b := rfl
  rw [hheld, howed]
  simp only [ThrottleRun.leave]
  omega

theorem Fresh.balanced (h : r.Fresh) : r.Balanced policy := by
  intro _ b
  have hheld : r.receiver.held policy b = 0 :=
    Receiver.held_of_outside policy (by rw [h.state]; decide) b
  simp [hheld, owed, h.taken, h.byReset, h.byMessage, h.queued, h.loose]

/-- A connection that is opened again owes nothing before and after. -/
theorem Balanced.reopen (hr : r.Balanced policy) (halive : r.receiver.state ≠ .aborted)
    {receiver : Receiver} (hbefore : r.receiver.state.Outside) (hafter : receiver.state.Outside) :
    ({ r with receiver := receiver } : ThrottleRun).Balanced policy := by
  intro _ b
  have hbalance := hr halive b
  rw [Receiver.held_of_outside policy hbefore, ← Receiver.held_of_outside policy hafter b]
    at hbalance
  exact hbalance

/-- The dispatch queue returns its part of a message, which keeps the rest. -/
theorem Balanced.leaveQueue (hr : r.Balanced policy) {i : ℕ} {units : Units}
    (hunits : r.queued[i]? = some units) :
    ({ r with
      queued := r.queued.eraseIdx i
      loose := r.loose ++ [ownPart units]
      byMessage := fun b => r.byMessage b + queuePart units b } : ThrottleRun).Balanced policy := by
  intro halive b
  have hbalance := hr halive b
  have hsum := congrFun (sum_eraseIdx hunits) b
  have hparts := ownPart_add_queuePart units b
  simp only [owed, Pi.add_apply, List.sum_append, List.sum_singleton] at hbalance hsum ⊢
  omega

theorem Balanced.destroy (hr : r.Balanced policy) {i : ℕ} {units : Units}
    (hunits : r.loose[i]? = some units) :
    ({ r with
      loose := r.loose.eraseIdx i
      byMessage := fun b => r.byMessage b + units b } : ThrottleRun).Balanced policy := by
  intro halive b
  have hbalance := hr halive b
  have hsum := congrFun (sum_eraseIdx hunits) b
  simp only [owed, Pi.add_apply] at hbalance hsum ⊢
  omega

/-- The step lemma. -/
theorem Balanced.step {a : ThrottleAction} (hr : r.Balanced policy)
    (hstep : r.step w policy a = some t) : t.Balanced policy := by
  simp only [ThrottleRun.step] at hstep
  split at hstep
  · cases hstep
  · rename_i halive
    cases a with
    | pass p =>
        obtain rfl := Option.some.inj hstep
        exact hr.pass halive
    | fault | replace | stop =>
        obtain ⟨-, hnext⟩ := Option.ite_none_left_eq_some.mp hstep
        obtain rfl := Option.some.inj hnext
        exact hr.leave halive (by decide)
    | reopen inSeq stream =>
        obtain ⟨hfaulted, hnext⟩ := Option.ite_none_right_eq_some.mp hstep
        obtain rfl := Option.some.inj hnext
        have hopened : State.Outside .opened := by decide
        apply hr.reopen halive
        · rw [hfaulted]
          decide
        · exact hopened
    | leaveQueue i =>
        simp only at hstep
        split at hstep
        · cases hstep
        · rename_i units hunits
          obtain rfl := Option.some.inj hstep
          exact hr.leaveQueue hunits
    | destroy i =>
        simp only at hstep
        split at hstep
        · cases hstep
        · rename_i units hunits
          obtain rfl := Option.some.inj hstep
          exact hr.destroy hunits

/-- **The ledger.**  In every run every unit taken is owed once. -/
theorem balanced_of_reached (hreached : (throttleMachine w policy).Reached r) :
    r.Balanced policy :=
  hreached.invariant (Balanced policy) (fun _ (h : Fresh _) => h.balanced)
    fun _ _ _ hr _ hstep => hr.step hstep

/-! ## What is given back -/

/-- Every unit taken is given back once, or is owed; and a connection that left the open
states, with none of its messages alive, has everything back where it was. -/
structure Conserved (policy : Policy) (r : ThrottleRun) : Prop where
  balance : r.receiver.state ≠ .aborted → ∀ b, r.taken b =
    r.byReset b + r.byMessage b + r.byDropped b + (r.receiver.held policy b + r.owed b)
  settled : r.receiver.state = .faulted ∨ r.receiver.state = .stopped → r.queued = [] →
    r.loose = [] → ∀ b, r.taken b = r.byReset b + r.byMessage b + r.byDropped b

/-- No message that is decoded is old, unless it took nothing from the policy's throttlers. -/
def noneOldDecoded (w : Wire Addr) (policy : Policy) (r : ThrottleRun) : ThrottleAction → Prop
  | .pass p => r.receiver.Decodes (r.receive w policy p) →
      r.receiver.inSeq < r.receiver.currentHeader.seq ∨
        r.receiver.charge policy .messages = 0 ∧ r.receiver.charge policy .bytes = 0
  | _ => True

instance (r : ThrottleRun) (a : ThrottleAction) : Decidable (r.noneOldDecoded w policy a) :=
  match a with
  | .pass _ => inferInstanceAs (Decidable (_ → _))
  | .fault | .stop | .replace | .reopen _ _ | .leaveQueue _ | .destroy _ => .isTrue trivial

/-- Dropped messages gave nothing back. -/
def NothingDropped (r : ThrottleRun) : Prop :=
  r.receiver.state ≠ .aborted → ∀ b, r.byDropped b = 0

/-- A balanced ledger is conserved exactly when dropped messages gave nothing back. -/
theorem Balanced.conserved_iff (hr : r.Balanced policy) :
    r.Conserved policy ↔ r.NothingDropped := by
  constructor
  · intro h halive b
    have hbalance := hr halive b
    have hconserved := h.balance halive b
    omega
  · intro h
    refine ⟨fun halive b => ?_, fun hstate hqueued hloose b => ?_⟩
    · have hbalance := hr halive b
      have hdropped := h halive b
      omega
    · have halive : r.receiver.state ≠ .aborted := by
        rcases hstate with h | h <;> simp [h]
      have hbalance := hr halive b
      have hdropped := h halive b
      have houtside : r.receiver.state.Outside := by
        rcases hstate with h | h <;> rw [h] <;> decide
      have hheld := Receiver.held_of_outside policy houtside b
      simp only [hheld, owed, hqueued, hloose, List.sum_nil, Pi.add_apply, Pi.zero_apply]
        at hbalance
      omega

/-- A pass that decodes no old message drops nothing that owes. -/
theorem NothingDropped.pass (hr : r.NothingDropped) (halive : r.receiver.state ≠ .aborted)
    (hok : r.noneOldDecoded w policy (.pass p)) : (r.pass w policy p).NothingDropped := by
  intro hdone b
  have hzero := hr halive b
  by_cases hdrops : r.receiver.Drops (r.receive w policy p)
  · obtain ⟨hdecodes, hdispatched⟩ := hdrops
    have hreads : Receiver.Reads r.receiver.state r.receiver (r.receive w policy p) :=
      (Receiver.pass_reads { r.receiver with io := { r.receiver.io with answers := p.answers } }
        _ hdecodes.1).of_same ⟨rfl, rfl, rfl, rfl⟩ le_rfl
    have hown : ownPart (r.receiver.charge policy) b = 0 := by
      cases hreads with
      | within hstate hsame => exact absurd hsame.received hdecodes.2
      | failed hstate hsame => exact absurd hsame.received hdecodes.2
      | handedOn front middle data hstate hnew hreceived hdispatched' =>
          rw [hdispatched'] at hdispatched
          simp at hdispatched
      | dropped front middle data hstate hold =>
          obtain ⟨hmessages, hbytes⟩ := (hok hdecodes).resolve_left (UInt64.not_lt.mpr hold)
          cases b with
          | messages => exact hmessages
          | bytes => exact hbytes
          | dispatch => rfl
      | aborted hstate => exact absurd hstate hdone
    simp [ThrottleRun.pass, hzero, hown]
  · simp [ThrottleRun.pass, hdrops, hzero]

theorem NothingDropped.step {a : ThrottleAction} (hr : r.NothingDropped)
    (hok : r.noneOldDecoded w policy a) (hstep : r.step w policy a = some t) :
    t.NothingDropped := by
  simp only [ThrottleRun.step] at hstep
  split at hstep
  · cases hstep
  · rename_i halive
    cases a with
    | pass p =>
        obtain rfl := Option.some.inj hstep
        exact hr.pass halive hok
    | fault | replace | stop =>
        obtain ⟨-, hnext⟩ := Option.ite_none_left_eq_some.mp hstep
        obtain rfl := Option.some.inj hnext
        exact fun _ => hr halive
    | reopen inSeq stream =>
        obtain ⟨-, hnext⟩ := Option.ite_none_right_eq_some.mp hstep
        obtain rfl := Option.some.inj hnext
        exact fun _ => hr halive
    | leaveQueue i | destroy i =>
        simp only at hstep
        split at hstep
        · cases hstep
        · obtain rfl := Option.some.inj hstep
          exact fun _ => hr halive

/-- **The budgets.**  A run in which no old message is decoded gives back what it took. -/
theorem conserved_of_noneOldDecoded
    (hreached : (throttleMachine w policy).ReachedUnder (noneOldDecoded w policy) r) :
    r.Conserved policy := by
  apply (balanced_of_reached hreached.reached).conserved_iff.mpr
  apply hreached.invariant NothingDropped
  · intro r hfresh _ b
    simp [hfresh.byDropped]
  · exact fun r a t hr hok hstep => hr.step hok hstep

/-- A connection in front of the frames, with no units taken. -/
def freshThrottle (frames : List (Frame Layout.plainWire)) : ThrottleRun where
  receiver := .before 5 (Wire.encodeAll frames)
  taken _ := 0
  byReset _ := 0
  byMessage _ := 0
  byDropped _ := 0
  queued := []
  loose := []

theorem fresh_freshThrottle (frames : List (Frame Layout.plainWire)) :
    (freshThrottle frames).Fresh := ⟨rfl, rfl, rfl, rfl, rfl, rfl, rfl⟩

/-- Both throttlers. -/
def bothThrottlers : Policy := ⟨true, true⟩

/-- The passes that read a message of two bytes. -/
def readMessage : List ThrottleAction :=
  List.replicate 6 (.pass ⟨List.replicate 100 1, true⟩)

/-- A message is read, leaves the dispatch queue and is destroyed, and the connection is at
fault. -/
theorem conserved_of_noneOldDecoded_twoBytes :
    ∃ r : ThrottleRun, r.receiver.state = .faulted ∧ r.taken .bytes = 2 ∧
      r.byMessage .bytes = 2 ∧ r.Conserved bothThrottlers := by
  obtain ⟨r, hreplay, hstate, htaken, hmessage⟩ : ∃ r,
      (throttleMachine Layout.plainWire bothThrottlers).replay
          (noneOldDecoded Layout.plainWire bothThrottlers)
          (freshThrottle [.message (Layout.twoBytes 7)])
          (readMessage ++ [.leaveQueue 0, .destroy 0, .fault]) = some r ∧
        r.receiver.state = .faulted ∧ r.taken .bytes = 2 ∧ r.byMessage .bytes = 2 :=
    ⟨_, rfl, rfl, rfl, rfl⟩
  exact ⟨r, hstate, htaken, hmessage,
    conserved_of_noneOldDecoded (.of_replay (.start (fresh_freshThrottle _)) hreplay)⟩

/-- An old message returns its units when it is dropped, and the reset behind a fault returns
them again. -/
theorem not_conserved_old :
    ∃ r : ThrottleRun, (throttleMachine Layout.plainWire bothThrottlers).Reached r ∧
      r.receiver.state = .faulted ∧ r.taken .messages = 1 ∧ r.byDropped .messages = 1 ∧
      r.byReset .messages = 1 ∧ ¬ r.Conserved bothThrottlers := by
  obtain ⟨r, hreplay, hstate, htaken, hdropped, hreset, hqueued, hloose⟩ : ∃ r,
      (throttleMachine Layout.plainWire bothThrottlers).replay (fun _ _ => True)
          (freshThrottle [.message (Layout.twoBytes 3)]) (readMessage ++ [.fault]) = some r ∧
        r.receiver.state = .faulted ∧ r.taken .messages = 1 ∧ r.byDropped .messages = 1 ∧
        r.byReset .messages = 1 ∧ r.queued = [] ∧ r.loose = [] :=
    ⟨_, rfl, rfl, rfl, rfl, rfl, rfl, rfl⟩
  refine ⟨r, .of_replay (.start (fresh_freshThrottle _)) hreplay, hstate, htaken, hdropped,
    hreset, ?_⟩
  intro hconserved
  have hsettled := hconserved.settled (.inl hstate) hqueued hloose .messages
  omega

end ThrottleRun

end HwAsync.Framing
