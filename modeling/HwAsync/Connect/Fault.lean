/-
# The branches of `fault`

What `fault` does to a connection depends on its state, its policy, three flags and whether
something is queued.  The branches are named here, apart from what is done in them, since several
parts of a connection are torn down along them: the negotiation, the events in the center, and
the queues.
-/

import HwAsync.Connect.Messengers

namespace HwAsync.Connect

/-- The branches of `fault`: it returns at once, it stops a lossy connection, it stops one that is
half accepted, it goes to standby, it connects again at once, or it waits before it does. -/
inductive Aftermath
  | ignored
  | failed
  | dropped
  | standby
  | reconnects
  | backsOff
  deriving DecidableEq, Repr

namespace RCState

/-- From `STATE_CONNECTING` on, but not `STATE_CONNECTING_READY` yet. -/
def Connecting (s : RCState) : Prop :=
  RCState.connecting.ctorIdx ≤ s.ctorIdx ∧ s.ctorIdx < RCState.connectingReady.ctorIdx

instance (s : RCState) : Decidable s.Connecting := inferInstanceAs (Decidable (_ ∧ _))

/-- From `STATE_ACCEPTING` to `STATE_ACCEPTING_WAIT_CONNECT_MSG_AUTH`. -/
def HalfAccepted (s : RCState) : Prop :=
  RCState.accepting.ctorIdx ≤ s.ctorIdx ∧ s.ctorIdx ≤ RCState.acceptingWaitConnectMsgAuth.ctorIdx

instance (s : RCState) : Decidable s.HalfAccepted := inferInstanceAs (Decidable (_ ∧ _))

/-- The branch that `fault` takes; `queued` is `is_queued()` behind `requeue_sent`. -/
def aftermath (s : RCState) (policy : Policy) (onceReady replacing queued : Bool) : Aftermath :=
  if s = .closed ∨ s = .none then .ignored
  else if policy.lossy ∧ ¬ s.Connecting then .failed
  else if ¬ onceReady ∧ ¬ queued ∧ s.HalfAccepted ∧ ¬ replacing then .dropped
  else if policy.standby ∧ ¬ queued ∧ s ≠ .wait then .standby
  else if ¬ s.Connecting ∧ s ≠ .wait then .reconnects
  else .backsOff

/-- The state behind a branch; the two that stop the connection end in `_stop`. -/
def after (s : RCState) (policy : Policy) : Aftermath → RCState
  | .ignored => s
  | .failed | .dropped => .closed
  | .standby => .standby
  | .reconnects => if policy.server then .standby else .connecting
  | .backsOff => .connecting

theorem of_aftermath_ignored {s : RCState} {policy : Policy} {onceReady replacing queued : Bool}
    (h : s.aftermath policy onceReady replacing queued = .ignored) : s = .closed ∨ s = .none := by
  unfold aftermath at h
  split_ifs at h with hclosed
  exact hclosed

/-- Nothing goes to standby with something to send. -/
theorem of_aftermath_standby {s : RCState} {policy : Policy} {onceReady replacing queued : Bool}
    (h : s.aftermath policy onceReady replacing queued = .standby) : queued = false := by
  unfold aftermath at h
  split_ifs at h with _ _ _ hstandby
  exact Bool.eq_false_of_not_eq_true hstandby.2.1

end RCState

namespace Conn

variable {Addr : Type}

theorem resetRecvState_state (c : Conn Addr) : c.resetRecvState.state = c.state := by
  unfold resetRecvState
  split <;> rfl

theorem stop_state (c : Conn Addr) : c.stop.state = .closed := by
  unfold stop
  split
  · assumption
  · rfl

/-- The state of the negotiation behind `fault` is the one of its branch. -/
theorem fault_state (c : Conn Addr) :
    c.fault.state = c.state.after c.policy (c.state.aftermath c.policy c.onceReady c.replacing
      (decide (c.requeueSent.outQ.buckets ≠ []))) := by
  have hkept : c.requeueSent.state = c.state ∧ c.requeueSent.policy = c.policy ∧
      c.requeueSent.onceReady = c.onceReady ∧ c.requeueSent.replacing = c.replacing := by
    unfold requeueSent
    split <;> exact ⟨rfl, rfl, rfl, rfl⟩
  obtain ⟨hstate, hpolicy, honce, hreplacing⟩ := hkept
  have hpolicy' (d : Conn Addr) : d.resetRecvState.policy = d.policy := by
    unfold resetRecvState
    split <;> rfl
  simp only [fault, RCState.aftermath, Conn.Connecting, Conn.Accepting, RCState.Connecting,
    RCState.HalfAccepted, apply_ite Conn.state, apply_ite (c.state.after c.policy),
    resetRecvState_state, stop_state, hstate, hpolicy, hpolicy', honce, hreplacing,
    decide_eq_true_eq]
  split_ifs <;> grind [RCState.after]

end Conn

end HwAsync.Connect
