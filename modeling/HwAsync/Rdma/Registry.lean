/-
# Whose queue pair a socket retires

`qp_conns` is keyed by queue pair numbers, and a destructor retires whatever is
registered under its socket's number.  A number comes back when its queue pair has
been deleted, which may be long before the socket is destroyed, so the entry may
then be another socket's.  The run theorem says that a socket retires only its own
queue pair as long as no number is given out again while a live socket holds it.
-/

import HwAsync.Rdma.Polling

namespace HwAsync.Rdma

open HwAsync.Lib HwAsync.Infiniband

namespace PollRun

/-- What the socket `o` holds, if it is alive. -/
def held (r : PollRun) (o : ℕ) : Option Holding := (r.sockets o).map holding

/-- A new queue pair does not get a number that a live socket still has in its
`my_msg`. -/
def numberReleased (r : PollRun) : PollAction → Prop
  | .construct s => ∀ o < r.created, (r.held o).map Holding.number ≠ some s.myMsg.qpn
  | _ => True

instance (r : PollRun) (a : PollAction) : Decidable (r.numberReleased a) := by
  unfold numberReleased
  split <;> infer_instance

/-- No destructor retired the queue pair of another live socket, and no queue pair
was deleted while its socket was alive and not faulted by `LAST_WQE_REACHED`. -/
structure RetiresOwn (r : PollRun) : Prop where
  stolen : r.stolen = []
  orphaned : r.orphaned = []

/-- What every run maintains as long as numbers are released in time. -/
structure Owned (r : PollRun) : Prop where
  own : r.RetiresOwn
  beyond : ∀ o, r.created ≤ o → r.held o = none
  creator : ∀ o h, r.held o = some h → h.qp.creator = o ∧ h.qp.number = h.number
  distinct : ∀ o o' h h', r.held o = some h → r.held o' = some h' →
    h.number = h'.number → o = o'
  registered : ∀ n it, r.dispatcher.qpConns n = some it →
    it.qp.number = n ∧ it.conn = it.qp.creator ∧
      ∃ h, r.held it.conn = some h ∧ h.qp = it.qp
  retired : ∀ q ∈ r.dispatcher.deadQueuePairs, q.creator < r.created ∧
    ∀ h, r.held q.creator = some h → h.lastWqe = true

variable {r t : PollRun} {o : ℕ} {c : Option Conn}

theorem Fresh.owned (h : r.Fresh) : r.Owned where
  own := ⟨h.stolen, h.orphaned⟩
  beyond := fun o _ => by simp [held, h.sockets]
  creator := fun o _ ho => by simp [held, h.sockets] at ho
  distinct := fun o _ _ _ ho => by simp [held, h.sockets] at ho
  registered := fun n it hit => by simp [h.qpConns] at hit
  retired := by simp [h.dead]

/-- A queue pair in use has a live socket without the event. -/
theorem inUse_eq_true {q : QpObject} (huse : r.inUse q = true) :
    ∃ h, r.held q.creator = some h ∧ h.lastWqe = false := by
  unfold inUse at huse
  split at huse
  · cases huse
  · rename_i c hc
    exact ⟨holding c, by simp [held, hc], by simpa [holding] using huse⟩

/-- Steps that leave the registry and the holders alone. -/
theorem Owned.of_untouched (h : r.Owned) (hsame : Untouched r t) : t.Owned := by
  have hheld : t.held = r.held := funext hsame.sockets
  exact
    { own := ⟨hsame.stolen.trans h.own.stolen, hsame.orphaned.trans h.own.orphaned⟩
      beyond := by rw [hheld, hsame.created]; exact h.beyond
      creator := by rw [hheld]; exact h.creator
      distinct := by rw [hheld]; exact h.distinct
      registered := by rw [hheld, hsame.dispatcher]; exact h.registered
      retired := by rw [hheld, hsame.dispatcher, hsame.created]; exact h.retired }

/-- A live socket finds nothing under its number, or its own queue pair. -/
theorem Owned.registered_eq (h : r.Owned) {o : ℕ} {ho : Holding} {it : Registered}
    (hheld : r.held o = some ho) (hit : r.dispatcher.qpConns ho.number = some it) :
    it.qp = ho.qp ∧ it.qp.creator = o ∧ it.conn = o := by
  obtain ⟨hnumber, hconn, h', hh', hqp⟩ := h.registered _ _ hit
  have howner : it.conn = o := by
    apply h.distinct _ _ _ _ hh' hheld
    rw [← (h.creator _ _ hh').2, hqp, hnumber]
  refine ⟨?_, hconn.symm.trans howner, howner⟩
  rw [howner, hheld, Option.some.injEq] at hh'
  rw [hh', hqp]

/-- A registered number belongs to a live socket. -/
theorem Owned.held_of_registered (h : r.Owned) {n : UInt32} {it : Registered}
    (hit : r.dispatcher.qpConns n = some it) :
    ∃ ho, r.held it.conn = some ho ∧ ho.number = n ∧ ho.qp = it.qp := by
  obtain ⟨hnumber, -, ho, hheld, hqp⟩ := h.registered _ _ hit
  exact ⟨ho, hheld, by rw [← (h.creator _ _ hheld).2, hqp, hnumber], hqp⟩

/-- The registry after the number of the live socket `o` was retired: every entry
left is another socket's. -/
theorem Owned.registered_erase (h : r.Owned) {o : ℕ} {ho : Holding} {n : UInt32}
    {it : Registered} (hheld : r.held o = some ho)
    (hit : (r.dispatcher.eraseQpnLockless ho.number).qpConns n = some it) :
    r.dispatcher.qpConns n = some it ∧ it.conn ≠ o := by
  have hold : r.dispatcher.qpConns n = some it ∧ n ≠ ho.number := by
    rcases r.dispatcher.eraseQpnLockless_cases ho.number with
      ⟨hnone, herase⟩ | ⟨it', -, hconns, -, -⟩
    · rw [herase] at hit
      refine ⟨hit, ?_⟩
      rintro rfl
      rw [hnone] at hit
      cases hit
    · by_cases hn : n = ho.number
      · rw [hconns, hn, Function.update_self] at hit
        cases hit
      · rw [hconns, Function.update_of_ne hn] at hit
        exact ⟨hit, hn⟩
  refine ⟨hold.1, ?_⟩
  rintro rfl
  obtain ⟨ho', hheld', hnumber, -⟩ := h.held_of_registered hold.1
  rw [hheld, Option.some.injEq] at hheld'
  exact hold.2 (by rw [hheld', hnumber])

/-- The dead queue pairs after the number of `o` was retired: one of `o`, or an old
one. -/
theorem Owned.retired_erase (h : r.Owned) {o : ℕ} {ho : Holding} {q : QpObject}
    (hheld : r.held o = some ho)
    (hq : q ∈ (r.dispatcher.eraseQpnLockless ho.number).deadQueuePairs) :
    q ∈ r.dispatcher.deadQueuePairs ∨ q.creator = o := by
  rcases r.dispatcher.eraseQpnLockless_cases ho.number with
    ⟨-, herase⟩ | ⟨it, hit, -, hdead, -⟩
  · rw [herase] at hq
    exact .inl hq
  · rw [hdead, List.mem_append, List.mem_singleton] at hq
    rcases hq with hq | rfl
    · exact .inl hq
    · exact .inr (h.registered_eq hheld hit).2.1

/-! ## Steps -/

theorem held_update (hsockets : t.sockets = Function.update r.sockets o c) :
    t.held = Function.update r.held o (c.map holding) := by
  funext o'
  by_cases ho : o' = o
  · rw [held, hsockets, ho, Function.update_self, Function.update_self]
  · rw [held, hsockets, Function.update_of_ne ho, Function.update_of_ne ho, held]

/-- The queue pair of the socket to be constructed next. -/
def nextQp (r : PollRun) (n : UInt32) : QpObject := ⟨r.created, n, false⟩

theorem construct_spec {s : Socket} (hstep : r.step (.construct s) = some t) :
    ¬ r.dispatcher.taken s.myMsg.qpn ∧
      t.held = Function.update r.held r.created
        (some ⟨s.myMsg.qpn, r.nextQp s.myMsg.qpn, false⟩) ∧
      t.dispatcher.qpConns = Function.update r.dispatcher.qpConns s.myMsg.qpn
        (some ⟨r.nextQp s.myMsg.qpn, r.created⟩) ∧
      t.dispatcher.deadQueuePairs = r.dispatcher.deadQueuePairs ∧
      t.created = r.created + 1 ∧ t.stolen = r.stolen ∧ t.orphaned = r.orphaned := by
  simp only [step] at hstep
  split at hstep
  · cases hstep
  · rename_i hguard
    split at hstep
    · cases hstep
    · rename_i dispatcher hregister
      have hsockets := congrArg (Option.map PollRun.sockets) hstep
      simp only [Option.map_some, Option.some.injEq] at hsockets
      have hheld := held_update hsockets.symm
      cases hstep
      obtain ⟨-, hconns, hdead, -⟩ := Dispatcher.registerQp_eq hregister
      exact ⟨fun htaken => hguard (.inr htaken), hheld, hconns, hdead, rfl, rfl, rfl⟩

theorem destroy_spec (hstep : r.step (.destroy o) = some t) :
    ∃ c, r.sockets o = some c ∧ t.held = Function.update r.held o none ∧
      t.dispatcher = r.dispatcher.eraseQpnLockless (holding c).number ∧
      t.created = r.created ∧ t.stolen = r.stolen ++ r.robbed o c ∧
      t.orphaned = r.orphaned := by
  simp only [step] at hstep
  split at hstep
  · cases hstep
  · rename_i c hc
    split at hstep
    · cases hstep
    · have hsockets := congrArg (Option.map PollRun.sockets) hstep
      simp only [Option.map_some, Option.some.injEq] at hsockets
      have hheld := held_update hsockets.symm
      cases hstep
      exact ⟨c, hc, hheld, rfl, rfl, rfl, rfl⟩

theorem lastWqe_spec {n : UInt32} (hstep : r.step (.lastWqe n) = some t) :
    t = r ∨
      ∃ it, r.dispatcher.qpConns n = some it ∧
        t.held = Function.update r.held it.conn
          ((r.held it.conn).map fun h => { h with lastWqe := true }) ∧
        t.dispatcher = r.dispatcher.eraseQpnLockless n ∧
        t.created = r.created ∧ t.stolen = r.stolen ∧ t.orphaned = r.orphaned := by
  simp only [step] at hstep
  split at hstep
  · cases hstep
    exact .inl rfl
  · rename_i o hconn
    obtain ⟨it, hit, rfl⟩ : ∃ it, r.dispatcher.qpConns n = some it ∧ it.conn = o := by
      unfold Dispatcher.getConnLockless at hconn
      split at hconn
      · cases hconn
      · rename_i it hit
        split at hconn <;> cases hconn
        exact ⟨it, hit, rfl⟩
    have hsockets := congrArg (Option.map PollRun.sockets) hstep
    simp only [Option.map_some, Option.some.injEq] at hsockets
    have hheld := held_update hsockets.symm
    cases hstep
    refine .inr ⟨it, hit, hheld.trans ?_, rfl, rfl, rfl, rfl⟩
    congr 1
    rw [held]
    cases r.sockets it.conn <;> rfl

/-- A socket is constructed under a number that no live socket holds. -/
theorem Owned.construct {s : Socket} (h : r.Owned) (hok : r.numberReleased (.construct s))
    (hstep : r.step (.construct s) = some t) : t.Owned := by
  obtain ⟨-, hheld, hconns, hdead, hcreated, hstolen, horphaned⟩ := construct_spec hstep
  have hother : ∀ o ho, r.held o = some ho → o < r.created ∧ ho.number ≠ s.myMsg.qpn := by
    intro o ho hholds
    have hlt : o < r.created := by
      by_contra hge
      rw [h.beyond o (Nat.le_of_not_lt hge)] at hholds
      cases hholds
    refine ⟨hlt, fun hnumber => hok o hlt ?_⟩
    rw [hholds, Option.map_some, hnumber]
  -- a holder afterwards is the new socket, or an old one under another number
  have hcases : ∀ o ho, t.held o = some ho →
      (o = r.created ∧ ho = ⟨s.myMsg.qpn, r.nextQp s.myMsg.qpn, false⟩) ∨
        (o < r.created ∧ r.held o = some ho ∧ ho.number ≠ s.myMsg.qpn) := by
    intro o ho hholds
    rw [hheld] at hholds
    by_cases hnew : o = r.created
    · rw [hnew, Function.update_self, Option.some.injEq] at hholds
      exact .inl ⟨hnew, hholds.symm⟩
    · rw [Function.update_of_ne hnew] at hholds
      exact .inr ⟨(hother o ho hholds).1, hholds, (hother o ho hholds).2⟩
  exact
    { own := ⟨hstolen.trans h.own.stolen, horphaned.trans h.own.orphaned⟩
      beyond := fun o ho => by
        rw [hheld, Function.update_of_ne (by omega)]
        exact h.beyond o (by omega)
      creator := fun o ho hholds => by
        rcases hcases o ho hholds with ⟨rfl, rfl⟩ | ⟨-, hholds, -⟩
        · exact ⟨rfl, rfl⟩
        · exact h.creator o ho hholds
      distinct := fun o o' ho ho' hholds hholds' hnumber => by
        rcases hcases o ho hholds with ⟨rfl, rfl⟩ | ⟨-, hold, hne⟩ <;>
          rcases hcases o' ho' hholds' with ⟨rfl, rfl⟩ | ⟨-, hold', hne'⟩
        · rfl
        · exact absurd hnumber.symm hne'
        · exact absurd hnumber hne
        · exact h.distinct o o' ho ho' hold hold' hnumber
      registered := fun n it hit => by
        rw [hconns] at hit
        by_cases hn : n = s.myMsg.qpn
        · rw [hn, Function.update_self, Option.some.injEq] at hit
          rw [← hit, hn, hheld, Function.update_self]
          exact ⟨rfl, rfl, _, rfl, rfl⟩
        · rw [Function.update_of_ne hn] at hit
          obtain ⟨hnumber, hconn, ho, hholds, hqp⟩ := h.registered n it hit
          have hlt := (hother _ _ hholds).1
          refine ⟨hnumber, hconn, ho, ?_, hqp⟩
          rw [hheld, Function.update_of_ne (by omega)]
          exact hholds
      retired := fun q hq => by
        rw [hdead] at hq
        obtain ⟨hlt, hevent⟩ := h.retired q hq
        rw [hcreated, hheld, Function.update_of_ne (by omega)]
        exact ⟨by omega, hevent⟩ }

/-- A socket is destroyed. -/
theorem Owned.destroy (h : r.Owned) (hstep : r.step (.destroy o) = some t) : t.Owned := by
  obtain ⟨c, hc, hheld, hdispatcher, hcreated, hstolen, horphaned⟩ := destroy_spec hstep
  have ho : r.held o = some (holding c) := by rw [held, hc, Option.map_some]
  have hlt : o < r.created := by
    by_contra hge
    rw [h.beyond o (Nat.le_of_not_lt hge)] at ho
    cases ho
  have hrobbed : r.robbed o c = [] := by
    unfold robbed
    split
    · rfl
    · rename_i it hit
      rw [if_neg fun hne => hne.1 (h.registered_eq ho hit).2.1]
  have hold : ∀ o' ho', t.held o' = some ho' → o' ≠ o ∧ r.held o' = some ho' := by
    intro o' ho' hholds
    rw [hheld] at hholds
    by_cases hoo : o' = o
    · rw [hoo, Function.update_self] at hholds
      cases hholds
    · rw [Function.update_of_ne hoo] at hholds
      exact ⟨hoo, hholds⟩
  exact
    { own := ⟨by rw [hstolen, hrobbed, h.own.stolen, List.append_nil],
        horphaned.trans h.own.orphaned⟩
      beyond := fun o' ho' => by
        rw [hcreated] at ho'
        rw [hheld, Function.update_of_ne (by omega)]
        exact h.beyond o' ho'
      creator := fun o' ho' hholds => h.creator o' ho' (hold o' ho' hholds).2
      distinct := fun o₁ o₂ ho₁ ho₂ hholds₁ hholds₂ =>
        h.distinct o₁ o₂ ho₁ ho₂ (hold _ _ hholds₁).2 (hold _ _ hholds₂).2
      registered := fun n it hit => by
        rw [hdispatcher] at hit
        obtain ⟨hit, hne⟩ := h.registered_erase ho hit
        obtain ⟨hnumber, hconn, ho', hholds, hqp⟩ := h.registered n it hit
        refine ⟨hnumber, hconn, ho', ?_, hqp⟩
        rw [hheld, Function.update_of_ne hne]
        exact hholds
      retired := fun q hq => by
        rw [hdispatcher] at hq
        rw [hcreated]
        rcases h.retired_erase ho hq with hq | rfl
        · exact ⟨(h.retired q hq).1, fun ho' hholds =>
            (h.retired q hq).2 ho' (hold _ _ hholds).2⟩
        · exact ⟨hlt, fun ho' hholds => absurd rfl (hold _ _ hholds).1⟩ }

/-- A socket is faulted by the event of its queue pair. -/
theorem Owned.lastWqe {n : UInt32} (h : r.Owned)
    (hstep : r.step (.lastWqe n) = some t) : t.Owned := by
  rcases lastWqe_spec hstep with
    rfl | ⟨it, hit, hheld, hdispatcher, hcreated, hstolen, horphaned⟩
  · exact h
  obtain ⟨ho, hholder, hnumber, hqp⟩ := h.held_of_registered hit
  generalize it.conn = o at *
  rw [hholder, Option.map_some] at hheld
  have hlt : o < r.created := by
    by_contra hge
    rw [h.beyond o (Nat.le_of_not_lt hge)] at hholder
    cases hholder
  -- only the flag of the faulted socket changes
  have hold : ∀ o' ho', t.held o' = some ho' → ∃ hb, r.held o' = some hb ∧
      ho'.number = hb.number ∧ ho'.qp = hb.qp ∧ (hb.lastWqe = true → ho'.lastWqe = true) ∧
        (o' = o → ho'.lastWqe = true) := by
    intro o' ho' hholds
    rw [hheld] at hholds
    by_cases hoo : o' = o
    · rw [hoo, Function.update_self, Option.some.injEq] at hholds
      rw [← hholds, hoo]
      exact ⟨ho, hholder, rfl, rfl, fun _ => rfl, fun _ => rfl⟩
    · rw [Function.update_of_ne hoo] at hholds
      exact ⟨ho', hholds, rfl, rfl, id, fun heq => absurd heq hoo⟩
  exact
    { own := ⟨hstolen.trans h.own.stolen, horphaned.trans h.own.orphaned⟩
      beyond := fun o' ho' => by
        rw [hcreated] at ho'
        rw [hheld, Function.update_of_ne (by omega)]
        exact h.beyond o' ho'
      creator := fun o' ho' hholds => by
        obtain ⟨hb, hholds, hnum, hqp', -, -⟩ := hold o' ho' hholds
        rw [hnum, hqp']
        exact h.creator o' hb hholds
      distinct := fun o₁ o₂ ho₁ ho₂ hholds₁ hholds₂ heq => by
        obtain ⟨hb₁, hholds₁, hnum₁, -, -, -⟩ := hold o₁ ho₁ hholds₁
        obtain ⟨hb₂, hholds₂, hnum₂, -, -, -⟩ := hold o₂ ho₂ hholds₂
        exact h.distinct o₁ o₂ hb₁ hb₂ hholds₁ hholds₂ (by rw [← hnum₁, ← hnum₂, heq])
      registered := fun n' it' hit' => by
        rw [hdispatcher, ← hnumber] at hit'
        obtain ⟨hit', hne⟩ := h.registered_erase hholder hit'
        obtain ⟨hnumber', hconn', ho', hholds', hqp'⟩ := h.registered n' it' hit'
        refine ⟨hnumber', hconn', ho', ?_, hqp'⟩
        rw [hheld, Function.update_of_ne hne]
        exact hholds'
      retired := fun q hq => by
        rw [hdispatcher, ← hnumber] at hq
        rw [hcreated]
        rcases h.retired_erase hholder hq with hq | rfl
        · refine ⟨(h.retired q hq).1, fun ho' hholds => ?_⟩
          obtain ⟨hb, hholds, -, -, hflag, -⟩ := hold _ _ hholds
          exact hflag ((h.retired q hq).2 hb hholds)
        · refine ⟨hlt, fun ho' hholds => ?_⟩
          obtain ⟨-, -, -, -, -, hflag⟩ := hold _ _ hholds
          exact hflag rfl }

/-- The idle branch deletes queue pairs that nobody uses. -/
theorem Owned.idle (h : r.Owned) (hstep : r.step .idle = some t) : t.Owned := by
  simp only [step] at hstep
  split at hstep
  · cases hstep
    have hunused : r.dispatcher.doomed.filter r.inUse = [] := by
      rw [List.filter_eq_nil_iff]
      intro q hq huse
      obtain ⟨ho, hholds, hflag⟩ := inUse_eq_true huse
      have hevent := (h.retired q (r.dispatcher.doomed_subset hq)).2 ho hholds
      rw [hflag] at hevent
      cases hevent
    have hconns : r.dispatcher.deleteDead.qpConns = r.dispatcher.qpConns := by
      unfold Dispatcher.deleteDead
      split <;> rfl
    have hdead : r.dispatcher.deleteDead.deadQueuePairs ⊆ r.dispatcher.deadQueuePairs := by
      unfold Dispatcher.deleteDead
      split
      · exact List.Subset.refl _
      · exact List.nil_subset _
    exact
      { own := ⟨h.own.stolen, by rw [hunused]; simpa using h.own.orphaned⟩
        beyond := h.beyond
        creator := h.creator
        distinct := h.distinct
        registered := fun n it hit => h.registered n it (by rwa [hconns] at hit)
        retired := fun q hq => h.retired q (hdead hq) }
  · cases hstep

/-- The step lemma. -/
theorem Owned.step {a : PollAction} (h : r.Owned) (hok : r.numberReleased a)
    (hstep : r.step a = some t) : t.Owned := by
  cases a with
  | construct s => exact h.construct hok hstep
  | destroy o => exact h.destroy hstep
  | lastWqe n => exact h.lastWqe hstep
  | idle => exact h.idle hstep
  | establish | beginSubmit | post | close | complete | receive | pollTx | pollRx =>
      exact h.of_untouched (untouched_step rfl hstep)

/-- **A socket retires its own queue pair** in every run in which no number comes
back before the socket that holds it is gone. -/
theorem retiresOwn_of_numberReleased {r : PollRun}
    (hreached : pollMachine.ReachedUnder numberReleased r) : r.RetiresOwn := by
  have howned : r.Owned :=
    hreached.invariant Owned (fun _ (h : Fresh _) => h.owned)
      fun _ _ _ h hok hstep => h.step hok hstep
  exact howned.own

/-- Two sockets in a row with the same number, the first destroyed before the second is
constructed. -/
theorem retiresOwn_of_numberReleased_reused :
    ∃ r : PollRun, r.deleted = [⟨0, 5, false⟩] ∧ r.created = 2 ∧ r.RetiresOwn := by
  have hrun : (pollMachine.replay numberReleased freshRun
      [.construct (newSocket 5), .destroy 0, .pollTx true, .pollRx true, .idle,
        .construct (newSocket 5)]).any
      (fun r => decide (r.deleted = [⟨0, 5, false⟩] ∧ r.created = 2)) = true := by
    decide +kernel
  obtain ⟨r, hreplay, hr⟩ := (Option.any_eq_true _ _).mp hrun
  obtain ⟨hdeleted, hcreated⟩ := of_decide_eq_true hr
  exact ⟨r, hdeleted, hcreated,
    retiresOwn_of_numberReleased (.of_replay (.start fresh_freshRun) hreplay)⟩

/-- The first socket is faulted by the event of its queue pair, which is deleted; its
number goes to a second socket, and the destructor of the first retires the queue
pair of the second. -/
theorem not_retiresOwn_reused :
    ∃ r : PollRun, pollMachine.Reached r ∧ r.stolen = [(0, 1)] ∧ r.orphaned = [1] ∧
      ¬ r.RetiresOwn := by
  have hrun : (pollMachine.replay (fun _ _ => True) freshRun
      [.construct (newSocket 5), .establish 0, .lastWqe 5, .pollTx true, .pollRx true, .idle,
        .construct (newSocket 5), .establish 1, .destroy 0, .pollTx true, .pollRx true,
        .idle]).any
      (fun r => decide (r.stolen = [(0, 1)] ∧ r.orphaned = [1])) = true := by
    decide +kernel
  obtain ⟨r, hreplay, hr⟩ := (Option.any_eq_true _ _).mp hrun
  obtain ⟨hstolen, horphaned⟩ := of_decide_eq_true hr
  refine ⟨r, .of_replay (.start fresh_freshRun) hreplay, hstolen, horphaned, fun hown => ?_⟩
  rw [hown.stolen] at hstolen
  cases hstolen

end PollRun

end HwAsync.Rdma
