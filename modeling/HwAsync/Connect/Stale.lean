/-
# Stale connect messages

`get_global_seq` returns a larger number every time, so that a connect message is older than a
session if its number is below `peer_global_seq`.  The comparison is skipped for a connection that
finds itself in `conns`, and this is only possible while it is replacing.
-/

import HwAsync.Connect.Messengers

namespace HwAsync.Connect

open HwAsync.Lib

variable {Addr : Type}

/-! ## The numbers of the peer -/

/-- The draws of the peer go up to its counter. -/
structure Peer.Ordered (p : Peer Addr) : Prop where
  increasing : p.draws.Pairwise (· < ·)
  bounded : ∀ d ∈ p.draws, d ≤ p.globalSeq

theorem Peer.Ordered.draw {p : Peer Addr} (h : p.Ordered) (k : ℕ) {q : Party Addr}
    (hlt : p.globalSeq < q.globalSeq) : (p.draw k q).Ordered := by
  have hbelow : ∀ d ∈ p.draws, d < q.globalSeq :=
    fun d hd => UInt32.lt_of_le_of_lt (h.bounded d hd) hlt
  constructor
  · apply List.pairwise_append.mpr
    refine ⟨h.increasing, List.pairwise_singleton _ _, ?_⟩
    intro d hd d' hd'
    rw [List.mem_singleton.mp hd']
    exact hbelow d hd
  · intro d hd
    rcases List.mem_append.mp hd with hold | hnew
    · exact UInt32.le_of_lt (hbelow d hold)
    · exact UInt32.le_of_eq (List.mem_singleton.mp hnew)

theorem Peer.Ordered.step {s : Setup Addr} {w : Pair Addr} {p : Peer Addr} {a : Action Addr}
    (h : w.peer.Ordered) (hcounts : w.Counts a) (hstep : w.peer.step s a = some p) :
    p.Ordered := by
  cases a with
  | connecting k =>
      cases hstep
      have hlt : w.peer.globalSeq < getGlobalSeq w.peer.globalSeq 0 :=
        (lt_getGlobalSeq hcounts (by decide)).1
      exact h.draw k hlt
  | connect k =>
      cases hstep
      exact ⟨h.increasing, h.bounded⟩
  | reply k outSeq =>
      simp only [Peer.step] at hstep
      split at hstep
      · rename_i q hgoes
        split at hstep
        · rename_i htag
          cases hstep
          apply h.draw k
          obtain ⟨hcounter, hold⟩ := hcounts htag
          simp only [Party.onReplyTag, Peer.party, htag, Outcome.goes.injEq] at hgoes
          rw [← hgoes]
          exact (lt_getGlobalSeq hcounter hold).1
        · cases hstep
          exact ⟨h.increasing, h.bounded⟩
      · cases hstep
  | accepts k authorizerReply =>
      cases hstep
      have hlt : w.peer.globalSeq < getGlobalSeq w.peer.globalSeq 0 :=
        (lt_getGlobalSeq hcounts (by decide)).1
      let opening := (w.peer.conns k).openSession s w.peer.globalSeq authorizerReply
      have hdrawn := h.draw k (q := ⟨opening.globalSeq, opening.conn⟩) hlt
      exact ⟨hdrawn.increasing, hdrawn.bounded⟩
  | proceeds k conn =>
      simp only [Peer.step] at hstep
      split at hstep
      · cases hstep
        exact ⟨h.increasing, h.bounded⟩
      · cases hstep
  | _ => cases hstep

/-- A number that was drawn earlier is smaller. -/
theorem Peer.Ordered.lt_of_lt {p : Peer Addr} (h : p.Ordered) {i j : ℕ} {m g : UInt32}
    (hi : p.draws[i]? = some m) (hj : p.draws[j]? = some g) (hij : i < j) : m < g := by
  obtain ⟨hi', rfl⟩ := List.getElem?_eq_some_iff.mp hi
  obtain ⟨hj', rfl⟩ := List.getElem?_eq_some_iff.mp hj
  exact List.pairwise_iff_getElem.mp h.increasing i j hi' hj' hij

/-! ## The connections of the messenger -/

/-- The connection waits for a connect message, or has not been accepted on the one it has. -/
def Handler.Waits (state : RCState) : Handler → Prop
  | .idle => state = .acceptingWaitConnectMsg ∨ state = .acceptingWaitConnectMsgAuth
  | .registered _ _ true => False
  | _ => True

/-- The states that `open` leads to. -/
def Handler.Leads : Handler → Prop
  | .registering nextState _ | .registered nextState _ _ =>
      nextState = .acceptingWaitSeq ∨ nextState = .acceptingReady
  | _ => True

/-- What holds of a connection, with whether `conns` has it or `lookup_conn` has returned it to
somebody: as soon as it is known it can only wait for a connect message because it is replacing. -/
structure Fits (known : Prop) (h : Handler) (c : Conn Addr) : Prop where
  greeting : known → ¬ c.Greeting
  waiting : known → h.Waits c.state → c.replacing = true
  none : h = .idle → c.state = .none → c.replacing = true
  handling : h ≠ .idle → c.state = .acceptingWaitConnectMsgAuth ∨ c.state = .closed ∨
    c.state = .none ∧ ¬ h.Waits c.state
  leads : h.Leads

section

variable {known known' : Prop} {h h' : Handler} {c c' : Conn Addr}

theorem Fits.mono (hfits : Fits known h c) (himp : known' → known) : Fits known' h c :=
  ⟨fun hk => hfits.greeting (himp hk), fun hk => hfits.waiting (himp hk), hfits.none,
    hfits.handling, hfits.leads⟩

/-- A connection outside of `handle_connect_msg` that does not wait for a connect message. -/
theorem Fits.of_idle (hgreeting : known → ¬ c.Greeting)
    (hmsg : c.state ≠ .acceptingWaitConnectMsg) (hauth : c.state ≠ .acceptingWaitConnectMsgAuth)
    (hnone : c.state = .none → c.replacing = true) : Fits known .idle c := by
  refine ⟨hgreeting, fun _ hwaits => ?_, fun _ => hnone, fun hne => absurd rfl hne, trivial⟩
  rcases hwaits with hstate | hstate
  · exact absurd hstate hmsg
  · exact absurd hstate hauth

theorem stop_cases (c : Conn Addr) :
    c.stop.state = .closed ∧ c.stop.replacing = c.replacing := by
  simp only [Conn.stop, Conn.resetRecvState]
  split_ifs with hclosed
  · exact ⟨hclosed, rfl⟩
  · exact ⟨rfl, rfl⟩
  · exact ⟨rfl, rfl⟩

theorem Fits.stop (hfits : Fits known h c) : Fits known h c.stop := by
  obtain ⟨hclosed, hreplacing⟩ := stop_cases c
  constructor
  · simp [Conn.Greeting, hclosed]
  · intro hk hwaits
    rw [hreplacing]
    apply hfits.waiting hk
    cases h with
    | idle => simp [Handler.Waits, hclosed] at hwaits
    | registered nextState reply accepted => cases accepted <;> exact hwaits
    | _ => trivial
  · intro _ hnone
    rw [hclosed] at hnone
    cases hnone
  · exact fun _ => .inr (.inl hclosed)
  · exact hfits.leads

/-- What `fault` comes to. -/
theorem fault_cases (c : Conn Addr) :
    (c.state = .closed ∨ c.state = .none) ∧ c.fault = c ∨
      c.fault.state = .closed ∨ c.fault.state = .standby ∨ c.fault.state = .connecting := by
  by_cases hends : c.state = .closed ∨ c.state = .none
  · exact .inl ⟨hends, if_pos hends⟩
  · right
    simp only [Conn.fault, if_neg hends]
    split_ifs
    · exact .inl (stop_cases _).1
    · exact .inl (stop_cases _).1
    · exact .inr (.inl rfl)
    · exact .inr (.inl rfl)
    · exact .inr (.inr rfl)
    · exact .inr (.inr rfl)

theorem Fits.of_failed
    (hstate : c.state = .closed ∨ c.state = .standby ∨ c.state = .connecting) :
    Fits known .idle c := by
  apply Fits.of_idle
  · rcases hstate with hstate | hstate | hstate <;> simp [Conn.Greeting, hstate]
  · rcases hstate with hstate | hstate | hstate <;> simp [hstate]
  · rcases hstate with hstate | hstate | hstate <;> simp [hstate]
  · rcases hstate with hstate | hstate | hstate <;> simp [hstate]

theorem Fits.fault (hfits : Fits known .idle c) : Fits known .idle c.fault := by
  rcases fault_cases c with ⟨_, hsame⟩ | hstate
  · rw [hsame]
    exact hfits
  · exact .of_failed hstate

theorem Fits.fault_of_handled (hstate : c.state ≠ .none) : Fits known .idle c.fault := by
  rcases fault_cases c with ⟨hclosed, hsame⟩ | hfailed
  · rw [hsame]
    exact .of_failed (.inl (hclosed.resolve_right hstate))
  · exact .of_failed hfailed

theorem Fits.process {accepts : List ConnectReply} (hfits : Fits known .idle c)
    (hproceeds : c.Proceeds accepts c') : Fits known .idle c' := by
  obtain ⟨_, ⟨hnone, hauth⟩, hgreeting, hmsg, _, _⟩ := hproceeds
  have hgreeting' : known → ¬ c'.Greeting := fun hk hgreets =>
    hfits.greeting hk (hgreeting hgreets)
  refine ⟨hgreeting', fun hk hwaits => ?_, fun _ hstate => absurd hstate hnone,
    fun hne => absurd rfl hne, trivial⟩
  rcases hwaits with hstate | hstate
  · exact absurd (hmsg hstate) (hfits.greeting hk)
  · exact absurd hstate hauth

/-- A connection that waits goes on waiting. -/
theorem Fits.waits (hfits : Fits known h c) (hbefore : h.Waits c.state)
    (hreplacing : c'.replacing = c.replacing) (hgreeting : ¬ c'.Greeting)
    (hstate : c'.state = .acceptingWaitConnectMsgAuth ∨
      h' = .idle ∧ c'.state = .acceptingWaitConnectMsg)
    (hleads : h'.Leads) : Fits known h' c' := by
  constructor
  · exact fun _ => hgreeting
  · exact fun hk _ => hreplacing ▸ hfits.waiting hk hbefore
  · intro _ hnone
    rcases hstate with hstate | ⟨_, hstate⟩ <;> simp [hnone] at hstate
  · exact fun hne => .inl (hstate.resolve_right fun hidle => hne hidle.1)
  · exact hleads

theorem requeueSent_kept (c : Conn Addr) :
    c.requeueSent.state = c.state ∧ c.requeueSent.replacing = c.replacing := by
  rw [Conn.requeueSent]
  split_ifs <;> exact ⟨rfl, rfl⟩

/-- A socket is handed over to a connection that has no state, or is closed. -/
theorem Fits.deactivate {socket : Option ℕ} (hfits : Fits known .idle c)
    (hdeactivate : c.deactivate socket = some c') : Fits known .idle c' := by
  obtain ⟨hstate, hreplacing⟩ := requeueSent_kept c
  simp only [Conn.deactivate, hstate] at hdeactivate
  split_ifs at hdeactivate with hnone hclosed
  · cases hdeactivate
    apply Fits.of_idle
    · simp [Conn.Greeting, hnone]
    · simp [hnone]
    · simp [hnone]
    · exact fun _ => hreplacing.trans (hfits.none rfl hnone)
  · cases hdeactivate
    exact .of_failed (.inl (hstate.trans hclosed))

/-- A connection that has taken over a socket waits while it is replacing. -/
theorem Fits.transfer {connect : ConnectMsg} {version : UInt32} {authorizerReply : List UInt8}
    {reply : ConnectReply} (hfits : Fits known .idle c)
    (htransfer : c.transfer connect version authorizerReply = some (c', reply)) :
    Fits known .idle c' := by
  simp only [Conn.transfer] at htransfer
  split_ifs at htransfer with hnone
  cases htransfer
  constructor
  · simp [Conn.Greeting]
  · exact fun _ _ => hfits.none rfl hnone
  · exact fun _ hstate => nomatch hstate
  · exact fun hne => absurd rfl hne
  · trivial

/-- A connection that is replaced is not in front of its decision. -/
theorem Fits.replaced (hardReset sessionReset : Bool) (outSeq : ℕ) (hfits : Fits known h c)
    (hwaits : ¬ h.Waits c.state) : Fits known h (c.replaced hardReset sessionReset outSeq) := by
  have hcases : (c.replaced hardReset sessionReset outSeq).state = .closed ∨
      (c.replaced hardReset sessionReset outSeq).state = .none ∧
        (c.replaced hardReset sessionReset outSeq).replacing = true := by
    simp only [Conn.replaced]
    split_ifs
    · exact .inl (stop_cases _).1
    · exact .inr ⟨rfl, rfl⟩
    · exact .inl (stop_cases _).1
    · exact .inr ⟨rfl, rfl⟩
  have hnot : ¬ h.Waits (c.replaced hardReset sessionReset outSeq).state := by
    cases h with
    | idle => rcases hcases with hclosed | ⟨hnone, _⟩ <;> simp [Handler.Waits, *]
    | registered nextState reply accepted => cases accepted <;> exact hwaits
    | _ => exact hwaits
  constructor
  · rcases hcases with hclosed | ⟨hnone, _⟩ <;> simp [Conn.Greeting, *]
  · exact fun _ hwaits => absurd hwaits hnot
  · rcases hcases with hclosed | ⟨_, hreplacing⟩
    · simp [hclosed]
    · exact fun _ _ => hreplacing
  · intro _
    rcases hcases with hclosed | ⟨hnone, _⟩
    · exact .inr (.inl hclosed)
    · exact .inr (.inr ⟨hnone, hnot⟩)
  · exact hfits.leads

/-- Behind `accept_conn` a connection is past its connect message, or fails. -/
theorem Fits.relocked {sent : Sent} {nextState : RCState} {reply : ConnectReply}
    {accepted replied : Bool} (hfits : Fits known (.registered nextState reply accepted) c)
    (hrelocked : c.relocked sent nextState accepted = some (c', replied)) :
    Fits known .idle c' := by
  have hleads : nextState = .acceptingWaitSeq ∨ nextState = .acceptingReady := hfits.leads
  simp only [Conn.relocked] at hrelocked
  split at hrelocked
  · split at hrelocked
    · rename_i hauth
      split at hrelocked
      · cases hrelocked
        exact .fault_of_handled (by simp [hauth])
      · cases hrelocked
        apply Fits.of_idle
        · rcases hleads with rfl | rfl <;> simp [Conn.Greeting, Conn.accepted]
        · rcases hleads with rfl | rfl <;> simp [Conn.accepted]
        · rcases hleads with rfl | rfl <;> simp [Conn.accepted]
        · rcases hleads with rfl | rfl <;> simp [Conn.accepted]
      · cases hrelocked
        apply Fits.of_idle
        · rcases hleads with rfl | rfl <;> simp [Conn.Greeting, Conn.accepted]
        · simp [Conn.accepted]
        · simp [Conn.accepted]
        · simp [Conn.accepted]
    · split at hrelocked
      · rename_i hclosed
        cases hrelocked
        exact .fault_of_handled (by simp [hclosed])
      · cases hrelocked
  · rename_i hrefused
    cases hrelocked
    apply Fits.fault_of_handled
    intro hnone
    rcases hfits.handling (fun h => nomatch h) with hauth | hclosed | hwaits
    · exact absurd (hauth.symm.trans hnone) (by simp)
    · exact absurd (hclosed.symm.trans hnone) (by simp)
    · apply hwaits.2
      rw [eq_false_of_ne_true hrefused]
      trivial

end

namespace Host

/-- The connection is in `conns`, or `lookup_conn` has returned it to a connection that is about to
decide. -/
def Known (q : Host Addr) (c : ℕ) : Prop :=
  q.registered = some c ∨ ∃ c' authorizerReply, q.handlers c' = .looked authorizerReply (some c)

/-- What every run maintains. -/
structure Guarded (q : Host Addr) : Prop where
  known : ∀ c, q.Known c → c < q.created
  busy : ∀ c, q.handlers c ≠ .idle → c < q.created
  handed : ∀ h ∈ q.handovers, h.existing < q.created
  fits : ∀ c < q.created, Fits (q.Known c) (q.handlers c) (q.conns c)

variable {q q' : Host Addr} {c : ℕ} {conn : Conn Addr} {h : Handler}

/-- One connection changes, and may become known. -/
theorem Guarded.change (hq : q.Guarded) (conn : Conn Addr) (h : Handler) (hc : c < q'.created)
    (hcreated : ∀ c', c' ≠ c → (c' < q.created ↔ c' < q'.created))
    (hconns : q'.conns = Function.update q.conns c conn)
    (hhandlers : q'.handlers = Function.update q.handlers c h)
    (hhanded : ∀ h ∈ q'.handovers, h.existing < q'.created)
    (hknown : ∀ e, e ≠ c → q'.Known e → q.Known e) (hfits : Fits (q'.Known c) h conn) :
    q'.Guarded := by
  constructor
  · intro e he
    by_cases heq : e = c
    · exact heq ▸ hc
    · exact (hcreated e heq).mp (hq.known e (hknown e heq he))
  · intro e he
    by_cases heq : e = c
    · exact heq ▸ hc
    · rw [hhandlers, Function.update_of_ne heq] at he
      exact (hcreated e heq).mp (hq.busy e he)
  · exact hhanded
  · intro e he
    by_cases heq : e = c
    · rw [heq, hhandlers, hconns, Function.update_self, Function.update_self]
      exact hfits
    · rw [hhandlers, hconns, Function.update_of_ne heq, Function.update_of_ne heq]
      exact (hq.fits e ((hcreated e heq).mpr he)).mono (hknown e heq)

/-- One connection changes, and what is known stays. -/
theorem Guarded.update (hq : q.Guarded) (hc : c < q.created) (hcreated : q'.created = q.created)
    (hconns : q'.conns = Function.update q.conns c conn)
    (hhandlers : q'.handlers = Function.update q.handlers c h)
    (hhanded : ∀ h ∈ q'.handovers, h.existing < q.created)
    (hregistered : q'.registered = q.registered)
    (hlooked : ∀ authorizerReply e, h = .looked authorizerReply (some e) → q.Known e)
    (hfits : Fits (q.Known c) h conn) : q'.Guarded := by
  have hknown : ∀ e, q'.Known e → q.Known e := by
    rintro e (hreg | ⟨c', authorizerReply, hlook⟩)
    · exact .inl (hregistered ▸ hreg)
    · by_cases heq : c' = c
      · rw [heq, hhandlers, Function.update_self] at hlook
        exact hlooked authorizerReply e hlook
      · rw [hhandlers, Function.update_of_ne heq] at hlook
        exact .inr ⟨c', authorizerReply, hlook⟩
  apply hq.change conn h (hcreated ▸ hc) _ hconns hhandlers
  · rwa [hcreated]
  · exact fun e _ => hknown e
  · exact hfits.mono (hknown c)
  · exact fun _ _ => by rw [hcreated]

/-- A connection changes while `handle_connect_msg` is where it was. -/
theorem Guarded.set (hq : q.Guarded) (hc : c < q.created)
    (hfits : Fits (q.Known c) (q.handlers c) conn) : (q.set c conn).Guarded := by
  apply Guarded.update hq hc
  · rfl
  · rfl
  · exact (Function.update_eq_self c q.handlers).symm
  · exact hq.handed
  · rfl
  · exact fun authorizerReply e hlook => .inr ⟨c, authorizerReply, hlook⟩
  · exact hfits

/-- The handler of a connection goes on without having looked up anything. -/
theorem Guarded.setHandler (hq : q.Guarded) (hc : c < q.created)
    (hlooked : ∀ authorizerReply e, h ≠ .looked authorizerReply (some e))
    (hfits : Fits (q.Known c) h conn) : ((q.set c conn).setHandler c h).Guarded :=
  hq.update hc rfl rfl rfl hq.handed rfl
    (fun authorizerReply e hlook => absurd hlook (hlooked authorizerReply e)) hfits

/-- Other fields do not matter. -/
theorem Guarded.congr (hq : q.Guarded) (hcreated : q'.created = q.created)
    (hconns : q'.conns = q.conns) (hhandlers : q'.handlers = q.handlers)
    (hhanded : ∀ h ∈ q'.handovers, h.existing < q.created)
    (hregistered : ∀ e, q'.registered = some e → q.registered = some e) : q'.Guarded := by
  have hknown : ∀ e, q'.Known e → q.Known e := by
    rintro e (hreg | hlook)
    · exact .inl (hregistered e hreg)
    · exact .inr (hhandlers ▸ hlook)
  constructor
  · intro e he
    rw [hcreated]
    exact hq.known e (hknown e he)
  · intro e he
    rw [hcreated]
    exact hq.busy e (hhandlers ▸ he)
  · rwa [hcreated]
  · intro e he
    rw [hhandlers, hconns]
    exact (hq.fits e (hcreated ▸ he)).mono (hknown e)

/-! ### Connections that come and go -/

theorem Guarded.lookupConn (hq : q.Guarded) : q.lookupConn.2.Guarded := by
  unfold Host.lookupConn
  split
  · exact hq
  · split
    · apply hq.congr
      · rfl
      · rfl
      · rfl
      · exact hq.handed
      · intro e he
        cases he
    · exact hq

/-- What `lookup_conn` returns is registered. -/
theorem lookupConn_eq_some {e : ℕ} (he : q.lookupConn.1 = some e) :
    q.lookupConn.2.registered = some e := by
  unfold Host.lookupConn at he ⊢
  split at he
  · cases he
  · rename_i e' hreg
    split at he
    · cases he
    · rename_i hkept
      cases he
      simp only [hreg, if_neg hkept]

theorem lookupConn_kept :
    q.lookupConn.2.conns = q.conns ∧ q.lookupConn.2.handlers = q.handlers := by
  unfold Host.lookupConn
  split
  · exact ⟨rfl, rfl⟩
  · split <;> exact ⟨rfl, rfl⟩

/-- A new connection gets the next number. -/
theorem Guarded.construct (hq : q.Guarded) (conn : Conn Addr) (hnone : conn.state ≠ .none)
    (hmsg : conn.state ≠ .acceptingWaitConnectMsg)
    (hauth : conn.state ≠ .acceptingWaitConnectMsgAuth)
    (hcreated : q'.created = q.created + 1)
    (hconns : q'.conns = Function.update q.conns q.created conn)
    (hhandlers : q'.handlers = Function.update q.handlers q.created .idle)
    (hhanded : q'.handovers = q.handovers)
    (hregistered : ∀ e, q'.registered = some e →
      q.registered = some e ∨ e = q.created ∧ ¬ conn.Greeting) : q'.Guarded := by
  have hfresh : ¬ q.Known q.created := fun hknown => Nat.lt_irrefl _ (hq.known _ hknown)
  have hknown : ∀ e, q'.Known e → q.Known e ∨ e = q.created ∧ ¬ conn.Greeting := by
    rintro e (hreg | ⟨c', authorizerReply, hlook⟩)
    · exact (hregistered e hreg).imp_left .inl
    · by_cases heq : c' = q.created
      · rw [heq, hhandlers, Function.update_self] at hlook
        cases hlook
      · rw [hhandlers, Function.update_of_ne heq] at hlook
        exact .inl (.inr ⟨c', authorizerReply, hlook⟩)
  apply Guarded.change hq conn .idle _ _ hconns hhandlers
  · intro h hh
    rw [hhanded] at hh
    rw [hcreated]
    exact Nat.lt_succ_of_lt (hq.handed h hh)
  · exact fun e hne he => (hknown e he).resolve_right fun hnew => hne hnew.1
  · apply Fits.of_idle
    · intro he
      rcases hknown q.created he with hold | hnew
      · exact absurd hold hfresh
      · exact hnew.2
    · exact hmsg
    · exact hauth
    · exact fun hstate => absurd hstate hnone
  · rw [hcreated]
    exact Nat.lt_succ_self _
  · intro c' hne
    rw [hcreated]
    omega

theorem Guarded.getConnection (hq : q.Guarded) (hstate : conn.state = .connecting) :
    (q.getConnection conn).Guarded := by
  have hlookup := hq.lookupConn
  unfold Host.getConnection
  split
  · rename_i e q₁ heq
    rwa [heq] at hlookup
  · rename_i q₁ heq
    rw [heq] at hlookup
    apply Guarded.construct hlookup conn
    · simp [hstate]
    · simp [hstate]
    · simp [hstate]
    · rfl
    · rfl
    · rfl
    · rfl
    · intro e he
      cases he
      exact .inr ⟨rfl, by simp [Conn.Greeting, hstate]⟩

theorem Guarded.addAccept (hq : q.Guarded) (hstate : conn.state = .accepting) :
    (q.addAccept conn).Guarded := by
  apply Guarded.construct hq conn
  · simp [hstate]
  · simp [hstate]
  · simp [hstate]
  · rfl
  · rfl
  · rfl
  · rfl
  · exact fun e he => .inl he

theorem Guarded.reapDead (hq : q.Guarded) : q.reapDead.Guarded := by
  apply hq.congr
  · rfl
  · rfl
  · rfl
  · exact hq.handed
  · exact fun e he => (Option.filter_eq_some_iff.mp he).1

theorem Guarded.shutdownConnections (hq : q.Guarded) : q.shutdownConnections.Guarded := by
  have hknown : ∀ e, q.shutdownConnections.Known e → q.Known e := by
    rintro e (hreg | hlook)
    · cases hreg
    · exact .inr hlook
  constructor
  · exact fun e he => hq.known e (hknown e he)
  · exact hq.busy
  · exact hq.handed
  · intro e he
    have hfits := (hq.fits e he).mono (hknown e)
    simp only [Host.shutdownConnections]
    split
    · exact hfits.stop
    · exact hfits

/-! ### Accepting -/

variable {t : Setup Addr}

/-- A connection that is refused or told to come back waits for another connect message. -/
theorem Guarded.replyAccept (hq : q.Guarded) (hc : c < q.created)
    (hwaits : (q.handlers c).Waits (q.conns c).state)
    (hsame : conn.replacing = (q.conns c).replacing)
    (tag : ReplyTag) (connectSeq globalSeq : UInt32) (authorizerReply : List UInt8) :
    (q.replyAccept t c conn tag connectSeq globalSeq authorizerReply).Guarded := by
  apply Guarded.update hq hc
  · rfl
  · rfl
  · rfl
  · exact hq.handed
  · rfl
  · exact fun authorizerReply e hlook => nomatch hlook
  · apply (hq.fits c hc).waits hwaits
    · exact hsame
    · simp [Conn.replyAccept, Conn.Greeting]
    · exact .inr ⟨rfl, rfl⟩
    · trivial

theorem Guarded.openSession {authorizerReply : List UInt8} {existing : Option ℕ} (hq : q.Guarded)
    (hlooked : q.handlers c = .looked authorizerReply existing)
    (hstate : (q.conns c).state = .acceptingWaitConnectMsgAuth) :
    (q.openSession t c authorizerReply).Guarded := by
  have hc : c < q.created := hq.busy c (by simp [hlooked])
  have hopening : ((q.conns c).openSession t q.globalSeq authorizerReply).conn.state =
      (q.conns c).state ∧
        ((q.conns c).openSession t q.globalSeq authorizerReply).conn.replacing =
          (q.conns c).replacing := by
    simp only [Conn.openSession]
    split_ifs <;> exact ⟨rfl, rfl⟩
  apply Guarded.update hq hc
  · rfl
  · rfl
  · rfl
  · exact hq.handed
  · rfl
  · exact fun authorizerReply e hlook => nomatch hlook
  · apply (hq.fits c hc).waits
    · rw [hlooked]
      trivial
    · exact hopening.2
    · simp [Conn.Greeting, hopening.1, hstate]
    · exact .inl (hopening.1.trans hstate)
    · simp only [Conn.openSession, Handler.Leads]
      split_ifs
      · exact .inl rfl
      · exact .inr rfl

theorem check_kept (c : Conn Addr) (t : Setup Addr) (authorizer : List UInt8) :
    (c.check t authorizer).conn.state = c.state ∧
      (c.check t authorizer).conn.replacing = c.replacing := by
  simp only [Conn.check]
  split_ifs <;> exact ⟨rfl, rfl⟩

theorem Guarded.handleConnectMsg (hq : q.Guarded) (hc : c < q.created)
    (hidle : q.handlers c = .idle) (hstate : (q.conns c).state = .acceptingWaitConnectMsgAuth)
    (authorizer : List UInt8) : (q.handleConnectMsg t c authorizer).Guarded := by
  have hchecked := check_kept (q.conns c) t authorizer
  have hwaits : (q.handlers c).Waits (q.conns c).state := by
    rw [hidle]
    exact .inr hstate
  have hverifying : ∀ refused authorizerReply,
      Fits (q.Known c) (.verifying refused authorizerReply)
        ((q.conns c).check t authorizer).conn := by
    intro refused authorizerReply
    apply (hq.fits c hc).waits hwaits hchecked.2
    · simp [Conn.Greeting, hchecked.1, hstate]
    · exact .inl (hchecked.1.trans hstate)
    · trivial
  simp only [Host.handleConnectMsg]
  split
  · exact hq.setHandler hc (fun _ _ hlook => nomatch hlook) (hverifying _ _)
  · exact hq.setHandler hc (fun _ _ hlook => nomatch hlook) (hverifying _ _)
  · exact hq.replyAccept hc hwaits hchecked.2 _ _ _ _

theorem Guarded.lookUp {authorizerReply : List UInt8} (hq : q.Guarded)
    (hverifying : q.handlers c = .verifying false authorizerReply) :
    (q.lookupConn.2.setHandler c (.looked authorizerReply q.lookupConn.1)).Guarded := by
  have hlookup := hq.lookupConn
  obtain ⟨hconns, hhandlers⟩ := lookupConn_kept (q := q)
  rw [← hhandlers] at hverifying
  have hc : c < q.lookupConn.2.created := hlookup.busy c (by simp [hverifying])
  have hfits := hlookup.fits c hc
  rw [hverifying] at hfits
  apply Guarded.update hlookup hc
  · rfl
  · exact (Function.update_eq_self c q.lookupConn.2.conns).symm
  · rfl
  · exact hlookup.handed
  · rfl
  · intro authorizerReply' e hlook
    cases hlook' : q.lookupConn.1 with
    | none =>
        rw [hlook'] at hlook
        cases hlook
    | some e' =>
        rw [hlook'] at hlook
        cases hlook
        exact .inl (lookupConn_eq_some hlook')
  · constructor
    · exact hfits.greeting
    · exact fun hknown _ => hfits.waiting hknown trivial
    · exact fun hidle => nomatch hidle
    · intro _
      rcases hfits.handling (fun hidle => nomatch hidle) with hauth | hclosed | hnone
      · exact .inl hauth
      · exact .inr (.inl hclosed)
      · exact absurd trivial hnone.2
    · trivial

/-- What `accept_conn` leaves in `conns`. -/
theorem acceptConn_kept :
    (q.acceptConn c).2.conns = q.conns ∧ (q.acceptConn c).2.handlers = q.handlers ∧
      (q.acceptConn c).2.created = q.created ∧ (q.acceptConn c).2.handovers = q.handovers ∧
        ∀ e, (q.acceptConn c).2.registered = some e →
          q.registered = some e ∨ e = c ∧ (q.acceptConn c).1 = true := by
  unfold Host.acceptConn
  dsimp only
  split
  · exact ⟨rfl, rfl, rfl, rfl, fun e he => .inr ⟨(Option.some.inj he).symm, rfl⟩⟩
  · split_ifs
    · exact ⟨rfl, rfl, rfl, rfl, fun e he => .inr ⟨(Option.some.inj he).symm, rfl⟩⟩
    · exact ⟨rfl, rfl, rfl, rfl, fun e he => .inl he⟩
    · exact ⟨rfl, rfl, rfl, rfl, fun e he => .inr ⟨(Option.some.inj he).symm, rfl⟩⟩

/-- `accept_conn` makes a connection known that has been accepted. -/
theorem Guarded.acceptConn {nextState : RCState} {reply : ConnectReply} (hq : q.Guarded)
    (hregistering : q.handlers c = .registering nextState reply) :
    ((q.acceptConn c).2.setHandler c (.registered nextState reply (q.acceptConn c).1)).Guarded := by
  obtain ⟨hconns, hhandlers, hcreated, hhanded, hregistered⟩ := acceptConn_kept (q := q) (c := c)
  have hc : c < q.created := hq.busy c (by simp [hregistering])
  have hfits := hq.fits c hc
  rw [hregistering] at hfits
  have hstate : (q.conns c).state = .acceptingWaitConnectMsgAuth ∨ (q.conns c).state = .closed := by
    rcases hfits.handling (fun hidle => nomatch hidle) with hauth | hclosed | hnone
    · exact .inl hauth
    · exact .inr hclosed
    · exact absurd trivial hnone.2
  generalize haccepted : (q.acceptConn c).1 = accepted at hregistered ⊢
  have hknown : ∀ e, ((q.acceptConn c).2.setHandler c
      (.registered nextState reply accepted)).Known e → q.Known e ∨ e = c ∧ accepted = true := by
    rintro e (hreg | ⟨c', authorizerReply, hlook⟩)
    · exact (hregistered e hreg).imp_left .inl
    · by_cases heq : c' = c
      · simp only [Host.setHandler, heq, Function.update_self] at hlook
        cases hlook
      · simp only [Host.setHandler, Function.update_of_ne heq, hhandlers] at hlook
        exact .inl (.inr ⟨c', authorizerReply, hlook⟩)
  apply Guarded.change hq (q.conns c) (.registered nextState reply accepted) (c := c)
  · exact hcreated ▸ hc
  · intro c' _
    exact hcreated ▸ Iff.rfl
  · exact hconns.trans (Function.update_eq_self c q.conns).symm
  · exact congrArg (Function.update · c _) hhandlers
  · intro h hh
    exact hcreated ▸ hq.handed h (hhanded ▸ hh)
  · exact fun e hne he => (hknown e he).resolve_right fun hnew => hne hnew.1
  · constructor
    · rcases hstate with hstate | hstate <;> simp [Conn.Greeting, hstate]
    · intro he hwaits
      rcases hknown c he with hold | ⟨_, htrue⟩
      · exact hfits.waiting hold trivial
      · rw [htrue] at hwaits
        exact hwaits.elim
    · exact fun hidle => nomatch hidle
    · exact fun _ => hstate.imp_right .inl
    · exact hfits.leads

theorem Guarded.relock {sent : Sent} {nextState : RCState} {reply : ConnectReply} {accepted : Bool}
    (hq : q.Guarded) (hregistered : q.handlers c = .registered nextState reply accepted)
    (hrelock : q.relock c sent nextState reply accepted = some q') : q'.Guarded := by
  have hc : c < q.created := hq.busy c (by simp [hregistered])
  have hfits := hq.fits c hc
  rw [hregistered] at hfits
  simp only [Host.relock] at hrelock
  split at hrelock
  · cases hrelock
  · rename_i conn replied hrelocked
    cases hrelock
    apply Guarded.update hq hc
    · rfl
    · rfl
    · rfl
    · exact hq.handed
    · rfl
    · exact fun _ _ hlook => nomatch hlook
    · exact hfits.relocked hrelocked

/-- A connection that is replaced is not replacing yet. -/
theorem replacing_of_verdict [LinearOrder Addr] {e : Conn Addr} {hardReset sessionReset : Bool}
    (hverdict : conn.verdict t (some e) = .replace hardReset sessionReset) :
    e.replacing = false := by
  by_contra hreplacing
  simp only [Conn.verdict, eq_true_of_ne_false hreplacing, if_true] at hverdict
  split at hverdict <;> cases hverdict

theorem Guarded.replace {e outSeq : ℕ} {hardReset sessionReset : Bool}
    {authorizerReply : List UInt8} (hq : q.Guarded) (hne : c ≠ e)
    (hlooked : q.handlers c = .looked authorizerReply (some e))
    (hauth : (q.conns c).state = .acceptingWaitConnectMsgAuth)
    (hreplacing : (q.conns e).replacing = false)
    (hreplace : q.replace t c e outSeq hardReset sessionReset authorizerReply = some q') :
    q'.Guarded := by
  have hc : c < q.created := hq.busy c (by simp [hlooked])
  have hknown : q.Known e := .inr ⟨c, authorizerReply, hlooked⟩
  have he : e < q.created := hq.known e hknown
  have hnot : ¬ (q.handlers e).Waits (q.conns e).state := by
    intro hwaits
    have htrue := (hq.fits e he).waiting hknown hwaits
    exact absurd (hreplacing.symm.trans htrue) Bool.false_ne_true
  have hreplaced := hq.set he (.replaced hardReset sessionReset outSeq (hq.fits e he) hnot)
  have hsame : ∀ conn, (q.set e conn).conns c = q.conns c :=
    fun conn => Function.update_of_ne hne ..
  simp only [Host.replace] at hreplace
  split at hreplace
  · cases hreplace
    apply hreplaced.openSession hlooked
    rw [hsame]
    exact hauth
  · split at hreplace
    · cases hreplace
      apply Guarded.update hreplaced hc
      · rfl
      · rfl
      · rfl
      · intro h hh
        rcases List.mem_cons.mp hh with rfl | hold
        · exact he
        · exact hq.handed h hold
      · rfl
      · exact fun _ _ hlook => nomatch hlook
      · exact .of_failed (.inl (stop_cases _).1)
    · cases hreplace

/-- The decision. -/
theorem Guarded.decide [LinearOrder Addr] {outSeq : ℕ} {authorizerReply : List UInt8}
    {existing : Option ℕ} (hq : q.Guarded)
    (hlooked : q.handlers c = .looked authorizerReply existing)
    (hdecide : q.decide t c outSeq authorizerReply existing = some q') : q'.Guarded := by
  have hc : c < q.created := hq.busy c (by simp [hlooked])
  have hwaits : (q.handlers c).Waits (q.conns c).state := by
    rw [hlooked]
    trivial
  simp only [Host.decide] at hdecide
  split at hdecide
  · split at hdecide
    · rename_i hclosed
      cases hdecide
      apply Guarded.update hq hc
      · rfl
      · exact (Function.update_eq_self c q.conns).symm
      · rfl
      · exact hq.handed
      · rfl
      · exact fun _ _ hlook => nomatch hlook
      · exact .of_failed (.inl hclosed)
    · cases hdecide
  · rename_i hauth
    split at hdecide
    · cases hdecide
      exact hq.replyAccept hc hwaits rfl _ _ _ _
    · rename_i hardReset sessionReset hverdict
      split at hdecide
      · cases hdecide
      · rename_i e hexisting
        have hother : c ≠ e ∧ existing = some e := by
          split at hexisting
          · cases hexisting
          · rename_i hne
            exact ⟨fun heq => hne (heq ▸ hexisting), hexisting⟩
        obtain ⟨hne, rfl⟩ := hother
        rw [hexisting] at hverdict
        exact hq.replace hne hlooked (not_not.mp hauth) (replacing_of_verdict hverdict) hdecide
    · cases hdecide
      exact hq.openSession hlooked (not_not.mp hauth)
    · cases hdecide

theorem Guarded.deactivate {h : Handover} (hq : q.Guarded) (hmem : h ∈ q.handovers)
    (hidle : q.handlers h.existing = .idle) (hdeactivate : q.deactivate h = some q') :
    q'.Guarded := by
  have he : h.existing < q.created := hq.handed h hmem
  have hfits := hq.fits _ he
  rw [hidle] at hfits
  simp only [Host.deactivate] at hdeactivate
  split at hdeactivate
  · cases hdeactivate
  · rename_i e hsome
    cases hdeactivate
    have hset := hq.set he (hidle.symm ▸ hfits.deactivate hsome)
    apply hset.congr
    · rfl
    · rfl
    · rfl
    · intro h' hh'
      have hold : ∀ h' ∈ q.handovers.erase h, h'.existing < q.created :=
        fun h' hh' => hq.handed h' (List.mem_of_mem_erase hh')
      dsimp only at hh'
      split at hh'
      · exact hold h' hh'
      · rcases List.mem_cons.mp hh' with rfl | hrest
        · exact he
        · exact hold h' hrest
    · exact fun e he => he

theorem Guarded.transfer {h : Handover} (hq : q.Guarded) (hmem : h ∈ q.handovers)
    (hidle : q.handlers h.existing = .idle) (htransfer : q.transfer h = some q') :
    q'.Guarded := by
  have he : h.existing < q.created := hq.handed h hmem
  have hfits := hq.fits _ he
  rw [hidle] at hfits
  have hold : ∀ h' ∈ q.handovers.erase h, h'.existing < q.created :=
    fun h' hh' => hq.handed h' (List.mem_of_mem_erase hh')
  simp only [Host.transfer] at htransfer
  split at htransfer
  · cases htransfer
    apply hq.congr
    · rfl
    · rfl
    · rfl
    · exact hold
    · exact fun e he => he
  · split at htransfer
    · cases htransfer
    · rename_i e reply hsome
      cases htransfer
      have hset := hq.set he (hidle.symm ▸ hfits.transfer hsome)
      apply hset.congr
      · rfl
      · rfl
      · rfl
      · exact hold
      · exact fun e he => he

/-! ## Runs -/

theorem Guarded.step [LinearOrder Addr] {peerAddr : Addr} {p : Peer Addr} {a : Action Addr}
    (hq : q.Guarded) (hstep : q.step t peerAddr p a = some q') : q'.Guarded := by
  cases a with
  | getConnection peerType =>
      cases hstep
      exact hq.getConnection rfl
  | addAccept policy socket =>
      cases hstep
      exact hq.addAccept rfl
  | lookupConn =>
      cases hstep
      exact hq.lookupConn
  | reapDead =>
      cases hstep
      exact hq.reapDead
  | shutdownConnections =>
      cases hstep
      exact hq.shutdownConnections
  | stop c =>
      simp only [Host.step] at hstep
      split at hstep
      · rename_i hc
        cases hstep
        exact hq.set hc (hq.fits c hc).stop
      · cases hstep
  | fault c =>
      simp only [Host.step] at hstep
      split at hstep
      · rename_i hguard
        cases hstep
        have hfits := hq.fits c hguard.1
        rw [hguard.2] at hfits
        exact hq.set hguard.1 (hguard.2.symm ▸ hfits.fault)
      · cases hstep
  | process c conn globalSeq =>
      simp only [Host.step] at hstep
      split at hstep
      · rename_i hguard
        obtain ⟨hc, hidle, hproceeds⟩ := hguard
        cases hstep
        have hfits := hq.fits c hc
        rw [hidle] at hfits
        apply (hq.set hc (hidle.symm ▸ hfits.process hproceeds)).congr
        · rfl
        · rfl
        · rfl
        · exact hq.handed
        · exact fun e he => he
      · cases hstep
  | receive c connect =>
      simp only [Host.step] at hstep
      split at hstep
      · rename_i hguard
        obtain ⟨hc, hidle, hstate, _⟩ := hguard
        cases hstep
        have hfits := hq.fits c hc
        apply hq.set hc
        rw [hidle] at hfits ⊢
        apply hfits.waits (.inl hstate)
        · rfl
        · simp [Conn.onConnectMsg, Conn.Greeting]
        · exact .inl rfl
        · trivial
      · cases hstep
  | handleConnectMsg c authorizer =>
      simp only [Host.step] at hstep
      split at hstep
      · rename_i hguard
        cases hstep
        exact hq.handleConnectMsg hguard.1 hguard.2.1 hguard.2.2 authorizer
      · cases hstep
  | refuse c =>
      simp only [Host.step] at hstep
      split at hstep
      · rename_i authorizerReply hverifying
        cases hstep
        have hc : c < q.created := hq.busy c (by simp [hverifying])
        apply hq.replyAccept hc
        · rw [hverifying]
          trivial
        · rfl
      · cases hstep
  | lookUp c =>
      simp only [Host.step] at hstep
      split at hstep
      · rename_i authorizerReply hverifying
        cases hstep
        exact hq.lookUp hverifying
      · cases hstep
  | decide c outSeq =>
      simp only [Host.step] at hstep
      split at hstep
      · rename_i authorizerReply existing hlooked
        exact hq.decide hlooked hstep
      · cases hstep
  | acceptConn c =>
      simp only [Host.step] at hstep
      split at hstep
      · rename_i nextState reply hregistering
        cases hstep
        exact hq.acceptConn hregistering
      · cases hstep
  | relock c sent =>
      simp only [Host.step] at hstep
      split at hstep
      · rename_i nextState reply accepted hregistered
        exact hq.relock hregistered hstep
      · cases hstep
  | deactivate h =>
      simp only [Host.step] at hstep
      split at hstep
      · rename_i hguard
        exact hq.deactivate hguard.1 hguard.2.2 hstep
      · cases hstep
  | transfer h =>
      simp only [Host.step] at hstep
      split at hstep
      · rename_i hguard
        exact hq.transfer hguard.1 hguard.2.2 hstep
      · cases hstep
  | _ => cases hstep

end Host

theorem Pair.Start.ordered {w : Pair Addr} (h : w.Start) : w.peer.Ordered := by
  obtain ⟨hdraws, _, _⟩ := h.peer
  constructor
  · rw [hdraws]
    exact .nil
  · intro d hd
    rw [hdraws] at hd
    cases hd

theorem Pair.Start.guarded {w : Pair Addr} (h : w.Start) : w.host.Guarded := by
  obtain ⟨hregistered, hcreated, hhandovers⟩ := h.host
  have hunknown : ∀ c, ¬ w.host.Known c := by
    rintro c (hreg | ⟨c', authorizerReply, hlook⟩)
    · rw [hregistered] at hreg
      cases hreg
    · rw [h.idle c'] at hlook
      cases hlook
  constructor
  · exact fun c hc => absurd hc (hunknown c)
  · exact fun c hc => absurd (h.idle c) hc
  · intro h hh
    rw [hhandovers] at hh
    cases hh
  · intro c hc
    rw [hcreated] at hc
    cases hc

variable [LinearOrder Addr] {s t : Setup Addr} {peerAddr : Addr}

/-- What every run of the two maintains. -/
theorem sound_of_reached {w : Pair Addr}
    (h : (pairMachine s t peerAddr).ReachedUnder Pair.Counts w) :
    w.peer.Ordered ∧ w.host.Guarded := by
  apply h.invariant fun w : Pair Addr => w.peer.Ordered ∧ w.host.Guarded
  · exact fun w hstart => ⟨hstart.ordered, hstart.guarded⟩
  · intro w a w' hsound hcounts hstep
    simp only [pairMachine, Pair.step] at hstep
    split at hstep
    · rename_i p hpeer
      cases hstep
      exact ⟨hsound.1.step hcounts hpeer, hsound.2⟩
    · obtain ⟨q, hhost, hpair⟩ := Option.map_eq_some_iff.mp hstep
      cases hpair
      exact ⟨hsound.1, hsound.2.step hhost⟩

/-! ## The result -/

/-- An acceptable connect message that nobody interrupts meets the connection that is
registered. -/
theorem looked_of_acceptable {w : Pair Addr} {c e : ℕ} {authorizer : List UInt8}
    (hc : c < w.host.created) (hidle : w.host.handlers c = .idle)
    (hstate : (w.host.conns c).state = .acceptingWaitConnectMsgAuth)
    (hacceptable : ((w.host.conns c).check t authorizer).refusal = none)
    (hregistered : w.host.registered = some e) (hdeleted : e ∉ w.host.deletedConns) (hne : e ≠ c) :
    ∃ w₁ w₂, w.step s t peerAddr (.handleConnectMsg c authorizer) = some w₁ ∧
      w₁.step s t peerAddr (.lookUp c) = some w₂ ∧ w₂.peer = w.peer ∧
        (∃ authorizerReply, w₂.host.handlers c = .looked authorizerReply (some e)) ∧
          w₂.host.conns e = w.host.conns e := by
  let checked := (w.host.conns c).check t authorizer
  let q := (w.host.set c checked.conn).setHandler c (.verifying false checked.authorizerReply)
  have hchecks : w.step s t peerAddr (.handleConnectMsg c authorizer) =
      some { w with host := q } := by
    have hguard : c < w.host.created ∧ w.host.handlers c = .idle ∧
        (w.host.conns c).state = .acceptingWaitConnectMsgAuth := ⟨hc, hidle, hstate⟩
    simp only [Pair.step, Peer.step, Host.step, if_pos hguard, Host.handleConnectMsg, hacceptable,
      Option.map_some]
    rfl
  have hverifying : q.handlers c = .verifying false checked.authorizerReply :=
    Function.update_self ..
  have hopen : checked.conn.state = .acceptingWaitConnectMsgAuth :=
    (Host.check_kept (w.host.conns c) t authorizer).1.trans hstate
  have hlookup : q.lookupConn = (some e, q) := by
    have hkept : q.deletedConns = w.host.deletedConns := by
      simp [q, Host.set, Host.setHandler, hopen]
    have hsame : q.registered = some e := hregistered
    simp only [Host.lookupConn, hsame, hkept, if_neg hdeleted]
  have hlooks : Pair.step s t peerAddr { w with host := q } (.lookUp c) =
      some { w with host := q.setHandler c (.looked checked.authorizerReply (some e)) } := by
    simp only [Pair.step, Peer.step, Host.step, hverifying, hlookup, Option.map_some]
  exact ⟨_, _, hchecks, hlooks, rfl, ⟨_, Function.update_self ..⟩, Function.update_of_ne hne ..⟩

/-- `handle_connect_msg` of `c` is about to decide about a connect message and `e`, which
`lookup_conn` has returned and which is neither closed nor replacing.  The peer drew the number of
the message before it drew the `peer_global_seq` of `e`. -/
structure MeetsNewer (w : Pair Addr) (c e : ℕ) : Prop where
  looked : ∃ authorizerReply, w.host.handlers c = .looked authorizerReply (some e)
  state : (w.host.conns c).state = .acceptingWaitConnectMsgAuth
  existing : (w.host.conns e).state ≠ .closed ∧ (w.host.conns e).replacing = false
  older : ∃ i j : ℕ, i < j ∧ w.peer.draws[i]? = some (w.host.conns c).connectMsg.globalSeq ∧
    w.peer.draws[j]? = some (w.host.conns e).peerGlobalSeq

/-- **A stale connect message** is answered with `RETRY_GLOBAL`, and nothing happens to the newer
session. -/
theorem retryGlobal_of_meetsNewer (s t : Setup Addr) (peerAddr : Addr) (w : Pair Addr)
    (hreached : (pairMachine s t peerAddr).ReachedUnder Pair.Counts w) (c e : ℕ)
    (h : MeetsNewer w c e) (outSeq : ℕ) :
    ∃ w' reply, w.step s t peerAddr (.decide c outSeq) = some w' ∧
      w'.host.answers = w.host.answers ++ [(c, reply)] ∧ reply.tag = .retryGlobal ∧
        reply.globalSeq = (w.host.conns e).peerGlobalSeq ∧
          w'.host.conns e = w.host.conns e ∧ w'.host.registered = w.host.registered := by
  obtain ⟨hordered, hguarded⟩ := sound_of_reached hreached
  obtain ⟨authorizerReply, hlooked⟩ := h.looked
  obtain ⟨hopen, hreplacing⟩ := h.existing
  obtain ⟨i, j, hij, hi, hj⟩ := h.older
  have hlt := hordered.lt_of_lt hi hj hij
  -- a connection that meets itself is replacing
  have hne : c ≠ e := by
    rintro rfl
    have hknown : w.host.Known c := .inr ⟨c, authorizerReply, hlooked⟩
    have hwaits : (w.host.handlers c).Waits (w.host.conns c).state := by
      rw [hlooked]
      trivial
    have htrue := (hguarded.fits c (hguarded.known c hknown)).waiting hknown hwaits
    exact absurd (hreplacing.symm.trans htrue) Bool.false_ne_true
  have hverdict : (w.host.conns c).verdict t (some (w.host.conns e)) =
      .reply .retryGlobal 0 (w.host.conns e).peerGlobalSeq := by
    simp only [Conn.verdict, if_neg hopen, hreplacing, Bool.false_eq_true, if_false, if_pos hlt]
  let q := w.host.replyAccept t c (w.host.conns c) .retryGlobal 0 (w.host.conns e).peerGlobalSeq
    authorizerReply
  have hdecide : w.host.decide t c outSeq authorizerReply (some e) = some q := by
    have hexisting : (if some e = some c then none else some e) = some e :=
      if_neg fun heq => hne (Option.some.inj heq).symm
    simp only [Host.decide, h.state, hexisting, Option.map_some, hverdict]
    rfl
  have hstep : w.step s t peerAddr (.decide c outSeq) = some { w with host := q } := by
    simp only [Pair.step, Peer.step, Host.step, hlooked, hdecide, Option.map_some]
  have hsame : q.conns e = w.host.conns e := Function.update_of_ne hne.symm ..
  exact ⟨_, _, hstep, rfl, rfl, rfl, hsame, rfl⟩

/-- Two messengers that have just started. -/
def Pair.fresh : Pair ℕ where
  peer := ⟨0, [], fun _ => Conn.create 1 4 Policy.plain, [], []⟩
  host := ⟨0, none, ∅, ∅, 0, fun _ => Conn.create 2 4 Policy.plain, fun _ => .idle, [], []⟩

theorem Pair.start_fresh : Pair.fresh.Start := ⟨⟨rfl, rfl, rfl⟩, ⟨rfl, rfl, rfl⟩, fun _ => rfl⟩

/-- A connection that is accepted and has read the connect message with this number, up to
`lookup_conn`. -/
def Action.accepting (c : ℕ) (globalSeq : UInt32) : List (Action ℕ) :=
  [.addAccept Policy.plain 0,
    .process c { Conn.create 2 4 Policy.plain with state := .acceptingWaitConnectMsg } 0,
    .receive c ⟨0, 4, globalSeq, 0, 0, 0, 0, 0⟩, .handleConnectMsg c [], .lookUp c]

/-- The first of two connect messages arrives when the second has opened a session. -/
theorem retryGlobal_fresh :
    ∃ w w' : Pair ℕ, ∃ reply, w.step Setup.plain Setup.plain 2 (.decide 1 0) = some w' ∧
      w'.host.answers = w.host.answers ++ [(1, reply)] ∧ reply.tag = .retryGlobal ∧
        reply.globalSeq = (w.host.conns 0).peerGlobalSeq ∧
          w'.host.conns 0 = w.host.conns 0 ∧ w'.host.registered = w.host.registered := by
  obtain ⟨w, hreplay, hlooked, hstate, hopen, hreplacing, hi, hj⟩ :
      ∃ w, (pairMachine Setup.plain Setup.plain 2).replay Pair.Counts Pair.fresh
        ([.connecting 0, .connect 0, .connecting 0, .connect 0] ++ Action.accepting 0 2 ++
          [.decide 0 0, .acceptConn 0, .relock 0 .all] ++ Action.accepting 1 1) = some w ∧
        w.host.handlers 1 = .looked [] (some 0) ∧
          (w.host.conns 1).state = .acceptingWaitConnectMsgAuth ∧
            (w.host.conns 0).state = .acceptingReady ∧ (w.host.conns 0).replacing = false ∧
              w.peer.draws[0]? = some (w.host.conns 1).connectMsg.globalSeq ∧
                w.peer.draws[1]? = some (w.host.conns 0).peerGlobalSeq :=
    ⟨_, rfl, rfl, rfl, rfl, rfl, rfl, rfl⟩
  have hmeets : MeetsNewer w 1 0 := by
    constructor
    · exact ⟨[], hlooked⟩
    · exact hstate
    · rw [hopen]
      exact ⟨by decide, hreplacing⟩
    · exact ⟨0, 1, by decide, hi, hj⟩
  obtain ⟨w', reply, hanswered⟩ := retryGlobal_of_meetsNewer Setup.plain Setup.plain 2 w
    (.of_replay (.start Pair.start_fresh) hreplay) 1 0 hmeets 0
  exact ⟨w, w', reply, hanswered⟩

end HwAsync.Connect
