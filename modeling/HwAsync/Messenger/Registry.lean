/-
# The connection registry

A messenger keeps its connections in `conns`, by the address of the peer, and those that have not
been accepted yet in `accepting_conns`.  A connection that stops puts itself into `deleted_conns`
and leaves it to the next lookup, or to `reap_dead`, to take it out of the other two.

`accept_conn` runs while the connection has dropped its own lock.  A connection that was stopped
and forgotten by then enters `conns` closed, and nobody takes it out again.
-/

import Mathlib.Data.Finset.Basic
import Mathlib.Logic.Function.Basic
import HwAsync.Lib.Run

namespace HwAsync.Messenger

open HwAsync.Lib

/-- The part of the state of a connection that the registry depends on: it may not know its peer
yet, and `_stop` calls `unregister_conn` before the state is `STATE_CLOSED`. -/
inductive Phase
  | accepting
  | live
  | stopping
  | closed
  deriving DecidableEq, Repr

/-- Where `handle_connect_msg` has dropped the lock of the connection: at `verify_authorizer` and
`lookup_conn`, in front of `accept_conn` or behind it. -/
inductive Window
  | locked
  | verifying
  | registering
  | registered
  deriving DecidableEq, Repr

/-- A connection, as the registry sees it. -/
structure Link (Addr : Type) where
  peerAddr : Addr
  phase : Phase
  window : Window

/-- The connections of a messenger, numbered as they are created. -/
structure Registry (Addr : Type) where
  conns : Addr → Option ℕ
  acceptingConns : Finset ℕ
  deletedConns : Finset ℕ
  created : ℕ
  links : ℕ → Link Addr

variable {Addr : Type}

namespace Registry

/-- The phase of a connection. -/
abbrev phase (r : Registry Addr) (c : ℕ) : Phase := (r.links c).phase

/-- The window of a connection. -/
abbrev window (r : Registry Addr) (c : ℕ) : Window := (r.links c).window

/-- `create_connection`. -/
def construct (l : Link Addr) (r : Registry Addr) : Registry Addr :=
  { r with
    created := r.created + 1
    links := Function.update r.links r.created l }

/-- A connection changes. -/
def setLink (c : ℕ) (l : Link Addr) (r : Registry Addr) : Registry Addr :=
  { r with links := Function.update r.links c l }

variable [DecidableEq Addr]

/-- `_lookup_conn`. -/
def lookupConn (a : Addr) (r : Registry Addr) : Option ℕ × Registry Addr :=
  match r.conns a with
  | none => (none, r)
  | some p =>
      if p ∈ r.deletedConns then
        (none, { r with
          conns := Function.update r.conns a none
          deletedConns := r.deletedConns.erase p })
      else (some p, r)

/-- `create_connect`. -/
def createConnect (a : Addr) (r : Registry Addr) : Registry Addr :=
  { r.construct ⟨a, .live, .locked⟩ with
    conns := Function.update r.conns a (some r.created) }

/-- `get_connection` and `submit_message`. -/
def getConnection (a : Addr) (r : Registry Addr) : Registry Addr :=
  match r.lookupConn a with
  | (some _, r) => r
  | (none, r) => r.createConnect a

/-- `add_accept`. -/
def addAccept [Inhabited Addr] (r : Registry Addr) : Registry Addr :=
  { r.construct ⟨default, .accepting, .locked⟩ with
    acceptingConns := insert r.created r.acceptingConns }

/-- `accept_conn`; none if it returns -1. -/
def acceptConn (c : ℕ) (r : Registry Addr) : Option (Registry Addr) :=
  let a := (r.links c).peerAddr
  let register (r : Registry Addr) : Registry Addr :=
    { r with
      conns := Function.update r.conns a (some c)
      acceptingConns := r.acceptingConns.erase c }
  match r.conns a with
  | none => some (register r)
  | some e =>
      if e ∈ r.deletedConns then
        some (register { r with
          conns := Function.update r.conns a none
          deletedConns := r.deletedConns.erase e })
      else if c ≠ e then none
      else some (register r)

/-- `unregister_conn`, at the beginning of `_stop`. -/
def unregisterConn (c : ℕ) (r : Registry Addr) : Registry Addr :=
  { r.setLink c { r.links c with phase := .stopping } with
    deletedConns := insert c r.deletedConns }

/-- `stop`, from a thread that has the lock of the messenger. -/
def stop (c : ℕ) (r : Registry Addr) : Registry Addr :=
  if r.phase c = .closed then r
  else
    { r.setLink c { r.links c with phase := .closed } with
      deletedConns := insert c r.deletedConns }

/-- `reap_dead`. -/
def reapDead (r : Registry Addr) : Registry Addr :=
  { r with
    conns := fun a =>
      match r.conns a with
      | some p => if p ∈ r.deletedConns ∧ (r.links p).peerAddr = a then none else some p
      | none => none
    acceptingConns := r.acceptingConns \ r.deletedConns
    deletedConns := ∅ }

/-- The connection is in `accepting_conns`, or in `conns` under the address of its peer. -/
def Known (r : Registry Addr) (c : ℕ) : Prop :=
  c ∈ r.acceptingConns ∨ r.conns (r.links c).peerAddr = some c

instance (r : Registry Addr) (c : ℕ) : Decidable (r.Known c) :=
  inferInstanceAs (Decidable (_ ∨ _))

/-- `shutdown_connections`. -/
def shutdownConnections (r : Registry Addr) : Registry Addr :=
  { r with
    conns := fun _ => none
    acceptingConns := ∅
    deletedConns := ∅
    links := fun c => if r.Known c then { r.links c with phase := .closed } else r.links c }

/-- `mark_down`. -/
def markDown (a : Addr) (r : Registry Addr) : Registry Addr :=
  match r.lookupConn a with
  | (some p, r) => r.stop p
  | (none, r) => r

end Registry

/-! ## Steps -/

/-- What a thread does while it holds a lock of the messenger, or the lock of a connection. -/
inductive Action (Addr : Type)
  | getConnection (a : Addr)
  | lookupConn (a : Addr)
  | addAccept
  /-- `set_peer_addr`, in `STATE_ACCEPTING_WAIT_BANNER_ADDR`. -/
  | setPeerAddr (c : ℕ) (a : Addr)
  /-- `handle_connect_msg` drops the lock for `verify_authorizer`. -/
  | verify (c : ℕ)
  /-- The authorizer is bad, and the state is not compared with what it was. -/
  | badAuthorizer (c : ℕ)
  /-- A reply, a connection to be replaced, or a state that has changed. -/
  | answer (c : ℕ)
  /-- From `open` on the lock is dropped for `accept_conn`. -/
  | opens (c : ℕ)
  | acceptConn (c : ℕ)
  | relock (c : ℕ)
  | unregisterConn (c : ℕ)
  | close (c : ℕ)
  | reapDead
  | shutdownConnections
  | markDown (a : Addr)

namespace Registry

variable [DecidableEq Addr]

/-- The lock of a connection that stops is held until its state is `STATE_CLOSED`. -/
def step [Inhabited Addr] (r : Registry Addr) : Action Addr → Option (Registry Addr)
  | .getConnection a => some (r.getConnection a)
  | .lookupConn a => some (r.lookupConn a).2
  | .addAccept => some r.addAccept
  | .setPeerAddr c a =>
      if c < r.created ∧ r.phase c = .accepting then
        some (r.setLink c { r.links c with peerAddr := a, phase := .live })
      else none
  | .verify c =>
      if c < r.created ∧ r.phase c = .live ∧ r.window c = .locked then
        some (r.setLink c { r.links c with window := .verifying })
      else none
  | .badAuthorizer c =>
      if r.window c = .verifying ∧ r.phase c ≠ .stopping then
        some (r.setLink c { r.links c with phase := .live, window := .locked })
      else none
  | .answer c =>
      if r.window c = .verifying ∧ r.phase c ≠ .stopping then
        some (r.setLink c { r.links c with window := .locked })
      else none
  | .opens c =>
      if r.window c = .verifying ∧ r.phase c = .live then
        some (r.setLink c { r.links c with window := .registering })
      else none
  | .acceptConn c =>
      if r.window c = .registering then
        let r := (r.acceptConn c).getD r
        some (r.setLink c { r.links c with window := .registered })
      else none
  | .relock c =>
      if r.window c = .registered ∧ r.phase c ≠ .stopping then
        some (r.setLink c { r.links c with window := .locked })
      else none
  | .unregisterConn c =>
      if c < r.created ∧ (r.phase c = .accepting ∨ r.phase c = .live) then
        some (r.unregisterConn c)
      else none
  | .close c =>
      if c < r.created ∧ r.phase c = .stopping then
        some (r.setLink c { r.links c with phase := .closed })
      else none
  | .reapDead => some r.reapDead
  | .shutdownConnections =>
      if ∀ c < r.created, r.Known c → r.phase c ≠ .stopping then some r.shutdownConnections
      else none
  | .markDown a =>
      if ∀ p ∈ (r.lookupConn a).1, r.phase p ≠ .stopping then some (r.markDown a) else none

end Registry

/-- The steps of a messenger and its connections, from a messenger without connections. -/
def registryMachine (Addr : Type) [DecidableEq Addr] [Inhabited Addr] :
    Machine (Registry Addr) (Action Addr) where
  start r := r = ⟨fun _ => none, ∅, ∅, 0, fun _ => ⟨default, .closed, .locked⟩⟩
  step := Registry.step

/-! ## The property -/

namespace Registry

variable [DecidableEq Addr]

/-- A closed connection of `conns` is in `deleted_conns`, `_lookup_conn` returns none that is
closed, and leaves none behind. -/
structure HandsOutOpen (r : Registry Addr) : Prop where
  deleted : ∀ a c, r.conns a = some c → r.phase c = .closed → c ∈ r.deletedConns
  returned : ∀ a c, (r.lookupConn a).1 = some c → r.phase c ≠ .closed
  bound : ∀ a c, (r.lookupConn a).2.conns a = some c → r.phase c ≠ .closed

/-- The address is that of a connection that is not in `deleted_conns`. -/
def Held (r : Registry Addr) (a : Addr) : Prop :=
  match r.conns a with
  | none => False
  | some e => e ∉ r.deletedConns

instance (r : Registry Addr) (a : Addr) : Decidable (r.Held a) := by
  unfold Held
  split <;> infer_instance

/-- `_stop` has not run when `accept_conn` is called.  Otherwise the address has another connection,
and the stopped one waits in `deleted_conns` unless that one keeps it out. -/
def RegistersOpen (r : Registry Addr) : Action Addr → Prop
  | .acceptConn c =>
      let a := (r.links c).peerAddr
      r.phase c = .live ∨ r.conns a ≠ some c ∧ (c ∈ r.deletedConns ∨ r.Held a)
  | _ => True

instance (r : Registry Addr) (action : Action Addr) : Decidable (r.RegistersOpen action) := by
  unfold RegistersOpen
  split <;> infer_instance

end Registry

/-! ## What each operation keeps -/

namespace Registry

/-- What every run maintains under that condition. -/
structure Tidy (r : Registry Addr) : Prop where
  keyed : ∀ a c, r.conns a = some c → (r.links c).peerAddr = a
  known : ∀ a c, r.conns a = some c → c < r.created ∧ r.phase c ≠ .accepting
  dead : ∀ a c, r.conns a = some c → r.phase c ≠ .live → c ∈ r.deletedConns
  handled : ∀ c, r.window c ≠ .locked → c < r.created ∧ r.phase c ≠ .accepting

variable {r : Registry Addr} {a : Addr} {c : ℕ}

/-- Entries may be dropped, as long as those that stay are not forgotten. -/
theorem Tidy.drop {r' : Registry Addr} (h : Tidy r) (hlinks : r'.links = r.links)
    (hcreated : r'.created = r.created)
    (hconns : ∀ a c, r'.conns a = some c → r.conns a = some c)
    (hdeleted : ∀ a c, r'.conns a = some c → c ∈ r.deletedConns → c ∈ r'.deletedConns) :
    Tidy r' := by
  have hphase : ∀ c, r'.phase c = r.phase c := fun c => by rw [phase, hlinks]
  have hwindow : ∀ c, r'.window c = r.window c := fun c => by rw [window, hlinks]
  constructor
  · intro a c hc
    rw [hlinks]
    exact h.keyed a c (hconns a c hc)
  · intro a c hc
    rw [hcreated, hphase]
    exact h.known a c (hconns a c hc)
  · intro a c hc hdead
    rw [hphase] at hdead
    exact hdeleted a c hc (h.dead a c (hconns a c hc) hdead)
  · intro c hc
    rw [hwindow] at hc
    rw [hcreated, hphase]
    exact h.handled c hc

/-- A connection that changes. -/
theorem Tidy.setLink {l : Link Addr} (h : Tidy r) (hcreated : c < r.created)
    (hkeyed : ∀ a, r.conns a = some c → l.peerAddr = a)
    (hphase : l.phase ≠ .accepting)
    (hdead : ∀ a, r.conns a = some c → l.phase ≠ .live → c ∈ r.deletedConns) :
    Tidy (r.setLink c l) := by
  have hself : (r.setLink c l).links c = l := Function.update_self ..
  have hother : ∀ c' ≠ c, (r.setLink c l).links c' = r.links c' :=
    fun c' hne => Function.update_of_ne hne ..
  constructor
  · intro a c' hc'
    by_cases heq : c' = c
    · rw [heq, hself]
      exact hkeyed a (heq ▸ hc')
    · rw [hother c' heq]
      exact h.keyed a c' hc'
  · intro a c' hc'
    by_cases heq : c' = c
    · rw [heq, phase, hself]
      exact ⟨hcreated, hphase⟩
    · rw [phase, hother c' heq]
      exact h.known a c' hc'
  · intro a c' hc' hstopped
    by_cases heq : c' = c
    · rw [heq, phase, hself] at hstopped
      rw [heq]
      exact hdead a (heq ▸ hc') hstopped
    · rw [phase, hother c' heq] at hstopped
      exact h.dead a c' hc' hstopped
  · intro c' hc'
    by_cases heq : c' = c
    · rw [heq, phase, hself]
      exact ⟨hcreated, hphase⟩
    · rw [window, hother c' heq] at hc'
      rw [phase, hother c' heq]
      exact h.handled c' hc'

/-- A new connection is not registered yet. -/
theorem Tidy.construct {l : Link Addr} (h : Tidy r) (hwindow : l.window = .locked) :
    Tidy (r.construct l) := by
  have hself : (r.construct l).links r.created = l := Function.update_self ..
  have hother : ∀ c ≠ r.created, (r.construct l).links c = r.links c :=
    fun c hne => Function.update_of_ne hne ..
  have hold : ∀ a c, r.conns a = some c → (r.construct l).links c = r.links c :=
    fun a c hc => hother c (Nat.ne_of_lt (h.known a c hc).1)
  constructor
  · intro a c hc
    rw [hold a c hc]
    exact h.keyed a c hc
  · intro a c hc
    rw [phase, hold a c hc]
    exact (h.known a c hc).imp_left Nat.lt_succ_of_lt
  · intro a c hc hstopped
    rw [phase, hold a c hc] at hstopped
    exact h.dead a c hc hstopped
  · intro c hc
    by_cases heq : c = r.created
    · rw [window, heq, hself, hwindow] at hc
      exact absurd rfl hc
    · rw [window, hother c heq] at hc
      rw [phase, hother c heq]
      exact (h.handled c hc).imp_left Nat.lt_succ_of_lt

/-- Nothing is registered afterwards. -/
theorem Tidy.shutdownConnections (h : Tidy r) : Tidy r.shutdownConnections := by
  constructor
  · intro a c hc
    cases hc
  · intro a c hc
    cases hc
  · intro a c hc
    cases hc
  · intro c hc
    have hwindow : r.shutdownConnections.window c = r.window c := by
      simp only [window, Registry.shutdownConnections]
      split <;> rfl
    rw [hwindow] at hc
    refine ⟨(h.handled c hc).1, ?_⟩
    simp only [phase, Registry.shutdownConnections]
    split
    · simp
    · exact (h.handled c hc).2

/-- A connection that is stopped is in `deleted_conns` from then on. -/
theorem Tidy.unregister {p : Phase} (h : Tidy r) (hcreated : c < r.created)
    (hphase : p ≠ .accepting) :
    Tidy { r.setLink c { r.links c with phase := p } with
      deletedConns := insert c r.deletedConns } := by
  have hinserted : Tidy { r with deletedConns := insert c r.deletedConns } := by
    apply Tidy.drop h
    · rfl
    · rfl
    · exact fun _ _ hc => hc
    · exact fun _ _ _ hdeleted => Finset.mem_insert_of_mem hdeleted
  apply hinserted.setLink hcreated
  · exact fun a hc => h.keyed a c hc
  · exact hphase
  · exact fun _ _ _ => Finset.mem_insert_self c _

/-- A connection that is registered and changes otherwise than by stopping. -/
theorem Tidy.setLink_of_live {l : Link Addr} (h : Tidy r) (hcreated : c < r.created)
    (hpeerAddr : l.peerAddr = (r.links c).peerAddr) (hphase : l.phase ≠ .accepting)
    (hsame : l.phase = .live ∨ l.phase = r.phase c) : Tidy (r.setLink c l) := by
  apply h.setLink hcreated
  · intro a hconns
    rw [hpeerAddr]
    exact h.keyed a c hconns
  · exact hphase
  · intro a hconns hstopped
    have hphase' := hsame.resolve_left hstopped
    rw [hphase'] at hstopped
    exact h.dead a c hconns hstopped

variable [DecidableEq Addr]

/-- What `_lookup_conn` returns is registered and not in `deleted_conns`. -/
theorem lookupConn_eq_some (h : (r.lookupConn a).1 = some c) :
    r.conns a = some c ∧ c ∉ r.deletedConns ∧ (r.lookupConn a).2 = r := by
  unfold lookupConn at h ⊢
  cases hconns : r.conns a with
  | none =>
      rw [hconns] at h
      cases h
  | some p =>
      simp only [hconns] at h ⊢
      split at h
      · cases h
      · rename_i hkept
        cases h
        exact ⟨rfl, hkept, by rw [if_neg hkept]⟩

/-- The address is free if it returns nothing. -/
theorem lookupConn_eq_none (h : (r.lookupConn a).1 = none) : (r.lookupConn a).2.conns a = none := by
  unfold lookupConn at h ⊢
  cases hconns : r.conns a with
  | none => exact hconns
  | some p =>
      simp only [hconns] at h ⊢
      split at h
      · rename_i hdeleted
        rw [if_pos hdeleted]
        exact Function.update_self ..
      · cases h

theorem Tidy.handsOutOpen (h : Tidy r) : HandsOutOpen r := by
  have hreturned : ∀ a c, (r.lookupConn a).1 = some c → r.phase c ≠ .closed := by
    intro a c hlookup hclosed
    obtain ⟨hconns, hkept, _⟩ := lookupConn_eq_some hlookup
    exact hkept (h.dead a c hconns (by simp [hclosed]))
  refine ⟨fun a c hconns hclosed => h.dead a c hconns (by simp [hclosed]), hreturned, ?_⟩
  intro a c hbound
  cases hlookup : (r.lookupConn a).1 with
  | none =>
      rw [lookupConn_eq_none hlookup] at hbound
      cases hbound
  | some p =>
      obtain ⟨hconns, _, hsame⟩ := lookupConn_eq_some hlookup
      rw [hsame, hconns] at hbound
      cases hbound
      exact hreturned a _ hlookup

/-- The lazy deletion of an entry.  No other address has the connection. -/
theorem Tidy.erase {p : ℕ} (h : Tidy r) (hconns : r.conns a = some p) :
    Tidy { r with
      conns := Function.update r.conns a none
      deletedConns := r.deletedConns.erase p } := by
  have hother : ∀ a' c, Function.update r.conns a none a' = some c →
      a' ≠ a ∧ r.conns a' = some c := by
    intro a' c hc
    by_cases heq : a' = a
    · rw [heq, Function.update_self] at hc
      cases hc
    · rw [Function.update_of_ne heq] at hc
      exact ⟨heq, hc⟩
  apply Tidy.drop h
  · rfl
  · rfl
  · exact fun a' c hc => (hother a' c hc).2
  · intro a' c hc hdeleted
    obtain ⟨hne, hc'⟩ := hother a' c hc
    apply Finset.mem_erase_of_ne_of_mem _ hdeleted
    rintro rfl
    exact hne ((h.keyed a' c hc').symm.trans (h.keyed a c hconns))

theorem Tidy.lookupConn (h : Tidy r) (a : Addr) : Tidy (r.lookupConn a).2 := by
  unfold Registry.lookupConn
  cases hconns : r.conns a with
  | none => exact h
  | some p =>
      dsimp only
      split
      · exact h.erase hconns
      · exact h

/-- A new entry under an address that is free, or that the connection has already. -/
theorem Tidy.register (h : Tidy r) (accepting : Finset ℕ)
    (hlive : c < r.created ∧ r.phase c ≠ .accepting)
    (hdead : r.phase c ≠ .live → c ∈ r.deletedConns) :
    Tidy { r with
      conns := Function.update r.conns (r.links c).peerAddr (some c)
      acceptingConns := accepting } := by
  have hentry : ∀ a' c', Function.update r.conns (r.links c).peerAddr (some c) a' = some c' →
      a' = (r.links c).peerAddr ∧ c' = c ∨ r.conns a' = some c' := by
    intro a' c' hc'
    by_cases heq : a' = (r.links c).peerAddr
    · rw [heq, Function.update_self] at hc'
      cases hc'
      exact .inl ⟨heq, rfl⟩
    · rw [Function.update_of_ne heq] at hc'
      exact .inr hc'
  constructor
  · intro a' c' hc'
    rcases hentry a' c' hc' with ⟨rfl, rfl⟩ | hold
    · rfl
    · exact h.keyed a' c' hold
  · intro a' c' hc'
    rcases hentry a' c' hc' with ⟨rfl, rfl⟩ | hold
    · exact hlive
    · exact h.known a' c' hold
  · intro a' c' hc' hstopped
    rcases hentry a' c' hc' with ⟨rfl, rfl⟩ | hold
    · exact hdead hstopped
    · exact h.dead a' c' hold hstopped
  · exact h.handled

/-- `accept_conn` returns -1 for an address that another connection holds. -/
theorem acceptConn_eq_none :
    r.acceptConn c = none ↔
      r.conns (r.links c).peerAddr ≠ some c ∧ r.Held (r.links c).peerAddr := by
  unfold Registry.acceptConn Held
  dsimp only
  cases hconns : r.conns (r.links c).peerAddr with
  | none => simp
  | some e =>
      by_cases hdeleted : e ∈ r.deletedConns
      · simp [hdeleted]
      · by_cases hsame : c = e
        · simp [hdeleted, hsame]
        · simp [hdeleted, hsame, Ne.symm hsame]

theorem registersOpen_iff :
    r.RegistersOpen (.acceptConn c) ↔ r.acceptConn c = none ∨ r.phase c = .live ∨
      c ∈ r.deletedConns ∧ r.conns (r.links c).peerAddr ≠ some c := by
  rw [acceptConn_eq_none, RegistersOpen]
  tauto

theorem acceptConn_kept {r' : Registry Addr} (haccept : r.acceptConn c = some r') :
    r'.links = r.links ∧ r'.created = r.created := by
  unfold Registry.acceptConn at haccept
  dsimp only at haccept
  split at haccept
  · cases haccept
    exact ⟨rfl, rfl⟩
  · split_ifs at haccept
    · cases haccept
      exact ⟨rfl, rfl⟩
    · cases haccept
      exact ⟨rfl, rfl⟩

/-- `accept_conn` keeps the registry tidy if a connection that was unregistered is still in
`deleted_conns` when it enters. -/
theorem Tidy.acceptConn {r' : Registry Addr} (h : Tidy r)
    (hlive : c < r.created ∧ r.phase c ≠ .accepting) (hok : RegistersOpen r (.acceptConn c))
    (haccept : r.acceptConn c = some r') : Tidy r' := by
  have hdead : r.phase c ≠ .live →
      c ∈ r.deletedConns ∧ r.conns (r.links c).peerAddr ≠ some c := by
    intro hstopped
    rcases registersOpen_iff.mp hok with hrefused | hlive | hwaits
    · rw [hrefused] at haccept
      cases haccept
    · exact absurd hlive hstopped
    · exact hwaits
  unfold Registry.acceptConn at haccept
  dsimp only at haccept
  split at haccept
  · cases haccept
    exact h.register _ hlive fun hstopped => (hdead hstopped).1
  · rename_i e hconns
    split_ifs at haccept with hdeleted hsame
    · cases haccept
      apply (h.erase hconns).register _ hlive
      intro hstopped
      obtain ⟨hwaits, hother⟩ := hdead hstopped
      apply Finset.mem_erase_of_ne_of_mem _ hwaits
      rintro rfl
      exact hother hconns
    · cases haccept
      exact h.register _ hlive fun hstopped => (hdead hstopped).1

theorem Tidy.reapDead (h : Tidy r) : Tidy r.reapDead := by
  have hkept : ∀ a c, r.reapDead.conns a = some c → r.conns a = some c ∧ c ∉ r.deletedConns := by
    intro a c hc
    cases hconns : r.conns a with
    | none =>
        simp only [Registry.reapDead, hconns] at hc
        cases hc
    | some p =>
        simp only [Registry.reapDead, hconns, h.keyed a p hconns, and_true] at hc
        split at hc
        · cases hc
        · rename_i hout
          cases hc
          exact ⟨rfl, hout⟩
  apply Tidy.drop h
  · rfl
  · rfl
  · exact fun a c hc => (hkept a c hc).1
  · exact fun a c hc hdeleted => absurd hdeleted (hkept a c hc).2

theorem Tidy.createConnect (h : Tidy r) (a : Addr) : Tidy (r.createConnect a) := by
  have hself : (r.construct ⟨a, .live, .locked⟩).links r.created = ⟨a, .live, .locked⟩ :=
    Function.update_self ..
  have hconstructed := h.construct (l := ⟨a, .live, .locked⟩) rfl
  have hregistered := hconstructed.register (c := r.created) r.acceptingConns
  rw [phase, hself] at hregistered
  exact hregistered ⟨Nat.lt_succ_self _, by simp⟩ (absurd rfl)

theorem Tidy.getConnection (h : Tidy r) (a : Addr) : Tidy (r.getConnection a) := by
  have hlookup := h.lookupConn a
  unfold Registry.getConnection
  split
  · rename_i heq
    rwa [heq] at hlookup
  · rename_i heq
    rw [heq] at hlookup
    exact hlookup.createConnect a

theorem Tidy.markDown (h : Tidy r) (a : Addr) : Tidy (r.markDown a) := by
  have hlookup := h.lookupConn a
  unfold Registry.markDown
  split
  · rename_i p r' heq
    rw [heq] at hlookup
    have hfound : (r.lookupConn a).1 = some p := by rw [heq]
    obtain ⟨hconns, _, hsame⟩ := lookupConn_eq_some hfound
    rw [heq] at hsame
    simp only at hlookup hsame
    subst hsame
    unfold Registry.stop
    split
    · exact h
    · exact h.unregister (p := .closed) (h.known a p hconns).1 (by simp)
  · rename_i r' heq
    rwa [heq] at hlookup

/-! ## Runs -/

theorem Tidy.step [Inhabited Addr] {r' : Registry Addr} {action : Action Addr} (h : Tidy r)
    (hok : RegistersOpen r action) (hstep : r.step action = some r') : Tidy r' := by
  cases action with
  | getConnection a =>
      cases hstep
      exact h.getConnection a
  | lookupConn a =>
      cases hstep
      exact h.lookupConn a
  | addAccept =>
      cases hstep
      exact (h.construct (l := ⟨default, .accepting, .locked⟩) rfl).drop rfl rfl
        (fun _ _ hc => hc) fun _ _ _ hdeleted => hdeleted
  | setPeerAddr c a =>
      simp only [Registry.step] at hstep
      split at hstep
      · rename_i hguard
        cases hstep
        have hunknown : ∀ a', r.conns a' ≠ some c :=
          fun a' hconns => (h.known a' c hconns).2 hguard.2
        apply h.setLink hguard.1
        · exact fun a' hconns => absurd hconns (hunknown a')
        · simp
        · exact fun a' hconns => absurd hconns (hunknown a')
      · cases hstep
  | verify c =>
      simp only [Registry.step] at hstep
      split at hstep
      · rename_i hguard
        cases hstep
        exact h.setLink_of_live hguard.1 rfl (by simp [hguard.2.1]) (.inr rfl)
      · cases hstep
  | badAuthorizer c =>
      simp only [Registry.step] at hstep
      split at hstep
      · rename_i hguard
        cases hstep
        have hhandled := h.handled c (by simp [hguard.1])
        exact h.setLink_of_live hhandled.1 rfl (by simp) (.inl rfl)
      · cases hstep
  | answer c | opens c | relock c =>
      simp only [Registry.step] at hstep
      split at hstep
      · rename_i hguard
        cases hstep
        have hhandled := h.handled c (by simp [hguard.1])
        exact h.setLink_of_live hhandled.1 rfl hhandled.2 (.inr rfl)
      · cases hstep
  | acceptConn c =>
      simp only [Registry.step] at hstep
      split at hstep
      · rename_i hguard
        cases hstep
        have hhandled := h.handled c (by simp [hguard])
        cases haccept : r.acceptConn c with
        | none => exact h.setLink_of_live hhandled.1 rfl hhandled.2 (.inr rfl)
        | some r₁ =>
            have htidy := h.acceptConn hhandled hok haccept
            obtain ⟨hlinks, hcreated⟩ := acceptConn_kept haccept
            have hphase : r₁.phase c ≠ .accepting := by
              rw [phase, hlinks]
              exact hhandled.2
            exact htidy.setLink_of_live (hcreated ▸ hhandled.1) rfl hphase (.inr rfl)
      · cases hstep
  | unregisterConn c =>
      simp only [Registry.step] at hstep
      split at hstep
      · rename_i hguard
        cases hstep
        exact h.unregister (p := .stopping) hguard.1 (by simp)
      · cases hstep
  | close c =>
      simp only [Registry.step] at hstep
      split at hstep
      · rename_i hguard
        cases hstep
        apply h.setLink hguard.1
        · exact fun a hconns => h.keyed a c hconns
        · simp
        · exact fun a hconns _ => h.dead a c hconns (by simp [hguard.2])
      · cases hstep
  | reapDead =>
      cases hstep
      exact h.reapDead
  | shutdownConnections =>
      simp only [Registry.step] at hstep
      split at hstep
      · cases hstep
        exact h.shutdownConnections
      · cases hstep
  | markDown a =>
      simp only [Registry.step] at hstep
      split at hstep
      · cases hstep
        exact h.markDown a
      · cases hstep

end Registry

variable [DecidableEq Addr] [Inhabited Addr]

theorem tidy_of_reached {r : Registry Addr}
    (h : (registryMachine Addr).ReachedUnder Registry.RegistersOpen r) : r.Tidy := by
  apply h.invariant Registry.Tidy
  · rintro r rfl
    constructor
    · intro a c hc
      cases hc
    · intro a c hc
      cases hc
    · intro a c hc
      cases hc
    · exact fun c hc => absurd rfl hc
  · exact fun r action r' htidy hok hstep => htidy.step hok hstep

/-- **No closed connection is handed out** as long as no connection enters `conns` that has been
stopped and forgotten. -/
theorem handsOutOpen_of_reached (r : Registry Addr)
    (h : (registryMachine Addr).ReachedUnder Registry.RegistersOpen r) : r.HandsOutOpen :=
  (tidy_of_reached h).handsOutOpen

/-- A connection that is stopped, accepted all the same and then closed. -/
theorem handsOutOpen_closed :
    ∃ r : Registry ℕ, r.HandsOutOpen ∧ r.conns 7 = some 0 ∧ r.phase 0 = .closed := by
  obtain ⟨r, hreplay, hconns, hclosed⟩ : ∃ r, (registryMachine ℕ).replay Registry.RegistersOpen
      ⟨fun _ => none, ∅, ∅, 0, fun _ => ⟨default, .closed, .locked⟩⟩
      [.addAccept, .setPeerAddr 0 7, .verify 0, .opens 0, .acceptConn 0, .unregisterConn 0,
        .close 0, .relock 0] = some r ∧ r.conns 7 = some 0 ∧ r.phase 0 = .closed :=
    ⟨_, rfl, rfl, rfl⟩
  exact ⟨r, handsOutOpen_of_reached r (.of_replay (.start rfl) hreplay), hconns, hclosed⟩

/-- A connection that `shutdown_connections` stops and forgets in front of `accept_conn`. -/
theorem not_handsOutOpen_forgotten :
    ¬ ∀ r : Registry ℕ, (registryMachine ℕ).Reached r → r.HandsOutOpen := by
  intro h
  obtain ⟨r, hreplay, hconns, hclosed, hdeleted⟩ : ∃ r, (registryMachine ℕ).replay
      (fun _ _ => True) ⟨fun _ => none, ∅, ∅, 0, fun _ => ⟨default, .closed, .locked⟩⟩
      [.addAccept, .setPeerAddr 0 7, .verify 0, .opens 0, .shutdownConnections, .acceptConn 0] =
        some r ∧ r.conns 7 = some 0 ∧ r.phase 0 = .closed ∧ r.deletedConns = ∅ :=
    ⟨_, rfl, rfl, rfl, rfl⟩
  have hout := (h r (.of_replay (.start rfl) hreplay)).deleted 7 0 hconns hclosed
  rw [hdeleted] at hout
  exact absurd hout (Finset.notMem_empty 0)

/-! ## The other direction -/

namespace Registry

omit [Inhabited Addr] in
theorem acceptConn_forgets {r r' : Registry Addr} {c : ℕ} (haccept : r.acceptConn c = some r')
    (hforgotten : ¬ (c ∈ r.deletedConns ∧ r.conns (r.links c).peerAddr ≠ some c)) :
    r'.conns (r.links c).peerAddr = some c ∧ c ∉ r'.deletedConns := by
  unfold Registry.acceptConn at haccept
  dsimp only at haccept
  split at haccept
  · rename_i hnone
    cases haccept
    refine ⟨Function.update_self .., fun hdeleted => hforgotten ⟨hdeleted, ?_⟩⟩
    rw [hnone]
    simp
  · rename_i e hconns
    split_ifs at haccept with hdeleted hsame
    · cases haccept
      refine ⟨Function.update_self .., fun hwaits => ?_⟩
      obtain ⟨hne, hwaits⟩ := Finset.mem_erase.mp hwaits
      apply hforgotten ⟨hwaits, ?_⟩
      rw [hconns]
      exact fun heq => hne (Option.some.inj heq).symm
    · cases haccept
      have heq : c = e := not_not.mp hsame
      exact ⟨Function.update_self .., heq ▸ hdeleted⟩

/-- Any other `accept_conn` leaves a connection in `conns` that is closed, or that is about to be,
and that nobody takes out. -/
theorem leaks_of_acceptConn {r r' : Registry Addr} {c : ℕ} (hcreated : c < r.created)
    (hphase : r.phase c ≠ .accepting) (hnot : ¬ r.RegistersOpen (.acceptConn c))
    (hstep : r.step (.acceptConn c) = some r') :
    ∃ t, (t = r' ∨ r'.step (.close c) = some t) ∧ ¬ t.HandsOutOpen := by
  rw [registersOpen_iff, not_or, not_or] at hnot
  obtain ⟨haccepted, hstopped, hforgotten⟩ := hnot
  obtain ⟨r₁, haccept⟩ := Option.ne_none_iff_exists'.mp haccepted
  obtain ⟨hconns, hout⟩ := acceptConn_forgets haccept hforgotten
  obtain ⟨hlinks, hcreated₁⟩ := acceptConn_kept haccept
  simp only [Registry.step, haccept, Option.getD_some] at hstep
  split at hstep
  · cases hstep
    generalize hr : r₁.setLink c { r₁.links c with window := .registered } = r'
    have hself : r'.links c = { r.links c with window := .registered } := by
      rw [← hr, ← hlinks]
      exact Function.update_self ..
    have hconns' : r'.conns (r.links c).peerAddr = some c := hr ▸ hconns
    have hout' : c ∉ r'.deletedConns := hr ▸ hout
    cases hsame : r.phase c with
    | accepting => exact absurd hsame hphase
    | live => exact absurd hsame hstopped
    | closed =>
        refine ⟨r', .inl rfl, fun hsound => hout' (hsound.deleted _ c hconns' ?_)⟩
        rw [phase, hself]
        exact hsame
    | stopping =>
        have hguard : c < r'.created ∧ r'.phase c = .stopping := by
          rw [phase, hself]
          exact ⟨hr ▸ hcreated₁ ▸ hcreated, hsame⟩
        refine ⟨r'.setLink c { r'.links c with phase := .closed }, .inr (if_pos hguard),
          fun hsound => hout' (hsound.deleted _ c hconns' ?_)⟩
        exact congrArg Link.phase (Function.update_self c _ r'.links)
  · cases hstep

end Registry

end HwAsync.Messenger
