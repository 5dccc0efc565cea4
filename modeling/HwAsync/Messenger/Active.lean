/-
# The counter of active connections

Each worker counts the registered connections whose logger is its own.  The counter goes up where
`conns` gets an entry, and down where one is taken out; a connection that is replaced takes its
logger to another worker, and leaves the counter of the first one as it is.

The counters are compared with the size of `conns` after every operation.  They differ after an
`accept_conn` of a connection that is there already, and after a `reap_dead` that finds one.
-/

import HwAsync.Messenger.Registry
import Mathlib.Algebra.BigOperators.Group.Finset.Basic
import Mathlib.Algebra.Order.BigOperators.Group.Finset
import Mathlib.Data.Fintype.Basic

namespace HwAsync.Messenger

open HwAsync.Lib

variable {Addr W : Type}

/-! ## Counters -/

/-- `inc` of the counter of a worker. -/
def raise [DecidableEq W] (w : W) (active : W → UInt64) : W → UInt64 :=
  Function.update active w (active w + 1)

/-- `dec` of the counter of a worker. -/
def lower [DecidableEq W] (w : W) (active : W → UInt64) : W → UInt64 :=
  Function.update active w (active w - 1)

/-- The sum over the workers. -/
def total [Fintype W] (active : W → UInt64) : ℕ := ∑ w, (active w).toNat

section Counters

variable [Fintype W] [DecidableEq W] {active : W → UInt64} {w : W}

theorem total_update (active : W → UInt64) (w : W) (n : UInt64) :
    total (Function.update active w n) + (active w).toNat = total active + n.toNat := by
  have hbefore := Finset.add_sum_erase Finset.univ (fun v => (active v).toNat) (Finset.mem_univ w)
  have hafter := Finset.add_sum_erase Finset.univ
    (fun v => (Function.update active w n v).toNat) (Finset.mem_univ w)
  have hothers : ∑ v ∈ Finset.univ.erase w, (Function.update active w n v).toNat =
      ∑ v ∈ Finset.univ.erase w, (active v).toNat :=
    Finset.sum_congr rfl fun v hv => by rw [Function.update_of_ne (Finset.ne_of_mem_erase hv)]
  rw [Function.update_self, hothers] at hafter
  rw [total, total]
  omega

omit [DecidableEq W] in
theorem le_total (active : W → UInt64) (w : W) : (active w).toNat ≤ total active :=
  Finset.single_le_sum (f := fun v => (active v).toNat) (fun _ _ => Nat.zero_le _)
    (Finset.mem_univ w)

theorem total_raise (hlt : (active w).toNat + 1 < 2 ^ 64) :
    total (raise w active) = total active + 1 := by
  have hsum := total_update active w (active w + 1)
  rw [UInt64.toNat_add, show (1 : UInt64).toNat = 1 from rfl, Nat.mod_eq_of_lt hlt] at hsum
  rw [raise]
  omega

theorem total_lower (hpos : active w ≠ 0) : total (lower w active) + 1 = total active := by
  have hsum := total_update active w (active w - 1)
  have hle : 0 < (active w).toNat := Nat.pos_of_ne_zero fun h => hpos (UInt64.toNat_inj.mp h)
  have hbound := (active w).toNat_lt
  rw [UInt64.toNat_sub, show (1 : UInt64).toNat = 1 from rfl] at hsum
  rw [lower]
  omega

/-- A counter at zero wraps. -/
theorem total_lower_zero (hzero : active w = 0) :
    total (lower w active) = total active + (2 ^ 64 - 1) := by
  have hsum := total_update active w (active w - 1)
  rw [hzero, show (0 - 1 : UInt64).toNat = 2 ^ 64 - 1 from rfl,
    show (0 : UInt64).toNat = 0 from rfl] at hsum
  rw [lower, hzero]
  exact hsum

omit [Fintype W] in
theorem raise_lower (w : W) (active : W → UInt64) : raise w (lower w active) = active := by
  rw [raise, lower, Function.update_idem, Function.update_self, UInt64.sub_add_cancel,
    Function.update_eq_self]

omit [Fintype W] in
/-- Every `dec` of a list of workers counts. -/
theorem foldl_lower (ws : List W) (active : W → UInt64) (w : W) :
    ws.foldl (fun active v => lower v active) active w = active w - .ofNat (ws.count w) := by
  induction ws generalizing active with
  | nil => exact (UInt64.sub_zero _).symm
  | cons v ws ih =>
      rw [List.foldl_cons, ih, lower]
      by_cases hv : v = w
      · subst hv
        rw [Function.update_self, List.count_cons_self, UInt64.sub_eq_iff_eq_add,
          UInt64.sub_eq_iff_eq_add, UInt64.add_assoc, UInt64.ofNat_add]
        exact (UInt64.sub_add_cancel _ _).symm
      · rw [Function.update_of_ne (Ne.symm hv), List.count_cons_of_ne hv]

omit [DecidableEq W] in
theorem total_eq_zero_iff : total active = 0 ↔ ∀ w, active w = 0 := by
  rw [total, Finset.sum_eq_zero_iff]
  constructor
  · exact fun h w => UInt64.toNat_inj.mp (h w (Finset.mem_univ w))
  · intro h w _
    rw [h w]
    rfl

end Counters

/-! ## The operations -/

/-- A messenger with the counters of its workers.  `order` are the keys of `conns` in the order of
its iterators, and `logger` is the worker whose counters a connection uses. -/
structure ActiveRun (Addr W : Type) where
  registry : Registry Addr
  order : List Addr
  logger : ℕ → W
  active : W → UInt64

/-- A call on the messenger. -/
inductive ActiveAction (Addr W : Type)
  | addAccept (w : W)
  | setPeerAddr (c : ℕ) (a : Addr)
  | createConnect (a : Addr) (w : W)
  | acceptConn (c : ℕ)
  | unregisterConn (c : ℕ)
  | lookupConn (a : Addr)
  | reapDead
  | shutdownConnections
  /-- `deactivate_existing` moves the connection to another worker. -/
  | replaced (c : ℕ) (w : W)

/-- No map has more entries than this. -/
def maxSize : ℕ := 2 ^ 63 - 1

namespace ActiveRun

variable [DecidableEq Addr] [DecidableEq W]

/-- The worker that counts the connection of an address. -/
def counting (r : ActiveRun Addr W) (a : Addr) : Option W := (r.registry.conns a).map r.logger

/-- `_lookup_conn`. -/
def lookupConn (a : Addr) (r : ActiveRun Addr W) : ActiveRun Addr W :=
  match r.registry.conns a with
  | none => r
  | some p =>
      if p ∈ r.registry.deletedConns then
        { r with
          registry := (r.registry.lookupConn a).2
          order := r.order.erase a
          active := lower (r.logger p) r.active }
      else r

/-- `create_connect`, whose connection is created with the logger of the worker. -/
def createConnect (a : Addr) (w : W) (r : ActiveRun Addr W) : ActiveRun Addr W :=
  { registry := r.registry.createConnect a
    order := a :: r.order
    logger := Function.update r.logger r.registry.created w
    active := raise w r.active }

/-- `accept_conn`. -/
def acceptConn (c : ℕ) (r : ActiveRun Addr W) : ActiveRun Addr W :=
  let a := (r.registry.links c).peerAddr
  match r.registry.acceptConn c with
  | none => r
  | some registry =>
      match r.registry.conns a with
      | none =>
          { r with
            registry := registry
            order := a :: r.order
            active := raise (r.logger c) r.active }
      | some e =>
          if e ∈ r.registry.deletedConns then
            { r with
              registry := registry
              order := a :: r.order.erase a
              active := raise (r.logger c) (lower (r.logger e) r.active) }
          else { r with registry := registry, active := raise (r.logger c) r.active }

/-- `reap_dead`, which leaves the counters alone. -/
def reapDead (r : ActiveRun Addr W) : ActiveRun Addr W :=
  { r with
    registry := r.registry.reapDead
    order := r.order.filter fun a => (r.registry.reapDead.conns a).isSome }

/-- `shutdown_connections`. -/
def shutdownConnections (r : ActiveRun Addr W) : ActiveRun Addr W :=
  { r with
    registry := r.registry.shutdownConnections
    order := []
    active := (r.order.filterMap r.counting).foldl (fun active w => lower w active) r.active }

/-- Any call; `create_connect` asserts that the address is free, and a map that is full does not
take another entry. -/
def step [Inhabited Addr] (r : ActiveRun Addr W) : ActiveAction Addr W → Option (ActiveRun Addr W)
  | .addAccept w =>
      some { r with
        registry := r.registry.addAccept
        logger := Function.update r.logger r.registry.created w }
  | .setPeerAddr c a =>
      if r.registry.phase c = .accepting then
        some { r with
          registry := r.registry.setLink c
            { r.registry.links c with peerAddr := a, phase := .live } }
      else none
  | .createConnect a w =>
      if r.registry.conns a = none ∧ r.order.length < maxSize then some (r.createConnect a w)
      else none
  | .acceptConn c =>
      if r.registry.conns (r.registry.links c).peerAddr = none → r.order.length < maxSize then
        some (r.acceptConn c)
      else none
  | .unregisterConn c => some { r with registry := r.registry.unregisterConn c }
  | .lookupConn a => some (r.lookupConn a)
  | .reapDead => some r.reapDead
  | .shutdownConnections => some r.shutdownConnections
  | .replaced c w => some { r with logger := Function.update r.logger c w }

/-- A messenger without connections, and counters at zero. -/
structure Fresh [Inhabited Addr] (r : ActiveRun Addr W) : Prop where
  registry : (registryMachine Addr).start r.registry
  order : r.order = []
  active : ∀ w, r.active w = 0

/-- Any sequence of calls. -/
def machine (Addr W : Type) [DecidableEq Addr] [DecidableEq W] [Inhabited Addr] :
    Machine (ActiveRun Addr W) (ActiveAction Addr W) where
  start := Fresh
  step := step

/-- The counters of the workers add up to the size of `conns`. -/
def Counted [Fintype W] (r : ActiveRun Addr W) : Prop := total r.active = r.order.length

/-- The call leaves the counters as far from zero as it takes entries out, does not register what is
registered already, and reaps no connection that is still registered. -/
def KeepsCount [Fintype W] (r : ActiveRun Addr W) : ActiveAction Addr W → Prop
  | .acceptConn c =>
      ∀ e ∈ r.registry.conns (r.registry.links c).peerAddr,
        if e ∈ r.registry.deletedConns then r.logger e = r.logger c ∨ r.active (r.logger e) ≠ 0
        else c ≠ e
  | .lookupConn a =>
      ∀ p ∈ r.registry.conns a, p ∈ r.registry.deletedConns → r.active (r.logger p) ≠ 0
  | .reapDead =>
      ∀ a ∈ r.order, ∀ p ∈ r.registry.conns a,
        p ∈ r.registry.deletedConns → (r.registry.links p).peerAddr ≠ a
  | .shutdownConnections =>
      ∀ w, r.active w = .ofNat ((r.order.filterMap r.counting).count w)
  | _ => True

instance [Fintype W] (r : ActiveRun Addr W) (a : ActiveAction Addr W) :
    Decidable (r.KeepsCount a) :=
  match a with
  | .acceptConn c =>
      inferInstanceAs (Decidable (∀ e ∈ r.registry.conns (r.registry.links c).peerAddr,
        if e ∈ r.registry.deletedConns then _ else c ≠ e))
  | .lookupConn _ => inferInstanceAs (Decidable (∀ p ∈ _, _ → _))
  | .reapDead => inferInstanceAs (Decidable (∀ a ∈ _, ∀ p ∈ _, _ → _))
  | .shutdownConnections => inferInstanceAs (Decidable (∀ _, _ = _))
  | .addAccept _ | .setPeerAddr _ _ | .createConnect _ _ | .unregisterConn _ | .replaced _ _ =>
      inferInstanceAs (Decidable True)

/-! ## The keys -/

variable {r t : ActiveRun Addr W}

/-- `order` has the keys of `conns`, each once, and no more than the map has room for. -/
structure Listed (r : ActiveRun Addr W) : Prop where
  nodup : r.order.Nodup
  mem_iff : ∀ a, a ∈ r.order ↔ r.registry.conns a ≠ none
  length_le : r.order.length ≤ maxSize

/-- Another connection at an address that has one, or none yet. -/
theorem mem_iff_update {conns : Addr → Option ℕ} {order : List Addr}
    (h : ∀ a, a ∈ order ↔ conns a ≠ none) (a : Addr) (c : ℕ) (b : Addr) :
    b ∈ a :: order ↔ Function.update conns a (some c) b ≠ none := by
  rw [List.mem_cons]
  by_cases hb : b = a
  · subst hb
    simp
  · rw [Function.update_of_ne hb, h b]
    exact or_iff_right hb

omit [DecidableEq W] in
theorem Listed.insert {registry : Registry Addr} (h : r.Listed) {a : Addr} {c : ℕ} {logger : ℕ → W}
    {active : W → UInt64} (hfree : r.registry.conns a = none) (hroom : r.order.length < maxSize)
    (hconns : registry.conns = Function.update r.registry.conns a (some c)) :
    Listed ⟨registry, a :: r.order, logger, active⟩ := by
  refine ⟨List.nodup_cons.mpr ⟨fun hmem => ?_, h.nodup⟩, fun b => ?_, hroom⟩
  · exact (h.mem_iff a).mp hmem hfree
  · rw [hconns]
    exact mem_iff_update h.mem_iff a c b

omit [DecidableEq W] in
/-- An address that has a connection may get another one. -/
theorem Listed.overwrite {registry : Registry Addr} (h : r.Listed) {a : Addr} {e c : ℕ}
    {order : List Addr} {logger : ℕ → W} {active : W → UInt64}
    (htaken : r.registry.conns a = some e) (hperm : order.Perm r.order)
    (hconns : registry.conns = Function.update r.registry.conns a (some c)) :
    Listed ⟨registry, order, logger, active⟩ := by
  have hmem : a ∈ r.order := (h.mem_iff a).mpr (by rw [htaken]; exact Option.some_ne_none e)
  refine ⟨hperm.nodup_iff.mpr h.nodup, fun b => ?_, hperm.length_eq ▸ h.length_le⟩
  rw [hconns, ← mem_iff_update h.mem_iff, List.mem_cons, hperm.mem_iff]
  constructor
  · exact .inr
  · rintro (rfl | hb)
    · exact hmem
    · exact hb

omit [DecidableEq W] in
theorem Listed.erase {registry : Registry Addr} (h : r.Listed) {a : Addr} {logger : ℕ → W}
    {active : W → UInt64} (hconns : registry.conns = Function.update r.registry.conns a none) :
    Listed ⟨registry, r.order.erase a, logger, active⟩ := by
  refine ⟨h.nodup.erase a, fun b => ?_, List.length_erase_le.trans h.length_le⟩
  rw [hconns, h.nodup.mem_erase_iff]
  by_cases hb : b = a
  · subst hb
    simp
  · rw [Function.update_of_ne hb, h.mem_iff b]
    exact and_iff_right hb

/-- What `accept_conn` does. -/
inductive Accepted (r : ActiveRun Addr W) (c : ℕ) : ActiveRun Addr W → Prop
  | refused {e : ℕ} (htaken : r.registry.conns (r.registry.links c).peerAddr = some e)
      (hkept : e ∉ r.registry.deletedConns) (hother : c ≠ e) : Accepted r c r
  | entered {registry : Registry Addr}
      (hfree : r.registry.conns (r.registry.links c).peerAddr = none)
      (hconns : registry.conns =
        Function.update r.registry.conns (r.registry.links c).peerAddr (some c)) :
      Accepted r c { r with
        registry := registry
        order := (r.registry.links c).peerAddr :: r.order
        active := raise (r.logger c) r.active }
  | reaped {registry : Registry Addr} {e : ℕ}
      (htaken : r.registry.conns (r.registry.links c).peerAddr = some e)
      (hdeleted : e ∈ r.registry.deletedConns)
      (hconns : registry.conns =
        Function.update r.registry.conns (r.registry.links c).peerAddr (some c)) :
      Accepted r c { r with
        registry := registry
        order := (r.registry.links c).peerAddr :: r.order.erase (r.registry.links c).peerAddr
        active := raise (r.logger c) (lower (r.logger e) r.active) }
  | again {registry : Registry Addr}
      (htaken : r.registry.conns (r.registry.links c).peerAddr = some c)
      (hkept : c ∉ r.registry.deletedConns)
      (hconns : registry.conns =
        Function.update r.registry.conns (r.registry.links c).peerAddr (some c)) :
      Accepted r c { r with registry := registry, active := raise (r.logger c) r.active }

theorem accepted_acceptConn (r : ActiveRun Addr W) (c : ℕ) : Accepted r c (r.acceptConn c) := by
  unfold acceptConn Registry.acceptConn
  dsimp only
  cases hconns : r.registry.conns (r.registry.links c).peerAddr with
  | none =>
      simp only
      exact .entered hconns rfl
  | some e =>
      by_cases hdeleted : e ∈ r.registry.deletedConns
      · simp only [if_pos hdeleted]
        exact .reaped hconns hdeleted (Function.update_idem ..)
      · by_cases hsame : c = e
        · subst hsame
          simp only [if_neg hdeleted, ne_eq, not_true_eq_false, if_false]
          exact .again hconns hdeleted rfl
        · simp only [if_neg hdeleted, ne_eq, hsame, not_false_eq_true, if_true]
          exact .refused hconns hdeleted hsame

/-- `_lookup_conn` takes out a connection that is in `deleted_conns`. -/
theorem lookupConn_of_deleted {a : Addr} {p : ℕ} (hconns : r.registry.conns a = some p)
    (hdeleted : p ∈ r.registry.deletedConns) :
    r.lookupConn a =
        { r with
          registry := (r.registry.lookupConn a).2
          order := r.order.erase a
          active := lower (r.logger p) r.active } ∧
      (r.registry.lookupConn a).2.conns = Function.update r.registry.conns a none := by
  rw [lookupConn, Registry.lookupConn, hconns]
  simp only [if_pos hdeleted]
  exact ⟨trivial, trivial⟩

/-- Otherwise it changes nothing. -/
theorem lookupConn_of_kept {a : Addr}
    (hkept : ∀ p ∈ r.registry.conns a, p ∉ r.registry.deletedConns) : r.lookupConn a = r := by
  rw [lookupConn]
  split
  · rfl
  · rename_i p hconns
    rw [if_neg (hkept p hconns)]

/-- The step lemma for the keys. -/
theorem Listed.step [Inhabited Addr] {action : ActiveAction Addr W} (h : r.Listed)
    (hstep : r.step action = some t) : t.Listed := by
  cases action with
  | addAccept w =>
      cases hstep
      exact ⟨h.nodup, h.mem_iff, h.length_le⟩
  | setPeerAddr c a =>
      simp only [ActiveRun.step, Option.ite_none_right_eq_some, Option.some.injEq] at hstep
      obtain ⟨-, rfl⟩ := hstep
      exact ⟨h.nodup, h.mem_iff, h.length_le⟩
  | createConnect a w =>
      simp only [ActiveRun.step, Option.ite_none_right_eq_some, Option.some.injEq] at hstep
      obtain ⟨⟨hfree, hroom⟩, rfl⟩ := hstep
      exact h.insert hfree hroom rfl
  | acceptConn c =>
      simp only [ActiveRun.step, Option.ite_none_right_eq_some, Option.some.injEq] at hstep
      obtain ⟨hroom, rfl⟩ := hstep
      have haccepted := accepted_acceptConn r c
      generalize r.acceptConn c = t at haccepted
      cases haccepted with
      | refused => exact h
      | entered hfree hconns => exact h.insert hfree (hroom hfree) hconns
      | reaped htaken hdeleted hconns =>
          have hmem := (h.mem_iff _).mpr (by rw [htaken]; exact Option.some_ne_none _)
          exact h.overwrite htaken (List.perm_cons_erase hmem).symm hconns
      | again htaken hkept hconns => exact h.overwrite htaken .rfl hconns
  | unregisterConn c =>
      cases hstep
      exact ⟨h.nodup, h.mem_iff, h.length_le⟩
  | lookupConn a =>
      cases hstep
      by_cases hdeleted : ∃ p ∈ r.registry.conns a, p ∈ r.registry.deletedConns
      · obtain ⟨p, hconns, hdeleted⟩ := hdeleted
        obtain ⟨heq, hempty⟩ := lookupConn_of_deleted hconns hdeleted
        rw [heq]
        exact h.erase hempty
      · rw [lookupConn_of_kept fun p hp hmem => hdeleted ⟨p, hp, hmem⟩]
        exact h
  | reapDead =>
      cases hstep
      refine ⟨h.nodup.filter _, fun a => ?_, (List.length_filter_le _ _).trans h.length_le⟩
      have hsubset : (r.registry.reapDead.conns a).isSome = true → r.registry.conns a ≠ none := by
        intro hsome hnone
        simp only [Registry.reapDead, hnone] at hsome
        cases hsome
      show a ∈ r.order.filter _ ↔ r.registry.reapDead.conns a ≠ none
      rw [List.mem_filter, h.mem_iff]
      exact (and_iff_right_of_imp hsubset).trans Option.ne_none_iff_isSome.symm
  | shutdownConnections =>
      cases hstep
      refine ⟨List.nodup_nil, fun a => ?_, Nat.zero_le _⟩
      show a ∈ [] ↔ none ≠ none
      simp
  | replaced c w =>
      cases hstep
      exact ⟨h.nodup, h.mem_iff, h.length_le⟩

/-! ## The count -/

variable [Fintype W]

omit [DecidableEq Addr] [DecidableEq W] in
/-- No counter is near its end. -/
theorem Counted.toNat_lt (h : r.Counted) (hlength : r.order.length ≤ maxSize) (w : W) :
    (r.active w).toNat + 1 < 2 ^ 64 := by
  have hle := le_total r.active w
  rw [Counted] at h
  rw [maxSize] at hlength
  omega

/-- `accept_conn` keeps the count exactly if it registers nothing twice, and takes out what has been
counted where its logger is now. -/
theorem counted_acceptConn_iff {c : ℕ} (h : r.Listed) (hcounted : r.Counted)
    (haccepted : Accepted r c t) : t.Counted ↔ r.KeepsCount (.acceptConn c) := by
  have hlt := hcounted.toNat_lt h.length_le
  have htotal : total r.active = r.order.length := hcounted
  have hlength := h.length_le
  rw [maxSize] at hlength
  simp only [KeepsCount]
  cases haccepted with
  | refused htaken hkept hother =>
      refine iff_of_true hcounted fun e he => ?_
      obtain rfl := Option.some.inj (htaken.symm.trans he)
      rwa [if_neg hkept]
  | entered hfree hconns =>
      refine iff_of_true ?_ fun e he => ?_
      · show total (raise _ _) = (_ :: r.order).length
        rw [total_raise (hlt _), htotal, List.length_cons]
      · rw [hfree] at he
        cases he
  | @reaped registry e htaken hdeleted hconns =>
      have hmem : (r.registry.links c).peerAddr ∈ r.order :=
        (h.mem_iff _).mpr (by rw [htaken]; exact Option.some_ne_none _)
      have hpos : 0 < r.order.length := List.length_pos_of_mem hmem
      have hsize : ((r.registry.links c).peerAddr ::
          r.order.erase (r.registry.links c).peerAddr).length = r.order.length :=
        (List.perm_cons_erase hmem).length_eq.symm
      have hcondition : (∀ e' ∈ r.registry.conns (r.registry.links c).peerAddr,
          if e' ∈ r.registry.deletedConns then
            r.logger e' = r.logger c ∨ r.active (r.logger e') ≠ 0
          else c ≠ e') ↔ r.logger e = r.logger c ∨ r.active (r.logger e) ≠ 0 := by
        rw [htaken]
        simp [hdeleted]
      rw [hcondition, Counted]
      dsimp only
      rw [hsize]
      by_cases hsame : r.logger e = r.logger c
      · rw [← hsame, raise_lower]
        exact iff_of_true htotal (.inl rfl)
      · have hother : lower (r.logger e) r.active (r.logger c) = r.active (r.logger c) :=
          Function.update_of_ne (Ne.symm hsame) ..
        rw [total_raise (by rw [hother]; exact hlt _)]
        by_cases hzero : r.active (r.logger e) = 0
        · rw [total_lower_zero hzero]
          refine iff_of_false (by omega) ?_
          rintro (heq | hne)
          · exact hsame heq
          · exact hne hzero
        · rw [total_lower hzero]
          exact iff_of_true htotal (.inr hzero)
  | again htaken hkept hconns =>
      refine iff_of_false ?_ fun hok => ?_
      · show ¬ total (raise _ _) = r.order.length
        rw [total_raise (hlt _)]
        omega
      · have hne := hok c htaken
        rw [if_neg hkept] at hne
        exact hne rfl

/-- `_lookup_conn` keeps the count exactly if what it takes out is counted where its logger is. -/
theorem counted_lookupConn_iff {a : Addr} (h : r.Listed) (hcounted : r.Counted) :
    (r.lookupConn a).Counted ↔ r.KeepsCount (.lookupConn a) := by
  have htotal : total r.active = r.order.length := hcounted
  have hlength := h.length_le
  rw [maxSize] at hlength
  simp only [KeepsCount]
  by_cases hdeleted : ∃ p ∈ r.registry.conns a, p ∈ r.registry.deletedConns
  · obtain ⟨p, hconns, hdeleted⟩ := hdeleted
    have hmem : a ∈ r.order :=
      (h.mem_iff _).mpr (by rw [show r.registry.conns a = some p from hconns]; exact nofun)
    have hpos : 0 < r.order.length := List.length_pos_of_mem hmem
    have hcondition : (∀ p' ∈ r.registry.conns a, p' ∈ r.registry.deletedConns →
        r.active (r.logger p') ≠ 0) ↔ r.active (r.logger p) ≠ 0 := by
      rw [show r.registry.conns a = some p from hconns]
      simp [hdeleted]
    rw [(lookupConn_of_deleted hconns hdeleted).1, hcondition, Counted]
    dsimp only
    rw [List.length_erase_of_mem hmem]
    by_cases hzero : r.active (r.logger p) = 0
    · rw [total_lower_zero hzero]
      exact iff_of_false (by omega) (not_not.mpr hzero)
    · have hlower := total_lower hzero
      exact iff_of_true (by omega) hzero
  · have hkept : ∀ p ∈ r.registry.conns a, p ∉ r.registry.deletedConns :=
      fun p hp hmem => hdeleted ⟨p, hp, hmem⟩
    rw [lookupConn_of_kept hkept]
    exact iff_of_true hcounted fun p hp hmem => absurd hmem (hkept p hp)

/-- `reap_dead` keeps the count exactly if it takes no entry out. -/
theorem counted_reapDead_iff (h : r.Listed) (hcounted : r.Counted) :
    r.reapDead.Counted ↔ r.KeepsCount .reapDead := by
  have hkeeps : ∀ a ∈ r.order, (r.registry.reapDead.conns a).isSome = true ↔
      ∀ p ∈ r.registry.conns a, p ∈ r.registry.deletedConns →
        (r.registry.links p).peerAddr ≠ a := by
    intro a ha
    obtain ⟨p, hp⟩ := Option.ne_none_iff_exists'.mp ((h.mem_iff a).mp ha)
    by_cases hreaped : p ∈ r.registry.deletedConns ∧ (r.registry.links p).peerAddr = a
    · simp [Registry.reapDead, hp, hreaped]
    · simp only [Registry.reapDead, hp, if_neg hreaped]
      refine iff_of_true rfl fun q hq hdeleted heq => ?_
      obtain rfl := Option.some.inj hq
      exact hreaped ⟨hdeleted, heq⟩
  have htotal : total r.active = r.order.length := hcounted
  calc
    r.reapDead.Counted ↔
        (r.order.filter fun a => (r.registry.reapDead.conns a).isSome).length = r.order.length := by
      rw [Counted, ← htotal]
      exact eq_comm
    _ ↔ ∀ a ∈ r.order, (r.registry.reapDead.conns a).isSome = true :=
      List.length_filter_eq_length_iff
    _ ↔ r.KeepsCount .reapDead := forall₂_congr hkeeps

omit [DecidableEq Addr] in
/-- `shutdown_connections` leaves zero exactly if every worker counts the entries of its logger. -/
theorem counted_shutdownConnections_iff :
    r.shutdownConnections.Counted ↔ r.KeepsCount .shutdownConnections := by
  rw [Counted]
  show total (List.foldl _ _ _) = 0 ↔ _
  rw [total_eq_zero_iff]
  refine forall_congr' fun w => ?_
  rw [foldl_lower, UInt64.sub_eq_iff_eq_add, UInt64.zero_add]

/-- **The counter of active connections.**  In every run whose calls all keep the count, the
counters add up to the size of `conns`; and the next call leaves it so exactly if it keeps the
count. -/
theorem counted_of_keepsCount [Inhabited Addr]
    (hreached : (machine Addr W).ReachedUnder KeepsCount r) :
    r.Counted ∧ ∀ a t, r.step a = some t → (t.Counted ↔ r.KeepsCount a) := by
  have hstep : ∀ {r t : ActiveRun Addr W} {a : ActiveAction Addr W}, r.Listed → r.Counted →
      r.step a = some t → (t.Counted ↔ r.KeepsCount a) := by
    intro r t a h hcounted hstep
    cases a with
    | addAccept w | unregisterConn c | replaced c w =>
        cases hstep
        exact iff_of_true hcounted trivial
    | setPeerAddr c a =>
        simp only [step, Option.ite_none_right_eq_some, Option.some.injEq] at hstep
        obtain ⟨-, rfl⟩ := hstep
        exact iff_of_true hcounted trivial
    | createConnect a w =>
        simp only [step, Option.ite_none_right_eq_some, Option.some.injEq] at hstep
        obtain ⟨-, rfl⟩ := hstep
        refine iff_of_true ?_ trivial
        show total (raise _ _) = (_ :: r.order).length
        rw [total_raise (hcounted.toNat_lt h.length_le w), hcounted, List.length_cons]
    | acceptConn c =>
        simp only [step, Option.ite_none_right_eq_some, Option.some.injEq] at hstep
        obtain ⟨-, rfl⟩ := hstep
        exact counted_acceptConn_iff h hcounted (accepted_acceptConn r c)
    | lookupConn a =>
        cases hstep
        exact counted_lookupConn_iff h hcounted
    | reapDead =>
        cases hstep
        exact counted_reapDead_iff h hcounted
    | shutdownConnections =>
        cases hstep
        exact counted_shutdownConnections_iff
  have hinvariant : r.Listed ∧ r.Counted := by
    apply hreached.invariant fun r => r.Listed ∧ r.Counted
    · rintro r ⟨hregistry, horder, hactive⟩
      refine ⟨⟨?_, fun a => ?_, ?_⟩, ?_⟩
      · rw [horder]
        exact List.nodup_nil
      · rw [horder, show r.registry = _ from hregistry]
        simp
      · rw [horder]
        exact Nat.zero_le _
      · rw [Counted, horder, total_eq_zero_iff.mpr hactive, List.length_nil]
    · rintro r a t ⟨h, hcounted⟩ hok hmoves
      exact ⟨h.step hmoves, (hstep h hcounted hmoves).mpr hok⟩
  exact ⟨hinvariant.2, fun a t hmoves => hstep hinvariant.1 hinvariant.2 hmoves⟩

/-- A messenger with two workers. -/
def twoWorkers : ActiveRun ℕ Bool :=
  ⟨⟨fun _ => none, ∅, ∅, 0, fun _ => ⟨default, .closed, .locked⟩⟩, [], fun _ => false, fun _ => 0⟩

theorem fresh_twoWorkers : twoWorkers.Fresh := ⟨rfl, rfl, fun _ => rfl⟩

/-- A connection that stops, and is found by the lookup for the next one. -/
theorem counted_of_keepsCount_stopped :
    ∃ r, (machine ℕ Bool).replay KeepsCount twoWorkers
        [.createConnect 7 true, .unregisterConn 0, .lookupConn 7, .addAccept false,
          .setPeerAddr 1 7, .acceptConn 1] = some r ∧
      r.order = [7] ∧ r.Counted := by
  obtain ⟨r, hreplay, horder⟩ : ∃ r, (machine ℕ Bool).replay KeepsCount twoWorkers
      [.createConnect 7 true, .unregisterConn 0, .lookupConn 7, .addAccept false,
        .setPeerAddr 1 7, .acceptConn 1] = some r ∧ r.order = [7] := ⟨_, rfl, rfl⟩
  have hreached : (machine ℕ Bool).ReachedUnder KeepsCount r :=
    .of_replay (.start fresh_twoWorkers) hreplay
  exact ⟨r, hreplay, horder, (counted_of_keepsCount hreached).1⟩

/-- A connection that is accepted again is counted twice, and one that is reaped stays counted. -/
theorem not_counted_again :
    (∃ r, (machine ℕ Bool).Reached r ∧ r.order = [7] ∧ r.active true = 2 ∧ ¬ r.Counted) ∧
      ∃ r, (machine ℕ Bool).Reached r ∧ r.order = [] ∧ r.active true = 1 ∧ ¬ r.Counted := by
  constructor
  · obtain ⟨r, hreplay, horder, hactive, htotal⟩ : ∃ r, (machine ℕ Bool).replay (fun _ _ => True)
        twoWorkers [.addAccept true, .setPeerAddr 0 7, .acceptConn 0, .acceptConn 0] = some r ∧
        r.order = [7] ∧ r.active true = 2 ∧ total r.active = 2 := ⟨_, rfl, rfl, rfl, rfl⟩
    refine ⟨r, .of_replay (.start fresh_twoWorkers) hreplay, horder, hactive, ?_⟩
    rw [Counted, horder, htotal]
    decide
  · obtain ⟨r, hreplay, horder, hactive, htotal⟩ : ∃ r, (machine ℕ Bool).replay (fun _ _ => True)
        twoWorkers [.createConnect 7 true, .unregisterConn 0, .reapDead] = some r ∧
        r.order = [] ∧ r.active true = 1 ∧ total r.active = 1 := ⟨_, rfl, rfl, rfl, rfl⟩
    refine ⟨r, .of_replay (.start fresh_twoWorkers) hreplay, horder, hactive, ?_⟩
    rw [Counted, horder, htotal]
    decide

end ActiveRun

end HwAsync.Messenger
