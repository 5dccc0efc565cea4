/-
# Binding to a port

A messenger listens with one `Processor`, or with one for each worker if the stack keeps a listen
table for each of them.  `Processor::bind` listens on the port that it is given, or tries the ports
of a range, from the first to the last, and that several times.

`rebind` looks for another port after the old one was closed.  It puts together a set of the ports
to avoid, after it has erased the old port from the address, and then passes on the set that it was
given.  The old port is free by then, and often the first one that is tried.

Which calls of `listen` succeed is left open.
-/

import Mathlib.Algebra.Order.Ring.Int
import Mathlib.Data.Finset.Insert
import Mathlib.Data.List.Basic
import Mathlib.Tactic.Common
import HwAsync.Lib.Run

namespace HwAsync.Messenger

open HwAsync.Lib

/-- `AF_UNSPEC`, `AF_INET` and `AF_INET6`. -/
inductive Family
  | unspec
  | inet
  | inet6
  deriving DecidableEq, Repr

/-- `entity_addr_t`; `legacy` is `TYPE_LEGACY`, and not `TYPE_NONE`. -/
structure EntityAddr (Ip : Type) where
  legacy : Bool
  family : Family
  ip : Ip
  port : UInt16
  nonce : UInt32
  deriving DecidableEq, Repr

/-- `entity_addr_t()`. -/
instance {Ip : Type} [Inhabited Ip] : Inhabited (EntityAddr Ip) := ⟨⟨false, .unspec, default, 0, 0⟩⟩

/-- What is left of a number as a port. -/
def toPort (port : ℤ) : UInt16 := .ofNat (port % 2 ^ 16).toNat

namespace EntityAddr

variable {Ip : Type}

/-- `get_port`. -/
def getPort (a : EntityAddr Ip) : ℤ := if a.family = .unspec then 0 else a.port.toNat

/-- `set_port`. -/
def setPort (port : ℤ) (a : EntityAddr Ip) : EntityAddr Ip := { a with port := toPort port }

end EntityAddr

/-- The options, and the number of processors. -/
structure BindConfig where
  msBindIpv6 : Bool
  msBindRetryCount : ℤ
  msBindPortMin : ℤ
  msBindPortMax : ℤ
  processors : ℕ
  processors_pos : 0 < processors

namespace BindConfig

/-- The ports from the first to the last. -/
def ports (conf : BindConfig) : List ℤ :=
  (List.range (conf.msBindPortMax + 1 - conf.msBindPortMin).toNat).map fun n : ℕ =>
    conf.msBindPortMin + n

/-- The values of the loop over the attempts. -/
def rounds (conf : BindConfig) : List ℕ := List.range conf.msBindRetryCount.toNat

theorem mem_ports {conf : BindConfig} {port : ℤ} :
    port ∈ conf.ports ↔ conf.msBindPortMin ≤ port ∧ port ≤ conf.msBindPortMax := by
  simp only [ports, List.mem_map, List.mem_range]
  constructor
  · rintro ⟨n, hn, rfl⟩
    omega
  · rintro ⟨hmin, hmax⟩
    exact ⟨(port - conf.msBindPortMin).toNat, by omega, by omega⟩

/-- The ports are tried in increasing order. -/
theorem pairwise_ports (conf : BindConfig) : conf.ports.Pairwise (· < ·) := by
  apply List.pairwise_map.mpr
  apply List.pairwise_lt_range.imp
  intro m n hlt
  omega

end BindConfig

/-- `listen` returns zero or an error. -/
abbrev ListenResult := { r : ℤ // r ≤ 0 }

/-- What a processor gets in each round from `listen` on each port. -/
abbrev Listens := ℕ → ℤ → ListenResult

namespace Processor

variable {Ip : Type} (conf : BindConfig) (avoidPorts : Finset ℤ)

/-- The loop over the range of ports, with `listen_addr` and `r`. -/
def tryPorts (listen : ℤ → ListenResult) : List ℤ → EntityAddr Ip → ℤ → EntityAddr Ip × ℤ
  | [], listenAddr, r => (listenAddr, r)
  | port :: rest, listenAddr, r =>
      if port ∈ avoidPorts then tryPorts listen rest listenAddr r
      else
        let r' := (listen port).1
        if r' = 0 then (listenAddr.setPort port, r')
        else tryPorts listen rest (listenAddr.setPort port) r'

/-- The loop over the attempts. -/
def tryRounds (listen : Listens) : List ℕ → EntityAddr Ip → ℤ → EntityAddr Ip × ℤ
  | [], listenAddr, r => (listenAddr, r)
  | i :: rest, listenAddr, r =>
      if listenAddr.getPort ≠ 0 then
        let r' := (listen i listenAddr.getPort).1
        if r' = 0 then (listenAddr, r') else tryRounds listen rest listenAddr r'
      else
        let tried := tryPorts avoidPorts (listen i) conf.ports listenAddr r
        if tried.2 < 0 then tryRounds listen rest (tried.1.setPort 0) tried.2
        else if tried.2 = 0 then tried
        else tryRounds listen rest tried.1 tried.2

/-- The address to listen on: what the user specified, if anything. -/
def listenAddr (bindAddr : EntityAddr Ip) : EntityAddr Ip :=
  { bindAddr with
    legacy := true
    family :=
      match bindAddr.family with
      | .unspec => if conf.msBindIpv6 then .inet6 else .inet
      | family => family }

/-- `Processor::bind`: the address that is bound, or the error. -/
def bind (listen : Listens) (bindAddr : EntityAddr Ip) : Except ℤ (EntityAddr Ip) :=
  let tried := tryRounds conf avoidPorts listen conf.rounds (listenAddr conf bindAddr) (-1)
  if tried.2 < 0 then .error tried.2 else .ok tried.1

end Processor

/-- What binding all processors comes to: the addresses that they are bound to, an error of the
first of them, or a failed assertion. -/
inductive Bound (Ip : Type)
  | bound (addrs : List (EntityAddr Ip))
  | failed (r : ℤ)
  | aborted

/-- `bind` of `n` processors from the `i`-th on. -/
def bindProcessors {Ip : Type} (conf : BindConfig) (listen : ℕ → Listens) (avoidPorts : Finset ℤ)
    (bindAddr : EntityAddr Ip) (i : ℕ) : ℕ → Bound Ip
  | 0 => .bound []
  | n + 1 =>
      match Processor.bind conf avoidPorts (listen i) bindAddr with
      | .error r => if i = 0 then .failed r else .aborted
      | .ok addr =>
          match bindProcessors conf listen avoidPorts bindAddr (i + 1) n with
          | .bound addrs => .bound (addr :: addrs)
          | out => out

/-- The address of a messenger, and what its processors listen on. -/
structure Binder (Ip : Type) where
  myAddr : EntityAddr Ip
  nonce : UInt64
  needAddr : Bool
  didBind : Bool
  started : Bool
  pendingBind : Option (EntityAddr Ip)
  listening : List (EntityAddr Ip)

/-- What a call returns, or a failed assertion. -/
inductive BindOutcome (Ip : Type)
  | returned (r : ℤ) (b : Binder Ip)
  | aborted

namespace Binder

variable {Ip : Type} [Inhabited Ip] [DecidableEq Ip]

/-- `learned_addr`. -/
def learnedAddr (peerAddrForMe : EntityAddr Ip) (b : Binder Ip) : Binder Ip :=
  if b.needAddr then
    { b with
      needAddr := false
      myAddr := { peerAddrForMe.setPort b.myAddr.getPort with nonce := b.myAddr.nonce } }
  else b

/-- `_finish_bind`. -/
def finishBind (bindAddr listenAddr : EntityAddr Ip) (b : Binder Ip) : Binder Ip :=
  let b := { b with myAddr := bindAddr }
  let b := if bindAddr ≠ default then b.learnedAddr bindAddr else b
  let b := if b.myAddr.getPort = 0 then { b with myAddr := listenAddr } else b
  { b with
    myAddr := { b.myAddr with nonce := b.nonce.toUInt32 }
    didBind := true }

/-- The end of `bind` and of `rebind`: `bound_addr` is that of the last processor. -/
def finish (bindAddr : EntityAddr Ip) (bound : Bound Ip) (b : Binder Ip) : BindOutcome Ip :=
  match bound with
  | .aborted => .aborted
  | .failed r => .returned r b
  | .bound addrs =>
      .returned 0 { b.finishBind bindAddr (addrs.getLast?.getD default) with listening := addrs }

/-- `HwMessenger::bind`; `isReady` is that of the stack. -/
def bind (conf : BindConfig) (listen : ℕ → Listens) (isReady : Bool) (bindAddr : EntityAddr Ip)
    (b : Binder Ip) : BindOutcome Ip :=
  if b.pendingBind.isNone ∧ b.started then .returned (-1) b
  else if ¬ isReady then .returned 0 { b with pendingBind := some bindAddr }
  else b.finish bindAddr (bindProcessors conf listen ∅ bindAddr 0 conf.processors)

/-- `HwMessenger::rebind`, without the connections that it closes. -/
def rebind (conf : BindConfig) (listen : ℕ → Listens) (avoidPorts : Finset ℤ) (b : Binder Ip) :
    BindOutcome Ip :=
  if ¬ b.didBind then .aborted
  else
    let b := { b with nonce := b.nonce + 1000000, listening := [] }
    let bindAddr := b.myAddr.setPort 0
    -- `new_avoid` gets the port of the address that has none any more, and is only logged
    b.finish bindAddr (bindProcessors conf listen avoidPorts bindAddr 0 conf.processors)

end Binder

/-! ## What a processor binds to -/

namespace Processor

variable {Ip : Type} {conf : BindConfig} {avoidPorts : Finset ℤ} {addr : EntityAddr Ip} {r : ℤ}

/-- The port is not to be avoided, and can be listened on. -/
def free (avoidPorts : Finset ℤ) (listen : ℤ → ListenResult) (port : ℤ) : Bool :=
  decide (port ∉ avoidPorts ∧ (listen port).1 = 0)

/-- The first free port of the first round that has one. -/
def firstFree (conf : BindConfig) (avoidPorts : Finset ℤ) (listen : Listens) : Option ℤ :=
  conf.rounds.findSome? fun i => conf.ports.find? (free avoidPorts (listen i))

theorem tryPorts_of_some {listen : ℤ → ListenResult} {ports : List ℤ} {port : ℤ}
    (hfound : ports.find? (free avoidPorts listen) = some port) :
    tryPorts avoidPorts listen ports addr r = (addr.setPort port, 0) := by
  induction ports generalizing addr r with
  | nil => cases hfound
  | cons p rest ih =>
      rw [tryPorts]
      by_cases havoided : p ∈ avoidPorts
      · have hnot : free avoidPorts listen p = false := by simp [free, havoided]
        rw [List.find?_cons, hnot] at hfound
        rw [if_pos havoided]
        exact ih hfound
      · rw [if_neg havoided]
        by_cases hlistens : (listen p).1 = 0
        · have hfree : free avoidPorts listen p = true := by simp [free, havoided, hlistens]
          rw [List.find?_cons, hfree] at hfound
          obtain rfl := Option.some.inj hfound
          simp [hlistens]
        · have hnot : free avoidPorts listen p = false := by simp [free, hlistens]
          rw [List.find?_cons, hnot] at hfound
          simp only [hlistens, if_false]
          exact ih hfound

theorem tryPorts_of_none (addr : EntityAddr Ip) {listen : ℤ → ListenResult} {ports : List ℤ}
    (hnone : ports.find? (free avoidPorts listen) = none) (hr : r < 0) :
    (tryPorts avoidPorts listen ports addr r).2 < 0 ∧
      (tryPorts avoidPorts listen ports addr r).1.setPort 0 = addr.setPort 0 := by
  induction ports generalizing addr r with
  | nil => exact ⟨hr, rfl⟩
  | cons p rest ih =>
      obtain ⟨hp, hrest⟩ := List.forall_mem_cons.mp (List.find?_eq_none.mp hnone)
      replace hrest := List.find?_eq_none.mpr hrest
      rw [tryPorts]
      by_cases havoided : p ∈ avoidPorts
      · rw [if_pos havoided]
        exact ih _ hrest hr
      · have hfails : (listen p).1 ≠ 0 := by
          intro hlistens
          exact hp (by simp [free, havoided, hlistens])
        have hneg : (listen p).1 < 0 := lt_of_le_of_ne (listen p).2 hfails
        simp only [havoided, hfails, if_false]
        exact ih (addr.setPort p) hrest hneg

/-- An address without a port makes every round try the range. -/
theorem tryRounds_of_some {listen : Listens} {rounds : List ℕ} {port : ℤ}
    (haddr : addr.setPort 0 = addr) (hr : r < 0)
    (hfound : rounds.findSome? (fun i => conf.ports.find? (free avoidPorts (listen i))) =
      some port) :
    tryRounds conf avoidPorts listen rounds addr r = (addr.setPort port, 0) := by
  have hport : addr.getPort = 0 := by
    rw [← haddr]
    simp [EntityAddr.getPort, EntityAddr.setPort, toPort]
  induction rounds generalizing r with
  | nil => cases hfound
  | cons i rest ih =>
      rw [tryRounds, if_neg (not_not.mpr hport)]
      cases hround : conf.ports.find? (free avoidPorts (listen i)) with
      | some port' =>
          rw [List.findSome?_cons, hround] at hfound
          obtain rfl := Option.some.inj hfound
          simp [tryPorts_of_some hround]
      | none =>
          rw [List.findSome?_cons, hround] at hfound
          obtain ⟨hneg, hsame⟩ := tryPorts_of_none addr hround hr
          simp only [if_pos hneg]
          rw [hsame, haddr]
          exact ih hneg hfound

theorem tryRounds_of_none {listen : Listens} {rounds : List ℕ}
    (haddr : addr.setPort 0 = addr) (hr : r < 0)
    (hnone : rounds.findSome? (fun i => conf.ports.find? (free avoidPorts (listen i))) = none) :
    (tryRounds conf avoidPorts listen rounds addr r).2 < 0 := by
  have hport : addr.getPort = 0 := by
    rw [← haddr]
    simp [EntityAddr.getPort, EntityAddr.setPort, toPort]
  induction rounds generalizing r with
  | nil => exact hr
  | cons i rest ih =>
      obtain ⟨hround, hrest⟩ := List.forall_mem_cons.mp (List.findSome?_eq_none_iff.mp hnone)
      obtain ⟨hneg, hsame⟩ := tryPorts_of_none addr hround hr
      rw [tryRounds, if_neg (not_not.mpr hport)]
      simp only [if_pos hneg]
      rw [hsame, haddr]
      exact ih hneg (List.findSome?_eq_none_iff.mpr hrest)

/-- An address with a port is tried again and again. -/
theorem tryRounds_fst {listen : Listens} {rounds : List ℕ} (hport : addr.getPort ≠ 0) :
    (tryRounds conf avoidPorts listen rounds addr r).1 = addr := by
  induction rounds generalizing r with
  | nil => rfl
  | cons i rest ih =>
      rw [tryRounds, if_pos hport]
      dsimp only
      split
      · rfl
      · exact ih

theorem getPort_of_bind {listen : Listens} {bindAddr bound : EntityAddr Ip}
    (hport : bindAddr.getPort ≠ 0) (hbound : bind conf avoidPorts listen bindAddr = .ok bound) :
    bound.getPort = bindAddr.getPort := by
  have hfamily : bindAddr.family ≠ .unspec := fun h => hport (if_pos h)
  have hsame : (listenAddr conf bindAddr).getPort = bindAddr.getPort := by
    unfold listenAddr EntityAddr.getPort
    cases hgiven : bindAddr.family with
    | unspec => exact absurd hgiven hfamily
    | inet | inet6 => rfl
  unfold bind at hbound
  dsimp only at hbound
  split at hbound
  · cases hbound
  · rw [tryRounds_fst (hsame ▸ hport)] at hbound
    exact Except.ok.inj hbound ▸ hsame

/-- Without a port of its own a processor is bound to the first free one, or to none. -/
theorem bind_eq_ok_iff {listen : Listens} {bindAddr bound : EntityAddr Ip}
    (hbindAddr : bindAddr.port = 0) :
    bind conf avoidPorts listen bindAddr = .ok bound ↔
      ∃ port, firstFree conf avoidPorts listen = some port ∧
        bound = (listenAddr conf bindAddr).setPort port := by
  have haddr : (listenAddr conf bindAddr).setPort 0 = listenAddr conf bindAddr := by
    simp [EntityAddr.setPort, listenAddr, toPort, hbindAddr]
  have hstart : (-1 : ℤ) < 0 := by decide
  unfold bind firstFree
  cases hfree : conf.rounds.findSome? fun i => conf.ports.find? (free avoidPorts (listen i)) with
  | some port =>
      simp only [tryRounds_of_some haddr hstart hfree, lt_irrefl, if_false, Except.ok.injEq,
        Option.some.injEq, exists_eq_left']
      exact eq_comm
  | none =>
      simp [tryRounds_of_none haddr hstart hfree]

/-- What `listen` has to return for a port to be the first free one. -/
structure FirstAt (conf : BindConfig) (avoidPorts : Finset ℤ) (listen : Listens) (round : ℕ)
    (port : ℤ) : Prop where
  round_lt : round < conf.msBindRetryCount.toNat
  min_le : conf.msBindPortMin ≤ port
  le_max : port ≤ conf.msBindPortMax
  not_avoided : port ∉ avoidPorts
  listens : (listen round port).1 = 0
  /-- The smaller ports fail in the same round, and all ports in the rounds before. -/
  smaller : ∀ q, conf.msBindPortMin ≤ q → q < port → q ∉ avoidPorts → (listen round q).1 ≠ 0
  earlier : ∀ j < round, ∀ q, conf.msBindPortMin ≤ q → q ≤ conf.msBindPortMax →
    q ∉ avoidPorts → (listen j q).1 ≠ 0

theorem find?_ports_eq_none_iff {listen : ℤ → ListenResult} :
    conf.ports.find? (free avoidPorts listen) = none ↔
      ∀ q, conf.msBindPortMin ≤ q → q ≤ conf.msBindPortMax → q ∉ avoidPorts →
        (listen q).1 ≠ 0 := by
  simp only [List.find?_eq_none, BindConfig.mem_ports, free, decide_eq_true_eq, not_and, and_imp]

/-- In an increasing list the ones in front are the smaller ones. -/
theorem mem_front_iff {α : Type} [Preorder α] {xs front back : List α} {x y : α}
    (hsorted : xs.Pairwise (· < ·)) (hsplit : xs = front ++ x :: back) :
    y ∈ front ↔ y ∈ xs ∧ y < x := by
  rw [hsplit, List.pairwise_append, List.pairwise_cons] at hsorted
  obtain ⟨-, ⟨hback, -⟩, hfront⟩ := hsorted
  rw [hsplit]
  constructor
  · exact fun hy => ⟨List.mem_append_left _ hy, hfront y hy x List.mem_cons_self⟩
  · rintro ⟨hy, hlt⟩
    rcases List.mem_append.mp hy with hy | hy
    · exact hy
    · rcases List.mem_cons.mp hy with rfl | hy
      · exact absurd hlt (lt_irrefl _)
      · exact absurd hlt (hback y hy).asymm

theorem find?_ports_eq_some_iff {listen : ℤ → ListenResult} {port : ℤ} :
    conf.ports.find? (free avoidPorts listen) = some port ↔
      (conf.msBindPortMin ≤ port ∧ port ≤ conf.msBindPortMax) ∧
        (port ∉ avoidPorts ∧ (listen port).1 = 0) ∧
        ∀ q, conf.msBindPortMin ≤ q → q < port → q ∉ avoidPorts → (listen q).1 ≠ 0 := by
  rw [List.find?_eq_some_iff_append]
  constructor
  · rintro ⟨hfree, front, back, hsplit, hfront⟩
    have hrange := BindConfig.mem_ports.mp (hsplit ▸ List.mem_append_right front List.mem_cons_self)
    refine ⟨hrange, of_decide_eq_true hfree, ?_⟩
    intro q hmin hlt havoided hlistens
    have hq : q ∈ conf.ports := BindConfig.mem_ports.mpr ⟨hmin, hlt.le.trans hrange.2⟩
    have hnot := hfront q ((mem_front_iff conf.pairwise_ports hsplit).mpr ⟨hq, hlt⟩)
    simp [free, havoided, hlistens] at hnot
  · rintro ⟨hrange, hfree, hsmaller⟩
    obtain ⟨front, back, hsplit⟩ := List.append_of_mem (BindConfig.mem_ports.mpr hrange)
    refine ⟨decide_eq_true hfree, front, back, hsplit, ?_⟩
    intro q hq
    obtain ⟨hmem, hlt⟩ := (mem_front_iff conf.pairwise_ports hsplit).mp hq
    have hfails := hsmaller q (BindConfig.mem_ports.mp hmem).1 hlt
    simp only [free, Bool.not_eq_true', decide_eq_false_iff_not, not_and]
    exact hfails

/-- The search finds a port exactly if `listen` makes it the first free one. -/
theorem firstFree_eq_some_iff {listen : Listens} {port : ℤ} :
    firstFree conf avoidPorts listen = some port ↔
      ∃ round, FirstAt conf avoidPorts listen round port := by
  have hsorted : conf.rounds.Pairwise (· < ·) := List.pairwise_lt_range
  rw [firstFree, List.findSome?_eq_some_iff]
  constructor
  · rintro ⟨front, round, back, hsplit, hfound, hfront⟩
    obtain ⟨⟨hmin, hmax⟩, ⟨havoided, hlistens⟩, hsmaller⟩ := find?_ports_eq_some_iff.mp hfound
    have hmem : round ∈ conf.rounds := hsplit ▸ List.mem_append_right front List.mem_cons_self
    have hround : round < conf.msBindRetryCount.toNat := List.mem_range.mp hmem
    refine ⟨round, hround, hmin, hmax, havoided, hlistens, hsmaller, ?_⟩
    intro j hj
    have hmem : j ∈ conf.rounds := List.mem_range.mpr (hj.trans hround)
    exact find?_ports_eq_none_iff.mp
      (hfront j ((mem_front_iff hsorted hsplit).mpr ⟨hmem, hj⟩))
  · rintro ⟨round, h⟩
    obtain ⟨front, back, hsplit⟩ :=
      List.append_of_mem (List.mem_range.mpr h.round_lt : round ∈ conf.rounds)
    refine ⟨front, round, back, hsplit, find?_ports_eq_some_iff.mpr
      ⟨⟨h.min_le, h.le_max⟩, ⟨h.not_avoided, h.listens⟩, h.smaller⟩, ?_⟩
    intro j hj
    exact find?_ports_eq_none_iff.mpr (h.earlier j ((mem_front_iff hsorted hsplit).mp hj).2)

end Processor

/-! ## What a messenger moves to -/

section

variable {Ip : Type} {conf : BindConfig} {listen : ℕ → Listens} {avoidPorts : Finset ℤ}
  {bindAddr : EntityAddr Ip}

/-- All processors are bound if each of them is. -/
theorem bindProcessors_eq_bound_iff {i n : ℕ} {addrs : List (EntityAddr Ip)} :
    bindProcessors conf listen avoidPorts bindAddr i n = .bound addrs ↔
      addrs.length = n ∧ ∀ j addr, addrs[j]? = some addr →
        Processor.bind conf avoidPorts (listen (i + j)) bindAddr = .ok addr := by
  induction n generalizing i addrs with
  | zero =>
      rw [bindProcessors, Bound.bound.injEq, List.length_eq_zero_iff]
      constructor
      · rintro rfl
        exact ⟨rfl, nofun⟩
      · exact fun h => h.1.symm
  | succ n ih =>
      rw [bindProcessors]
      constructor
      · intro hbound
        split at hbound
        · split at hbound <;> cases hbound
        · rename_i addr haddr
          split at hbound
          · rename_i rest hrest
            cases hbound
            obtain ⟨hlength, hall⟩ := ih.mp hrest
            refine ⟨congrArg (· + 1) hlength, ?_⟩
            rintro (_ | j) addr' hget
            · cases hget
              exact haddr
            · rw [Nat.add_comm j 1, ← Nat.add_assoc]
              exact hall j addr' hget
          · rename_i hnot
            exact absurd hbound (hnot addrs)
      · rintro ⟨hlength, hall⟩
        cases addrs with
        | nil => cases hlength
        | cons addr rest =>
            have hrest :
                bindProcessors conf listen avoidPorts bindAddr (i + 1) n = .bound rest := by
              apply ih.mpr
              refine ⟨Nat.succ.inj hlength, fun j addr' hget => ?_⟩
              rw [Nat.add_assoc, Nat.add_comm 1 j]
              exact hall (j + 1) addr' hget
            have haddr := hall 0 addr rfl
            rw [Nat.add_zero] at haddr
            simp only [haddr, hrest]

/-- An error is negative. -/
theorem bindProcessors_eq_failed {i n : ℕ} {r : ℤ}
    (hfailed : bindProcessors conf listen avoidPorts bindAddr i n = .failed r) : r < 0 := by
  induction n generalizing i with
  | zero => cases hfailed
  | succ n ih =>
      rw [bindProcessors] at hfailed
      split at hfailed
      · rename_i r' herror
        split at hfailed
        · cases hfailed
          unfold Processor.bind at herror
          dsimp only at herror
          split at herror
          · rename_i hneg
            exact Except.error.inj herror ▸ hneg
          · cases herror
        · cases hfailed
      · split at hfailed
        · cases hfailed
        · exact ih hfailed

end

theorem toNat_toPort (port : ℤ) : ((toPort port).toNat : ℤ) = port % 2 ^ 16 := by
  have hnonneg : 0 ≤ port % 2 ^ 16 := Int.emod_nonneg _ (by decide)
  have hlt : port % 2 ^ 16 < 2 ^ 16 := Int.emod_lt_of_pos _ (by decide)
  rw [toPort, UInt16.toNat_ofNat', Nat.mod_eq_of_lt (by omega), Int.toNat_of_nonneg hnonneg]

namespace Binder

variable {Ip : Type} [Inhabited Ip] [DecidableEq Ip] {conf : BindConfig} {listen : ℕ → Listens}
  {avoidPorts : Finset ℤ} {b : Binder Ip}

omit [Inhabited Ip] [DecidableEq Ip] in
theorem getPort_setPort_getPort {a c : EntityAddr Ip} (hfamily : c.family ≠ .unspec)
    (nonce : UInt32) :
    ({ c.setPort a.getPort with nonce := nonce } : EntityAddr Ip).getPort = a.getPort := by
  refine (if_neg hfamily).trans ((toNat_toPort _).trans ?_)
  unfold EntityAddr.getPort
  split
  · rfl
  · exact Int.emod_eq_of_lt (Int.natCast_nonneg _) (by exact_mod_cast a.port.toNat_lt)

/-- An address without a port gives way to the one that was bound. -/
theorem finishBind_myAddr {bindAddr listenAddr : EntityAddr Ip} (hport : bindAddr.getPort = 0) :
    (b.finishBind bindAddr listenAddr).myAddr =
      { listenAddr with nonce := b.nonce.toUInt32 } := by
  have hlearned : ∀ b : Binder Ip, b.myAddr = bindAddr →
      (b.learnedAddr bindAddr).myAddr.getPort = 0 ∧ (b.learnedAddr bindAddr).nonce = b.nonce := by
    rintro b rfl
    unfold learnedAddr
    split
    · refine ⟨?_, rfl⟩
      by_cases hfamily : b.myAddr.family = .unspec
      · exact if_pos hfamily
      · exact (getPort_setPort_getPort hfamily _).trans hport
    · exact ⟨hport, rfl⟩
  obtain ⟨hgetPort, hnonce⟩ := hlearned { b with myAddr := bindAddr } rfl
  unfold finishBind
  by_cases hgiven : bindAddr ≠ default
  · simp only [if_pos hgiven, hgetPort, if_true, hnonce]
  · simp only [if_neg hgiven, hport, if_true]

/-- An address with a port keeps it. -/
theorem finishBind_getPort {bindAddr listenAddr : EntityAddr Ip} (hport : bindAddr.getPort ≠ 0) :
    (b.finishBind bindAddr listenAddr).myAddr.getPort = bindAddr.getPort := by
  have hfamily : bindAddr.family ≠ .unspec := fun h => hport (if_pos h)
  have hgiven : bindAddr ≠ default := by
    rintro rfl
    exact hfamily rfl
  have hlearned : ∀ b : Binder Ip, b.myAddr = bindAddr →
      (b.learnedAddr bindAddr).myAddr.getPort = bindAddr.getPort := by
    rintro b rfl
    unfold learnedAddr
    split
    · exact getPort_setPort_getPort hfamily _
    · rfl
  have hgetPort := hlearned { b with myAddr := bindAddr } rfl
  have hne : (learnedAddr bindAddr { b with myAddr := bindAddr }).myAddr.getPort ≠ 0 := by
    rwa [hgetPort]
  unfold finishBind
  simp only [if_pos hgiven, hne, if_false]
  exact hgetPort

/-- The port of the address is that of the last processor. -/
def ListensOnPort (b : Binder Ip) : Prop :=
  b.didBind = true → b.listening ≠ [] →
    ∃ addr, b.listening.getLast? = some addr ∧ addr.getPort = b.myAddr.getPort

theorem ListensOnPort.finish {bindAddr : EntityAddr Ip} {b' : Binder Ip} {r : ℤ}
    (h : b.ListensOnPort)
    (hfinish : b.finish bindAddr
      (bindProcessors conf listen avoidPorts bindAddr 0 conf.processors) = .returned r b') :
    b'.ListensOnPort := by
  unfold Binder.finish at hfinish
  split at hfinish
  · cases hfinish
  · obtain ⟨-, rfl⟩ := BindOutcome.returned.inj hfinish
    exact h
  · rename_i addrs hprocessors
    obtain ⟨-, rfl⟩ := BindOutcome.returned.inj hfinish
    intro _ hne
    obtain ⟨addr, hlast⟩ := Option.ne_none_iff_exists'.mp (mt List.getLast?_eq_none_iff.mp hne)
    refine ⟨addr, hlast, ?_⟩
    show addr.getPort = (b.finishBind bindAddr (addrs.getLast?.getD default)).myAddr.getPort
    rw [hlast, Option.getD_some]
    by_cases hport : bindAddr.getPort = 0
    · rw [finishBind_myAddr hport]
      rfl
    · obtain ⟨-, hall⟩ := bindProcessors_eq_bound_iff.mp hprocessors
      rw [finishBind_getPort hport]
      exact Processor.getPort_of_bind hport (hall _ addr (List.getLast?_eq_getElem? ▸ hlast))

/-- What is done to the address of a messenger. -/
inductive Action (Ip : Type)
  | bind (listen : ℕ → Listens) (isReady : Bool) (bindAddr : EntityAddr Ip)
  | rebind (listen : ℕ → Listens) (avoidPorts : Finset ℤ)
  | learnedAddr (peerAddrForMe : EntityAddr Ip)

/-- What a call leaves. -/
def outcome : BindOutcome Ip → Option (Binder Ip)
  | .returned _ b => some b
  | .aborted => none

/-- `set_port` aborts without a family. -/
def step (conf : BindConfig) (b : Binder Ip) : Action Ip → Option (Binder Ip)
  | .bind listen isReady bindAddr => outcome (b.bind conf listen isReady bindAddr)
  | .rebind listen avoidPorts => outcome (b.rebind conf listen avoidPorts)
  | .learnedAddr peerAddrForMe =>
      if peerAddrForMe.family = .unspec then none else some (b.learnedAddr peerAddrForMe)

/-- A new messenger, which is not bound yet. -/
def machine (Ip : Type) [Inhabited Ip] [DecidableEq Ip] (conf : BindConfig) :
    Machine (Binder Ip) (Action Ip) where
  start b := b.didBind = false
  step := step conf

omit [Inhabited Ip] [DecidableEq Ip] in
theorem outcome_eq_some {out : BindOutcome Ip} {b' : Binder Ip} (h : outcome out = some b') :
    ∃ r, out = .returned r b' := by
  cases out with
  | returned r b => exact ⟨r, congrArg _ (Option.some.inj h)⟩
  | aborted => cases h

/-- The step lemma. -/
theorem ListensOnPort.step {b' : Binder Ip} {a : Action Ip} (h : b.ListensOnPort)
    (hstep : b.step conf a = some b') : b'.ListensOnPort := by
  cases a with
  | bind listen isReady bindAddr =>
      obtain ⟨r, hreturned⟩ := outcome_eq_some hstep
      unfold Binder.bind at hreturned
      split at hreturned
      · obtain ⟨-, rfl⟩ := BindOutcome.returned.inj hreturned
        exact h
      · split at hreturned
        · obtain ⟨-, rfl⟩ := BindOutcome.returned.inj hreturned
          exact h
        · exact h.finish hreturned
  | rebind listen avoidPorts =>
      obtain ⟨r, hreturned⟩ := outcome_eq_some hstep
      unfold Binder.rebind at hreturned
      split at hreturned
      · cases hreturned
      · have hclosed : ListensOnPort
            ({ b with nonce := b.nonce + 1000000, listening := [] } : Binder Ip) :=
          fun _ hne => absurd rfl hne
        exact hclosed.finish hreturned
  | learnedAddr peerAddrForMe =>
      obtain ⟨hfamily, hnext⟩ := Option.ite_none_left_eq_some.mp hstep
      obtain rfl := Option.some.inj hnext
      unfold Binder.learnedAddr
      split
      · intro hbound hne
        obtain ⟨addr, hlast, hport⟩ := h hbound hne
        exact ⟨addr, hlast, hport.trans (getPort_setPort_getPort hfamily _).symm⟩
      · exact h

/-- In every run a messenger that is bound and listens has the port of its last processor. -/
theorem listensOnPort_of_reached (hreached : (machine Ip conf).Reached b) : b.ListensOnPort :=
  hreached.invariant ListensOnPort
    (fun b (h : b.didBind = false) hbound => absurd (h.symm.trans hbound) Bool.noConfusion)
    fun _ _ _ h _ hstep => h.step hstep

/-! ## Another port -/

/-- A messenger that listens, in the range, on a port that is not to be avoided and not the old
one. -/
structure Moved (conf : BindConfig) (avoidPorts : Finset ℤ) (b b' : Binder Ip) : Prop where
  listens : ∃ addr ∈ b'.listening, addr.getPort = b'.myAddr.getPort
  min_le : conf.msBindPortMin ≤ b'.myAddr.getPort
  le_max : b'.myAddr.getPort ≤ conf.msBindPortMax
  not_avoided : b'.myAddr.getPort ∉ avoidPorts
  moved : b'.myAddr.getPort ≠ b.myAddr.getPort

/-- A number that is such a port, once it is cut to 16 bits. -/
def Suits (conf : BindConfig) (avoidPorts : Finset ℤ) (b : Binder Ip) (port : ℤ) : Prop :=
  (conf.msBindPortMin ≤ port % 2 ^ 16 ∧ port % 2 ^ 16 ≤ conf.msBindPortMax) ∧
    port % 2 ^ 16 ∉ avoidPorts ∧ port % 2 ^ 16 ≠ b.myAddr.getPort

/-- Unless a processor finds no port, the one that `listen` makes the first free one of the last
processor suits. -/
def Leaves (conf : BindConfig) (listen : ℕ → Listens) (avoidPorts : Finset ℤ) (b : Binder Ip) :
    Prop :=
  (∀ i < conf.processors,
    ∃ round port, Processor.FirstAt conf avoidPorts (listen i) round port) →
  ∀ round port, Processor.FirstAt conf avoidPorts (listen (conf.processors - 1)) round port →
    Suits conf avoidPorts b port

omit [Inhabited Ip] [DecidableEq Ip] in
/-- The port of an address that a processor listens on. -/
theorem getPort_listenAddr (conf : BindConfig) (bindAddr : EntityAddr Ip) (port : ℤ)
    (nonce : UInt32) :
    ({ (Processor.listenAddr conf bindAddr).setPort port with nonce := nonce } :
      EntityAddr Ip).getPort = port % 2 ^ 16 := by
  have hfamily : (Processor.listenAddr conf bindAddr).family ≠ .unspec := by
    unfold Processor.listenAddr
    dsimp only
    split
    · split <;> decide
    · rename_i h
      exact h
  exact (if_neg hfamily).trans (toNat_toPort port)

/-- `rebind` returns zero if every processor finds a port. -/
theorem exists_rebind (hbound : b.didBind = true)
    (hall : ∀ i < conf.processors,
      ∃ round port, Processor.FirstAt conf avoidPorts (listen i) round port) :
    ∃ b', b.rebind conf listen avoidPorts = .returned 0 b' := by
  have hfinds : ∀ i, ∃ addr, i < conf.processors →
      Processor.bind conf avoidPorts (listen i) (b.myAddr.setPort 0) = .ok addr := by
    intro i
    by_cases hi : i < conf.processors
    · obtain ⟨round, port, hfirst⟩ := hall i hi
      refine ⟨_, fun _ => (Processor.bind_eq_ok_iff rfl).mpr
        ⟨port, Processor.firstFree_eq_some_iff.mpr ⟨round, hfirst⟩, rfl⟩⟩
    · exact ⟨default, fun h => absurd h hi⟩
  choose addrs haddrs using hfinds
  have hprocessors : bindProcessors conf listen avoidPorts (b.myAddr.setPort 0) 0 conf.processors =
      .bound ((List.range conf.processors).map addrs) := by
    apply bindProcessors_eq_bound_iff.mpr
    refine ⟨by simp, fun j addr hget => ?_⟩
    obtain ⟨hlt, heq⟩ := List.getElem?_eq_some_iff.mp hget
    rw [List.length_map, List.length_range] at hlt
    rw [List.getElem_map, List.getElem_range] at heq
    rw [Nat.zero_add, ← heq]
    exact haddrs j hlt
  unfold rebind finish
  rw [if_neg (not_not.mpr hbound)]
  dsimp only
  rw [hprocessors]
  exact ⟨_, rfl⟩

/-- What `rebind` leaves if it returns zero: the port is that of the last processor. -/
theorem rebind_spec {b' : Binder Ip} (h : b.rebind conf listen avoidPorts = .returned 0 b') :
    (∀ i < conf.processors,
      ∃ round port, Processor.FirstAt conf avoidPorts (listen i) round port) ∧
    ∃ round port, Processor.FirstAt conf avoidPorts (listen (conf.processors - 1)) round port ∧
      b'.myAddr.getPort = port % 2 ^ 16 ∧
      ∃ addr ∈ b'.listening, addr.getPort = b'.myAddr.getPort := by
  unfold rebind finish at h
  split at h
  · cases h
  · dsimp only at h
    split at h
    · cases h
    · rename_i r hfailed
      obtain ⟨rfl, -⟩ := BindOutcome.returned.inj h
      exact absurd (bindProcessors_eq_failed hfailed) (lt_irrefl 0)
    · rename_i addrs hprocessors
      obtain ⟨-, rfl⟩ := BindOutcome.returned.inj h
      obtain ⟨hlength, hall⟩ := bindProcessors_eq_bound_iff.mp hprocessors
      have hfinds (i : ℕ) (hi : i < conf.processors) :
          ∃ round port, Processor.FirstAt conf avoidPorts (listen i) round port ∧
            addrs[i]? = some ((Processor.listenAddr conf (b.myAddr.setPort 0)).setPort port) := by
        have hget := List.getElem?_eq_getElem (hlength.symm ▸ hi : i < addrs.length)
        have hbind := hall i _ hget
        rw [Nat.zero_add] at hbind
        obtain ⟨port, hfree, haddr⟩ := (Processor.bind_eq_ok_iff rfl).mp hbind
        obtain ⟨round, hfirst⟩ := Processor.firstFree_eq_some_iff.mp hfree
        exact ⟨round, port, hfirst, hget.trans (congrArg some haddr)⟩
      refine ⟨fun i hi => ?_, ?_⟩
      · obtain ⟨round, port, hfirst, -⟩ := hfinds i hi
        exact ⟨round, port, hfirst⟩
      · obtain ⟨round, port, hfirst, hget⟩ :=
          hfinds (conf.processors - 1) (Nat.sub_one_lt conf.processors_pos.ne')
        have hlast : addrs.getLast? =
            some ((Processor.listenAddr conf (b.myAddr.setPort 0)).setPort port) := by
          rw [List.getLast?_eq_getElem?, hlength]
          exact hget
        have hport : ∀ nonce, ({ (Processor.listenAddr conf (b.myAddr.setPort 0)).setPort port with
            nonce := nonce } : EntityAddr Ip).getPort = port % 2 ^ 16 :=
          getPort_listenAddr conf (b.myAddr.setPort 0) port
        have hzero : (b.myAddr.setPort 0).getPort = 0 := by
          simp [EntityAddr.getPort, EntityAddr.setPort, toPort]
        refine ⟨round, port, hfirst, ?_, ⟨_, List.mem_of_getElem? hget, ?_⟩⟩
        · rw [finishBind_myAddr hzero, hlast]
          exact hport _
        · rw [finishBind_myAddr hzero, hlast]
          exact (hport _).trans (hport _).symm

/-- **A new port.**  Whenever `rebind` returns zero the messenger has moved to another port, exactly
if what `listen` returns leaves it one. -/
theorem moved_iff_leaves (hbound : b.didBind = true) :
    (∀ b', b.rebind conf listen avoidPorts = .returned 0 b' → Moved conf avoidPorts b b') ↔
      Leaves conf listen avoidPorts b := by
  constructor
  · intro hmoved hall round port hfirst
    obtain ⟨b', hreturned⟩ := exists_rebind hbound hall
    obtain ⟨-, round', port', hfirst', hport, -⟩ := rebind_spec hreturned
    -- the search finds one port only
    have hfree := Processor.firstFree_eq_some_iff.mpr ⟨round, hfirst⟩
    have hfree' := Processor.firstFree_eq_some_iff.mpr ⟨round', hfirst'⟩
    obtain rfl : port' = port := Option.some.inj (hfree'.symm.trans hfree)
    have h := hmoved b' hreturned
    rw [Suits, ← hport]
    exact ⟨⟨h.min_le, h.le_max⟩, h.not_avoided, h.moved⟩
  · intro hleaves b' hreturned
    obtain ⟨hall, round, port, hfirst, hport, hlistens⟩ := rebind_spec hreturned
    obtain ⟨⟨hmin, hmax⟩, havoided, hnew⟩ := hleaves hall round port hfirst
    rw [← hport] at hmin hmax havoided hnew
    exact ⟨hlistens, hmin, hmax, havoided, hnew⟩

/-- One processor, and a range of four ports. -/
def fourPorts : BindConfig := ⟨false, 3, 6800, 6803, 1, by decide⟩

/-- A messenger that is bound to the first of them. -/
def boundToFirst : Binder ℕ :=
  ⟨⟨true, .inet, 1, 6800, 7⟩, 7, false, true, true, none, [⟨true, .inet, 1, 6800, 0⟩]⟩

/-- `listen` while the old port is in use. -/
def firstInUse : Listens := fun _ port => if port = 6800 then ⟨-98, by decide⟩ else ⟨0, by decide⟩

/-- The old port is still in use, and the messenger gets the next one. -/
theorem moved_iff_leaves_inUse :
    ∃ b', boundToFirst.rebind fourPorts (fun _ => firstInUse) ∅ = .returned 0 b' ∧
      b'.myAddr.getPort = 6801 ∧ Moved fourPorts ∅ boundToFirst b' := by
  have hleaves : Leaves fourPorts (fun _ => firstInUse) ∅ boundToFirst := by
    intro _ round port hfirst
    have hne : port ≠ 6800 := by
      rintro rfl
      exact absurd (show (-98 : ℤ) = 0 from hfirst.listens) (by decide)
    have hmin : 6800 ≤ port := hfirst.min_le
    have hmax : port ≤ 6803 := hfirst.le_max
    have hport : port % 2 ^ 16 = port := by omega
    rw [Suits, hport]
    exact ⟨⟨hmin, hmax⟩, Finset.notMem_empty port, hne⟩
  exact ⟨_, rfl, rfl, (moved_iff_leaves rfl).mpr hleaves _ rfl⟩

/-- The old port is free again, and the messenger gets it back. -/
theorem not_moved_free :
    ∃ b', boundToFirst.rebind fourPorts (fun _ _ _ => ⟨0, by decide⟩) ∅ = .returned 0 b' ∧
      b'.myAddr.getPort = 6800 ∧ ¬ Moved fourPorts ∅ boundToFirst b' := by
  refine ⟨_, rfl, rfl, ?_⟩
  intro hmoved
  exact hmoved.moved rfl

end Binder

end HwAsync.Messenger
