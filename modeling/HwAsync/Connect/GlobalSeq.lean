/-
# The global sequence

`get_global_seq` raises the counter of the messenger to a number that a peer has sent, and returns
the next one.  A connector that is told to retry with a larger `global_seq` draws its number there,
and the acceptor does not refuse it again as long as the number is above the one that it sent.

The counter has 32 bits, and the peer may send any number.  A draw that finds one of the two at its
end returns zero, and so begins again below all that was drawn.
-/

import HwAsync.Connect.Accept
import HwAsync.Connect.Reply
import Mathlib.Algebra.Group.Nat.Defs
import Mathlib.Data.UInt

namespace HwAsync.Connect

open HwAsync.Lib

variable {Addr : Type}

/-- The counter of a messenger, with the calls of `get_global_seq` so far: `old` and what it
returned. -/
structure Counter where
  globalSeq : UInt32
  draws : List (UInt32 × UInt32)
  deriving DecidableEq, Repr

namespace Counter

/-- A call of `get_global_seq`. -/
def draw (old : UInt32) (c : Counter) : Counter where
  globalSeq := getGlobalSeq c.globalSeq old
  draws := c.draws ++ [(old, getGlobalSeq c.globalSeq old)]

/-- Any calls, from the counter of a new messenger. -/
def machine : Machine Counter UInt32 where
  start c := c = ⟨0, []⟩
  step c old := some (c.draw old)

/-- Every number is above the `old` of its call and above all that were returned before. -/
structure Increasing (c : Counter) : Prop where
  above : ∀ d ∈ c.draws, d.1 < d.2
  later : (c.draws.map Prod.snd).Pairwise (· < ·)

/-- A connector that gets `RETRY_GLOBAL` with this number goes on to send a connect message with a
larger one, which is not refused for its `global_seq` by the connection that has the number: with
`RETRY_GLOBAL` it is answered only by one that is being replaced. -/
def Progresses (Addr : Type) [LinearOrder Addr] (c : Counter) (globalSeq : UInt32) : Prop :=
  ∀ (s : Setup Addr) (conn : Conn Addr) (outSeq : ℕ) (q : Party Addr),
    conn.connectReply.tag = .retryGlobal → conn.connectReply.globalSeq = globalSeq →
    (⟨c.globalSeq, conn⟩ : Party Addr).handleConnectReply s outSeq = .goes q →
      q.globalSeq = (c.draw globalSeq).globalSeq ∧ q.conn.state = .connectingSendConnectMsg ∧
      globalSeq < (q.sendConnectMsg s).conn.connectMsg.globalSeq ∧
      ∀ (t : Setup Addr) (acceptor existing : Conn Addr),
        acceptor.connectMsg = (q.sendConnectMsg s).conn.connectMsg →
        existing.peerGlobalSeq = globalSeq →
          ¬ acceptor.connectMsg.globalSeq < existing.peerGlobalSeq ∧
          (acceptor.verdict t (some existing) = .reply .retryGlobal 0 globalSeq →
            existing.replacing = true)

/-- The next call returns a new number, and one that a connector gets on with. -/
structure Renews (Addr : Type) [LinearOrder Addr] (c : Counter) (old : UInt32) : Prop where
  later : ∀ d ∈ c.draws, d.2 < getGlobalSeq c.globalSeq old
  above : old < getGlobalSeq c.globalSeq old
  progresses : c.Progresses Addr old

/-- Neither the counter nor the number of the peer is at its end. -/
def Unexhausted (c : Counter) (old : UInt32) : Prop :=
  c.globalSeq ≠ 2 ^ 32 - 1 ∧ old ≠ 2 ^ 32 - 1

instance (c : Counter) (old : UInt32) : Decidable (c.Unexhausted old) :=
  inferInstanceAs (Decidable (_ ∧ _))

/-! ## One call -/

variable {c : Counter} {old : UInt32}

theorem toNat_succ_lt {n : UInt32} (h : n ≠ 2 ^ 32 - 1) : n.toNat + 1 < 2 ^ 32 := by
  have hne : n.toNat ≠ 2 ^ 32 - 1 := fun heq => h (UInt32.toNat_inj.mp heq)
  have hlt := n.toNat_lt
  omega

theorem le_last (n : UInt32) : n ≤ 2 ^ 32 - 1 :=
  UInt32.le_iff_toNat_le.mpr (Nat.le_of_lt_succ n.toNat_lt)

/-- A call with one of the two at its end wraps. -/
theorem getGlobalSeq_of_exhausted (h : ¬ c.Unexhausted old) : getGlobalSeq c.globalSeq old = 0 := by
  have hlast : (if c.globalSeq < old then old else c.globalSeq) = 2 ^ 32 - 1 := by
    rcases Classical.not_and_iff_not_or_not.mp h with hcounter | hpeer
    · rw [not_not.mp hcounter, if_neg (UInt32.not_lt.mpr (le_last old))]
    · rw [not_not.mp hpeer]
      split
      · rfl
      · rename_i hge
        exact UInt32.le_antisymm (le_last _) (UInt32.not_lt.mp hge)
  rw [getGlobalSeq, hlast]
  rfl

/-- A call is above `old` exactly if it does not wrap. -/
theorem lt_getGlobalSeq_iff : old < getGlobalSeq c.globalSeq old ↔ c.Unexhausted old := by
  constructor
  · intro hlt
    by_contra hexhausted
    rw [getGlobalSeq_of_exhausted hexhausted] at hlt
    exact absurd hlt UInt32.not_lt_zero
  · intro h
    exact (lt_getGlobalSeq (toNat_succ_lt h.1) (toNat_succ_lt h.2)).2

/-- What `RETRY_GLOBAL` makes of a connection. -/
theorem handleConnectReply_retryGlobal {s : Setup Addr} {conn : Conn Addr} {outSeq : ℕ}
    {q : Party Addr} (htag : conn.connectReply.tag = .retryGlobal)
    (hgoes : (⟨c.globalSeq, conn⟩ : Party Addr).handleConnectReply s outSeq = .goes q) :
    q = ⟨getGlobalSeq c.globalSeq conn.connectReply.globalSeq,
      { conn with
        globalSeq := getGlobalSeq c.globalSeq conn.connectReply.globalSeq
        state := .connectingSendConnectMsg }⟩ := by
  simp only [Party.handleConnectReply, Party.onReplyTag, htag, reduceCtorEq, if_false] at hgoes
  split at hgoes
  · cases hgoes
  · exact (Outcome.goes.inj hgoes).symm

/-- A registered connection that is neither ahead nor being replaced does not send
`RETRY_GLOBAL`. -/
theorem replacing_of_verdict [LinearOrder Addr] {t : Setup Addr} {acceptor existing : Conn Addr}
    {globalSeq : UInt32} (hahead : ¬ acceptor.connectMsg.globalSeq < existing.peerGlobalSeq)
    (hverdict : acceptor.verdict t (some existing) = .reply .retryGlobal 0 globalSeq) :
    existing.replacing = true := by
  by_contra hreplacing
  simp only [Conn.verdict, hreplacing, if_false, hahead] at hverdict
  split_ifs at hverdict <;> cases hverdict

/-- A draw above `old` carries the connector on. -/
theorem progresses_of_lt [LinearOrder Addr] (hlt : old < getGlobalSeq c.globalSeq old) :
    c.Progresses Addr old := by
  rintro s conn outSeq q htag rfl hgoes
  obtain rfl := handleConnectReply_retryGlobal htag hgoes
  refine ⟨rfl, rfl, hlt, ?_⟩
  intro t acceptor existing hconnect hpeer
  have hahead : ¬ acceptor.connectMsg.globalSeq < existing.peerGlobalSeq := by
    rw [hconnect, hpeer]
    exact UInt32.lt_asymm hlt
  exact ⟨hahead, replacing_of_verdict hahead⟩

/-! ## The runs -/

/-- What every run maintains whose calls do not wrap. -/
structure Ordered (c : Counter) : Prop extends c.Increasing where
  bounded : ∀ d ∈ c.draws, d.2 ≤ c.globalSeq

theorem Ordered.later_draw (h : c.Ordered) (hok : c.Unexhausted old) :
    ∀ d ∈ c.draws, d.2 < getGlobalSeq c.globalSeq old := by
  have hlt := (lt_getGlobalSeq (toNat_succ_lt hok.1) (toNat_succ_lt hok.2)).1
  exact fun d hd => UInt32.lt_of_le_of_lt (h.bounded d hd) hlt

/-- The step lemma. -/
theorem Ordered.draw (h : c.Ordered) (hok : c.Unexhausted old) : (c.draw old).Ordered := by
  have hbelow := h.later_draw hok
  refine ⟨⟨?_, ?_⟩, ?_⟩
  · intro d hd
    rcases List.mem_append.mp hd with hmem | hmem
    · exact h.above d hmem
    · rw [List.mem_singleton.mp hmem]
      exact lt_getGlobalSeq_iff.mpr hok
  · rw [Counter.draw, List.map_append, List.pairwise_append]
    refine ⟨h.later, List.pairwise_singleton _ _, ?_⟩
    intro x hx y hy
    obtain ⟨d, hd, rfl⟩ := List.mem_map.mp hx
    rw [List.map_singleton, List.mem_singleton] at hy
    rw [hy]
    exact hbelow d hd
  · intro d hd
    rcases List.mem_append.mp hd with hmem | hmem
    · exact UInt32.le_of_lt (hbelow d hmem)
    · rw [List.mem_singleton.mp hmem]
      exact UInt32.le_refl _

/-- **Fresh numbers.**  In every run whose calls find neither number at its end, each number is
above its `old` and all numbers before it; and the next call returns such a number, with which a
connector gets on, exactly if it finds neither number at its end. -/
theorem increasing_of_unexhausted [LinearOrder Addr]
    (hreached : machine.ReachedUnder Unexhausted c) :
    c.Increasing ∧ ∀ old, c.Renews Addr old ↔ c.Unexhausted old := by
  have hordered : c.Ordered := by
    apply hreached.invariant Ordered
    · rintro c rfl
      exact ⟨⟨nofun, .nil⟩, nofun⟩
    · rintro c old t h hok hstep
      obtain rfl := Option.some.inj hstep
      exact h.draw hok
  refine ⟨hordered.toIncreasing, fun old =>
    ⟨fun h => lt_getGlobalSeq_iff.mp h.above, fun hok => ?_⟩⟩
  have habove := lt_getGlobalSeq_iff.mpr hok
  exact ⟨hordered.later_draw hok, habove, progresses_of_lt habove⟩

/-- Two peers that send large numbers. -/
theorem increasing_of_unexhausted_raised :
    (⟨2 ^ 32 - 2, [(0, 1), (7, 8), (2 ^ 32 - 3, 2 ^ 32 - 2)]⟩ : Counter).Increasing := by
  have hreplay : machine.replay Unexhausted ⟨0, []⟩ [0, 7, 2 ^ 32 - 3] =
      some ⟨2 ^ 32 - 2, [(0, 1), (7, 8), (2 ^ 32 - 3, 2 ^ 32 - 2)]⟩ := rfl
  exact (@increasing_of_unexhausted ℕ _ _ (.of_replay (.start rfl) hreplay)).1

/-- A peer that sends the largest number resets the counter, and the connector is refused again. -/
theorem not_increasing_exhausted :
    ∃ c : Counter, machine.Reached c ∧ c.draws = [(0, 1), (2 ^ 32 - 1, 0)] ∧ ¬ c.Increasing ∧
      ¬ (⟨1, [(0, 1)]⟩ : Counter).Renews ℕ (2 ^ 32 - 1) := by
  have hreplay : machine.replay (fun _ _ => True) ⟨0, []⟩ [0, 2 ^ 32 - 1] =
      some ⟨0, [(0, 1), (2 ^ 32 - 1, 0)]⟩ := rfl
  refine ⟨_, .of_replay (.start rfl) hreplay, rfl, ?_, ?_⟩
  · intro hincreasing
    exact absurd (hincreasing.above (2 ^ 32 - 1, 0) (by simp)) (by decide)
  · intro hrenews
    exact absurd hrenews.above (by decide)

end Counter

end HwAsync.Connect
