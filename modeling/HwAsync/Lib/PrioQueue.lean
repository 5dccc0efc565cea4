/-
# A queue of queues, served from the highest priority

An ordered map from priorities to first-in-first-out lists.  The map holds no
empty list, and it is kept as an association list from the highest priority
down, so its first entry is the one that is served.  Every operation replaces
the list of one priority; the three facts about `put` (what each priority holds
afterwards, and what the whole queue holds) are all a user needs.
-/

import Mathlib.Algebra.Order.Group.Multiset
import Mathlib.Order.Defs.LinearOrder
import Mathlib.Tactic.Common

namespace HwAsync.Lib

universe uk ua

variable {κ : Type uk} {α : Type ua}

/-- The lists of all priorities. -/
structure PrioQueue (κ : Type uk) (α : Type ua) [LinearOrder κ] where
  buckets : List (κ × List α)
  descending : buckets.Pairwise fun b c => c.1 < b.1
  inhabited : ∀ b ∈ buckets, b.2 ≠ []

namespace PrioQueue

/-! ## Association lists -/

section Buckets

/-- An entry, unless its list is empty. -/
def entry (k : κ) : List α → List (κ × List α)
  | [] => []
  | a :: l => [(k, a :: l)]

theorem mem_entry {k : κ} {l : List α} {b : κ × List α} (hb : b ∈ entry k l) :
    b = (k, l) ∧ l ≠ [] := by
  cases l with
  | nil => cases hb
  | cons a l => exact ⟨List.mem_singleton.mp hb, List.cons_ne_nil a l⟩

/-- Everything in all lists. -/
def itemsIn (buckets : List (κ × List α)) : Multiset α := buckets.flatMap (·.2)

@[simp]
theorem itemsIn_cons (b : κ × List α) (rest : List (κ × List α)) :
    itemsIn (b :: rest) = (b.2 : Multiset α) + itemsIn rest := by
  simp [itemsIn]

theorem itemsIn_entry_append (k : κ) (l : List α) (rest : List (κ × List α)) :
    itemsIn (entry k l ++ rest) = (l : Multiset α) + itemsIn rest := by
  cases l with
  | nil => simp [entry]
  | cons a l => simp [entry]

variable [LinearOrder κ]

/-- The list of one priority. -/
def getIn (k : κ) : List (κ × List α) → List α
  | [] => []
  | b :: rest => if b.1 = k then b.2 else getIn k rest

/-- Replace the list of one priority. -/
def putIn (k : κ) (l : List α) : List (κ × List α) → List (κ × List α)
  | [] => entry k l
  | b :: rest =>
      if k < b.1 then b :: putIn k l rest
      else if b.1 = k then entry k l ++ rest
      else entry k l ++ b :: rest

theorem mem_putIn {k : κ} {l : List α} {buckets : List (κ × List α)} {b : κ × List α}
    (hb : b ∈ putIn k l buckets) : b ∈ buckets ∨ b = (k, l) ∧ l ≠ [] := by
  induction buckets with
  | nil => exact .inr (mem_entry hb)
  | cons c rest ih =>
      simp only [putIn] at hb
      split at hb
      · cases hb with
        | head => exact .inl List.mem_cons_self
        | tail _ hmem => exact (ih hmem).imp_left (List.mem_cons_of_mem _)
      · split at hb
        · exact (List.mem_append.mp hb).elim (fun h => .inr (mem_entry h))
            fun h => .inl (List.mem_cons_of_mem _ h)
        · exact (List.mem_append.mp hb).elim (fun h => .inr (mem_entry h)) .inl

theorem pairwise_entry_append {k : κ} {l : List α} {rest : List (κ × List α)}
    (hrest : rest.Pairwise fun b c => c.1 < b.1) (hbelow : ∀ b ∈ rest, b.1 < k) :
    (entry k l ++ rest).Pairwise fun b c => c.1 < b.1 := by
  cases l with
  | nil => exact hrest
  | cons a l => exact .cons hbelow hrest

theorem pairwise_putIn (k : κ) (l : List α) {buckets : List (κ × List α)}
    (h : buckets.Pairwise fun b c => c.1 < b.1) :
    (putIn k l buckets).Pairwise fun b c => c.1 < b.1 := by
  induction h with
  | nil => simpa [putIn] using @pairwise_entry_append κ α _ k l [] .nil (by simp)
  | @cons b rest hb hrest ih =>
      simp only [putIn]
      split
      · rename_i hk
        refine .cons (fun c hc => ?_) ih
        rcases mem_putIn hc with hmem | ⟨rfl, -⟩
        · exact hb c hmem
        · exact hk
      · rename_i hk
        split
        · rename_i heq
          exact pairwise_entry_append hrest fun c hc => heq ▸ hb c hc
        · rename_i hne
          have hlt : b.1 < k := lt_of_le_of_ne (not_lt.mp hk) hne
          apply pairwise_entry_append (.cons hb hrest)
          intro c hc
          cases hc with
          | head => exact hlt
          | tail _ hmem => exact (hb c hmem).trans hlt

theorem getIn_eq_nil {k : κ} {buckets : List (κ × List α)}
    (hne : ∀ b ∈ buckets, b.1 ≠ k) : getIn k buckets = [] := by
  induction buckets with
  | nil => rfl
  | cons b rest ih =>
      rw [getIn, if_neg (hne b List.mem_cons_self)]
      exact ih fun c hc => hne c (List.mem_cons_of_mem _ hc)

theorem getIn_entry_append_self (k : κ) (l : List α) {rest : List (κ × List α)}
    (hne : ∀ b ∈ rest, b.1 ≠ k) : getIn k (entry k l ++ rest) = l := by
  cases l with
  | nil => exact getIn_eq_nil hne
  | cons a l => exact if_pos rfl

theorem getIn_entry_append_of_ne {j k : κ} (hjk : j ≠ k) (l : List α)
    (rest : List (κ × List α)) : getIn j (entry k l ++ rest) = getIn j rest := by
  cases l with
  | nil => rfl
  | cons a l => exact if_neg hjk.symm

theorem getIn_putIn_self (k : κ) (l : List α) {buckets : List (κ × List α)}
    (h : buckets.Pairwise fun b c => c.1 < b.1) : getIn k (putIn k l buckets) = l := by
  induction h with
  | nil => simpa [putIn] using @getIn_entry_append_self κ α _ k l [] (by simp)
  | @cons b rest hb hrest ih =>
      simp only [putIn]
      split
      · rename_i hk
        rw [getIn, if_neg hk.ne', ih]
      · rename_i hk
        split
        · rename_i heq
          exact getIn_entry_append_self k l fun c hc => heq ▸ (hb c hc).ne
        · rename_i hne
          have hlt : b.1 < k := lt_of_le_of_ne (not_lt.mp hk) hne
          apply getIn_entry_append_self k l
          intro c hc
          cases hc with
          | head => exact hne
          | tail _ hmem => exact ((hb c hmem).trans hlt).ne

theorem getIn_putIn_of_ne {j k : κ} (hjk : j ≠ k) (l : List α)
    (buckets : List (κ × List α)) : getIn j (putIn k l buckets) = getIn j buckets := by
  induction buckets with
  | nil => simpa [putIn] using getIn_entry_append_of_ne hjk l []
  | cons b rest ih =>
      simp only [putIn]
      split
      · rw [getIn, getIn, ih]
      · split
        · rename_i heq
          rw [getIn_entry_append_of_ne hjk, getIn, if_neg (heq ▸ hjk.symm)]
        · rw [getIn_entry_append_of_ne hjk]

theorem itemsIn_putIn (k : κ) (l : List α) {buckets : List (κ × List α)}
    (h : buckets.Pairwise fun b c => c.1 < b.1) :
    itemsIn (putIn k l buckets) + getIn k buckets = itemsIn buckets + l := by
  induction h with
  | nil => simpa [putIn, getIn, itemsIn] using itemsIn_entry_append k l []
  | @cons b rest hb hrest ih =>
      simp only [putIn]
      split
      · rename_i hk
        rw [getIn, if_neg hk.ne', itemsIn_cons, itemsIn_cons, add_assoc, ih, add_assoc]
      · rename_i hk
        split
        · rename_i heq
          rw [getIn, if_pos heq, itemsIn_entry_append, itemsIn_cons]
          rw [add_comm (l : Multiset α), add_right_comm, add_comm (itemsIn rest)]
        · rename_i hne
          have hlt : b.1 < k := lt_of_le_of_ne (not_lt.mp hk) hne
          have hnil : getIn k (b :: rest) = [] := by
            apply getIn_eq_nil
            intro c hc
            cases hc with
            | head => exact hne
            | tail _ hmem => exact ((hb c hmem).trans hlt).ne
          rw [hnil, itemsIn_entry_append, Multiset.coe_nil, add_zero, add_comm]

end Buckets

/-! ## The queue -/

variable [LinearOrder κ]

def empty : PrioQueue κ α := ⟨[], .nil, by simp⟩

/-- The list of one priority. -/
def get (q : PrioQueue κ α) (k : κ) : List α := getIn k q.buckets

/-- Replace the list of one priority. -/
def put (q : PrioQueue κ α) (k : κ) (l : List α) : PrioQueue κ α where
  buckets := putIn k l q.buckets
  descending := pairwise_putIn k l q.descending
  inhabited b hb := by
    rcases mem_putIn hb with hmem | ⟨rfl, hl⟩
    · exact q.inhabited b hmem
    · exact hl

/-- Everything queued. -/
def items (q : PrioQueue κ α) : Multiset α := itemsIn q.buckets

/-- Take the first item of the highest priority. -/
def pop (q : PrioQueue κ α) : Option (α × PrioQueue κ α) :=
  match q.buckets with
  | (k, a :: l) :: _ => some (a, q.put k l)
  | _ => none

@[simp]
theorem get_empty (k : κ) : (empty : PrioQueue κ α).get k = [] := rfl

@[simp]
theorem items_empty : (empty : PrioQueue κ α).items = 0 := rfl

@[simp]
theorem get_put_self (q : PrioQueue κ α) (k : κ) (l : List α) : (q.put k l).get k = l :=
  getIn_putIn_self k l q.descending

theorem get_put_of_ne (q : PrioQueue κ α) {j k : κ} (hjk : j ≠ k) (l : List α) :
    (q.put k l).get j = q.get j :=
  getIn_putIn_of_ne hjk l q.buckets

/-- What a replacement adds to the whole is what it adds to the list. -/
theorem items_put (q : PrioQueue κ α) (k : κ) (l : List α) :
    (q.put k l).items + q.get k = q.items + l :=
  itemsIn_putIn k l q.descending

theorem mem_items (q : PrioQueue κ α) {k : κ} {a : α} (ha : a ∈ q.get k) : a ∈ q.items := by
  have h := q.items_put k []
  rw [Multiset.coe_nil, add_zero] at h
  exact h ▸ Multiset.mem_add.mpr (.inr ha)

theorem items_put_append (q : PrioQueue κ α) (k : κ) (l : List α) :
    (q.put k (q.get k ++ l)).items = q.items + l := by
  have h := q.items_put k (q.get k ++ l)
  rw [← Multiset.coe_add, add_comm (q.get k : Multiset α), ← add_assoc] at h
  exact add_right_cancel h

/-- Taking the first item off a list takes it off the whole. -/
theorem items_put_tail (q : PrioQueue κ α) {k : κ} {a : α} {l : List α}
    (hget : q.get k = a :: l) : (q.put k l).items + {a} = q.items := by
  have h := q.items_put k l
  rw [hget, ← Multiset.cons_coe, ← Multiset.singleton_add, ← add_assoc] at h
  exact add_right_cancel h

/-- The item served is the first of a priority above which nothing is queued. -/
theorem pop_eq_some {q q' : PrioQueue κ α} {a : α} (hpop : q.pop = some (a, q')) :
    ∃ k l, q.get k = a :: l ∧ q' = q.put k l ∧ ∀ j, k < j → q.get j = [] := by
  unfold pop at hpop
  split at hpop
  · rename_i k b l rest hbuckets
    simp only [Option.some.injEq, Prod.mk.injEq] at hpop
    obtain ⟨rfl, rfl⟩ := hpop
    have hdescending := hbuckets ▸ q.descending
    refine ⟨k, l, by rw [get, hbuckets, getIn, if_pos rfl], rfl, fun j hj => ?_⟩
    rw [get, hbuckets]
    apply getIn_eq_nil
    intro c hc
    cases hc with
    | head => exact hj.ne
    | tail _ hmem => exact ((List.rel_of_pairwise_cons hdescending hmem).trans hj).ne
  · cases hpop

/-- Nothing is served only where nothing is queued. -/
theorem buckets_of_pop_eq_none {q : PrioQueue κ α} (hpop : q.pop = none) : q.buckets = [] := by
  cases hbuckets : q.buckets with
  | nil => rfl
  | cons b rest =>
      obtain ⟨k, l⟩ := b
      cases l with
      | nil =>
          have hmem : (k, []) ∈ q.buckets := by
            rw [hbuckets]
            exact List.mem_cons_self
          exact absurd rfl (q.inhabited _ hmem)
      | cons a l => simp [pop, hbuckets] at hpop

end PrioQueue

end HwAsync.Lib
