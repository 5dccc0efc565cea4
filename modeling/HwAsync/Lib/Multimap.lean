/-
# Ordered multimaps and their iterators

An ordered multimap has its entries in the order of their keys, an entry that is inserted going
behind those of the same key.  An iterator names an entry for as long as this is in the map,
whatever happens to the others, and erasing by an iterator that names none is undefined.
-/

import Mathlib.Data.List.Sort
import Mathlib.Tactic.Common

namespace HwAsync.Lib

universe uk ua

/-- An entry, and the iterator that names it. -/
structure MultimapNode (κ : Type uk) (α : Type ua) where
  it : ℕ
  key : κ
  value : α

/-- The entries, in order. -/
structure Multimap (κ : Type uk) (α : Type ua) [LinearOrder κ] where
  nodes : List (MultimapNode κ α)
  sorted : nodes.Pairwise fun a b => a.key ≤ b.key
  nodup : (nodes.map MultimapNode.it).Nodup

namespace Multimap

variable {κ : Type uk} {α : Type ua} [LinearOrder κ]

/-- No entries. -/
def empty : Multimap κ α := ⟨[], .nil, .nil⟩

/-- The iterators that name an entry. -/
def its (m : Multimap κ α) : List ℕ := m.nodes.map MultimapNode.it

/-- Inserting into a list: behind the entries of the same key. -/
def insertNode (n : MultimapNode κ α) (l : List (MultimapNode κ α)) : List (MultimapNode κ α) :=
  l.orderedInsert (fun a b => a.key < b.key) n

theorem mem_insertNode {n x : MultimapNode κ α} {l : List (MultimapNode κ α)} :
    x ∈ insertNode n l ↔ x = n ∨ x ∈ l := List.mem_orderedInsert _

theorem perm_insertNode (n : MultimapNode κ α) (l : List (MultimapNode κ α)) :
    (insertNode n l).Perm (n :: l) := List.perm_orderedInsert _ n l

theorem sorted_insertNode (n : MultimapNode κ α) {l : List (MultimapNode κ α)}
    (hsorted : l.Pairwise fun a b => a.key ≤ b.key) :
    (insertNode n l).Pairwise fun a b => a.key ≤ b.key := by
  induction hsorted with
  | nil => exact List.pairwise_singleton _ n
  | cons hfirst hrest ih =>
      rename_i b rest
      unfold insertNode at ih ⊢
      rw [List.orderedInsert_cons]
      split
      · rename_i hlt
        refine .cons (fun x hx => ?_) (.cons hfirst hrest)
        cases hx with
        | head => exact hlt.le
        | tail _ hx => exact hlt.le.trans (hfirst x hx)
      · rename_i hle
        refine .cons (fun x hx => ?_) ih
        cases mem_insertNode.mp hx with
        | inl hnew => exact hnew ▸ not_lt.mp hle
        | inr hold => exact hfirst x hold

/-- `insert`, with the iterator that the new entry gets. -/
def insert (n : MultimapNode κ α) (m : Multimap κ α) (hfresh : n.it ∉ m.its) :
    Multimap κ α where
  nodes := insertNode n m.nodes
  sorted := sorted_insertNode n m.sorted
  nodup := by
    rw [((perm_insertNode n m.nodes).map MultimapNode.it).nodup_iff, List.map_cons]
    exact List.nodup_cons.mpr ⟨hfresh, m.nodup⟩

/-- The entries without one. -/
def without (i : ℕ) (m : Multimap κ α) : Multimap κ α where
  nodes := m.nodes.filter fun n => n.it ≠ i
  sorted := m.sorted.sublist List.filter_sublist
  nodup := m.nodup.sublist (List.filter_sublist.map _)

/-- `erase` by an iterator; `none` where it is undefined. -/
def erase (i : ℕ) (m : Multimap κ α) : Option (Multimap κ α) :=
  if i ∈ m.its then some (m.without i) else none

/-- What `begin` points to. -/
def first (m : Multimap κ α) : Option (MultimapNode κ α) := m.nodes.head?

variable {m m' : Multimap κ α} {n x : MultimapNode κ α}

theorem mem_insert (hfresh : n.it ∉ m.its) :
    x ∈ (m.insert n hfresh).nodes ↔ x = n ∨ x ∈ m.nodes := mem_insertNode

/-- Two entries have two iterators. -/
theorem eq_of_it_eq (hn : n ∈ m.nodes) (hx : x ∈ m.nodes) (hit : n.it = x.it) : n = x :=
  List.inj_on_of_nodup_map m.nodup hn hx hit

theorem it_mem (hn : n ∈ m.nodes) : n.it ∈ m.its := List.mem_map_of_mem hn

theorem mem_without {i : ℕ} : x ∈ (m.without i).nodes ↔ x ∈ m.nodes ∧ x.it ≠ i := by
  show x ∈ m.nodes.filter _ ↔ _
  rw [List.mem_filter, decide_eq_true_eq]

/-- Erasing an entry leaves the others. -/
theorem erase_of_mem (hn : n ∈ m.nodes) : m.erase n.it = some (m.without n.it) :=
  if_pos (it_mem hn)

theorem mem_of_first (hfirst : m.first = some n) : n ∈ m.nodes := List.mem_of_head? hfirst

/-- Nothing comes before the first entry. -/
theorem first_le (hfirst : m.first = some n) (hx : x ∈ m.nodes) : n.key ≤ x.key := by
  obtain ⟨rest, hnodes⟩ := List.head?_eq_some_iff.mp hfirst
  have hsorted := m.sorted
  rw [hnodes] at hx hsorted
  cases hx with
  | head => exact le_rfl
  | tail _ hx => exact (List.pairwise_cons.mp hsorted).1 x hx

theorem first_eq_none : m.first = none ↔ m.nodes = [] := List.head?_eq_none_iff

/-- Without its first entry a list is its tail. -/
theorem nodes_without_first (hfirst : m.first = some n) :
    m.nodes = n :: (m.without n.it).nodes := by
  obtain ⟨rest, hnodes⟩ := List.head?_eq_some_iff.mp hfirst
  have hnodup := m.nodup
  show m.nodes = n :: m.nodes.filter _
  rw [hnodes] at hnodup ⊢
  rw [List.map_cons, List.nodup_cons] at hnodup
  have hkeep : ∀ x ∈ rest, decide (x.it ≠ n.it) = true := by
    intro x hx
    exact decide_eq_true fun hit => hnodup.1 (hit ▸ List.mem_map_of_mem hx)
  rw [List.filter_cons_of_neg (by simp), List.filter_eq_self.mpr hkeep]

end Multimap

end HwAsync.Lib
