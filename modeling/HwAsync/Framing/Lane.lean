/-
# One direction of a socket

What one end has queued and what the other has read are put together here: the bytes that were
written and not sent yet, and the reading end with what is under way to it.  Whatever the socket
takes and returns at a time, what was read and what is left of it are what was said.

Where the reader knows the length of what comes next, it reads it piece by piece as it was written.
-/

import HwAsync.Framing.ReadUntil

namespace HwAsync.Framing

/-- What the writer still has in `outcoming_bl`, and the reading end; `heard` is what the reads
that are complete returned. -/
structure Lane where
  outgoing : Bytes
  inbound : Inbound
  heard : Bytes

namespace Lane

/-- Nothing was written yet. -/
def fresh : Lane := ⟨[], ⟨[], 0, [], [], []⟩, []⟩

/-- `_try_send`, if the socket takes `k` bytes. -/
def send (k : ℕ) (l : Lane) : Lane :=
  { l with
    outgoing := l.outgoing.drop k
    inbound := { l.inbound with socket := l.inbound.socket ++ l.outgoing.take k } }

/-- `try_send`. -/
def trySend (bl : Bytes) (k : ℕ) (l : Lane) : Lane :=
  ({ l with outgoing := l.outgoing ++ bl }).send k

/-- `outcoming_bl.clear()`. -/
def clear (l : Lane) : Lane := { l with outgoing := [] }

/-- `read_until`, with what the reads of the socket return. -/
def readUntil (prefetch len : ℕ) (answers : List ℕ) (l : Lane) : Option Bytes × Lane :=
  let r := ({ l.inbound with answers := answers }).readUntil prefetch len
  (r.1, { l with inbound := r.2, heard := l.heard ++ r.1.getD [] })

/-- Nothing is under way that was not read to the destination. -/
def Idle (l : Lane) : Prop := l.outgoing = [] ∧ l.inbound.unread = []

/-- The lane carries what was said, in order and without loss. -/
structure Carries (said : Bytes) (l : Lane) : Prop where
  ready : l.inbound.Ready
  conserved : l.heard ++ (l.inbound.dest ++ (l.inbound.unread ++ l.outgoing)) = said

variable {said bl p : Bytes} {k prefetch len : ℕ} {answers : List ℕ} {l l' : Lane}

@[simp] theorem send_heard : (l.send k).heard = l.heard := rfl
@[simp] theorem send_dest : (l.send k).inbound.dest = l.inbound.dest := rfl
@[simp] theorem trySend_heard : (l.trySend bl k).heard = l.heard := rfl
@[simp] theorem trySend_dest : (l.trySend bl k).inbound.dest = l.inbound.dest := rfl

theorem carries_fresh : fresh.Carries [] := ⟨⟨rfl, fun h => absurd rfl h⟩, rfl⟩

theorem Carries.send (h : l.Carries said) : (l.send k).Carries said where
  ready := ⟨h.ready.stateOffset, h.ready.recvBuf⟩
  conserved := by
    rw [← h.conserved]
    simp [Lane.send, Inbound.unread]

theorem Carries.trySend (h : l.Carries said) : (l.trySend bl k).Carries (said ++ bl) := by
  apply Carries.send
  exact ⟨⟨h.ready.stateOffset, h.ready.recvBuf⟩, by
    rw [← h.conserved]
    simp [Inbound.unread]⟩

/-- A read that is not complete. -/
theorem Carries.again (h : l.Carries said) (hshort : l.inbound.dest.length < len)
    (hlen : len < 2 ^ 32) (hprefetch : prefetch < 2 ^ 31)
    (hread : l.readUntil prefetch len answers = (none, l')) :
    l'.Carries said ∧ l'.heard = l.heard ∧ l'.inbound.dest.length < len := by
  have hspec := @Inbound.readUntil_spec prefetch len { l.inbound with answers := answers }
    ⟨h.ready.stateOffset, h.ready.recvBuf⟩ hshort hlen hprefetch
  simp only [readUntil, Prod.mk.injEq] at hread
  obtain ⟨hnone, rfl⟩ := hread
  generalize Inbound.readUntil prefetch len { l.inbound with answers := answers } = r at hspec hnone
  cases hspec with
  | complete => cases hnone
  | again hready hconserved hshort' =>
      refine ⟨⟨hready, ?_⟩, List.append_nil _, hshort'⟩
      rw [← h.conserved, ← List.append_assoc _ _ l.outgoing]
      simp only [Option.getD_none, List.append_nil]
      rw [hconserved, List.append_assoc]
      rfl

/-- A read that is complete. -/
theorem Carries.complete (h : l.Carries said) (hshort : l.inbound.dest.length < len)
    (hlen : len < 2 ^ 32) (hprefetch : prefetch < 2 ^ 31)
    (hread : l.readUntil prefetch len answers = (some p, l')) :
    l'.Carries said ∧ l'.heard = l.heard ++ p ∧ p.length = len ∧ l'.inbound.dest = [] := by
  have hspec := @Inbound.readUntil_spec prefetch len { l.inbound with answers := answers }
    ⟨h.ready.stateOffset, h.ready.recvBuf⟩ hshort hlen hprefetch
  simp only [readUntil, Prod.mk.injEq] at hread
  obtain ⟨hsome, rfl⟩ := hread
  generalize Inbound.readUntil prefetch len { l.inbound with answers := answers } = r at hspec hsome
  cases hspec with
  | again => cases hsome
  | @complete _ io' hlength hconserved hdest hoffset =>
      cases hsome
      refine ⟨⟨⟨by rw [hoffset, hdest]; rfl, fun hne => absurd hdest hne⟩, ?_⟩, rfl, hlength, hdest⟩
      have hread : p ++ io'.unread = l.inbound.dest ++ l.inbound.unread := hconserved
      simp only [hdest, List.nil_append, Option.getD_some, ← h.conserved]
      rw [List.append_assoc, ← List.append_assoc p, hread, List.append_assoc]

/-- A reader that has heard nothing yet has everything at its destination. -/
theorem Carries.dest_of_idle (h : l.Carries said) (hidle : l.Idle)
    (hheard : l.heard = []) : l.inbound.dest = said := by
  have hconserved := h.conserved
  rw [hheard, hidle.1, hidle.2] at hconserved
  simpa using hconserved

/-- The reader has these pieces in front of it, none of them empty, and the first of them is not
complete. -/
structure Holds (pieces : List Bytes) (l : Lane) : Prop where
  carries : l.Carries (l.heard ++ pieces.flatten)
  nonempty : ∀ c ∈ pieces, c ≠ []
  short : ∀ c ∈ pieces.head?, l.inbound.dest.length < c.length

section Holds

variable {pieces new : List Bytes} {c : Bytes} {r : Option Bytes}

theorem holds_fresh : fresh.Holds [] := ⟨carries_fresh, nofun, nofun⟩

theorem Holds.send (h : l.Holds pieces) : (l.send k).Holds pieces :=
  ⟨h.carries.send, h.nonempty, h.short⟩

/-- Nothing is in front of the reader, and nothing is left at its destination. -/
theorem Holds.dest_of_nil (h : l.Holds []) : l.inbound.dest = [] := by
  have hconserved := h.carries.conserved
  rw [List.flatten_nil] at hconserved
  exact (List.append_eq_nil_iff.mp (List.append_cancel_left hconserved)).1

/-- And nothing is to be cleared. -/
theorem Holds.clear (h : l.Holds []) : l.clear.Holds [] := by
  have hconserved := h.carries.conserved
  rw [List.flatten_nil] at hconserved
  have hrest := (List.append_eq_nil_iff.mp (List.append_cancel_left hconserved)).2
  have hnone : l.clear = l := by
    rw [Lane.clear, ← (List.append_eq_nil_iff.mp hrest).2]
  rw [hnone]
  exact h

/-- More pieces are written. -/
theorem Holds.trySend (h : l.Holds pieces) (hnew : ∀ c ∈ new, c ≠ []) :
    (l.trySend new.flatten k).Holds (pieces ++ new) := by
  refine ⟨?_, fun c hc => (List.mem_append.mp hc).elim (h.nonempty c) (hnew c), fun c hc => ?_⟩
  · rw [List.flatten_append, ← List.append_assoc]
    exact h.carries.trySend
  · cases pieces with
    | nil =>
        rw [trySend_dest, h.dest_of_nil]
        exact List.length_pos_of_ne_nil (hnew c (List.mem_of_mem_head? hc))
    | cons a rest => exact h.short c hc

/-- Reading the piece in front. -/
theorem Holds.read_cons (h : l.Holds (c :: pieces)) (hlen : c.length < 2 ^ 32)
    (hprefetch : prefetch < 2 ^ 31) (hread : l.readUntil prefetch c.length answers = (r, l')) :
    r = none ∧ l'.Holds (c :: pieces) ∨ r = some c ∧ l'.Holds pieces := by
  have hshort := h.short c rfl
  cases r with
  | none =>
      obtain ⟨hcarries, hheard, hshort'⟩ := h.carries.again hshort hlen hprefetch hread
      refine .inl ⟨rfl, hheard ▸ hcarries, h.nonempty, fun d hd => ?_⟩
      cases hd
      exact hshort'
  | some p =>
      obtain ⟨hcarries, hheard, hlength, hdest⟩ := h.carries.complete hshort hlen hprefetch hread
      have hconserved := hcarries.conserved
      rw [hheard, List.append_assoc, List.flatten_cons] at hconserved
      obtain ⟨rfl, -⟩ := List.append_inj (List.append_cancel_left hconserved) hlength
      refine .inr ⟨rfl, ?_, fun d hd => h.nonempty d (List.mem_cons_of_mem _ hd), fun d hd => ?_⟩
      · rw [hheard, List.append_assoc, ← List.flatten_cons]
        exact hcarries
      · rw [hdest]
        exact List.length_pos_of_ne_nil
          (h.nonempty d (List.mem_cons_of_mem _ (List.mem_of_mem_head? hd)))

/-- Reading where nothing was written. -/
theorem Holds.read_nil (h : l.Holds []) (hpos : 0 < len) (hlen : len < 2 ^ 32)
    (hprefetch : prefetch < 2 ^ 31) (hread : l.readUntil prefetch len answers = (r, l')) :
    r = none ∧ l'.Holds [] := by
  have hshort : l.inbound.dest.length < len := by
    rw [h.dest_of_nil]
    exact hpos
  cases r with
  | none =>
      obtain ⟨hcarries, hheard, -⟩ := h.carries.again hshort hlen hprefetch hread
      exact ⟨rfl, hheard ▸ hcarries, nofun, nofun⟩
  | some p =>
      obtain ⟨hcarries, hheard, hlength, -⟩ := h.carries.complete hshort hlen hprefetch hread
      have hconserved := hcarries.conserved
      rw [hheard, List.append_assoc, List.flatten_nil] at hconserved
      obtain ⟨rfl, -⟩ := List.append_eq_nil_iff.mp (List.append_cancel_left hconserved)
      rw [← hlength] at hpos
      exact absurd hpos (lt_irrefl 0)

/-- A piece that is in front of the reader is under way. -/
theorem Holds.eq_nil_of_idle (h : l.Holds pieces) (hidle : l.Idle) : pieces = [] := by
  cases pieces with
  | nil => rfl
  | cons c rest =>
      have hshort := h.short c rfl
      have hconserved := h.carries.conserved
      rw [hidle.1, hidle.2, List.append_nil, List.append_nil] at hconserved
      rw [List.append_cancel_left hconserved, List.flatten_cons, List.length_append] at hshort
      omega

end Holds

end Lane

end HwAsync.Framing
