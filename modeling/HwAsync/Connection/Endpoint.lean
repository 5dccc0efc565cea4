/-
# The queues and numbers of one end of a lossless connection

`send_message` puts a message into `out_q` under its priority.  `handle_write`
takes the next message, numbers it with `++out_seq`, and keeps it in `sent` until
the peer acknowledges it.  A fault moves everything in `sent` back to the front of
the highest priority and takes `out_seq` back with it; the numbers stay inside the
requeued messages, and after the next exchange of `in_seq` the ones that the peer
already has are discarded.

The numbers are plain here: the counters have 64 bits, and a session that wraps
one is out of scope.
-/

import HwAsync.Lib.Numbered
import HwAsync.Lib.PrioQueue

namespace HwAsync.Connection

open HwAsync.Lib

/-- `CEPH_MSG_PRIO_HIGHEST`. -/
def msgPrioHighest : ℕ := 255

/-- The priorities a message may have. -/
abbrev Priority := { p : ℕ // p ≤ msgPrioHighest }

/-- The priority under which messages are requeued. -/
def highest : Priority := ⟨msgPrioHighest, le_rfl⟩

/-- A message.  The number in its header is zero until it is first written. -/
structure Message where
  id : ℕ
  seq : ℕ
  deriving DecidableEq, Repr

/-- Where the connection is.  `down` stands for every state between a fault and the
exchange of numbers, `ready` for `STATE_CONNECTING_READY` and
`STATE_ACCEPTING_READY`. -/
inductive State
  | down
  | connectingWaitAckSeq
  | acceptingWaitSeq
  | ready
  | opened
  deriving DecidableEq, Repr

/-- One end.  `accepted` and `dispatched` record the identities that `send_message`
accepted and the messages handed to the dispatcher. -/
structure Endpoint where
  state : State
  outQ : PrioQueue Priority Message
  sent : List Message
  outSeq : ℕ
  inSeq : ℕ
  ackLeft : ℕ
  defaultSendPriority : Priority
  accepted : List ℕ
  dispatched : List Message

namespace Endpoint

/-- `send_message`. -/
def sendMessage (e : Endpoint) (id : ℕ) (priority : Priority) : Endpoint :=
  let p := if priority.1 = 0 then e.defaultSendPriority else priority
  { e with
    outQ := e.outQ.put p (e.outQ.get p ++ [⟨id, 0⟩])
    accepted := e.accepted ++ [id] }

/-- `_get_next_outgoing`, `sent.push_back` and the `set_seq(++out_seq)` of
`write_message`: one round of the loop of `handle_write`. -/
def writeNext (e : Endpoint) : Option (Endpoint × Message) :=
  match e.outQ.pop with
  | none => none
  | some (m, q) =>
      let m' := { m with seq := e.outSeq + 1 }
      some ({ e with outQ := q, sent := e.sent ++ [m'], outSeq := e.outSeq + 1 }, m')

/-- The acknowledgement at the end of `handle_write`. -/
def writeAck (e : Endpoint) : Option (Endpoint × ℕ) :=
  if e.ackLeft = 0 then none else some ({ e with ackLeft := 0 }, e.inSeq)

/-- The check of the number of a received message, and what follows from it. -/
def receive (e : Endpoint) (m : Message) : Endpoint :=
  if m.seq ≤ e.inSeq then e
  else
    { e with
      inSeq := m.seq
      ackLeft := e.ackLeft + 1
      dispatched := e.dispatched ++ [m] }

/-- `handle_ack`. -/
def handleAck (e : Endpoint) (seq : ℕ) : Endpoint :=
  { e with sent := e.sent.dropWhile fun m => m.seq ≤ seq }

/-- The loop of `requeue_sent`: the last of `sent` goes to the front of the queue. -/
def requeueLoop (sent rq : List Message) (outSeq : ℕ) : List Message × ℕ :=
  sent.foldr (fun m r => (m :: r.1, r.2 - 1)) (rq, outSeq)

/-- `requeue_sent`. -/
def requeueSent (e : Endpoint) : Endpoint :=
  if e.sent = [] then e
  else
    let r := requeueLoop e.sent (e.outQ.get highest) e.outSeq
    { e with outQ := e.outQ.put highest r.1, sent := [], outSeq := r.2 }

/-- The loop of `discard_requeued_up_to`. -/
def discardLoop (seq : ℕ) : List Message → ℕ → List Message × ℕ
  | [], outSeq => ([], outSeq)
  | m :: rq, outSeq =>
      if m.seq = 0 ∨ seq < m.seq then (m :: rq, outSeq) else discardLoop seq rq (outSeq + 1)

/-- `discard_requeued_up_to`. -/
def discardRequeuedUpTo (e : Endpoint) (seq : ℕ) : Endpoint :=
  let r := discardLoop seq (e.outQ.get highest) e.outSeq
  { e with outQ := e.outQ.put highest r.1, outSeq := r.2 }

/-- The queues and the state after `fault`. -/
def fault (e : Endpoint) : Endpoint := { e.requeueSent with state := .down }

/-- The two states of an end hold the same messages for sending. -/
structure SameQueues (e e' : Endpoint) : Prop where
  outQ : e'.outQ = e.outQ
  sent : e'.sent = e.sent
  outSeq : e'.outSeq = e.outSeq
  accepted : e'.accepted = e.accepted

/-- The two states of an end have received the same messages. -/
structure SameReceived (e e' : Endpoint) : Prop where
  inSeq : e'.inSeq = e.inSeq
  dispatched : e'.dispatched = e.dispatched

theorem sameReceived_writeNext {e e' : Endpoint} {m : Message}
    (hwrite : e.writeNext = some (e', m)) : e'.state = e.state ∧ SameReceived e e' := by
  unfold writeNext at hwrite
  split at hwrite
  · cases hwrite
  · simp only [Option.some.injEq, Prod.mk.injEq] at hwrite
    obtain ⟨rfl, -⟩ := hwrite
    exact ⟨rfl, rfl, rfl⟩

theorem writeAck_spec {e e' : Endpoint} {n : ℕ} (hwrite : e.writeAck = some (e', n)) :
    n = e.inSeq ∧ e'.state = e.state ∧ SameQueues e e' ∧ SameReceived e e' := by
  unfold writeAck at hwrite
  split at hwrite
  · cases hwrite
  · simp only [Option.some.injEq, Prod.mk.injEq] at hwrite
    obtain ⟨rfl, rfl⟩ := hwrite
    exact ⟨rfl, rfl, ⟨rfl, rfl, rfl, rfl⟩, rfl, rfl⟩

theorem sameQueues_receive (e : Endpoint) (m : Message) :
    (e.receive m).state = e.state ∧ SameQueues e (e.receive m) := by
  unfold receive
  split
  · exact ⟨rfl, rfl, rfl, rfl, rfl⟩
  · exact ⟨rfl, rfl, rfl, rfl, rfl⟩

theorem sameReceived_fault (e : Endpoint) : SameReceived e e.fault := by
  unfold fault requeueSent
  split
  · exact ⟨rfl, rfl⟩
  · exact ⟨rfl, rfl⟩

/-! ## The loops -/

theorem requeueLoop_eq (sent rq : List Message) (outSeq : ℕ) :
    requeueLoop sent rq outSeq = (sent ++ rq, outSeq - sent.length) := by
  induction sent with
  | nil => rfl
  | cons m rest ih =>
      rw [requeueLoop, List.foldr_cons, ← requeueLoop, ih, List.length_cons, Nat.sub_sub]
      rfl

/-- Over numbered messages followed by fresh ones, the loop of
`discard_requeued_up_to` drops exactly the numbered ones up to the bound. -/
theorem discardLoop_eq {a seq : ℕ} {numbered fresh : List Message}
    (hnumbered : Numbered Message.seq a numbered) (hfresh : ∀ m ∈ fresh, m.seq = 0)
    (hlow : a ≤ seq) (hhigh : seq ≤ a + numbered.length) (outSeq : ℕ) :
    discardLoop seq (numbered ++ fresh) outSeq =
      (numbered.drop (seq - a) ++ fresh, outSeq + (seq - a)) := by
  induction numbered generalizing a outSeq with
  | nil =>
      obtain rfl : seq = a := by simpa using Nat.le_antisymm hhigh hlow
      cases fresh with
      | nil => simp [discardLoop]
      | cons m rest => simp [discardLoop, hfresh m List.mem_cons_self]
  | cons m rest ih =>
      obtain ⟨hm, hrest⟩ := hnumbered
      rw [List.length_cons] at hhigh
      rw [List.cons_append, discardLoop]
      by_cases hend : seq = a
      · rw [if_pos (by omega), hend, Nat.sub_self]
        rfl
      · rw [if_neg (by omega), ih hrest (by omega) (by omega)]
        rw [show seq - a = seq - (a + 1) + 1 by omega, List.drop_succ_cons]
        rw [show outSeq + 1 + (seq - (a + 1)) = outSeq + (seq - (a + 1) + 1) by omega]

/-! ## The history of numbered messages

`log` is every message that was ever numbered, in order.  What the end holds are
slices of it: `acked` messages are gone, the next ones up to `out_seq` are in
`sent`, and the rest wait at the front of the highest priority. -/

structure Ledger (e : Endpoint) (log : List Message) (acked : ℕ) : Prop where
  numbered : Numbered Message.seq 0 log
  acked_le : acked ≤ e.outSeq
  outSeq_le : e.outSeq ≤ log.length
  sent : e.sent = (log.take e.outSeq).drop acked
  requeued : ∃ fresh, e.outQ.get highest = log.drop e.outSeq ++ fresh ∧ ∀ m ∈ fresh, m.seq = 0
  others : ∀ k, k ≠ highest → ∀ m ∈ e.outQ.get k, m.seq = 0
  accepted : (e.accepted : Multiset ℕ) =
    log.map Message.id + (e.outQ.items.filter (·.seq = 0)).map Message.id
  nodup : e.accepted.Nodup

namespace Ledger

variable {e : Endpoint} {log : List Message} {acked : ℕ}

theorem length_sent (h : Ledger e log acked) : e.sent.length = e.outSeq - acked := by
  rw [h.sent, List.length_drop, List.length_take, Nat.min_eq_left h.outSeq_le]

theorem of_sameQueues (h : Ledger e log acked) {e' : Endpoint} (hsame : SameQueues e e') :
    Ledger e' log acked where
  numbered := h.numbered
  acked_le := hsame.outSeq ▸ h.acked_le
  outSeq_le := hsame.outSeq ▸ h.outSeq_le
  sent := by rw [hsame.sent, hsame.outSeq, h.sent]
  requeued := by
    rw [hsame.outQ, hsame.outSeq]
    exact h.requeued
  others := hsame.outQ ▸ h.others
  accepted := by rw [hsame.accepted, hsame.outQ, h.accepted]
  nodup := hsame.accepted ▸ h.nodup

/-- Numbered messages do not count as fresh. -/
theorem filter_slice {l : List Message} {a : ℕ} (h : Numbered Message.seq a l) :
    (l : Multiset Message).filter (·.seq = 0) = 0 := by
  rw [Multiset.filter_eq_nil]
  intro m hm hzero
  have := h.lt_of_mem (Multiset.mem_coe.mp hm)
  omega

theorem sendMessage (h : Ledger e log acked) {id : ℕ} (hid : id ∉ e.accepted)
    (priority : Priority) : Ledger (e.sendMessage id priority) log acked := by
  unfold Endpoint.sendMessage
  generalize (if priority.1 = 0 then e.defaultSendPriority else priority) = p
  refine ⟨h.numbered, h.acked_le, h.outSeq_le, h.sent, ?_, ?_, ?_, ?_⟩
  · obtain ⟨fresh, hget, hfresh⟩ := h.requeued
    by_cases hp : p = highest
    · subst hp
      refine ⟨fresh ++ [⟨id, 0⟩], by simp [hget], fun m hm => ?_⟩
      cases List.mem_append.mp hm with
      | inl hmem => exact hfresh m hmem
      | inr hmem => rw [List.mem_singleton.mp hmem]
    · exact ⟨fresh, by rw [← hget]; exact e.outQ.get_put_of_ne (Ne.symm hp) _, hfresh⟩
  · intro k hk m hm
    by_cases hkp : k = p
    · subst hkp
      rw [PrioQueue.get_put_self] at hm
      cases List.mem_append.mp hm with
      | inl hmem => exact h.others k hk m hmem
      | inr hmem => rw [List.mem_singleton.mp hmem]
    · exact h.others k hk m (by rwa [← e.outQ.get_put_of_ne hkp])
  · show ((e.accepted ++ [id] : List ℕ) : Multiset ℕ) = _
    rw [PrioQueue.items_put_append, ← Multiset.coe_add, h.accepted, Multiset.filter_add,
      Multiset.map_add, add_assoc]
    rfl
  · exact List.nodup_append.mpr
      ⟨h.nodup, List.nodup_singleton id, fun a ha b hb hab =>
        hid (List.mem_singleton.mp hb ▸ hab ▸ ha)⟩

/-- While numbered messages are queued, the first of them is served. -/
theorem serves_requeued (h : Ledger e log acked) {k : Priority} {a : Message} {l : List Message}
    (hget : e.outQ.get k = a :: l) (habove : ∀ j, k < j → e.outQ.get j = []) {b : Message}
    {rest : List Message} (hdrop : log.drop e.outSeq = b :: rest) :
    k = highest ∧ a = b ∧ ∃ fresh, l = rest ++ fresh ∧ ∀ m ∈ fresh, m.seq = 0 := by
  obtain ⟨fresh, hhighest, hfresh⟩ := h.requeued
  rw [hdrop, List.cons_append] at hhighest
  have hk : k = highest := by
    apply le_antisymm (show k ≤ highest from k.2)
    apply not_lt.mp
    intro hlt
    rw [habove highest hlt] at hhighest
    cases hhighest
  subst hk
  rw [hget, List.cons.injEq] at hhighest
  exact ⟨rfl, hhighest.1, fresh, hhighest.2, hfresh⟩

/-- Once no numbered message is queued, a fresh one is served and all that stay are
fresh. -/
theorem serves_fresh (h : Ledger e log acked) (hdrop : log.drop e.outSeq = []) (k : Priority) :
    ∀ m ∈ e.outQ.get k, m.seq = 0 := by
  obtain ⟨fresh, hhighest, hfresh⟩ := h.requeued
  rw [hdrop, List.nil_append] at hhighest
  by_cases hk : k = highest
  · rw [hk, hhighest]
    exact hfresh
  · exact h.others k hk

/-- What `sent` holds after one more message of the log. -/
theorem sent_concat (h : Ledger e log acked) {log' : List Message} {m : Message}
    (htake : log'.take (e.outSeq + 1) = log.take e.outSeq ++ [m]) :
    e.sent ++ [m] = (log'.take (e.outSeq + 1)).drop acked := by
  have hlength : acked ≤ (log.take e.outSeq).length := by
    rw [List.length_take, Nat.min_eq_left h.outSeq_le]
    exact h.acked_le
  rw [htake, List.drop_append_of_le_length hlength, h.sent]

/-- Writing a message that was requeued: it keeps its number, and the log stays. -/
theorem writeRequeued (h : Ledger e log acked) {k : Priority} {a : Message} {l : List Message}
    (hget : e.outQ.get k = a :: l) (habove : ∀ j, k < j → e.outQ.get j = []) {b : Message}
    {rest : List Message} (hdrop : log.drop e.outSeq = b :: rest) :
    ({ a with seq := e.outSeq + 1 } : Message) = a ∧
      log.take (e.outSeq + 1) = log.take e.outSeq ++ [a] ∧
      Ledger { e with outQ := e.outQ.put k l, outSeq := e.outSeq + 1, sent := e.sent ++ [a] }
        log acked := by
  obtain ⟨rfl, rfl, fresh, rfl, hfresh⟩ := h.serves_requeued hget habove hdrop
  have hlt : e.outSeq < log.length := by
    apply not_le.mp
    intro hle
    rw [List.drop_eq_nil_of_le hle] at hdrop
    cases hdrop
  have hnumbered := h.numbered.drop h.outSeq_le
  rw [hdrop, Nat.zero_add] at hnumbered
  have hseq : a.seq = e.outSeq + 1 := hnumbered.1
  rw [List.drop_eq_getElem_cons hlt, List.cons.injEq] at hdrop
  have htake : log.take (e.outSeq + 1) = log.take e.outSeq ++ [a] := by
    rw [List.take_add_one, List.getElem?_eq_getElem hlt, hdrop.1]
    rfl
  refine ⟨by rw [← hseq], htake,
    { numbered := h.numbered
      acked_le := h.acked_le.trans (Nat.le_succ _)
      outSeq_le := hlt
      sent := h.sent_concat htake
      requeued := ⟨fresh, ?_, hfresh⟩
      others := ?_
      accepted := ?_
      nodup := h.nodup }⟩
  · rw [PrioQueue.get_put_self, hdrop.2]
  · intro j hj
    rw [PrioQueue.get_put_of_ne _ hj]
    exact h.others j hj
  · -- a numbered message leaves the queue, the fresh ones stay
    rw [h.accepted, ← e.outQ.items_put_tail hget, Multiset.filter_add,
      Multiset.filter_singleton, if_neg (by omega), Multiset.empty_eq_zero, add_zero]

/-- Writing a fresh message: it gets the next number and extends the log. -/
theorem writeFresh (h : Ledger e log acked) {k : Priority} {a : Message} {l : List Message}
    (hget : e.outQ.get k = a :: l) (hdrop : log.drop e.outSeq = []) {m : Message}
    (hm : m = { a with seq := e.outSeq + 1 }) :
    (log ++ [m]).take (e.outSeq + 1) = log.take e.outSeq ++ [m] ∧
      Ledger { e with outQ := e.outQ.put k l, outSeq := e.outSeq + 1, sent := e.sent ++ [m] }
        (log ++ [m]) acked := by
  have hall := h.serves_fresh hdrop
  have hfresh : a.seq = 0 := hall k a (hget ▸ List.mem_cons_self)
  have hend : e.outSeq = log.length := h.outSeq_le.antisymm (List.drop_eq_nil_iff.mp hdrop)
  have hrest : ∀ j, ∀ m ∈ (e.outQ.put k l).get j, m.seq = 0 := by
    intro j m hm
    by_cases hj : j = k
    · subst hj
      rw [PrioQueue.get_put_self] at hm
      exact hall j m (hget ▸ List.mem_cons_of_mem _ hm)
    · exact hall j m (by rwa [← PrioQueue.get_put_of_ne _ hj])
  have htake : (log ++ [m]).take (e.outSeq + 1) = log.take e.outSeq ++ [m] := by
    rw [hend, List.take_of_length_le (by simp), List.take_length]
  refine ⟨htake,
    { numbered := h.numbered.concat (by simp [hm, hend])
      acked_le := h.acked_le.trans (Nat.le_succ _)
      outSeq_le := by simp [hend]
      sent := h.sent_concat htake
      requeued := ⟨(e.outQ.put k l).get highest, by simp [hend], hrest highest⟩
      others := fun j _ => hrest j
      accepted := ?_
      nodup := h.nodup }⟩
  -- the message moves from the fresh ones to the log
  have hid : m.id = a.id := by rw [hm]
  show (e.accepted : Multiset ℕ) = _
  rw [h.accepted, ← e.outQ.items_put_tail hget, Multiset.filter_add, List.map_append,
    ← Multiset.coe_add, add_comm (Multiset.filter _ _), Multiset.map_add, add_assoc,
    Multiset.filter_singleton, if_pos hfresh, Multiset.map_singleton, List.map_singleton, hid]
  rfl

/-- The message written is the next of the log, which a fresh message extends. -/
theorem writeNext (h : Ledger e log acked) {e' : Endpoint} {m : Message}
    (hwrite : e.writeNext = some (e', m)) :
    ∃ log', Ledger e' log' acked ∧ log <+: log' ∧
      log'.take e'.outSeq = log.take e.outSeq ++ [m] := by
  unfold Endpoint.writeNext at hwrite
  split at hwrite
  · cases hwrite
  · rename_i a q hpop
    simp only [Option.some.injEq, Prod.mk.injEq] at hwrite
    obtain ⟨rfl, rfl⟩ := hwrite
    obtain ⟨k, l, hget, rfl, habove⟩ := PrioQueue.pop_eq_some hpop
    cases hdrop : log.drop e.outSeq with
    | cons b rest =>
        obtain ⟨hsame, htake, hledger⟩ := h.writeRequeued hget habove hdrop
        rw [hsame]
        exact ⟨log, hledger, List.prefix_rfl, htake⟩
    | nil =>
        obtain ⟨htake, hledger⟩ := h.writeFresh hget hdrop rfl
        exact ⟨_, hledger, List.prefix_append _ _, htake⟩

/-- An acknowledgement takes a prefix off `sent`. -/
theorem handleAck (h : Ledger e log acked) (seq : ℕ) :
    Ledger (e.handleAck seq) log (max acked (min seq e.outSeq)) where
  numbered := h.numbered
  acked_le := max_le h.acked_le (min_le_right _ _)
  outSeq_le := h.outSeq_le
  sent := by
    have hlength : (log.take e.outSeq).length = e.outSeq := by
      rw [List.length_take, Nat.min_eq_left h.outSeq_le]
    have hnumbered : Numbered Message.seq acked e.sent := by
      have hdrop := (h.numbered.take e.outSeq).drop (hlength.symm ▸ h.acked_le)
      rwa [Nat.zero_add, ← h.sent] at hdrop
    show e.sent.dropWhile (fun m => decide (m.seq ≤ seq)) = _
    rw [hnumbered.dropWhile_le, h.sent, List.drop_drop]
    show (log.take e.outSeq).drop _ = (log.take e.outSeq).drop _
    by_cases hseq : seq ≤ e.outSeq
    · rw [Nat.min_eq_left hseq]
      congr 1
      omega
    · have hacked := h.acked_le
      rw [List.drop_eq_nil_of_le (by omega), List.drop_eq_nil_of_le (by omega)]
  requeued := h.requeued
  others := h.others
  accepted := h.accepted
  nodup := h.nodup

/-- Replacing the list of the highest priority by numbered messages of the log, on top of
the same fresh ones. -/
theorem put_highest (h : Ledger e log acked) {l fresh : List Message} {outSeq n : ℕ}
    (hn : n ≤ outSeq) (houtSeq : outSeq ≤ log.length)
    (hsent : l = (log.take outSeq).drop n)
    (hget : e.outQ.get highest = log.drop e.outSeq ++ fresh) (hfresh : ∀ m ∈ fresh, m.seq = 0) :
    Ledger { e with
      outQ := e.outQ.put highest (log.drop outSeq ++ fresh), sent := l, outSeq := outSeq }
      log n where
  numbered := h.numbered
  acked_le := hn
  outSeq_le := houtSeq
  sent := hsent
  requeued := ⟨fresh, e.outQ.get_put_self _ _, hfresh⟩
  others := fun k hk => by
    show ∀ m ∈ (e.outQ.put highest _).get k, _
    rw [e.outQ.get_put_of_ne hk]
    exact h.others k hk
  accepted := by
    -- neither the old nor the new numbered messages count as fresh
    have hitems := congrArg (Multiset.filter (·.seq = 0))
      (e.outQ.items_put highest (log.drop outSeq ++ fresh))
    rw [hget, Multiset.filter_add, Multiset.filter_add, ← Multiset.coe_add, ← Multiset.coe_add,
      Multiset.filter_add, Multiset.filter_add, filter_slice (h.numbered.drop houtSeq),
      filter_slice (h.numbered.drop h.outSeq_le), zero_add] at hitems
    show (e.accepted : Multiset ℕ) = _ + Multiset.map _ (Multiset.filter _ (e.outQ.put _ _).items)
    rw [add_right_cancel hitems]
    exact h.accepted
  nodup := h.nodup

/-- `requeue_sent` goes back to the acknowledged messages. -/
theorem requeueSent (h : Ledger e log acked) :
    Ledger e.requeueSent log acked ∧ e.requeueSent.outSeq = acked := by
  have hlength := h.length_sent
  have hacked := h.acked_le
  unfold Endpoint.requeueSent
  split
  · rename_i hsent
    rw [hsent, List.length_nil] at hlength
    exact ⟨h, by omega⟩
  · obtain ⟨fresh, hget, hfresh⟩ := h.requeued
    have hout : e.outSeq - e.sent.length = acked := by omega
    have hrequeued : e.sent ++ e.outQ.get highest = log.drop acked ++ fresh := by
      rw [hget, h.sent, ← List.append_assoc]
      congr 1
      rw [← List.drop_append_of_le_length, List.take_append_drop]
      rw [List.length_take, Nat.min_eq_left h.outSeq_le]
      exact hacked
    simp only [requeueLoop_eq, hrequeued, hout]
    exact ⟨h.put_highest le_rfl (hacked.trans h.outSeq_le) (by simp) hget hfresh, trivial⟩

/-- `discard_requeued_up_to` goes forward to what the peer has. -/
theorem discardRequeuedUpTo (h : Ledger e log acked) (hidle : e.outSeq = acked) {seq : ℕ}
    (hlow : acked ≤ seq) (hhigh : seq ≤ log.length) :
    Ledger (e.discardRequeuedUpTo seq) log seq ∧ (e.discardRequeuedUpTo seq).outSeq = seq := by
  obtain ⟨fresh, hget, hfresh⟩ := h.requeued
  have hnumbered := h.numbered.drop h.outSeq_le
  rw [Nat.zero_add] at hnumbered
  have hloop := discardLoop_eq hnumbered hfresh (hidle ▸ hlow)
    (by rw [List.length_drop]; omega) e.outSeq
  rw [List.drop_drop, show e.outSeq + (seq - e.outSeq) = seq by omega] at hloop
  unfold Endpoint.discardRequeuedUpTo
  simp only [hget, hloop]
  refine ⟨h.put_highest le_rfl hhigh ?_ hget hfresh, trivial⟩
  rw [h.sent, hidle, List.drop_eq_nil_of_le (List.length_take_le _ _)]
  simp

end Ledger

end Endpoint

end HwAsync.Connection
