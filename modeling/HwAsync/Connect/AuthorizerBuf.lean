/-
# The buffer of the authorizers

A connection that accepts allocates `authorizer_buf` with the first authorizer that it reads, in its
size, and reads the later ones to the beginning of it: those of later messages, if the first was
refused, and those of later sockets, if it takes them over.  What `handle_connect_msg` verifies is
the buffer as it is: the end of an earlier authorizer stays behind a shorter one, and the end of a
longer one lies behind the buffer.
-/

import HwAsync.Connect.Exchange

namespace HwAsync.Connect

open HwAsync.Framing (Bytes Lane memcpy)
open HwAsync.Lib

/-! ## A buffer that is allocated once -/

/-- What is in the buffer after a read to its beginning. -/
def overwrite (prev bl : Bytes) : Bytes := (bl ++ prev.drop bl.length).take prev.length

/-- And if the read is the one that the buffer is allocated for, unless it reads nothing. -/
def deposit (prev bl : Bytes) : Bytes := if prev = [] then bl else overwrite prev bl

/-- What is in the buffer after several reads. -/
def bufferAfter (bodies : List Bytes) : Bytes := bodies.foldl deposit []

/-- The size of the buffer: that of the first body that is not empty. -/
def allocated : List Bytes → ℕ
  | [] => 0
  | bl :: rest => if bl = [] then allocated rest else bl.length

section Buffer

variable {prev bl : Bytes} {bodies rest : List Bytes}

theorem length_overwrite : (overwrite prev bl).length = prev.length := by
  rw [overwrite, List.length_take, List.length_append, List.length_drop]
  omega

theorem overwrite_eq_iff : overwrite prev bl = bl ↔ bl.length = prev.length := by
  constructor
  · intro heq
    have hsize : (overwrite prev bl).length = prev.length := length_overwrite
    rw [← hsize, heq]
  · intro hlength
    rw [overwrite, hlength, List.drop_length, List.append_nil, ← hlength, List.take_length]

theorem overwrite_nil : overwrite prev [] = prev := by simp [overwrite]

/-- A read to a buffer that was just allocated for it leaves what was read. -/
theorem overwrite_replicate : overwrite (List.replicate bl.length 0) bl = bl :=
  overwrite_eq_iff.mpr (List.length_replicate).symm

theorem memcpy_zero : (memcpy prev 0 bl).take prev.length = overwrite prev bl := by
  simp [memcpy, overwrite]

theorem deposit_nil : deposit prev [] = prev := by
  unfold deposit
  split
  · rename_i hnone
    exact hnone.symm
  · exact overwrite_nil

theorem length_deposit :
    (deposit prev bl).length = if prev.length = 0 then bl.length else prev.length := by
  unfold deposit
  by_cases hnone : prev = []
  · rw [if_pos hnone, if_pos (by rw [hnone]; rfl)]
  · rw [if_neg hnone, if_neg fun hzero => hnone (List.eq_nil_of_length_eq_zero hzero),
      length_overwrite]

theorem bufferAfter_append (bodies : List Bytes) (bl : Bytes) :
    bufferAfter (bodies ++ [bl]) = deposit (bufferAfter bodies) bl := by
  rw [bufferAfter, List.foldl_append]
  rfl

theorem allocated_append : allocated (bodies ++ rest) =
    if allocated bodies = 0 then allocated rest else allocated bodies := by
  induction bodies with
  | nil => rfl
  | cons bl bodies ih =>
      rw [List.cons_append, allocated, allocated]
      by_cases hnone : bl = []
      · rw [if_pos hnone, if_pos hnone, ih]
      · have hpos : bl.length ≠ 0 := fun hzero => hnone (List.eq_nil_of_length_eq_zero hzero)
        rw [if_neg hnone, if_neg hnone, if_neg hpos]

theorem allocated_singleton (bl : Bytes) : allocated [bl] = bl.length := by
  rw [allocated]
  split
  · rename_i hnone
    rw [hnone]
    rfl
  · rfl

theorem allocated_eq_zero_iff : allocated bodies = 0 ↔ ∀ bl ∈ bodies, bl = [] := by
  induction bodies with
  | nil => simp [allocated]
  | cons bl bodies ih =>
      rw [allocated]
      split
      · rename_i hnone
        rw [ih]
        simp [hnone]
      · rename_i hsome
        simp [hsome]

/-- Whatever is read, the buffer has the size that it was allocated with. -/
theorem length_bufferAfter (bodies : List Bytes) :
    (bufferAfter bodies).length = allocated bodies := by
  induction bodies using List.reverseRecOn with
  | nil => rfl
  | append_singleton bodies bl ih =>
      rw [bufferAfter_append, length_deposit, allocated_append, ih, allocated_singleton]

theorem bufferAfter_eq_nil_iff : bufferAfter bodies = [] ↔ allocated bodies = 0 := by
  rw [← length_bufferAfter, List.length_eq_zero_iff]

end Buffer

/-! ## What every run keeps -/

/-- The authorizers that messages came with. -/
def bodies (handled : List HandledMsg) : List Bytes := handled.map fun h => h.ask.authorizer

theorem bodies_append (l : List HandledMsg) (h : HandledMsg) :
    bodies (l ++ [h]) = bodies l ++ [h.ask.authorizer] := by
  simp [bodies]

/-- The messages that were handled with the buffer. -/
def Answerer.since (c : Answerer) : List HandledMsg := c.handled.drop c.before

/-- What the buffer has come with, and what was read to it. -/
def Answerer.deposits (c : Answerer) : List Bytes := c.broughtBuf :: bodies c.since

namespace Exchange

/-- The buffer is what the reads have left, but for one that has just been allocated. -/
structure Buffered (s : Exchange) : Prop where
  before : s.acceptor.before ≤ s.acceptor.handled.length
  handled : ∀ l h r, s.acceptor.since = l ++ h :: r →
    h.authorizerBuf =
      deposit (bufferAfter (s.acceptor.broughtBuf :: bodies l)) h.ask.authorizer
  buf : s.acceptor.authorizerBuf = bufferAfter s.acceptor.deposits ∨
    allocated s.acceptor.deposits = 0 ∧
      (s.acceptor.stand.state = .closed ∨
        s.acceptor.stand.state = .acceptingWaitConnectMsgAuth ∧ s.acceptor.handling = false ∧
          s.acceptor.authorizerBuf =
            List.replicate s.acceptor.connectMsg.authorizerLen.toNat 0)
  inside : s.acceptor.overrun = false → ∀ bl ∈ s.acceptor.deposits,
    bl.length ≤ allocated s.acceptor.deposits
  overrun : s.acceptor.overrun = true → ∃ a ∈ s.connector.asked.drop s.acceptor.before,
    0 < allocated s.acceptor.deposits ∧ allocated s.acceptor.deposits < a.authorizer.length

namespace Buffered

variable {w : ConnectWire} {s t : Exchange} {answers : List ℕ} {k : ℕ}

theorem since_of_fresh (h : s.Fresh) : s.acceptor.since = [] := by
  rw [Answerer.since, h.acceptor.2.1]
  exact List.drop_nil

theorem of_fresh (h : s.Fresh) : s.Buffered := by
  obtain ⟨hbuf, hbrought, hbefore, hoverrun⟩ := h.authorizerBuf
  have hdeposits : s.acceptor.deposits = [[]] := by
    rw [Answerer.deposits, since_of_fresh h, hbrought]
    rfl
  refine ⟨by rw [hbefore]; exact Nat.zero_le _, fun l a r hsplit => ?_, .inl ?_,
    fun _ bl hbl => ?_, fun htrue => ?_⟩
  · rw [since_of_fresh h] at hsplit
    exact absurd hsplit.symm (List.append_ne_nil_of_right_ne_nil l (List.cons_ne_nil a r))
  · rw [hdeposits, hbuf]
    rfl
  · rw [hdeposits] at hbl
    rw [List.mem_singleton.mp hbl]
    exact Nat.zero_le _
  · cases hoverrun.symm.trans htrue

/-- The buffer is left alone, and what was handled. -/
structure Untouched (c d : Answerer) : Prop where
  handled : d.handled = c.handled
  authorizerBuf : d.authorizerBuf = c.authorizerBuf
  broughtBuf : d.broughtBuf = c.broughtBuf
  before : d.before = c.before
  overrun : d.overrun = c.overrun

theorem Untouched.since {c d : Answerer} (h : Untouched c d) : d.since = c.since := by
  rw [Answerer.since, h.handled, h.before]
  rfl

theorem Untouched.deposits {c d : Answerer} (h : Untouched c d) : d.deposits = c.deposits := by
  rw [Answerer.deposits, h.since, h.broughtBuf]
  rfl

theorem of_same (h : s.Buffered) (huntouched : Untouched s.acceptor t.acceptor)
    (hasked : s.connector.asked <+: t.connector.asked)
    (hclosed : s.acceptor.stand.state = .closed → t.acceptor.stand.state = .closed)
    (hreads : s.acceptor.stand.state = .acceptingWaitConnectMsgAuth → s.acceptor.handling = false →
      t.acceptor.stand.state = .closed ∨
        t.acceptor.stand.state = .acceptingWaitConnectMsgAuth ∧ t.acceptor.handling = false ∧
          t.acceptor.connectMsg = s.acceptor.connectMsg) : t.Buffered where
  before := by
    rw [huntouched.before, huntouched.handled]
    exact h.before
  handled := by
    rw [huntouched.since, huntouched.broughtBuf]
    exact h.handled
  buf := by
    rw [huntouched.deposits, huntouched.authorizerBuf]
    obtain hfull | ⟨hzero, hleft | ⟨hstate, hhandling, hallocated⟩⟩ := h.buf
    · exact .inl hfull
    · exact .inr ⟨hzero, .inl (hclosed hleft)⟩
    · obtain hleft | ⟨hstate', hhandling', hmsg⟩ := hreads hstate hhandling
      · exact .inr ⟨hzero, .inl hleft⟩
      · exact .inr ⟨hzero, .inr ⟨hstate', hhandling', by rw [hmsg]; exact hallocated⟩⟩
  inside := by
    rw [huntouched.deposits, huntouched.overrun]
    exact h.inside
  overrun htrue := by
    rw [huntouched.deposits, huntouched.before]
    obtain ⟨a, ha, hlt⟩ := h.overrun (huntouched.overrun ▸ htrue)
    exact ⟨a, (hasked.drop _).subset ha, hlt⟩

/-- A step of the acceptor that is not one of reading an authorizer. -/
theorem of_state (h : s.Buffered) (huntouched : Untouched s.acceptor t.acceptor)
    (hasked : t.connector.asked = s.connector.asked) (hopen : s.acceptor.stand.state ≠ .closed)
    (helse : s.acceptor.stand.state = .acceptingWaitConnectMsgAuth → s.acceptor.handling = true) :
    t.Buffered := by
  refine h.of_same huntouched (by rw [hasked])
    (fun hclosed => absurd hclosed hopen) fun hstate hhandling => ?_
  cases (helse hstate).symm.trans hhandling

/-- A step that leaves the acceptor alone. -/
theorem of_acceptor (h : s.Buffered) (hacceptor : t.acceptor = s.acceptor)
    (hasked : s.connector.asked <+: t.connector.asked) : t.Buffered := by
  refine h.of_same ?_ hasked ?_ ?_
  · rw [hacceptor]
    exact ⟨rfl, rfl, rfl, rfl, rfl⟩
  · rw [hacceptor]
    exact id
  · rw [hacceptor]
    exact fun hstate hhandling => .inr ⟨hstate, hhandling, rfl⟩

/-- Another connection goes on, with the buffer that it has. -/
theorem of_handsOver (s : Exchange) (authorizerBuf : Bytes) (inSeq : UInt64) :
    (s.handsOver authorizerBuf inSeq).Buffered := by
  have hsince : (s.handsOver authorizerBuf inSeq).acceptor.since = [] := List.drop_length
  have hdeposits : (s.handsOver authorizerBuf inSeq).acceptor.deposits = [authorizerBuf] := by
    rw [Answerer.deposits, hsince]
    rfl
  refine ⟨le_rfl, fun l a r hsplit => ?_, .inl ?_, fun _ bl hbl => ?_, fun htrue => ?_⟩
  · rw [hsince] at hsplit
    exact absurd hsplit.symm (List.append_ne_nil_of_right_ne_nil l (List.cons_ne_nil a r))
  · rw [hdeposits]
    rfl
  · rw [hdeposits] at hbl ⊢
    rw [List.mem_singleton.mp hbl, allocated_singleton]
  · cases htrue

/-- One more message is handled, with the buffer behind its authorizer. -/
theorem handle (h : s.Buffered) {a : Ask} {buf : Bytes} (up : Lane) (overrun : Bool)
    (hmsg : s.acceptor.connectMsg = a.msg)
    (hbuf : buf = deposit (bufferAfter s.acceptor.deposits) a.authorizer)
    (hasked : a ∈ s.connector.asked.drop s.acceptor.before)
    (hinside : overrun = false → s.acceptor.overrun = false ∧
      (allocated s.acceptor.deposits ≠ 0 →
        a.authorizer.length ≤ allocated s.acceptor.deposits))
    (houtside : overrun = true → s.acceptor.overrun = true ∨
      0 < allocated s.acceptor.deposits ∧
        allocated s.acceptor.deposits < a.authorizer.length) :
    (handleConnectMsg a.authorizer
      { s with
        up := up
        acceptor :=
          { s.acceptor with authorizerBuf := buf, overrun := overrun } }).Buffered := by
  have hhandled : (⟨⟨s.acceptor.connectMsg, a.authorizer⟩, buf⟩ : HandledMsg) = ⟨a, buf⟩ := by
    rw [hmsg]
  have hsince : (s.acceptor.handled ++ [(⟨a, buf⟩ : HandledMsg)]).drop s.acceptor.before =
      s.acceptor.since ++ [⟨a, buf⟩] := List.drop_append_of_le_length h.before
  have hdeposits : s.acceptor.broughtBuf :: bodies (s.acceptor.since ++ [⟨a, buf⟩]) =
      s.acceptor.deposits ++ [a.authorizer] := by
    rw [bodies_append]
    rfl
  have hkept (hpos : allocated s.acceptor.deposits ≠ 0) :
      allocated (s.acceptor.deposits ++ [a.authorizer]) = allocated s.acceptor.deposits := by
    rw [allocated_append, if_neg hpos]
  simp only [Exchange.handleConnectMsg, hhandled]
  refine ⟨?_, fun l x r hsplit => ?_, .inl ?_, fun hfalse bl hbl => ?_, fun htrue => ?_⟩
  · dsimp only
    rw [List.length_append]
    exact Nat.le_add_right_of_le h.before
  · dsimp only [Answerer.since] at hsplit
    rw [hsince] at hsplit
    obtain rfl | ⟨r', y, rfl⟩ := List.eq_nil_or_concat r
    · obtain ⟨rfl, hx⟩ := List.append_inj' hsplit rfl
      cases hx
      exact hbuf
    · rw [List.concat_eq_append, ← List.cons_append, ← List.append_assoc] at hsplit
      exact h.handled l x r' (List.append_inj' hsplit rfl).1
  · dsimp only [Answerer.deposits, Answerer.since]
    rw [hsince, hdeposits, bufferAfter_append]
    exact hbuf
  · obtain ⟨hbefore, hfits⟩ := hinside hfalse
    dsimp only [Answerer.deposits, Answerer.since] at hbl ⊢
    rw [hsince, hdeposits] at hbl ⊢
    rw [List.mem_append, List.mem_singleton] at hbl
    by_cases hzero : allocated s.acceptor.deposits = 0
    · rw [allocated_append, if_pos hzero, allocated_singleton]
      obtain hbl | rfl := hbl
      · rw [allocated_eq_zero_iff.mp hzero bl hbl]
        exact Nat.zero_le _
      · exact le_rfl
    · rw [hkept hzero]
      obtain hbl | rfl := hbl
      · exact h.inside hbefore bl hbl
      · exact hfits hzero
  · dsimp only [Answerer.deposits, Answerer.since]
    rw [hsince, hdeposits]
    obtain hbefore | ⟨hpos, hlt⟩ := houtside htrue
    · obtain ⟨b, hb, hpos, hlt⟩ := h.overrun hbefore
      rw [hkept (Nat.pos_iff_ne_zero.mp hpos)]
      exact ⟨b, hb, hpos, hlt⟩
    · rw [hkept (Nat.pos_iff_ne_zero.mp hpos)]
      exact ⟨a, hasked, hpos, hlt⟩

/-- The buffer in front of a read of an authorizer. -/
theorem ready (h : s.Buffered) {n : ℕ} (hpos : 0 < n)
    (hlen : s.acceptor.connectMsg.authorizerLen.toNat = n)
    (hopen : s.acceptor.stand.state ≠ .closed) :
    let buf :=
      if s.acceptor.authorizerBuf = [] then List.replicate n 0 else s.acceptor.authorizerBuf
    allocated s.acceptor.deposits = 0 ∧ buf = List.replicate n 0 ∨
      allocated s.acceptor.deposits ≠ 0 ∧ buf = bufferAfter s.acceptor.deposits := by
  dsimp only
  obtain hfull | ⟨hzero, hleft | ⟨-, -, hallocated⟩⟩ := h.buf
  · by_cases hzero : allocated s.acceptor.deposits = 0
    · have hnil : s.acceptor.authorizerBuf = [] := hfull.trans (bufferAfter_eq_nil_iff.mpr hzero)
      exact .inl ⟨hzero, if_pos hnil⟩
    · have hne : s.acceptor.authorizerBuf ≠ [] := fun hnil =>
        hzero (bufferAfter_eq_nil_iff.mp (hfull.symm.trans hnil))
      exact .inr ⟨hzero, (if_neg hne).trans hfull⟩
  · exact absurd hleft hopen
  · rw [hlen] at hallocated
    refine .inl ⟨hzero, ?_⟩
    rw [if_neg, hallocated]
    rw [hallocated]
    simp [Nat.pos_iff_ne_zero.mp hpos]

theorem readsMsgAuth (h : s.Buffered) {turn : Turn} (hfits : s.Fits w turn)
    (hstate : s.acceptor.stand.state = .acceptingWaitConnectMsgAuth)
    (hhandling : s.acceptor.handling = false) : (s.readsMsgAuth w answers).Buffered := by
  obtain ⟨a, rfl⟩ := hfits.opened_of_auth hstate hhandling
  obtain ⟨hlt, hlen⟩ : a.Sized := hfits.valid
  have hmsg := hfits.connectMsg a rfl
  have hask : a ∈ s.connector.asked.drop s.acceptor.before := by
    rw [hfits.asked, List.drop_append_of_le_length]
    · exact List.mem_append_right _ (List.mem_singleton_self a)
    · rw [List.length_map]
      exact h.before
  have hauthorizerLen : s.acceptor.connectMsg.authorizerLen.toNat = a.authorizer.length := by
    rw [hmsg, hlen, toNat_length hlt]
  have hup : s.up.Holds (piece a.authorizer) := hfits.up
  unfold Exchange.readsMsgAuth
  rw [hauthorizerLen]
  by_cases hnone : a.authorizer = []
  · rw [if_pos (by rw [hnone]; rfl)]
    have hbuf : s.acceptor.authorizerBuf =
        deposit (bufferAfter s.acceptor.deposits) a.authorizer := by
      rw [hnone, deposit_nil]
      obtain hfull | ⟨hzero, hleft | ⟨-, -, hallocated⟩⟩ := h.buf
      · exact hfull
      · cases hleft.symm.trans hstate
      · rw [hallocated, hauthorizerLen, hnone, bufferAfter_eq_nil_iff.mpr hzero]
        rfl
    have hnext := h.handle s.up s.acceptor.overrun hmsg hbuf hask
      (fun hfalse => ⟨hfalse, fun _ => by rw [hnone]; exact Nat.zero_le _⟩) .inl
    rw [hnone] at hnext
    exact hnext
  · have hpos : 0 < a.authorizer.length := List.length_pos_of_ne_nil hnone
    rw [if_neg (Nat.pos_iff_ne_zero.mp hpos)]
    have hready := h.ready hpos hauthorizerLen (by rw [hstate]; decide)
    dsimp only at hready ⊢
    generalize (if s.acceptor.authorizerBuf = [] then List.replicate a.authorizer.length 0
      else s.acceptor.authorizerBuf) = buf at hready ⊢
    -- Something is written over the end of the buffer only if it was allocated before.
    have hover (n : ℕ) (hn : n ≤ a.authorizer.length)
        (htrue : (s.acceptor.overrun || decide (buf.length < n)) = true) :
        s.acceptor.overrun = true ∨ 0 < allocated s.acceptor.deposits ∧
          allocated s.acceptor.deposits < a.authorizer.length := by
      obtain hbefore | hlong := Bool.or_eq_true_iff.mp htrue
      · exact .inl hbefore
      · have hlong := of_decide_eq_true hlong
        obtain ⟨-, rfl⟩ | ⟨hne, rfl⟩ := hready
        · rw [List.length_replicate] at hlong
          omega
        · rw [length_bufferAfter] at hlong
          exact .inr ⟨Nat.pos_iff_ne_zero.mpr hne, by omega⟩
    rw [piece_of_ne hnone] at hup
    cases hread : s.up.readUntil w.prefetch a.authorizer.length answers with
    | mk r up =>
        obtain ⟨rfl, hholds⟩ | ⟨rfl, -⟩ := hup.read_cons hlt w.prefetch_lt hread
        · have hshort : up.inbound.dest.length < a.authorizer.length := hholds.short _ rfl
          refine ⟨h.before, h.handled, ?_, fun hfalse => ?_, fun htrue => ?_⟩
          · obtain ⟨hzero, hbuf⟩ | ⟨-, hbuf⟩ := hready
            · exact .inr ⟨hzero, .inr ⟨hstate, hhandling, by rw [hauthorizerLen]; exact hbuf⟩⟩
            · exact .inl hbuf
          · exact h.inside (Bool.or_eq_false_iff.mp hfalse).1
          · obtain hbefore | hlong := hover _ (le_of_lt hshort) htrue
            · exact h.overrun hbefore
            · exact ⟨a, hask, hlong⟩
        · refine h.handle _ _ hmsg ?_ hask (fun hfalse => ?_) (hover _ le_rfl)
          · rw [memcpy_zero, deposit]
            obtain ⟨hzero, rfl⟩ | ⟨hne, rfl⟩ := hready
            · rw [overwrite_replicate, if_pos (bufferAfter_eq_nil_iff.mpr hzero)]
            · rw [if_neg fun hnil => hne (bufferAfter_eq_nil_iff.mp hnil)]
          · obtain ⟨hbefore, hfits⟩ := Bool.or_eq_false_iff.mp hfalse
            refine ⟨hbefore, fun hne => ?_⟩
            obtain ⟨hzero, -⟩ | ⟨-, rfl⟩ := hready
            · exact absurd hzero hne
            · rw [length_bufferAfter] at hfits
              exact Nat.not_lt.mp (of_decide_eq_false hfits)

/-- The step lemma. -/
theorem step (h : s.Buffered) {turn : Turn} (hfits : s.Fits w turn) {a : ExchangeAction}
    (hstep : s.step w a = some t) : t.Buffered := by
  cases a with
  | asks msg authorizer k =>
      simp only [Exchange.step, Option.ite_none_right_eq_some, Option.some.injEq] at hstep
      obtain ⟨-, rfl⟩ := hstep
      exact h.of_acceptor rfl (List.prefix_append _ _)
  | readsReply answers =>
      simp only [Exchange.step, Option.ite_none_right_eq_some, Option.some.injEq] at hstep
      obtain ⟨-, rfl⟩ := hstep
      unfold Exchange.readsReply
      dsimp only
      split
      · exact h.of_acceptor rfl List.prefix_rfl
      · exact h.of_acceptor rfl List.prefix_rfl
  | readsReplyAuth answers verified fails =>
      simp only [Exchange.step, Option.ite_none_right_eq_some, Option.some.injEq] at hstep
      obtain ⟨-, rfl⟩ := hstep
      obtain ⟨hacceptor, hasked⟩ := readsReplyAuth_kept w s answers verified fails
      exact h.of_acceptor hacceptor (by rw [hasked])
  | readsAckSeq answers k =>
      simp only [Exchange.step, Option.ite_none_right_eq_some, Option.some.injEq] at hstep
      obtain ⟨-, rfl⟩ := hstep
      unfold Exchange.readsAckSeq
      dsimp only
      split
      · exact h.of_acceptor rfl List.prefix_rfl
      · exact h.of_acceptor rfl List.prefix_rfl
  | connectorSends k =>
      cases hstep
      exact h.of_acceptor rfl List.prefix_rfl
  | connectorResumes =>
      simp only [Exchange.step, Option.ite_none_right_eq_some, Option.some.injEq] at hstep
      obtain ⟨-, rfl⟩ := hstep
      exact h.of_acceptor rfl List.prefix_rfl
  | connectorLeaves =>
      cases hstep
      exact h.of_acceptor rfl List.prefix_rfl
  | readsMsg answers =>
      simp only [Exchange.step, Option.ite_none_right_eq_some, Option.some.injEq] at hstep
      obtain ⟨hstate, rfl⟩ := hstep
      unfold Exchange.readsMsg
      dsimp only
      split
      · exact h.of_acceptor rfl List.prefix_rfl
      · exact h.of_state ⟨rfl, rfl, rfl, rfl, rfl⟩ rfl (by rw [hstate]; decide)
          fun hother => absurd hother (by rw [hstate]; decide)
  | readsMsgAuth answers =>
      simp only [Exchange.step, Option.ite_none_right_eq_some, Option.some.injEq] at hstep
      obtain ⟨⟨hstate, hhandling⟩, rfl⟩ := hstep
      exact h.readsMsgAuth hfits hstate hhandling
  | handsOver authorizerBuf inSeq =>
      simp only [Exchange.step, Option.ite_none_right_eq_some, Option.some.injEq] at hstep
      obtain ⟨-, rfl⟩ := hstep
      exact .of_handsOver s authorizerBuf inSeq
  | replies reply authorizerReply k =>
      simp only [Exchange.step, Option.ite_none_right_eq_some, Option.some.injEq] at hstep
      obtain ⟨⟨hstate, hhandling, -⟩, rfl⟩ := hstep
      exact h.of_state ⟨rfl, rfl, rfl, rfl, rfl⟩ rfl (by rw [hstate]; decide) fun _ => hhandling
  | readsSeq answers =>
      simp only [Exchange.step, Option.ite_none_right_eq_some, Option.some.injEq] at hstep
      obtain ⟨hstate, rfl⟩ := hstep
      unfold Exchange.readsSeq
      dsimp only
      split
      · exact h.of_acceptor rfl List.prefix_rfl
      · exact h.of_state ⟨rfl, rfl, rfl, rfl, rfl⟩ rfl (by rw [hstate]; decide)
          fun hother => absurd hother (by rw [hstate]; decide)
  | acceptorSends k =>
      cases hstep
      exact h.of_acceptor rfl List.prefix_rfl
  | acceptorResumes =>
      simp only [Exchange.step, Option.ite_none_right_eq_some, Option.some.injEq] at hstep
      obtain ⟨hstate, rfl⟩ := hstep
      exact h.of_state ⟨rfl, rfl, rfl, rfl, rfl⟩ rfl (by rw [hstate]; decide)
        fun hother => absurd hother (by rw [hstate]; decide)
  | acceptorLeaves =>
      cases hstep
      exact h.of_same ⟨rfl, rfl, rfl, rfl, rfl⟩ List.prefix_rfl (fun _ => rfl) fun _ _ => .inl rfl

end Buffered

/-- What the acceptor verifies, and what the buffer has room for. -/
structure Verified (s : Exchange) : Prop where
  /-- What is verified: the authorizer, and behind it what was in the buffer, in its size. -/
  handled : ∀ l h r, s.acceptor.since = l ++ h :: r →
    h.authorizerBuf =
      deposit (bufferAfter (s.acceptor.broughtBuf :: bodies l)) h.ask.authorizer
  /-- It is the authorizer of the message exactly if that has the size of the buffer. -/
  own : ∀ h ∈ s.acceptor.since, h.ask.authorizer ≠ [] →
    (h.authorizerBuf = h.ask.authorizer ↔
      h.ask.authorizer.length = allocated s.acceptor.deposits)
  /-- A larger one that is read is written over the end of the buffer, and only such a one is. -/
  larger : (∃ h ∈ s.acceptor.since,
    0 < allocated s.acceptor.deposits ∧
      allocated s.acceptor.deposits < h.ask.authorizer.length) → s.acceptor.overrun = true
  overrun : s.acceptor.overrun = true → ∃ a ∈ s.connector.asked.drop s.acceptor.before,
    0 < allocated s.acceptor.deposits ∧ allocated s.acceptor.deposits < a.authorizer.length

theorem verified_of_reached {w : ConnectWire} {s : Exchange}
    (h : (exchangeMachine w).Reached s) : s.Verified := by
  have hkept : ((∃ turn, s.Fits w turn) ∧ s.AbortedFairly) ∧ s.Buffered := by
    refine h.invariant (fun s => ((∃ turn, s.Fits w turn) ∧ s.AbortedFairly) ∧ s.Buffered) ?_ ?_
    · intro s hfresh
      exact ⟨fits_of_reached (.start hfresh), .of_fresh hfresh⟩
    · rintro s a t ⟨⟨⟨turn, hfits⟩, hfair⟩, hbuffered⟩ - hstep
      exact ⟨hfits.step hfair hstep, hbuffered.step hfits hstep⟩
  have hbuffered := hkept.2
  refine ⟨hbuffered.handled, fun x hx hne => ?_, fun hlarger => ?_, hbuffered.overrun⟩
  · obtain ⟨l, r, hsplit⟩ := List.append_of_mem hx
    rw [hbuffered.handled l x r hsplit, deposit]
    have hdeposits : s.acceptor.deposits =
        (s.acceptor.broughtBuf :: bodies l) ++ (x.ask.authorizer :: bodies r) := by
      rw [Answerer.deposits, hsplit]
      simp [bodies]
    rw [hdeposits, allocated_append]
    by_cases hzero : allocated (s.acceptor.broughtBuf :: bodies l) = 0
    · rw [if_pos hzero, if_pos (bufferAfter_eq_nil_iff.mpr hzero), allocated, if_neg hne]
      exact iff_of_true rfl rfl
    · rw [if_neg hzero, if_neg fun hnil => hzero (bufferAfter_eq_nil_iff.mp hnil),
        overwrite_eq_iff, length_bufferAfter]
  · by_contra hfalse
    obtain ⟨x, hx, -, hlt⟩ := hlarger
    have hmem : x.ask.authorizer ∈ s.acceptor.deposits :=
      List.mem_cons_of_mem _ (List.mem_map_of_mem hx)
    have hle := hbuffered.inside (Bool.eq_false_iff.mpr hfalse) _ hmem
    omega

/-- The second authorizer is shorter, and verified with the end of the first one. -/
theorem verified_of_reached_twoRounds :
    ∃ s : Exchange, s.acceptor.handled.map HandledMsg.authorizerBuf = [[21, 22], [23, 22]] ∧
      s.acceptor.overrun = false ∧ s.Verified := by
  obtain ⟨s, hreplay, hbuf, hoverrun⟩ : ∃ s,
      (exchangeMachine plainWire).replay (fun _ _ => True) plain twoRounds = some s ∧
        s.acceptor.handled.map HandledMsg.authorizerBuf = [[21, 22], [23, 22]] ∧
        s.acceptor.overrun = false := ⟨_, rfl, rfl, rfl⟩
  exact ⟨s, hbuf, hoverrun, verified_of_reached (.of_replay (.start fresh_plain) hreplay)⟩

end Exchange

end HwAsync.Connect
