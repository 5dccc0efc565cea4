/-
# Reading from an RDMA socket

`read` serves a request from two sources: the chunks an earlier call left in
`buffers`, and the completions `pass_wc` queued since.  A chunk whose last byte
is copied out goes back to the pool in the same call; one that is only started,
or that the request did not reach, waits in `buffers`.

The purpose of all this is a FIFO byte stream, and the run theorem is a forward
simulation into that queue.  It needs a side condition on the requests: the
source passes the rest of the request to `Chunk::read`, whose length is a
`uint32_t`, so a request of four gigabytes or more must not find more bytes
buffered than its low half asks for.
-/

import HwAsync.Lib.Fifo
import HwAsync.Rdma.State

namespace HwAsync.Rdma

open HwAsync.Lib HwAsync.Infiniband

/-- What a `read` call has achieved: the count `read`, the bytes in the caller's
buffer, the chunks posted to the pool and the chunks left in `buffers`. -/
structure Progress where
  read : ℕ
  buf : List UInt8
  posted : List Chunk
  buffers : List Chunk

/-- The loop of `read_buffers`, from one iterator position on: `len - read` is
truncated by the parameter of `Chunk::read`, and only the chunks before the
final position are erased. -/
def readChunks (len : ℕ) : ℕ → List Chunk → Progress
  | read, [] => ⟨read, [], [], []⟩
  | read, c :: rest =>
      let r := c.read ((len - read) % 2 ^ 32)
      let posted := if r.chunk.isOver then [r.chunk] else []
      if read + r.count = len then
        ⟨read + r.count, r.out, posted, if r.chunk.isOver then rest else r.chunk :: rest⟩
      else
        let tail := readChunks len (read + r.count) rest
        ⟨tail.read, r.out ++ tail.buf, posted ++ tail.posted, tail.buffers⟩

/-- The state of the completion loop of `read`. -/
structure Polled extends Progress where
  error : ℕ

/-- One round of the completion loop; a completion that failed trips the
assertion. -/
def handleCompletion (connected : Bool) (len : ℕ) (p : Polled) (response : IbvWc) :
    Option Polled :=
  if response.success then
    let chunk := response.chunk.prepareRead response.byteLen
    if response.byteLen = 0 then
      some { p with
        error := if connected then econnreset else p.error
        posted := p.posted ++ [chunk] }
    else if p.read = len then
      some { p with buffers := p.buffers ++ [chunk] }
    else if len < p.read + response.byteLen then
      let r := chunk.read ((len - p.read) % 2 ^ 32)
      some { p with
        read := p.read + r.count
        buf := p.buf ++ r.out
        buffers := p.buffers ++ [r.chunk] }
    else
      let r := chunk.read response.byteLen
      some { p with
        read := p.read + r.count
        buf := p.buf ++ r.out
        posted := p.posted ++ [r.chunk] }
  else none

/-- What a `read` call returns and does; `submitted` tells that it called
`submit` for a server that needed no last handshake message. -/
structure ReadOutcome where
  ret : ℤ
  buf : List UInt8
  posted : List Chunk
  socket : Socket
  submitted : Bool

/-- What both exits of `read` return: the count, or else the error. -/
def returned (read error : ℕ) : ℤ :=
  if 0 < read then read else if error ≠ 0 then -error else -eagain

namespace Socket

/-- `read_buffers`. -/
def readBuffers (s : Socket) (len : ℕ) : Progress := readChunks len 0 s.buffers

/-- `if (!buffers.empty()) notify();` -/
def notifyBuffered (s : Socket) : Socket := if s.buffers = [] then s else s.notify

/-- `read`. -/
def read (s : Socket) (len : ℕ) : Option ReadOutcome :=
  let s0 := { s with notifyCount := 0 }
  if !s.active then some ⟨-eagain, [], [], s0, false⟩
  else if !s.connected then some ⟨-eagain, [], [], s0, false⟩
  else
    let p := s0.readBuffers len
    let s1 := { s0 with buffers := p.buffers }.getWc
    if s1.1 = [] then
      let s2 := s1.2.notifyBuffered
      some ⟨returned p.read s2.error, p.buf, p.posted, s2, false⟩
    else
      match s1.1.foldlM (handleCompletion s1.2.connected len) ⟨p, s1.2.error⟩ with
      | none => none
      | some q =>
          let s2 := { s1.2 with buffers := q.buffers, error := q.error }
          let lastHandshake := s2.isServer && !s2.connected
          let s3 := if lastHandshake then { s2 with connected := true }.cleanup else s2
          let s4 := s3.notifyBuffered
          some ⟨returned q.read s4.error, q.buf, q.posted, s4, lastHandshake⟩

end Socket

/-! ## The bytes and chunks a call accounts for -/

/-- The unread bytes of a list of chunks. -/
def unreadAll (chunks : List Chunk) : List UInt8 := chunks.flatMap Chunk.unread

@[simp]
theorem unreadAll_nil : unreadAll [] = [] := rfl

@[simp]
theorem unreadAll_cons (c : Chunk) (chunks : List Chunk) :
    unreadAll (c :: chunks) = c.unread ++ unreadAll chunks := rfl

@[simp]
theorem unreadAll_append (chunks more : List Chunk) :
    unreadAll (chunks ++ more) = unreadAll chunks ++ unreadAll more :=
  List.flatMap_append

/-- Chunks that wait in `buffers` have bytes to give. -/
def Waiting (chunks : List Chunk) : Prop := ∀ c ∈ chunks, c.Readable ∧ c.unread ≠ []

theorem waiting_nil : Waiting [] := by simp [Waiting]

theorem waiting_cons {c : Chunk} {chunks : List Chunk} :
    Waiting (c :: chunks) ↔ (c.Readable ∧ c.unread ≠ []) ∧ Waiting chunks := by
  simp [Waiting]

theorem waiting_append {chunks more : List Chunk} :
    Waiting (chunks ++ more) ↔ Waiting chunks ∧ Waiting more := by
  simp only [Waiting, List.mem_append]
  exact ⟨fun h => ⟨fun c hc => h c (.inl hc), fun c hc => h c (.inr hc)⟩,
    fun h c hc => hc.elim (h.1 c) (h.2 c)⟩

/-- The state of a call of length `len` after it has seen chunks that hold
`stream` and have the addresses `addrs`. -/
structure Serves (len : ℕ) (stream : List UInt8) (addrs : List ℕ) (p : Progress) :
    Prop where
  read_eq : p.read = p.buf.length
  read_le : p.read ≤ len
  full_of_left : p.buffers = [] ∨ p.read = len
  waiting : Waiting p.buffers
  stream_eq : p.buf ++ unreadAll p.buffers = stream
  addrs_perm : (p.posted.map Chunk.addr ++ p.buffers.map Chunk.addr).Perm addrs

/-- A request that the truncation in `read_buffers` does not touch: below four
gigabytes, or with no more bytes buffered than its low half. -/
def RequestFits (len buffered : ℕ) : Prop := len < 2 ^ 32 ∨ buffered ≤ len % 2 ^ 32

instance (len buffered : ℕ) : Decidable (RequestFits len buffered) :=
  inferInstanceAs (Decidable (_ ∨ _))

/-- A fitting request takes from its first chunk what it would take untruncated,
and what is left of it fits the rest. -/
theorem RequestFits.uncons {n first rest : ℕ} (hfits : RequestFits n (first + rest)) :
    min (n % 2 ^ 32) first = min n first ∧
      (min n first = first → RequestFits (n - first) rest) := by
  rcases hfits with hsmall | hfits
  · rw [Nat.mod_eq_of_lt hsmall]
    exact ⟨rfl, fun _ => .inl (by omega)⟩
  · have hmod := Nat.mod_le n (2 ^ 32)
    refine ⟨by omega, fun _ => .inr ?_⟩
    have hsub : (n - first) % 2 ^ 32 = n % 2 ^ 32 - first := by
      have hdecomp := Nat.div_add_mod n (2 ^ 32)
      have heq : n - first = n % 2 ^ 32 - first + 2 ^ 32 * (n / 2 ^ 32) := by omega
      rw [heq, Nat.add_mul_mod_self_left, Nat.mod_eq_of_lt]
      have hlt := Nat.mod_lt n (show 2 ^ 32 > 0 by norm_num)
      omega
    omega

/-- `read_buffers` serves the chunks it starts from. -/
theorem readChunks_spec {len : ℕ} (chunks : List Chunk) (read : ℕ) (hread : read < len)
    (hwaiting : Waiting chunks) (hfits : RequestFits (len - read) (unreadAll chunks).length) :
    (readChunks len read chunks).read = read + (readChunks len read chunks).buf.length ∧
      (readChunks len read chunks).read ≤ len ∧
      ((readChunks len read chunks).buffers = [] ∨ (readChunks len read chunks).read = len) ∧
      Waiting (readChunks len read chunks).buffers ∧
      (readChunks len read chunks).buf ++ unreadAll (readChunks len read chunks).buffers =
        unreadAll chunks ∧
      (readChunks len read chunks).posted.map Chunk.addr ++
        (readChunks len read chunks).buffers.map Chunk.addr = chunks.map Chunk.addr := by
  induction chunks generalizing read with
  | nil => simp [readChunks, waiting_nil, hread.le]
  | cons c rest ih =>
      obtain ⟨⟨hc, hne⟩, hrest⟩ := waiting_cons.mp hwaiting
      obtain ⟨hreadable, haddr, hcount, hout, hunread⟩ :=
        Chunk.read_spec hc ((len - read) % 2 ^ 32)
      rw [unreadAll_cons, List.length_append] at hfits
      obtain ⟨hmin, htail⟩ := hfits.uncons
      have hsplit : (c.read ((len - read) % 2 ^ 32)).out ++
          (c.read ((len - read) % 2 ^ 32)).chunk.unread = c.unread := by
        rw [hout, hunread, List.take_append_drop]
      have hlength : (c.read ((len - read) % 2 ^ 32)).count =
          (c.read ((len - read) % 2 ^ 32)).out.length := by
        rw [hcount, hout, List.length_take]
      have hover := Chunk.isOver_iff hreadable
      simp only [readChunks]
      generalize c.read ((len - read) % 2 ^ 32) = r at *
      rw [hmin] at hcount
      by_cases hlen : read + r.count = len
      · rw [if_pos hlen]
        by_cases hdone : r.chunk.isOver = true
        · rw [hover.mp hdone, List.append_nil] at hsplit
          have hend : read + c.unread.length = len := by rw [← hsplit, ← hlength, hlen]
          simp [hdone, hrest, hlength, hsplit, haddr, hend]
        · have hleft : r.chunk.unread ≠ [] := fun h => hdone (hover.mpr h)
          simp [hdone, waiting_cons, hreadable, hleft, hrest, ← hsplit, haddr, hlength]
          omega
      · rw [if_neg hlen]
        -- the request is not used up, so the chunk is
        have hall : min (len - read) c.unread.length = c.unread.length := by omega
        have hdone : r.chunk.unread = [] := by
          have h := congrArg List.length hsplit
          rw [List.length_append] at h
          exact List.eq_nil_of_length_eq_zero (by omega)
        have hfits' : RequestFits (len - (read + r.count)) (unreadAll rest).length := by
          have h := htail hall
          rwa [show len - (read + r.count) = len - read - c.unread.length by omega]
        obtain ⟨hread', hle, hleft, hwait, hstream, haddrs⟩ :=
          ih (read + r.count) (by omega) hrest hfits'
        rw [hdone, List.append_nil] at hsplit
        refine ⟨?_, hle, hleft, hwait, ?_, ?_⟩
        · rw [hread', List.length_append, ← hlength, Nat.add_assoc]
        · rw [List.append_assoc, hstream, hsplit, unreadAll_cons]
        · simp [hover.mpr hdone, haddr, haddrs]

/-- `read_buffers` serves the buffered chunks. -/
theorem serves_readBuffers {s : Socket} {len : ℕ} (hlen : 0 < len)
    (hwaiting : Waiting s.buffers) (hfits : RequestFits len (unreadAll s.buffers).length) :
    Serves len (unreadAll s.buffers) (s.buffers.map Chunk.addr) (s.readBuffers len) := by
  obtain ⟨hread, hle, hleft, hwait, hstream, haddrs⟩ :=
    readChunks_spec s.buffers 0 hlen hwaiting (by simpa using hfits)
  exact ⟨by simpa [Socket.readBuffers] using hread, hle, hleft, hwait, hstream,
    .of_eq haddrs⟩

/-- A successful completion always passes the assertion. -/
theorem handleCompletion_isSome (connected : Bool) (len : ℕ) (p : Polled) {w : IbvWc}
    (hsuccess : w.success = true) : (handleCompletion connected len p w).isSome = true := by
  simp only [handleCompletion, hsuccess, if_true]
  split_ifs <;> rfl

/-- The four things the loop can do with a successful completion. -/
theorem handleCompletion_cases {connected : Bool} {len : ℕ} {p q : Polled} {w : IbvWc}
    (hstep : handleCompletion connected len p w = some q) :
    (w.byteLen = 0 ∧ q.toProgress =
        ⟨p.read, p.buf, p.posted ++ [w.chunk.prepareRead w.byteLen], p.buffers⟩) ∨
      (0 < w.byteLen ∧ p.read = len ∧ q.toProgress =
        ⟨p.read, p.buf, p.posted, p.buffers ++ [w.chunk.prepareRead w.byteLen]⟩) ∨
      (p.read ≠ len ∧ len < p.read + w.byteLen ∧ q.toProgress =
        let r := (w.chunk.prepareRead w.byteLen).read ((len - p.read) % 2 ^ 32)
        ⟨p.read + r.count, p.buf ++ r.out, p.posted, p.buffers ++ [r.chunk]⟩) ∨
      (p.read ≠ len ∧ p.read + w.byteLen ≤ len ∧ q.toProgress =
        let r := (w.chunk.prepareRead w.byteLen).read w.byteLen
        ⟨p.read + r.count, p.buf ++ r.out, p.posted ++ [r.chunk], p.buffers⟩) := by
  unfold handleCompletion at hstep
  split at hstep
  · by_cases hzero : w.byteLen = 0
    · rw [if_pos hzero, Option.some.injEq] at hstep
      exact .inl ⟨hzero, by rw [← hstep]⟩
    · rw [if_neg hzero] at hstep
      by_cases hfull : p.read = len
      · rw [if_pos hfull, Option.some.injEq] at hstep
        exact .inr (.inl ⟨Nat.pos_of_ne_zero hzero, hfull, by rw [← hstep]⟩)
      · rw [if_neg hfull] at hstep
        by_cases hinside : len < p.read + w.byteLen
        · rw [if_pos hinside, Option.some.injEq] at hstep
          exact .inr (.inr (.inl ⟨hfull, hinside, by rw [← hstep]⟩))
        · rw [if_neg hinside, Option.some.injEq] at hstep
          exact .inr (.inr (.inr ⟨hfull, by omega, by rw [← hstep]⟩))
  · cases hstep

section Completion

variable {len : ℕ} {stream : List UInt8} {addrs : List ℕ} {p : Progress} {w : IbvWc}

/-- Posting a chunk adds it to the chunks accounted for. -/
theorem perm_post {posted buffers : List Chunk} {c : Chunk}
    (h : (posted.map Chunk.addr ++ buffers.map Chunk.addr).Perm addrs) :
    ((posted ++ [c]).map Chunk.addr ++ buffers.map Chunk.addr).Perm (addrs ++ [c.addr]) := by
  rw [List.map_append, List.append_assoc]
  exact ((List.perm_append_comm.append_left _).trans
    (.of_eq (List.append_assoc _ _ _).symm)).trans (h.append_right _)

/-- Keeping a chunk adds it to the chunks accounted for. -/
theorem perm_keep {posted buffers : List Chunk} {c : Chunk}
    (h : (posted.map Chunk.addr ++ buffers.map Chunk.addr).Perm addrs) :
    (posted.map Chunk.addr ++ (buffers ++ [c]).map Chunk.addr).Perm (addrs ++ [c.addr]) := by
  rw [List.map_append, ← List.append_assoc]
  exact h.append_right _

/-- A zero-length completion: its chunk is posted at once. -/
theorem Serves.postEmpty (hp : Serves len stream addrs p) (hzero : w.byteLen = 0) :
    Serves len (stream ++ w.payload) (addrs ++ [w.chunk.addr])
      ⟨p.read, p.buf, p.posted ++ [w.chunk.prepareRead w.byteLen], p.buffers⟩ where
  read_eq := hp.read_eq
  read_le := hp.read_le
  full_of_left := hp.full_of_left
  waiting := hp.waiting
  stream_eq := by
    have hnil : w.payload = [] := List.eq_nil_of_length_eq_zero (by simp [hzero])
    rw [hnil, List.append_nil, ← hp.stream_eq]
  addrs_perm := perm_post hp.addrs_perm

/-- The request is used up: the chunk waits. -/
theorem Serves.keep (hp : Serves len stream addrs p) (hpos : 0 < w.byteLen)
    (hfull : p.read = len) :
    Serves len (stream ++ w.payload) (addrs ++ [w.chunk.addr])
      ⟨p.read, p.buf, p.posted, p.buffers ++ [w.chunk.prepareRead w.byteLen]⟩ where
  read_eq := hp.read_eq
  read_le := hp.read_le
  full_of_left := .inr hfull
  waiting := by
    obtain ⟨hreadable, hunread⟩ := w.prepared
    have hne : w.payload ≠ [] := List.ne_nil_of_length_pos (by simpa using hpos)
    exact waiting_append.mpr
      ⟨hp.waiting, waiting_cons.mpr ⟨⟨hreadable, hunread ▸ hne⟩, waiting_nil⟩⟩
  stream_eq := by
    rw [unreadAll_append, ← List.append_assoc, hp.stream_eq, unreadAll_cons, w.prepared.2,
      unreadAll_nil, List.append_nil]
  addrs_perm := perm_keep hp.addrs_perm

/-- The request ends inside the chunk, whose rest waits. -/
theorem Serves.start (hp : Serves len stream addrs p) (hfull : p.read ≠ len)
    (hinside : len < p.read + w.byteLen) :
    Serves len (stream ++ w.payload) (addrs ++ [w.chunk.addr])
      (let r := (w.chunk.prepareRead w.byteLen).read ((len - p.read) % 2 ^ 32)
       ⟨p.read + r.count, p.buf ++ r.out, p.posted, p.buffers ++ [r.chunk]⟩) := by
  obtain ⟨hread, hle, hleft, hwait, hstream, haddrs⟩ := hp
  obtain ⟨hprepared, hunread⟩ := w.prepared
  have hbyteLen : w.byteLen < 2 ^ 32 := lt_of_le_of_lt w.byteLen_le w.bytes_lt
  have hmod : (len - p.read) % 2 ^ 32 = len - p.read := Nat.mod_eq_of_lt (by omega)
  have hempty : p.buffers = [] := hleft.resolve_right hfull
  obtain ⟨hreadable, haddr, hcount, hout, hrest⟩ := Chunk.read_spec hprepared (len - p.read)
  rw [hunread] at hcount hout hrest
  rw [w.length_payload] at hcount
  rw [hempty, unreadAll_nil, List.append_nil] at hstream
  rw [hmod]
  generalize (w.chunk.prepareRead w.byteLen).read (len - p.read) = r at *
  have hne : r.chunk.unread ≠ [] := by
    rw [hrest, Ne, List.drop_eq_nil_iff, w.length_payload]
    omega
  have hend : p.read + r.count = len := by omega
  refine ⟨?_, hend.le, .inr hend, ?_, ?_, ?_⟩
  · simp only [List.length_append, hout, List.length_take, w.length_payload, hcount, ← hread]
  · exact waiting_append.mpr ⟨hwait, waiting_cons.mpr ⟨⟨hreadable, hne⟩, waiting_nil⟩⟩
  · simp [hempty, hstream, hout, hrest]
  · rw [← Chunk.addr_prepareRead w.chunk w.byteLen, ← haddr]
    exact perm_keep haddrs

/-- The request covers the chunk, which is copied out and posted. -/
theorem Serves.finish (hp : Serves len stream addrs p) (hfull : p.read ≠ len)
    (hcover : p.read + w.byteLen ≤ len) :
    Serves len (stream ++ w.payload) (addrs ++ [w.chunk.addr])
      (let r := (w.chunk.prepareRead w.byteLen).read w.byteLen
       ⟨p.read + r.count, p.buf ++ r.out, p.posted ++ [r.chunk], p.buffers⟩) := by
  obtain ⟨hread, hle, hleft, -, hstream, haddrs⟩ := hp
  obtain ⟨hprepared, hunread⟩ := w.prepared
  have hempty : p.buffers = [] := hleft.resolve_right hfull
  obtain ⟨-, haddr, hcount, hout, -⟩ := Chunk.read_spec hprepared w.byteLen
  rw [hunread, w.length_payload, Nat.min_self] at hcount
  rw [hunread, List.take_of_length_le w.length_payload.le] at hout
  rw [hempty, unreadAll_nil, List.append_nil] at hstream
  generalize (w.chunk.prepareRead w.byteLen).read w.byteLen = r at *
  refine ⟨?_, ?_, .inl hempty, hempty ▸ waiting_nil, ?_, ?_⟩
  · simp only [List.length_append, hout, w.length_payload, hcount, ← hread]
  · simpa only [hcount] using hcover
  · simp [hempty, hstream, hout]
  · rw [← Chunk.addr_prepareRead w.chunk w.byteLen, ← haddr]
    exact perm_post haddrs

end Completion

/-- **The completion step.**  The call serves the bytes and the chunk of the
completion too, whichever of the four branches takes it. -/
theorem Serves.handleCompletion {connected : Bool} {len : ℕ} {stream : List UInt8}
    {addrs : List ℕ} {p q : Polled} {w : IbvWc} (hp : Serves len stream addrs p.toProgress)
    (hstep : handleCompletion connected len p w = some q) :
    Serves len (stream ++ w.payload) (addrs ++ [w.chunk.addr]) q.toProgress := by
  rcases handleCompletion_cases hstep with ⟨hzero, hq⟩ | ⟨hpos, hfull, hq⟩ |
    ⟨hfull, hinside, hq⟩ | ⟨hfull, hcover, hq⟩
  · exact hq ▸ hp.postEmpty hzero
  · exact hq ▸ hp.keep hpos hfull
  · exact hq ▸ hp.start hfull hinside
  · exact hq ▸ hp.finish hfull hcover

/-- **The completion loop** serves the whole batch. -/
theorem Serves.completions {connected : Bool} {len : ℕ} {cqe : List IbvWc} {p q : Polled}
    {stream : List UInt8} {addrs : List ℕ} (hp : Serves len stream addrs p.toProgress)
    (hloop : cqe.foldlM (HwAsync.Rdma.handleCompletion connected len) p = some q) :
    Serves len (stream ++ cqe.flatMap IbvWc.payload)
      (addrs ++ cqe.map fun w => w.chunk.addr) q.toProgress := by
  induction cqe generalizing p stream addrs with
  | nil =>
      obtain rfl : p = q := by simpa using hloop
      simpa using hp
  | cons w rest ih =>
      simp only [List.foldlM_cons, Option.bind_eq_bind, Option.bind_eq_some_iff] at hloop
      obtain ⟨p', hstep, hrest⟩ := hloop
      have h := ih (hp.handleCompletion hstep) hrest
      simpa only [List.flatMap_cons, List.map_cons, List.append_assoc, List.singleton_append]
        using h

/-- A batch of successful completions never trips the assertion. -/
theorem completions_isSome {connected : Bool} {len : ℕ} {cqe : List IbvWc} (p : Polled)
    (hsuccess : ∀ w ∈ cqe, w.success = true) :
    ∃ q, cqe.foldlM (handleCompletion connected len) p = some q := by
  induction cqe generalizing p with
  | nil => exact ⟨p, rfl⟩
  | cons w rest ih =>
      obtain ⟨p', hstep⟩ := Option.isSome_iff_exists.mp
        (handleCompletion_isSome connected len p (hsuccess w (by simp)))
      obtain ⟨q, hrest⟩ := ih p' fun v hv => hsuccess v (by simp [hv])
      exact ⟨q, by simp [List.foldlM_cons, hstep, hrest]⟩

/-- A call that copied nothing found nothing. -/
theorem Serves.eq_nil {len : ℕ} {stream : List UInt8} {addrs : List ℕ} {p : Progress}
    (hp : Serves len stream addrs p) (hlen : 0 < len) (hread : p.read = 0) :
    p.buf = [] ∧ p.buffers = [] := by
  have hbuf := hp.read_eq
  exact ⟨List.eq_nil_of_length_eq_zero (by omega), hp.full_of_left.resolve_right (by omega)⟩

/-! ## One call -/

/-- What a `read` on a socket returns and leaves, in terms of the bytes and
chunks that were waiting before. -/
structure ReadExact (before : Socket) (o : ReadOutcome) : Prop where
  active : o.socket.active = true
  connected : o.socket.connected = true
  drained : o.socket.wc = []
  waiting : Waiting o.socket.buffers
  returned : o.ret = o.buf.length ∨ o.ret < 0 ∧ o.buf = []
  stream_eq : o.buf ++ unreadAll o.socket.buffers =
    unreadAll before.buffers ++ before.wc.flatMap IbvWc.payload
  addrs_perm : (o.posted.map Chunk.addr ++ o.socket.buffers.map Chunk.addr).Perm
    (before.buffers.map Chunk.addr ++ before.wc.map fun w => w.chunk.addr)
  reset_empty : o.ret = -econnreset → unreadAll o.socket.buffers = []

namespace Socket

@[simp]
theorem notifyBuffered_buffers (s : Socket) : s.notifyBuffered.buffers = s.buffers := by
  by_cases h : s.buffers = [] <;> simp [notifyBuffered, notify, h]

@[simp]
theorem notifyBuffered_wc (s : Socket) : s.notifyBuffered.wc = s.wc := by
  by_cases h : s.buffers = [] <;> simp [notifyBuffered, notify, h]

@[simp]
theorem notifyBuffered_active (s : Socket) : s.notifyBuffered.active = s.active := by
  by_cases h : s.buffers = [] <;> simp [notifyBuffered, notify, h]

@[simp]
theorem notifyBuffered_connected (s : Socket) :
    s.notifyBuffered.connected = s.connected := by
  by_cases h : s.buffers = [] <;> simp [notifyBuffered, notify, h]

@[simp]
theorem notifyBuffered_error (s : Socket) : s.notifyBuffered.error = s.error := by
  by_cases h : s.buffers = [] <;> simp [notifyBuffered, notify, h]

variable {s : Socket} {len : ℕ}

/-- `read` on a socket that is ready, whether completions have arrived or not. -/
theorem read_of_ready (hactive : s.active = true) (hconnected : s.connected = true) {q : Polled}
    (hloop : s.wc.foldlM (handleCompletion true len) ⟨s.readBuffers len, s.error⟩ = some q) :
    s.read len = some ⟨returned q.read q.error, q.buf, q.posted,
      { s with
        notifyCount := 0, wc := [], buffers := q.buffers, error := q.error }.notifyBuffered,
      false⟩ := by
  simp only [readBuffers] at hloop
  by_cases hwc : s.wc = []
  · rw [hwc] at hloop
    cases hloop
    simp [read, readBuffers, hactive, hconnected, hwc]
  · simp [read, readBuffers, hactive, hconnected, hwc, hloop]

/-- A call on a socket that is not ready only drains its notification. -/
theorem read_of_not_ready (h : ¬ (s.active = true ∧ s.connected = true)) :
    s.read len = some ⟨-eagain, [], [], { s with notifyCount := 0 }, false⟩ := by
  by_cases hactive : s.active = true
  · have hconnected : s.connected ≠ true := fun hconnected => h ⟨hactive, hconnected⟩
    simp [read, hactive, hconnected]
  · simp [read, hactive]

/-- What a call returns whose completions all succeeded. -/
theorem read_eq_some (len : ℕ) (hactive : s.active = true) (hconnected : s.connected = true)
    (hsuccess : ∀ w ∈ s.wc, w.success = true) :
    ∃ q, s.wc.foldlM (handleCompletion true len) ⟨s.readBuffers len, s.error⟩ = some q ∧
      s.read len = some ⟨returned q.read q.error, q.buf, q.posted,
        { s with
          notifyCount := 0, wc := [], buffers := q.buffers, error := q.error }.notifyBuffered,
        false⟩ := by
  obtain ⟨q, hloop⟩ := @completions_isSome true len s.wc ⟨s.readBuffers len, s.error⟩ hsuccess
  exact ⟨q, hloop, read_of_ready hactive hconnected hloop⟩

end Socket

/-- A call whose completions all succeeded returns. -/
theorem Socket.read_isSome {s : Socket} (hsuccess : ∀ w ∈ s.wc, w.success = true) (len : ℕ) :
    (s.read len).isSome = true := by
  by_cases hready : s.active = true ∧ s.connected = true
  · obtain ⟨q, -, hread⟩ := Socket.read_eq_some len hready.1 hready.2 hsuccess
    rw [hread]
    rfl
  · rw [Socket.read_of_not_ready hready]
    rfl

/-- A call that served `stream` and `addrs` is exact about them. -/
theorem Serves.returned {len : ℕ} {stream : List UInt8} {addrs : List ℕ} {p : Progress}
    (hp : Serves len stream addrs p) (hlen : 0 < len) (error : ℕ) :
    (returned p.read error = p.buf.length ∨ returned p.read error < 0 ∧ p.buf = []) ∧
      (returned p.read error = -econnreset → unreadAll p.buffers = []) := by
  have hread := hp.read_eq
  by_cases hpos : 0 < p.read
  · rw [HwAsync.Rdma.returned, if_pos hpos]
    exact ⟨.inl (by rw [hread]), fun h => absurd h (by unfold econnreset; omega)⟩
  · obtain ⟨hbuf, hbuffers⟩ := hp.eq_nil hlen (by omega)
    have hneg : HwAsync.Rdma.returned p.read error < 0 := by
      rw [HwAsync.Rdma.returned, if_neg hpos]
      split
      · omega
      · simp [eagain]
    exact ⟨.inr ⟨hneg, hbuf⟩, fun _ => by simp [hbuffers]⟩

/-- **One call of `read`** on an active, connected socket whose completions all
succeeded returns, and accounts for every byte and chunk. -/
theorem read_exact {s : Socket} {len : ℕ} (hactive : s.active = true)
    (hconnected : s.connected = true) (hwaiting : Waiting s.buffers)
    (hsuccess : ∀ w ∈ s.wc, w.success = true) (hlen : 0 < len)
    (hfits : RequestFits len (unreadAll s.buffers).length) :
    ∃ o, s.read len = some o ∧ ReadExact s o := by
  have hp := serves_readBuffers hlen hwaiting hfits
  obtain ⟨q, hloop, hread⟩ := Socket.read_eq_some len hactive hconnected hsuccess
  refine ⟨_, hread, ?_⟩
  have hq := Serves.completions hp hloop
  obtain ⟨hret, hreset⟩ := hq.returned hlen q.error
  exact
    { active := by simpa using hactive
      connected := by simpa using hconnected
      drained := by simp
      waiting := by simpa using hq.waiting
      returned := hret
      stream_eq := by simpa using hq.stream_eq
      addrs_perm := by simpa using hq.addrs_perm
      reset_empty := by simpa using hreset }

/-! ## Runs -/

/-- A socket with everything that was passed to it and taken from it, and the
socket and outcome of the last call. -/
structure ReadRun where
  socket : Socket
  arrived : List UInt8
  delivered : List UInt8
  received : List ℕ
  posted : List ℕ
  last : Option (Socket × ReadOutcome)

inductive ReadAction
  | passWc (addWc : List IbvWc)
  | read (len : ℕ)

/-- The bytes a call returned are the first `ret` in the caller's buffer. -/
def ReadOutcome.bytes (o : ReadOutcome) : List UInt8 := o.buf.take o.ret.toNat

namespace ReadRun

/-- One step: successful completions arrive, or a caller with a buffer of `len`
bytes, as large as an object may be, reads. -/
def step (r : ReadRun) : ReadAction → Option ReadRun
  | .passWc addWc =>
      if ∀ w ∈ addWc, w.success = true then
        some { r with
          socket := r.socket.passWc addWc
          arrived := r.arrived ++ addWc.flatMap IbvWc.payload
          received := r.received ++ addWc.map fun w => w.chunk.addr }
      else none
  | .read len =>
      if 0 < len ∧ len < 2 ^ 63 then
        match r.socket.read len with
        | none => none
        | some o =>
            some { r with
              socket := o.socket
              delivered := r.delivered ++ o.bytes
              posted := r.posted ++ o.posted.map Chunk.addr
              last := some (r.socket, o) }
      else none

/-- An active, connected socket that has not received anything. -/
structure Fresh (r : ReadRun) : Prop where
  active : r.socket.active = true
  connected : r.socket.connected = true
  buffers : r.socket.buffers = []
  wc : r.socket.wc = []
  arrived : r.arrived = []
  delivered : r.delivered = []
  received : r.received = []
  posted : r.posted = []
  last : r.last = none

/-- Every request fits what is buffered when it is made. -/
def requestFits (r : ReadRun) : ReadAction → Prop
  | .passWc _ => True
  | .read len => RequestFits len (unreadAll r.socket.buffers).length

instance (r : ReadRun) (a : ReadAction) : Decidable (r.requestFits a) :=
  match a with
  | .passWc _ => .isTrue trivial
  | .read _ => inferInstanceAs (Decidable (RequestFits _ _))

/-- The queue of bytes that the socket implements. -/
def view (r : ReadRun) : Fifo UInt8 where
  arrived := r.arrived
  delivered := r.delivered
  held := unreadAll r.socket.buffers ++ r.socket.wc.flatMap IbvWc.payload

/-- The addresses of the chunks the socket holds. -/
def holding (r : ReadRun) : List ℕ :=
  r.socket.buffers.map Chunk.addr ++ r.socket.wc.map fun w => w.chunk.addr

/-- Exact delivery and accounting after a run: the delivered bytes and the held
ones are those that arrived; every chunk was posted once or is held, and is held
in `buffers` only with a byte to give; each call posted the chunks it finished
and reported a reset only with nothing buffered; and `read` always returns. -/
structure StreamExact (r : ReadRun) : Prop where
  stream : r.delivered ++ r.view.held = r.arrived
  posted_once : (r.posted ++ r.holding).Perm r.received
  buffered : ∀ c ∈ r.socket.buffers, c.unread ≠ []
  calls : ∀ before o, r.last = some (before, o) →
    (o.posted.map Chunk.addr ++ o.socket.buffers.map Chunk.addr).Perm
        (before.buffers.map Chunk.addr ++ before.wc.map fun w => w.chunk.addr) ∧
      (o.ret = -econnreset → unreadAll o.socket.buffers = [])
  returns : ∀ len, (r.socket.read len).isSome = true

/-- What every run maintains besides the stream. -/
structure Sound (r : ReadRun) : Prop where
  active : r.socket.active = true
  connected : r.socket.connected = true
  waiting : Waiting r.socket.buffers
  success : ∀ w ∈ r.socket.wc, w.success = true
  posted_once : (r.posted ++ r.holding).Perm r.received
  calls : ∀ before o, r.last = some (before, o) → ReadExact before o

end ReadRun

/-- The socket under `pass_wc` and `read`. -/
def readMachine : Machine ReadRun ReadAction where
  start := ReadRun.Fresh
  step := ReadRun.step

namespace ReadRun

variable {r t : ReadRun}

theorem Fresh.sound (hfresh : r.Fresh) : r.Sound where
  active := hfresh.active
  connected := hfresh.connected
  waiting := hfresh.buffers ▸ waiting_nil
  success := by simp [hfresh.wc]
  posted_once := by simp [holding, hfresh.posted, hfresh.buffers, hfresh.wc, hfresh.received]
  calls := by simp [hfresh.last]

/-- What a step can do. -/
theorem step_cases {a : ReadAction} (hstep : r.step a = some t) :
    (∃ addWc, a = .passWc addWc ∧ (∀ w ∈ addWc, w.success = true) ∧
      t = { r with
        socket := r.socket.passWc addWc
        arrived := r.arrived ++ addWc.flatMap IbvWc.payload
        received := r.received ++ addWc.map fun w => w.chunk.addr }) ∨
    (∃ len o, a = .read len ∧ 0 < len ∧ r.socket.read len = some o ∧
      t = { r with
        socket := o.socket
        delivered := r.delivered ++ o.bytes
        posted := r.posted ++ o.posted.map Chunk.addr
        last := some (r.socket, o) }) := by
  cases a with
  | passWc addWc =>
      simp only [step] at hstep
      split at hstep
      · exact .inl ⟨addWc, rfl, ‹_›, (Option.some.inj hstep).symm⟩
      · cases hstep
  | read len =>
      simp only [step] at hstep
      split at hstep
      · cases hread : r.socket.read len with
        | none => simp [hread] at hstep
        | some o =>
            simp only [hread, Option.some.injEq] at hstep
            exact .inr ⟨len, o, rfl, (‹_ ∧ _›).1, hread, hstep.symm⟩
      · cases hstep

/-- The bytes of an exact call are all that it copied. -/
theorem bytes_of_exact {before : Socket} {o : ReadOutcome} (hexact : ReadExact before o) :
    o.bytes = o.buf := by
  rcases hexact.returned with hret | ⟨-, hbuf⟩
  · simp [ReadOutcome.bytes, hret]
  · simp [ReadOutcome.bytes, hbuf]

/-- The step lemma: soundness is kept, and the view makes a move of the queue. -/
theorem Sound.step {a : ReadAction} (hsound : r.Sound) (hok : r.requestFits a)
    (hstep : r.step a = some t) :
    t.Sound ∧ ((fifoMachine UInt8).Reached r.view → (fifoMachine UInt8).Reached t.view) := by
  rcases step_cases hstep with ⟨addWc, rfl, hsuccess, rfl⟩ | ⟨len, o, rfl, hlen, hread, rfl⟩
  · refine ⟨⟨by simpa using hsound.active, by simpa using hsound.connected,
      by simpa using hsound.waiting, ?_, ?_, hsound.calls⟩, fun hreached => ?_⟩
    · intro w hw
      simp only [Socket.passWc_wc, List.mem_append] at hw
      exact hw.elim (hsound.success w) (hsuccess w)
    · simpa [holding] using hsound.posted_once.append_right (addWc.map fun w => w.chunk.addr)
    · simpa [view, Fifo.step] using
        Fifo.reached_arrive hreached (addWc.flatMap IbvWc.payload)
  · obtain ⟨o', hread', hexact⟩ := read_exact hsound.active hsound.connected hsound.waiting
      hsound.success hlen hok
    obtain rfl : o = o' := Option.some.inj (hread.symm.trans hread')
    refine ⟨⟨hexact.active, hexact.connected, hexact.waiting, by simp [hexact.drained], ?_, ?_⟩,
      fun hreached => ?_⟩
    · have h := (hexact.addrs_perm.append_left r.posted).trans hsound.posted_once
      simpa [holding, hexact.drained] using h
    · intro before o' hlast
      obtain ⟨rfl, rfl⟩ : r.socket = before ∧ o = o' := by simpa using hlast
      exact hexact
    · have h := Fifo.reached_deliver hreached
        (show r.view.held = o.buf ++ unreadAll o.socket.buffers from hexact.stream_eq.symm)
      simpa [view, hexact.drained, bytes_of_exact hexact] using h

/-- **Refinement.**  A run with fitting requests is a run of the byte queue. -/
theorem sound_and_refines (hreached : readMachine.ReachedUnder requestFits r) :
    r.Sound ∧ (fifoMachine UInt8).Reached r.view := by
  refine hreached.invariant (fun r => r.Sound ∧ (fifoMachine UInt8).Reached r.view) ?_ ?_
  · intro r hfresh
    refine ⟨hfresh.sound, .start ?_⟩
    simp [fifoMachine, view, hfresh.arrived, hfresh.delivered, hfresh.buffers, hfresh.wc]
  · intro r a t hr hok hstep
    obtain ⟨hsound, hmove⟩ := hr.1.step hok hstep
    exact ⟨hsound, hmove hr.2⟩

/-- **The byte stream.**  Runs whose requests fit deliver the payloads in order and
account for every chunk. -/
theorem streamExact_of_fits (hreached : readMachine.ReachedUnder requestFits r) :
    r.StreamExact := by
  obtain ⟨hsound, hfifo⟩ := sound_and_refines hreached
  exact
    { stream := Fifo.delivered_append_held hfifo
      posted_once := hsound.posted_once
      buffered := fun c hc => (hsound.waiting c hc).2
      calls := fun before o hlast =>
        ⟨(hsound.calls before o hlast).addrs_perm, (hsound.calls before o hlast).reset_empty⟩
      returns := Socket.read_isSome hsound.success }

/-- A chunk of two bytes that arrived whole. -/
def twoBytes : IbvWc where
  chunk := ⟨7, 2, 0, 0, [10, 20], rfl⟩
  byteLen := 2
  success := true
  byteLen_le := by decide
  bytes_lt := by decide

/-- An active, connected socket before its first completion. -/
def freshRun : ReadRun where
  socket := quietSocket
  arrived := []
  delivered := []
  received := []
  posted := []
  last := none

theorem fresh_freshRun : freshRun.Fresh := ⟨rfl, rfl, rfl, rfl, rfl, rfl, rfl, rfl, rfl⟩

/-- One byte is read from the two that arrived, and the other one stays held. -/
theorem streamExact_of_fits_twoBytes :
    ∃ r : ReadRun, r.delivered = [10] ∧ unreadAll r.socket.buffers = [20] ∧ r.StreamExact := by
  obtain ⟨r, hreplay, hdelivered, hbuffers⟩ : ∃ r,
      readMachine.replay requestFits freshRun [.passWc [twoBytes], .read 1] = some r ∧
        r.delivered = [10] ∧ unreadAll r.socket.buffers = [20] := ⟨_, rfl, rfl, rfl⟩
  exact ⟨r, hdelivered, hbuffers,
    streamExact_of_fits (.of_replay (.start fresh_freshRun) hreplay)⟩

/-- A request of four gigabytes asks `Chunk::read` for no byte, takes the chunk
off `buffers` all the same, and returns `-EAGAIN`. -/
theorem not_streamExact_four_gigabytes :
    ∃ r : ReadRun, readMachine.Reached r ∧ r.delivered = [10] ∧ r.socket.buffers = [] ∧
      r.posted = [] ∧ ¬ r.StreamExact := by
  obtain ⟨r, hreplay, hdelivered, hbuffers, hposted, harrived, hwc⟩ : ∃ r,
      readMachine.replay (fun _ _ => True) freshRun
          [.passWc [twoBytes], .read 1, .read (2 ^ 32)] = some r ∧
        r.delivered = [10] ∧ r.socket.buffers = [] ∧ r.posted = [] ∧ r.arrived = [10, 20] ∧
        r.socket.wc = [] := ⟨_, rfl, rfl, rfl, rfl, rfl, rfl⟩
  refine ⟨r, .of_replay (.start fresh_freshRun) hreplay, hdelivered, hbuffers, hposted, ?_⟩
  intro hexact
  have h := hexact.stream
  simp [view, hdelivered, hbuffers, harrived, hwc] at h

end ReadRun

end HwAsync.Rdma
