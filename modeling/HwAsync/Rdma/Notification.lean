/-
# The notifications of a socket

The worker learns from `notify_fd` that a socket has something to read.  `read` clears it first and
looks then, and may find that the connection is not up; `zero_copy_read` leaves it alone.  Meanwhile
the dispatcher's thread passes completions, and may fault the socket.

The functions are taken apart here at every access to what both threads use: a thread may be
interrupted before each test of `active` or `connected`, each assignment, each notification, and
before it takes the lock.  Taken by itself a call is the one of the other modules.
-/

import HwAsync.Lib.Run
import HwAsync.Rdma.Handshake
import HwAsync.Rdma.ZeroCopy

namespace HwAsync.Rdma

open HwAsync.Lib HwAsync.Infiniband

deriving instance DecidableEq for Progress

/-! ## The threads -/

/-- How far `fault` is: before each of its three statements. -/
inductive Faulting
  | error
  | connected
  | notify
  deriving DecidableEq, Repr

/-- One statement of `fault`. -/
def Faulting.run (s : Socket) : Faulting → Option Faulting × Socket
  | .error => (some .connected, { s with error := econnreset })
  | .connected => (some .notify, { s with connected := true })
  | .notify => (none, s.notify)

/-- Where the worker is.  In `read` it is before the tests of `active` and `connected`, before
`read_buffers`, before `get_wc`, in the loop over the completions, in the branch for a server without
the last handshake message, or before the last notification; in `zero_copy_read` before `get_wc`, or
with what it got.  In `handle_connection` it is before the tests of `connected`, in the client's or
the server's branch, before `send_msg`, or in `fault`; in `shutdown` before its last statement. -/
inductive WorkerAt
  | outside
  | testActive (len : ℕ)
  | testConnected (len : ℕ)
  | readBuffers (len : ℕ)
  | getWc (len : ℕ) (p : Progress)
  | consume (len : ℕ) (p : Progress) (cqe : List IbvWc)
  | lastHandshake
  | lastSubmit
  | notifyBuffered
  | fetch (posted : List Chunk)
  | take (posted : List Chunk) (cqe : List IbvWc)
  | checkConnected
  | clientCheck
  | clientSubmit
  | clientActivate
  | clientNotify
  | serverActivate
  | acknowledge
  | ackSubmit
  | ackNotify
  | reply
  | faulting (f : Faulting)
  | shutdown
  deriving DecidableEq

/-- A socket with its worker and the dispatcher's thread. -/
structure NotifyRun where
  socket : Socket
  side : TxSide
  worker : WorkerAt
  dispatcher : Option Faulting

/-- What happens next: the worker calls a function or goes on with it, the system answering as `env`
says; or the dispatcher's thread passes completions, calls `fault`, or goes on with it.  `recv` is
what `recv_msg` returned. -/
inductive NotifyAction
  | read (len : ℕ)
  | zeroCopyRead
  | handleConnection (recv : ℤ × IBSYNMsg)
  | shutdown
  | fault
  | work (env : ConnEnv)
  | passWc (addWc : List IbvWc)
  | faultByDispatcher
  | dispatch

namespace NotifyRun

/-- `submit(false)`, and on to `next`. -/
def submitting (worker o : ℕ) (env : ConnEnv) (next : WorkerAt) (r : NotifyRun) :
    Option NotifyRun :=
  match r.socket.submit worker o r.side env.post with
  | none => none
  | some out => some { r with socket := out.socket, side := out.side, worker := next }

/-- The next statement of the worker; none outside, and where an assertion fails. -/
def work (worker o : ℕ) (env : ConnEnv) (r : NotifyRun) : Option NotifyRun :=
  let s := r.socket
  match r.worker with
  | .outside => none
  | .testActive len =>
      some { r with worker := if s.active then .testConnected len else .outside }
  | .testConnected len =>
      some { r with worker := if s.connected then .readBuffers len else .outside }
  | .readBuffers len =>
      let p := s.readBuffers len
      some { r with socket := { s with buffers := p.buffers }, worker := .getWc len p }
  | .getWc len p =>
      let (cqe, s') := s.getWc
      some { r with
        socket := s'
        worker := if cqe = [] then .notifyBuffered else .consume len p cqe }
  | .consume _ _ [] =>
      some { r with
        worker := if s.isServer && !s.connected then .lastHandshake else .notifyBuffered }
  | .consume len p (response :: cqe) =>
      match handleCompletion s.connected len ⟨p, s.error⟩ response with
      | none => none
      | some q =>
          some { r with
            socket := { s with buffers := q.buffers, error := q.error }
            worker := .consume len q.toProgress cqe }
  | .lastHandshake =>
      some { r with socket := { s with connected := true }.cleanup, worker := .lastSubmit }
  | .lastSubmit => r.submitting worker o env .notifyBuffered
  | .notifyBuffered => some { r with socket := s.notifyBuffered, worker := .outside }
  | .fetch posted =>
      let (cqe, s') := s.getWc
      some { r with socket := s', worker := if cqe = [] then .outside else .take posted cqe }
  | .take posted cqe =>
      match cqe.foldlM (takeCompletion s.connected) ⟨posted, s.buffers, none⟩ with
      | .error _ => none
      | .ok p =>
          match p.buffers.getLast? with
          | none => none
          | some _ =>
              some { r with
                socket := { s with buffers := p.buffers.dropLast }
                worker := .outside }
  | .checkConnected =>
      if s.connected then some { r with worker := .faulting .error }
      else if !s.isServer then
        some { r with
          socket := { s with myMsg := { s.myMsg with peerQpn := s.peerMsg.qpn } }
          worker := .clientCheck }
      else if s.peerMsg.peerQpn = 0 then
        some { r with worker := if s.active then .outside else .serverActivate }
      else some { r with worker := .acknowledge }
  | .clientCheck =>
      if s.connected then some { r with worker := .clientNotify }
      else if env.rtr && env.rts then
        some { r with
          socket := { s with qp := s.readyToSend, connected := true }
          worker := .clientSubmit }
      else none
  | .clientSubmit => r.submitting worker o env .clientActivate
  | .clientActivate =>
      some { r with socket := { s with active := true }, worker := .clientNotify }
  | .clientNotify => some { r with socket := s.notify, worker := .reply }
  | .serverActivate =>
      if env.rtr && env.rts then
        some { r with socket := { s with qp := s.readyToSend, active := true }, worker := .reply }
      else none
  | .acknowledge => some { r with socket := { s with connected := true }, worker := .ackSubmit }
  | .ackSubmit => r.submitting worker o env .ackNotify
  | .ackNotify => some { r with socket := s.notify, worker := .outside }
  | .reply =>
      some { r with
        worker := if sendMsg env.write 0 < 0 then .faulting .error else .outside }
  | .faulting f =>
      let (next, s') := f.run s
      some { r with
        socket := s'
        worker := match next with
          | none => .outside
          | some f => .faulting f }
  | .shutdown => some { r with socket := { s with active := false }, worker := .outside }

/-- The worker enters a function. -/
def enter (r : NotifyRun) : NotifyAction → Option NotifyRun
  | .read len =>
      some { r with
        socket := { r.socket with notifyCount := 0 }
        worker := .testActive len }
  | .zeroCopyRead =>
      if r.socket.error ≠ 0 then some r
      else
        match popChunks r.socket.buffers.reverse with
        | (posted, found, earlier) =>
            some { r with
              socket := { r.socket with buffers := earlier.reverse }
              worker := if found.isSome then .outside else .fetch posted }
  | .handleConnection recv =>
      some { r with
        socket := { r.socket with peerMsg := recv.2 }
        worker :=
          if recv.1 < 0 then
            if recv.1 ≠ -eagain then .faulting .error else .outside
          else .checkConnected }
  | .shutdown =>
      some { r with
        socket := { r.socket with error := econnreset }
        worker := .shutdown }
  | .fault => some { r with worker := .faulting .error }
  | _ => none

/-- A step of one of the threads. -/
def step (worker o : ℕ) (r : NotifyRun) : NotifyAction → Option NotifyRun
  | .work env => r.work worker o env
  | .passWc addWc =>
      match r.dispatcher with
      | none => some { r with socket := r.socket.passWc addWc }
      | some _ => none
  | .faultByDispatcher =>
      match r.dispatcher with
      | none => some { r with dispatcher := some .error }
      | some _ => none
  | .dispatch =>
      match r.dispatcher with
      | none => none
      | some f =>
          let (next, s) := f.run r.socket
          some { r with socket := s, dispatcher := next }
  | a =>
      match r.worker with
      | .outside => r.enter a
      | _ => none

/-- A constructed socket, of either role. -/
structure Fresh (r : NotifyRun) : Prop where
  connected : r.socket.connected = false
  active : r.socket.active = false
  wc : r.socket.wc = []
  buffers : r.socket.buffers = []
  worker : r.worker = .outside
  dispatcher : r.dispatcher = none

end NotifyRun

/-- One socket, of a worker, with both threads. -/
def notifyMachine (worker o : ℕ) : Machine NotifyRun NotifyAction :=
  ⟨NotifyRun.Fresh, NotifyRun.step worker o⟩

namespace NotifyRun

theorem getWc_eq (s : Socket) : s.getWc = (s.wc, { s with wc := [] }) :=
  Prod.ext (Socket.getWc_fst s) (Socket.getWc_snd s)

/-! ## A call by itself -/

section Alone

variable {worker o : ℕ} {s : Socket} {side : TxSide} {d : Option Faulting}

/-- Steps of the worker alone. -/
abbrev Works (worker o : ℕ) : NotifyRun → NotifyRun → Prop :=
  Relation.ReflTransGen ((notifyMachine worker o).Moves fun _ _ => True)

theorem Works.work {r t u : NotifyRun} (env : ConnEnv) (hwork : r.work worker o env = some t)
    (hrest : Works worker o t u) : Works worker o r u :=
  .head ⟨.work env, trivial, hwork⟩ hrest

theorem Works.enter {t u : NotifyRun} {a : NotifyAction}
    (hstep : (⟨s, side, .outside, d⟩ : NotifyRun).step worker o a = some t)
    (hrest : Works worker o t u) : Works worker o ⟨s, side, .outside, d⟩ u :=
  .head ⟨a, trivial, hstep⟩ hrest

/-- The three statements of `fault`. -/
theorem works_fault (env : ConnEnv) :
    Works worker o ⟨s, side, .faulting .error, d⟩ ⟨s.fault, side, .outside, d⟩ :=
  .work env rfl (.work env rfl (.work env rfl .refl))

/-- The loop of `read` over the completions. -/
theorem works_consume (env : ConnEnv) {len : ℕ} {p : Progress} {q : Polled} {cqe : List IbvWc}
    (hbuffers : s.buffers = p.buffers)
    (hloop : cqe.foldlM (handleCompletion s.connected len) ⟨p, s.error⟩ = some q) :
    Works worker o ⟨s, side, .consume len p cqe, d⟩
      ⟨{ s with buffers := q.buffers, error := q.error }, side, .consume len q.toProgress [], d⟩ := by
  induction cqe generalizing s p with
  | nil =>
    cases hloop
    rw [← hbuffers]
  | cons response cqe ih =>
    rw [List.foldlM_cons] at hloop
    cases hone : handleCompletion s.connected len ⟨p, s.error⟩ response with
    | none =>
      rw [hone] at hloop
      cases hloop
    | some q' =>
      rw [hone] at hloop
      have hrest := ih (s := { s with buffers := q'.buffers, error := q'.error }) rfl hloop
      refine .work env ?_ hrest
      simp only [work, hone]

theorem works_read_of_ready (env : ConnEnv) {len : ℕ} {q : Polled} (hactive : s.active = true)
    (hconnected : s.connected = true)
    (hloop : s.wc.foldlM (handleCompletion true len) ⟨s.readBuffers len, s.error⟩ = some q) :
    Works worker o ⟨s, side, .outside, d⟩
      ⟨{ s with notifyCount := 0, wc := [], buffers := q.buffers, error := q.error }.notifyBuffered,
        side, .outside, d⟩ := by
  let s0 : Socket := { s with notifyCount := 0 }
  let s1 : Socket := { s0 with buffers := (s.readBuffers len).buffers, wc := [] }
  apply Works.enter (a := .read len) rfl
  refine .work env (t := ⟨s0, side, .testConnected len, d⟩) (by simp [work, hactive, s0]) ?_
  refine .work env (t := ⟨s0, side, .readBuffers len, d⟩) (by simp [work, hconnected, s0]) ?_
  refine .work env rfl ?_
  have hpolled : Works worker o ⟨s1, side, .consume len (s.readBuffers len) s.wc, d⟩
      ⟨{ s1 with buffers := q.buffers, error := q.error }, side,
        .consume len q.toProgress [], d⟩ := by
    apply works_consume env rfl
    rw [show s1.connected = true from hconnected]
    exact hloop
  by_cases hwc : s.wc = []
  · rw [hwc] at hloop
    cases hloop
    refine .work env (t := ⟨s1, side, .notifyBuffered, d⟩) ?_ (.work env rfl .refl)
    simp [work, getWc_eq, hwc, s1, s0, Socket.readBuffers]
  · refine .work env (t := ⟨s1, side, .consume len (s.readBuffers len) s.wc, d⟩) ?_ ?_
    · simp [work, getWc_eq, hwc, s1, s0, Socket.readBuffers]
    · refine hpolled.trans (Works.work env (t := ⟨{ s1 with
        buffers := q.buffers, error := q.error }, side, .notifyBuffered, d⟩) ?_
        (.work env rfl .refl))
      simp [work, hconnected, s1, s0]

theorem works_read_of_not_ready (env : ConnEnv) (len : ℕ)
    (hready : ¬ (s.active = true ∧ s.connected = true)) :
    Works worker o ⟨s, side, .outside, d⟩
      ⟨{ s with notifyCount := 0 }, side, .outside, d⟩ := by
  let s0 : Socket := { s with notifyCount := 0 }
  apply Works.enter (a := .read len) rfl
  by_cases hactive : s.active = true
  · have hconnected : s.connected = false :=
      eq_false_of_ne_true fun hconnected => hready ⟨hactive, hconnected⟩
    refine .work env (t := ⟨s0, side, .testConnected len, d⟩) (by simp [work, hactive, s0]) ?_
    refine .work env ?_ .refl
    simp [work, hconnected, s0]
  · refine .work env ?_ .refl
    simp [work, hactive]

/-- A `read` that nobody disturbs. -/
theorem works_read (env : ConnEnv) {len : ℕ} {out : ReadOutcome}
    (hread : s.read len = some out) :
    Works worker o ⟨s, side, .outside, d⟩ ⟨out.socket, side, .outside, d⟩ := by
  by_cases hready : s.active = true ∧ s.connected = true
  · obtain ⟨hactive, hconnected⟩ := hready
    cases hloop : s.wc.foldlM (handleCompletion true len) ⟨s.readBuffers len, s.error⟩ with
    | none =>
      have hwc : s.wc ≠ [] := fun hwc => by
        rw [hwc] at hloop
        cases hloop
      have hnone : s.read len = none := by
        simp only [Socket.readBuffers] at hloop
        simp [Socket.read, Socket.readBuffers, hactive, hconnected, hwc, hloop]
      exact absurd (hread.symm.trans hnone) (Option.some_ne_none _)
    | some q =>
      rw [Socket.read_of_ready hactive hconnected hloop] at hread
      cases hread
      exact works_read_of_ready env hactive hconnected hloop
  · rw [Socket.read_of_not_ready hready] at hread
    cases hread
    exact works_read_of_not_ready env len hready

/-- A `zero_copy_read` that nobody disturbs. -/
theorem works_zeroCopyRead (env : ConnEnv) {out : ZeroCopyOutcome}
    (hread : s.zeroCopyRead = .ok out) :
    Works worker o ⟨s, side, .outside, d⟩ ⟨out.socket, side, .outside, d⟩ := by
  unfold Socket.zeroCopyRead at hread
  by_cases herror : s.error ≠ 0
  · rw [if_pos herror] at hread
    cases hread
    exact .enter (a := .zeroCopyRead) (if_pos herror) .refl
  · rw [if_neg herror] at hread
    have henter {posted : List Chunk} {found : Option Chunk} {earlier : List Chunk}
        (hpop : popChunks s.buffers.reverse = (posted, found, earlier)) :
        (⟨s, side, .outside, d⟩ : NotifyRun).step worker o .zeroCopyRead =
          some ⟨{ s with buffers := earlier.reverse }, side,
            if found.isSome then .outside else .fetch posted, d⟩ := by
      show (if s.error ≠ 0 then _ else _) = _
      rw [if_neg herror, hpop]
    split at hread
    · rename_i posted c earlier hpop
      cases hread
      exact .enter (henter hpop) .refl
    · rename_i posted earlier hpop
      let s1 : Socket := { s with buffers := earlier.reverse, wc := [] }
      simp only [getWc_eq] at hread
      apply Works.enter (henter hpop)
      by_cases hwc : s.wc = []
      · rw [if_pos hwc] at hread
        cases hread
        refine .work env (t := ⟨s1, side, .outside, d⟩) ?_ .refl
        simp [work, getWc_eq, hwc, s1]
      · rw [if_neg hwc] at hread
        refine .work env (t := ⟨s1, side, .take posted s.wc, d⟩) ?_ ?_
        · simp [work, getWc_eq, hwc, s1]
        cases hloop : s.wc.foldlM (takeCompletion s.connected) ⟨posted, earlier.reverse, none⟩ with
        | error trap =>
          rw [hloop] at hread
          cases hread
        | ok p =>
          rw [hloop] at hread
          cases hlast : p.buffers.getLast? with
          | none =>
            simp only [hlast] at hread
            cases hread
          | some c =>
            simp only [hlast] at hread
            cases hread
            refine .work env ?_ .refl
            simp [work, s1, hloop, hlast]

theorem works_reply (env : ConnEnv) :
    Works worker o ⟨s, side, .reply, d⟩ ⟨(s.reply env).1, side, .outside, d⟩ := by
  rcases reply_cases s env with ⟨hreply, hfailed⟩ | ⟨hreply, hsent⟩
  · rw [hreply]
    refine .work env (t := ⟨s, side, .faulting .error, d⟩) ?_ (works_fault env)
    simp [work, hfailed]
  · rw [hreply]
    refine .work env (t := ⟨s, side, .outside, d⟩) ?_ .refl
    simp [work, Int.not_lt.mpr hsent]

theorem work_submit {env : ConnEnv} {r : NotifyRun} {next : WorkerAt} {out : SendOutcome}
    (hsubmit : r.socket.submit worker o r.side env.post = some out) :
    r.submitting worker o env next =
      some { r with socket := out.socket, side := out.side, worker := next } := by
  simp only [submitting, hsubmit]

/-- What an `activate` does that succeeds. -/
theorem activate_eq {env : ConnEnv} {a : SendOutcome}
    (hactivate : s.activate worker o side env = some a) (hret : a.ret = 0) :
    (env.rtr && env.rts) = true ∧
      ((s.isServer = true ∧
          a = ⟨0, { s with qp := s.readyToSend, active := true }, side, []⟩) ∨
        (s.isServer = false ∧ ∃ out,
          { s with qp := s.readyToSend, connected := true }.submit worker o side env.post =
            some out ∧
          a = { out with ret := 0, socket := { out.socket with active := true } })) := by
  unfold Socket.activate at hactivate
  split at hactivate
  · cases hactivate
    exact absurd (show (-1 : ℤ) = 0 from hret) (by decide)
  · rename_i hrtr
    split at hactivate
    · cases hactivate
      exact absurd (show (-1 : ℤ) = 0 from hret) (by decide)
    · rename_i hrts
      rw [Bool.not_eq_true', Bool.not_eq_false] at hrtr hrts
      refine ⟨by rw [hrtr, hrts]; rfl, ?_⟩
      dsimp only at hactivate
      split at hactivate
      · rename_i hserver
        cases hactivate
        exact .inl ⟨hserver, rfl⟩
      · rename_i hserver
        split at hactivate
        · cases hactivate
        · rename_i out hsubmit
          cases hactivate
          exact .inr ⟨eq_false_of_ne_true hserver, out, hsubmit, rfl⟩

/-- An `activate` of the client that succeeds, and the notification after it. -/
theorem works_clientCheck {env : ConnEnv} {a : SendOutcome} (hconnected : s.connected = false)
    (hserver : s.isServer = false) (hactivate : s.activate worker o side env = some a)
    (hret : a.ret = 0) :
    Works worker o ⟨s, side, .clientCheck, d⟩ ⟨a.socket.notify, a.side, .reply, d⟩ := by
  obtain ⟨hready, ⟨hother, -⟩ | ⟨-, out, hsubmit, rfl⟩⟩ := activate_eq hactivate hret
  · exact absurd (hserver.symm.trans hother) Bool.noConfusion
  · refine .work env (t := ⟨{ s with qp := s.readyToSend, connected := true }, side,
      .clientSubmit, d⟩) ?_ ?_
    · simp only [work, hconnected, hready, if_true]
      rfl
    exact .work env (work_submit hsubmit) (.work env rfl (.work env rfl .refl))

/-- An `activate` of the server that succeeds. -/
theorem works_serverActivate {env : ConnEnv} {a : SendOutcome} (hserver : s.isServer = true)
    (hactivate : s.activate worker o side env = some a) (hret : a.ret = 0) :
    Works worker o ⟨s, side, .serverActivate, d⟩ ⟨a.socket, a.side, .reply, d⟩ := by
  obtain ⟨hready, ⟨-, rfl⟩ | ⟨hother, -⟩⟩ := activate_eq hactivate hret
  · refine .work env ?_ .refl
    simp only [work, hready, if_true]
  · exact absurd (hserver.symm.trans hother) Bool.noConfusion

/-- A `handle_connection` that nobody disturbs. -/
theorem works_handleReceived {env : ConnEnv} {recv : ℤ × IBSYNMsg} {out : ConnOutcome}
    (hhandle : s.handleReceived worker o side recv env = some out) :
    Works worker o ⟨s, side, .outside, d⟩ ⟨out.socket, out.side, .outside, d⟩ := by
  let s0 : Socket := { s with peerMsg := recv.2 }
  unfold Socket.handleReceived at hhandle
  dsimp only at hhandle
  apply Works.enter (a := .handleConnection recv) rfl
  split at hhandle
  · rename_i hrecv
    cases hhandle
    rw [if_pos hrecv]
    split
    · exact works_fault env
    · exact .refl
  · rename_i hrecv
    rw [if_neg hrecv]
    split at hhandle
    · rename_i hconnected
      cases hhandle
      refine .work env (t := ⟨s0, side, .faulting .error, d⟩) ?_ (works_fault env)
      simp [work, hconnected, s0]
    · rename_i hconnected
      have hconnected : s.connected = false := eq_false_of_ne_true hconnected
      split at hhandle
      · rename_i hserver
        rw [Bool.not_eq_true'] at hserver
        let s1 : Socket := { s0 with myMsg := { s.myMsg with peerQpn := recv.2.qpn } }
        refine .work env (t := ⟨s1, side, .clientCheck, d⟩) ?_ ?_
        · simp [work, hconnected, hserver, s1, s0]
        split at hhandle
        · cases hhandle
        · rename_i a hactivate
          split at hhandle
          · cases hhandle
          · rename_i hret
            cases hhandle
            have hactivated := works_clientCheck (d := d) (s := s1) hconnected hserver hactivate
              (not_not.mp hret)
            exact hactivated.trans (works_reply env)
      · rename_i hserver
        have hserver : s.isServer = true := by simpa using hserver
        split at hhandle
        · rename_i hsyn
          split at hhandle
          · rename_i hactive
            cases hhandle
            refine .work env (t := ⟨s0, side, .outside, d⟩) ?_ .refl
            simp [work, hconnected, hserver, hsyn, hactive, s0]
          · rename_i hactive
            refine .work env (t := ⟨s0, side, .serverActivate, d⟩) ?_ ?_
            · simp [work, hconnected, hserver, hsyn, hactive, s0]
            split at hhandle
            · cases hhandle
            · rename_i a hactivate
              split at hhandle
              · cases hhandle
              · rename_i hret
                cases hhandle
                have hactivated := works_serverActivate (d := d) (s := s0) hserver hactivate
                  (not_not.mp hret)
                exact hactivated.trans (works_reply env)
        · rename_i hack
          split at hhandle
          · cases hhandle
          · rename_i sent hsubmit
            cases hhandle
            refine .work env (t := ⟨s0, side, .acknowledge, d⟩) ?_ ?_
            · simp [work, hconnected, hserver, hack, s0]
            exact .work env rfl (.work env (work_submit hsubmit) (.work env rfl .refl))

end Alone

/-! ## Notifications that are due -/

/-- The socket is up and has something to read. -/
def Readable (s : Socket) : Prop :=
  s.active = true ∧ s.connected = true ∧ (s.wc ≠ [] ∨ s.buffers ≠ [])

/-- A notification is there, or the dispatcher's thread is about to send one. -/
def Notified (r : NotifyRun) : Prop :=
  0 < r.socket.notifyCount ∨ r.dispatcher = some .notify

/-- When there has to be a notification, by where the worker is.  Nothing is asked where `read` will
look at the data later, or a notification is the next thing to come; once `read` has taken the
completions it answers for `buffers`, and not for what came since. -/
def Needs (s : Socket) : WorkerAt → Prop
  | .testActive _ | .testConnected _ | .readBuffers _ | .getWc _ _ => False
  | .consume _ _ _ | .lastHandshake | .lastSubmit | .notifyBuffered => s.wc ≠ []
  | .take _ _ => s.active = true ∧ s.connected = true
  | .clientSubmit | .clientActivate | .clientNotify | .ackSubmit | .ackNotify => False
  | .serverActivate => s.connected = true
  | .faulting .notify => False
  | .outside | .fetch _ | .checkConnected | .clientCheck | .acknowledge | .reply |
      .faulting .error | .faulting .connected | .shutdown => Readable s

theorem needs_error {s : Socket} {w : WorkerAt} (error : ℕ) :
    Needs { s with error := error } w ↔ Needs s w := by
  cases w with
  | faulting f =>
    cases f with
    | error | connected | notify => exact Iff.rfl
  | _ => exact Iff.rfl

/-- What the worker's place asks for is there. -/
def Announced (r : NotifyRun) : Prop := Needs r.socket r.worker → r.Notified

/-- `submit` changes nothing that the notifications depend on. -/
theorem submitting_eq {worker o : ℕ} {env : ConnEnv} {next : WorkerAt} {r t : NotifyRun}
    (hsubmit : r.submitting worker o env next = some t) :
    t.worker = next ∧ t.dispatcher = r.dispatcher ∧ ∃ pending pendingBl,
      t.socket = { r.socket with pending := pending, pendingBl := pendingBl } := by
  unfold submitting at hsubmit
  split at hsubmit
  · cases hsubmit
  · rename_i out hout
    cases hsubmit
    exact ⟨rfl, rfl, submit_socket hout⟩

/-- What a step of the worker leaves to the notifications: those that were sent stay, and what the
new place asks for was asked for before, or is there. -/
structure Follows (r t : NotifyRun) : Prop where
  dispatcher : t.dispatcher = r.dispatcher
  count : r.socket.notifyCount ≤ t.socket.notifyCount
  needs : Needs t.socket t.worker → Needs r.socket r.worker ∨ 0 < t.socket.notifyCount

theorem Announced.of_follows {r t : NotifyRun} (h : r.Announced) (hfollows : Follows r t) :
    t.Announced := by
  intro hneeds
  rcases hfollows.needs hneeds with hbefore | hcount
  · rcases h hbefore with hcount | hcoming
    · exact .inl (Nat.lt_of_lt_of_le hcount hfollows.count)
    · exact .inr (hfollows.dispatcher.trans hcoming)
  · exact .inl hcount

theorem follows_of_submitting {worker o : ℕ} {env : ConnEnv} {next : WorkerAt} {r t : NotifyRun}
    (hsubmit : r.submitting worker o env next = some t)
    (hneeds : Needs t.socket next → Needs r.socket r.worker) : Follows r t := by
  obtain ⟨hworker, hdispatcher, pending, pendingBl, hsocket⟩ := submitting_eq hsubmit
  exact {
    dispatcher := hdispatcher
    count := by rw [hsocket]
    needs := by
      rw [hworker]
      exact fun h => .inl (hneeds h) }

theorem follows_of_work {worker o : ℕ} {env : ConnEnv} {r t : NotifyRun}
    (hwork : r.work worker o env = some t) : Follows r t := by
  obtain ⟨s, side, w, d⟩ := r
  cases w with
  | outside => cases hwork
  | testActive len =>
    cases hwork
    refine ⟨rfl, Nat.le_refl _, ?_⟩
    show Needs s (if s.active = true then .testConnected len else .outside) → _
    cases hactive : s.active with
    | true => exact fun h => h.elim
    | false => exact fun h => absurd (hactive.symm.trans h.1) Bool.noConfusion
  | testConnected len =>
    cases hwork
    refine ⟨rfl, Nat.le_refl _, ?_⟩
    show Needs s (if s.connected = true then .readBuffers len else .outside) → _
    cases hconnected : s.connected with
    | true => exact fun h => h.elim
    | false => exact fun h => absurd (hconnected.symm.trans h.2.1) Bool.noConfusion
  | readBuffers len =>
    cases hwork
    exact ⟨rfl, Nat.le_refl _, fun h => h.elim⟩
  | getWc len p =>
    simp only [work, getWc_eq] at hwork
    cases hwork
    refine ⟨rfl, Nat.le_refl _, ?_⟩
    -- nothing is left in `wc`
    show Needs _ (if s.wc = [] then .notifyBuffered else .consume len p s.wc) → _
    split
    · exact fun h => absurd rfl h
    · exact fun h => absurd rfl h
  | consume len p cqe =>
    cases cqe with
    | nil =>
      cases hwork
      refine ⟨rfl, Nat.le_refl _, ?_⟩
      show Needs s (if (s.isServer && !s.connected) = true then .lastHandshake
        else .notifyBuffered) → _
      split
      · exact .inl
      · exact .inl
    | cons response cqe =>
      simp only [work] at hwork
      split at hwork
      · cases hwork
      · cases hwork
        exact ⟨rfl, Nat.le_refl _, .inl⟩
  | lastHandshake =>
    cases hwork
    exact ⟨rfl, Nat.le_refl _, .inl⟩
  | lastSubmit =>
    obtain ⟨-, -, pending, pendingBl, hsocket⟩ := submitting_eq hwork
    apply follows_of_submitting hwork
    rw [hsocket]
    exact id
  | notifyBuffered =>
    cases hwork
    by_cases hbuffers : s.buffers = []
    · have hsame : s.notifyBuffered = s := if_pos hbuffers
      rw [hsame]
      refine ⟨rfl, Nat.le_refl _, ?_⟩
      rintro ⟨-, -, hwc | hleft⟩
      · exact .inl hwc
      · exact absurd hbuffers hleft
    · have hsent : s.notifyBuffered = s.notify := if_neg hbuffers
      rw [hsent]
      exact ⟨rfl, Nat.le_succ _, fun _ => .inr (Nat.succ_pos _)⟩
  | fetch posted =>
    simp only [work, getWc_eq] at hwork
    cases hwork
    refine ⟨rfl, Nat.le_refl _, ?_⟩
    show Needs { s with wc := [] } (if s.wc = [] then .outside else .take posted s.wc) → _
    split
    · rintro ⟨hactive, hconnected, hwc | hbuffers⟩
      · exact absurd rfl hwc
      · exact .inl ⟨hactive, hconnected, .inr hbuffers⟩
    · rename_i hwc
      exact fun h => .inl ⟨h.1, h.2, .inl hwc⟩
  | take posted cqe =>
    simp only [work] at hwork
    split at hwork
    · cases hwork
    · split at hwork
      · cases hwork
      · cases hwork
        exact ⟨rfl, Nat.le_refl _, fun h => .inl ⟨h.1, h.2.1⟩⟩
  | checkConnected =>
    simp only [work] at hwork
    split at hwork
    · cases hwork
      exact ⟨rfl, Nat.le_refl _, .inl⟩
    · rename_i hconnected
      split at hwork
      · cases hwork
        exact ⟨rfl, Nat.le_refl _, .inl⟩
      · split at hwork
        · cases hwork
          refine ⟨rfl, Nat.le_refl _, ?_⟩
          show Needs s (if s.active = true then .outside else .serverActivate) → _
          split
          · exact .inl
          · exact fun h => absurd h hconnected
        · cases hwork
          exact ⟨rfl, Nat.le_refl _, .inl⟩
  | clientCheck =>
    simp only [work] at hwork
    split at hwork
    · cases hwork
      exact ⟨rfl, Nat.le_refl _, fun h => h.elim⟩
    · split at hwork
      · cases hwork
        exact ⟨rfl, Nat.le_refl _, fun h => h.elim⟩
      · cases hwork
  | clientSubmit => exact follows_of_submitting hwork fun h => h.elim
  | clientActivate =>
    cases hwork
    exact ⟨rfl, Nat.le_refl _, fun h => h.elim⟩
  | clientNotify =>
    cases hwork
    exact ⟨rfl, Nat.le_succ _, fun _ => .inr (Nat.succ_pos _)⟩
  | serverActivate =>
    simp only [work] at hwork
    split at hwork
    · cases hwork
      exact ⟨rfl, Nat.le_refl _, fun h => .inl h.2.1⟩
    · cases hwork
  | acknowledge =>
    cases hwork
    exact ⟨rfl, Nat.le_refl _, fun h => h.elim⟩
  | ackSubmit => exact follows_of_submitting hwork fun h => h.elim
  | ackNotify =>
    cases hwork
    exact ⟨rfl, Nat.le_succ _, fun _ => .inr (Nat.succ_pos _)⟩
  | reply =>
    cases hwork
    refine ⟨rfl, Nat.le_refl _, ?_⟩
    show Needs s (if sendMsg env.write 0 < 0 then .faulting .error else .outside) → _
    split
    · exact .inl
    · exact .inl
  | faulting f =>
    cases hwork
    cases f with
    | error => exact ⟨rfl, Nat.le_refl _, .inl⟩
    | connected => exact ⟨rfl, Nat.le_refl _, fun h => h.elim⟩
    | notify => exact ⟨rfl, Nat.le_succ _, fun _ => .inr (Nat.succ_pos _)⟩
  | shutdown =>
    cases hwork
    exact ⟨rfl, Nat.le_refl _, fun h => absurd h.1 Bool.noConfusion⟩

/-- Entering `zero_copy_read` only takes chunks from `buffers`. -/
theorem follows_of_zeroCopyRead {r t : NotifyRun} (houtside : r.worker = .outside)
    (henter : r.enter .zeroCopyRead = some t) : Follows r t := by
  simp only [enter] at henter
  split at henter
  · cases henter
    exact ⟨rfl, Nat.le_refl _, .inl⟩
  · cases henter
    refine ⟨rfl, Nat.le_refl _, ?_⟩
    have hworker (posted : List Chunk) (found : Bool) {s : Socket}
        (h : Needs s (if found then .outside else .fetch posted)) : Readable s := by
      cases found with
      | true => exact h
      | false => exact h
    intro h
    obtain ⟨hactive, hconnected, hdata⟩ := hworker _ _ h
    rw [houtside]
    refine .inl ⟨hactive, hconnected, hdata.imp_right fun hleft hbuffers => hleft ?_⟩
    show (popChunks r.socket.buffers.reverse).2.2.reverse = []
    rw [hbuffers]
    rfl

theorem Announced.enter {r t : NotifyRun} {a : NotifyAction} (h : r.Announced)
    (houtside : r.worker = .outside) (henter : r.enter a = some t) : t.Announced := by
  cases a with
  | read len =>
    simp only [NotifyRun.enter] at henter
    cases henter
    exact fun hneeds => hneeds.elim
  | zeroCopyRead => exact h.of_follows (follows_of_zeroCopyRead houtside henter)
  | handleConnection recv =>
    simp only [NotifyRun.enter] at henter
    cases henter
    apply h.of_follows
    refine ⟨rfl, Nat.le_refl _, ?_⟩
    rw [houtside]
    show Needs { r.socket with peerMsg := recv.2 }
      (if recv.1 < 0 then if recv.1 ≠ -eagain then .faulting .error else .outside
        else .checkConnected) → _
    split
    · split
      · exact .inl
      · exact .inl
    · exact .inl
  | shutdown =>
    simp only [NotifyRun.enter] at henter
    cases henter
    exact h.of_follows ⟨rfl, Nat.le_refl _, fun hneeds => .inl (by rw [houtside]; exact hneeds)⟩
  | fault =>
    simp only [NotifyRun.enter] at henter
    cases henter
    exact h.of_follows ⟨rfl, Nat.le_refl _, fun hneeds => .inl (by rw [houtside]; exact hneeds)⟩
  | work | passWc | faultByDispatcher | dispatch => cases henter

/-- What the dispatcher's thread does, it announces. -/
theorem Announced.dispatch {r : NotifyRun} {f : Faulting} (h : r.Announced)
    (hat : r.dispatcher = some f) :
    ({ r with socket := (f.run r.socket).2, dispatcher := (f.run r.socket).1 } :
      NotifyRun).Announced := by
  cases f with
  | error =>
    intro hneeds
    have hbefore : Needs r.socket r.worker := (needs_error econnreset).mp hneeds
    rcases h hbefore with hcount | hcoming
    · exact .inl hcount
    · exact absurd (Option.some.inj (hat.symm.trans hcoming)) Faulting.noConfusion
  | connected => exact fun _ => .inr rfl
  | notify => exact fun _ => .inl (Nat.succ_pos _)

theorem notifyCount_passWc (s : Socket) (addWc : List IbvWc) :
    0 < (s.passWc addWc).notifyCount := by
  unfold Socket.passWc
  split
  · exact Nat.succ_pos _
  · exact Nat.succ_pos _

theorem Announced.step {worker o : ℕ} {r t : NotifyRun} {a : NotifyAction} (h : r.Announced)
    (hstep : r.step worker o a = some t) : t.Announced := by
  cases a with
  | work env => exact h.of_follows (follows_of_work hstep)
  | passWc addWc =>
    simp only [NotifyRun.step] at hstep
    split at hstep
    · cases hstep
      exact fun _ => .inl (notifyCount_passWc r.socket addWc)
    · cases hstep
  | faultByDispatcher =>
    simp only [NotifyRun.step] at hstep
    split at hstep
    · rename_i hdispatcher
      cases hstep
      intro hneeds
      rcases h hneeds with hcount | hcoming
      · exact .inl hcount
      · exact absurd (hdispatcher.symm.trans hcoming) (Option.some_ne_none _).symm
    · cases hstep
  | dispatch =>
    simp only [NotifyRun.step] at hstep
    split at hstep
    · cases hstep
    · rename_i f hdispatcher
      cases hstep
      exact h.dispatch hdispatcher
  | read | zeroCopyRead | handleConnection | shutdown | fault =>
    simp only [NotifyRun.step] at hstep
    split at hstep
    · rename_i houtside
      exact h.enter houtside hstep
    · cases hstep

/-- **No notification of something to read is lost.**  Outside the functions of both threads, a
socket that is active and connected and has completions or buffers has a notification. -/
theorem notified_of_reached {worker o : ℕ} {r : NotifyRun}
    (hreached : (notifyMachine worker o).Reached r) (houtside : r.worker = .outside)
    (hdispatcher : r.dispatcher = none) (hactive : r.socket.active = true)
    (hconnected : r.socket.connected = true)
    (hdata : r.socket.wc ≠ [] ∨ r.socket.buffers ≠ []) : 0 < r.socket.notifyCount := by
  have hannounced : r.Announced := by
    apply hreached.invariant Announced
    · intro s (hfresh : Fresh s) hneeds
      rw [hfresh.worker] at hneeds
      exact absurd (hfresh.active.symm.trans hneeds.1) Bool.noConfusion
    · intro s a t h _ hstep
      exact h.step hstep
  have hneeds : Needs r.socket r.worker := by
    rw [houtside]
    exact ⟨hactive, hconnected, hdata⟩
  rcases hannounced hneeds with hcount | hcoming
  · exact hcount
  · exact absurd (hdispatcher.symm.trans hcoming) (Option.some_ne_none _).symm

/-- A server that was just constructed. -/
def freshServer : NotifyRun where
  socket := { quietSocket with isServer := true, connected := false, active := false }
  side := ⟨⟨4, []⟩, 0, [], fun _ => []⟩
  worker := .outside
  dispatcher := none

theorem fresh_freshServer : freshServer.Fresh := ⟨rfl, rfl, rfl, rfl, rfl, rfl⟩

/-- A completion comes before the client's last message, and `read` clears its notification; the
message brings another one. -/
theorem notified_of_reached_early :
    ∃ r : NotifyRun, r.socket.wc = [ReadRun.twoBytes] ∧ 0 < r.socket.notifyCount := by
  let work : NotifyAction := .work ⟨true, true, fun _ => ⟨tcpMsgLen, 0, false⟩, .posted⟩
  have hrun : ((notifyMachine 0 0).replay (fun _ _ => True) freshServer
      [.handleConnection (0, { quietSocket.peerMsg with peerQpn := 0 }), work, work, work,
        .passWc [ReadRun.twoBytes], .read 2, work, work,
        .handleConnection (0, quietSocket.peerMsg), work, work, work, work]).any
      (fun r => decide (r.worker = .outside ∧ r.dispatcher = none ∧ r.socket.active = true ∧
        r.socket.connected = true ∧ r.socket.wc = [ReadRun.twoBytes])) = true := by
    decide +kernel
  obtain ⟨r, hreplay, hr⟩ := (Option.any_eq_true _ _).mp hrun
  obtain ⟨houtside, hdispatcher, hactive, hconnected, hwc⟩ := of_decide_eq_true hr
  have hreached : (notifyMachine 0 0).Reached r := .of_replay (.start fresh_freshServer) hreplay
  have hdata : r.socket.wc ≠ [] := by
    rw [hwc]
    exact List.cons_ne_nil _ _
  exact ⟨r, hwc,
    notified_of_reached hreached houtside hdispatcher hactive hconnected (.inl hdata)⟩

end NotifyRun

end HwAsync.Rdma
