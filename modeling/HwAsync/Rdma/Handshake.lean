/-
# The RDMA handshake of one socket

The client sends its addressing data over TCP, the server answers with its own,
and the client confirms.  `handle_connection` serves both roles: it reads a
message into `peer_msg` and branches on the role, on `connected`, on `active` and
on the message's `peer_qpn`.

A read of no bytes makes `recv_msg` return zero without a message, and
`handle_connection` goes on with whatever `peer_msg` holds.  The run theorem
says under which arrivals every activation rests on a complete message and every
established connection on an activated queue pair.
-/

import HwAsync.Lib.Run
import HwAsync.Rdma.Submit

namespace HwAsync.Rdma

open HwAsync.Lib HwAsync.Infiniband

/-- What the system answers during one call of `handle_connection`: the two
`ibv_modify_qp` calls succeed or not, each `write` of `send_msg`, and
`ibv_post_send`. -/
structure ConnEnv where
  rtr : Bool
  rts : Bool
  write : ℕ → WriteResult
  post : PostResult

/-- What one call of `handle_connection` does: the chunks it posted, the message it
sent, whether it called `activate`, and whether it set `connected` other than by
`fault`. -/
structure ConnOutcome where
  socket : Socket
  side : TxSide
  posted : List Chunk
  sent : Option IBSYNMsg
  activated : Bool
  established : Bool

/-- The queue pair is set up for the endpoint that a message describes. -/
def QueuePair.Targets (qp : QueuePair) (m : IBSYNMsg) : Prop :=
  qp.destQpNum = m.qpn ∧ qp.rqPsn = m.psn ∧ qp.dlid = m.lid ∧ qp.dgid = m.gid

instance (qp : QueuePair) (m : IBSYNMsg) : Decidable (qp.Targets m) :=
  inferInstanceAs (Decidable (_ ∧ _ ∧ _ ∧ _))

namespace Socket

/-- The queue pair after `activate` moved it to RTR. -/
def readyToReceive (s : Socket) : QueuePair :=
  { s.qp with
    state := .rtr
    destQpNum := s.peerMsg.qpn
    rqPsn := s.peerMsg.psn
    dlid := s.peerMsg.lid
    dgid := s.peerMsg.gid }

/-- The queue pair after `activate` moved it to RTS. -/
def readyToSend (s : Socket) : QueuePair :=
  { s.readyToReceive with state := .rts, sqPsn := s.myMsg.psn }

/-- `activate`. -/
def activate (worker o : ℕ) (s : Socket) (t : TxSide) (env : ConnEnv) :
    Option SendOutcome :=
  if !env.rtr then some ⟨-1, s, t, []⟩
  else if !env.rts then some ⟨-1, { s with qp := s.readyToReceive }, t, []⟩
  else
    let s1 := { s with qp := s.readyToSend }
    if s1.isServer then some ⟨0, { s1 with active := true }, t, []⟩
    else
      match { s1 with connected := true }.submit worker o t env.post with
      | none => none
      | some out => some { out with ret := 0, socket := { out.socket with active := true } }

/-- A call that posts and sends nothing. -/
def silent (s : Socket) (t : TxSide) : ConnOutcome := ⟨s, t, [], none, false, false⟩

/-- `send_msg` of `my_msg`, with the `fault` of a failure. -/
def reply (s : Socket) (env : ConnEnv) : Socket × Option IBSYNMsg :=
  if sendMsg env.write 0 < 0 then (s.fault, none) else (s, some s.myMsg)

/-- `handle_connection` from the return of `recv_msg` on; `none` where an assertion
fails. -/
def handleReceived (worker o : ℕ) (s : Socket) (t : TxSide) (recv : ℤ × IBSYNMsg)
    (env : ConnEnv) : Option ConnOutcome :=
  let s0 := { s with peerMsg := recv.2 }
  if recv.1 < 0 then some ((if recv.1 ≠ -eagain then s0.fault else s0).silent t)
  else if s0.connected then some (s0.fault.silent t)
  else if !s0.isServer then
    let s1 := { s0 with myMsg := { s0.myMsg with peerQpn := s0.peerMsg.qpn } }
    match s1.activate worker o t env with
    | none => none
    | some a =>
        if a.ret ≠ 0 then none
        else
          let r := a.socket.notify.reply env
          some ⟨r.1, a.side, a.posted, r.2, true, true⟩
  else if s0.peerMsg.peerQpn = 0 then
    if s0.active then some (s0.silent t)
    else
      match s0.activate worker o t env with
      | none => none
      | some a =>
          if a.ret ≠ 0 then none
          else
            let r := a.socket.reply env
            some ⟨r.1, a.side, a.posted, r.2, true, false⟩
  else
    match { s0 with connected := true }.submit worker o t env.post with
    | none => none
    | some out => some ⟨out.socket.notify, out.side, out.posted, none, false, true⟩

/-- `handle_connection`. -/
def handleConnection (worker o : ℕ) (s : Socket) (t : TxSide) (injected : Bool)
    (scratch : Scratch) (read : ReadResult) (env : ConnEnv) : Option ConnOutcome :=
  s.handleReceived worker o t (recvMsg injected scratch read s.peerMsg) env

/-- The part of `try_connect` after the TCP connection is up: the returned value,
the socket and the message sent. -/
def tryConnect (s : Socket) (write : ℕ → WriteResult) : ℤ × Socket × Option IBSYNMsg :=
  let s1 := { s with myMsg := { s.myMsg with peerQpn := 0 } }
  let r := sendMsg write 0
  if r < 0 then (r, s1, none) else (0, { s1 with conHandler := true }, some s1.myMsg)

/-- `set_accept_fd`. -/
def setAcceptFd (s : Socket) : Socket := { s with isServer := true, conHandler := true }

end Socket

@[simp]
theorem Socket.silent_activated (s : Socket) (t : TxSide) :
    (s.silent t).activated = false := rfl

@[simp]
theorem Socket.silent_established (s : Socket) (t : TxSide) :
    (s.silent t).established = false := rfl

/-! ## What one call does -/

/-- The fields of a socket that the handshake decides. -/
structure SameLink (s s' : Socket) : Prop where
  myMsg : s'.myMsg = s.myMsg
  peerMsg : s'.peerMsg = s.peerMsg
  isServer : s'.isServer = s.isServer
  connected : s'.connected = s.connected
  active : s'.active = s.active
  error : s'.error = s.error
  qp : s'.qp = s.qp

theorem SameLink.refl (s : Socket) : SameLink s s := ⟨rfl, rfl, rfl, rfl, rfl, rfl, rfl⟩

section Calls

variable {worker o : ℕ} {s : Socket} {t : TxSide} {env : ConnEnv}

theorem submit_sameLink {post : PostResult} {out : SendOutcome}
    (hsubmit : s.submit worker o t post = some out) : SameLink s out.socket := by
  obtain ⟨pending, pendingBl, hsocket⟩ := submit_socket hsubmit
  rw [hsocket]
  exact ⟨rfl, rfl, rfl, rfl, rfl, rfl, rfl⟩

theorem send_sameLink {bl : Bufferlist} {post : PostResult} {out : SendOutcome}
    (hsend : s.send worker o t bl post = some out) :
    SameLink s out.socket ∧ (out.posted ≠ [] → s.connected = true) := by
  obtain ⟨⟨pending, pendingBl, hsocket⟩, hposted⟩ := send_socket hsend
  rw [hsocket]
  exact ⟨⟨rfl, rfl, rfl, rfl, rfl, rfl, rfl⟩, hposted⟩

/-- What a successful `activate` leaves: a queue pair that targets `peer_msg`, and
on the client also a connected socket. -/
structure Activated (s s' : Socket) : Prop where
  myMsg : s'.myMsg = s.myMsg
  peerMsg : s'.peerMsg = s.peerMsg
  isServer : s'.isServer = s.isServer
  connected : s'.connected = (s.connected || !s.isServer)
  active : s'.active = true
  error : s'.error = s.error
  qp : s'.qp = s.readyToSend

theorem activate_spec {a : SendOutcome} (hactivate : s.activate worker o t env = some a)
    (hret : a.ret = 0) :
    Activated s a.socket ∧ (a.posted ≠ [] → s.isServer = false) := by
  unfold Socket.activate at hactivate
  split at hactivate
  · obtain rfl := Option.some.inj hactivate
    simp at hret
  · split at hactivate
    · obtain rfl := Option.some.inj hactivate
      simp at hret
    · dsimp only at hactivate
      cases hserver : s.isServer with
      | true =>
          rw [if_pos hserver, Option.some.injEq] at hactivate
          subst hactivate
          exact ⟨⟨rfl, rfl, rfl, by simp [hserver], rfl, rfl, rfl⟩, fun h => absurd rfl h⟩
      | false =>
          rw [if_neg (by simp [hserver])] at hactivate
          split at hactivate
          · cases hactivate
          · rename_i out hsubmit
            obtain rfl := Option.some.inj hactivate
            have hlink := submit_sameLink hsubmit
            exact ⟨⟨hlink.myMsg, hlink.peerMsg, hlink.isServer,
              by simpa [hserver] using hlink.connected, rfl, hlink.error, hlink.qp⟩,
              fun _ => rfl⟩

theorem reply_cases (s : Socket) (env : ConnEnv) :
    (s.reply env = (s.fault, none) ∧ sendMsg env.write 0 < 0) ∨
      (s.reply env = (s, some s.myMsg) ∧ 0 ≤ sendMsg env.write 0) := by
  unfold Socket.reply
  split
  · exact .inl ⟨rfl, ‹_›⟩
  · exact .inr ⟨rfl, by omega⟩

theorem reply_qp {socket : Socket} {sent : Option IBSYNMsg}
    (hreply : s.reply env = (socket, sent)) : socket.qp = s.qp := by
  rcases reply_cases s env with ⟨h, -⟩ | ⟨h, -⟩ <;>
  · rw [hreply] at h
    cases h
    rfl

/-- What one call can do, by the result of `recv_msg`, the role and the state. -/
inductive Handled (s : Socket) (t : TxSide) (recv : ℤ × IBSYNMsg) (env : ConnEnv)
    (out : ConnOutcome) : Prop
  | again (hrecv : recv.1 = -eagain) (hout : out = { s with peerMsg := recv.2 }.silent t)
  | failed (hrecv : recv.1 < 0) (hfatal : recv.1 ≠ -eagain)
      (hout : out = { s with peerMsg := recv.2 }.fault.silent t)
  | unexpected (hrecv : 0 ≤ recv.1) (hconnected : s.connected = true)
      (hout : out = { s with peerMsg := recv.2 }.fault.silent t)
  | synAck (hrecv : 0 ≤ recv.1) (hconnected : s.connected = false)
      (hserver : s.isServer = false) (s1 : Socket)
      (hactivated : Activated { s with
        peerMsg := recv.2, myMsg := { s.myMsg with peerQpn := recv.2.qpn } } s1)
      (hreply : s1.notify.reply env = (out.socket, out.sent))
      (hcalls : out.activated = true ∧ out.established = true)
  | synAgain (hrecv : 0 ≤ recv.1) (hconnected : s.connected = false)
      (hserver : s.isServer = true) (hsyn : recv.2.peerQpn = 0) (hactive : s.active = true)
      (hout : out = { s with peerMsg := recv.2 }.silent t)
  | syn (hrecv : 0 ≤ recv.1) (hconnected : s.connected = false)
      (hserver : s.isServer = true) (hsyn : recv.2.peerQpn = 0) (hactive : s.active = false)
      (s1 : Socket) (hactivated : Activated { s with peerMsg := recv.2 } s1)
      (hreply : s1.reply env = (out.socket, out.sent))
      (hcalls : out.activated = true ∧ out.established = false ∧ out.posted = [])
  | ack (hrecv : 0 ≤ recv.1) (hconnected : s.connected = false)
      (hserver : s.isServer = true) (hack : recv.2.peerQpn ≠ 0) (s1 : Socket)
      (hlink : SameLink { s with peerMsg := recv.2, connected := true } s1)
      (hout : out.socket = s1.notify)
      (hcalls : out.activated = false ∧ out.established = true ∧ out.sent = none)

theorem handleReceived_cases {recv : ℤ × IBSYNMsg} {out : ConnOutcome}
    (hhandle : s.handleReceived worker o t recv env = some out) :
    Handled s t recv env out := by
  unfold Socket.handleReceived at hhandle
  dsimp only at hhandle
  split at hhandle
  · rename_i hrecv
    obtain rfl := Option.some.inj hhandle
    by_cases hagain : recv.1 = -eagain
    · exact .again hagain (by simp [hagain])
    · exact .failed hrecv hagain (by simp [hagain])
  · rename_i hrecv
    have hrecv : 0 ≤ recv.1 := by omega
    cases hconnected : s.connected with
    | true =>
        rw [if_pos hconnected] at hhandle
        exact .unexpected hrecv hconnected (Option.some.inj hhandle).symm
    | false =>
        rw [if_neg (by simp [hconnected])] at hhandle
        cases hserver : s.isServer with
        | false =>
            rw [if_pos (by simp [hserver])] at hhandle
            split at hhandle
            · cases hhandle
            · rename_i a hactivate
              split at hhandle
              · cases hhandle
              · rename_i hret
                obtain rfl := Option.some.inj hhandle
                obtain ⟨hactivated, -⟩ := activate_spec hactivate (by simpa using hret)
                exact .synAck hrecv hconnected hserver a.socket hactivated rfl ⟨rfl, rfl⟩
        | true =>
            rw [if_neg (by simp [hserver])] at hhandle
            split at hhandle
            · rename_i hsyn
              cases hactive : s.active with
              | true =>
                  rw [if_pos hactive] at hhandle
                  exact .synAgain hrecv hconnected hserver hsyn hactive
                    (Option.some.inj hhandle).symm
              | false =>
                  rw [if_neg (by simp [hactive])] at hhandle
                  split at hhandle
                  · cases hhandle
                  · rename_i a hactivate
                    split at hhandle
                    · cases hhandle
                    · rename_i hret
                      obtain rfl := Option.some.inj hhandle
                      obtain ⟨hactivated, hposted⟩ :=
                        activate_spec hactivate (by simpa using hret)
                      have hnone : a.posted = [] := by
                        by_contra hne
                        exact absurd ((hposted hne).symm.trans hserver) (by simp)
                      exact .syn hrecv hconnected hserver hsyn hactive a.socket hactivated rfl
                        ⟨rfl, rfl, hnone⟩
            · rename_i hack
              split at hhandle
              · cases hhandle
              · rename_i out' hsubmit
                obtain rfl := Option.some.inj hhandle
                exact .ack hrecv hconnected hserver hack out'.socket
                  (submit_sameLink hsubmit) rfl ⟨rfl, rfl, rfl⟩

end Calls

/-! ## Runs -/

/-- A socket with the last complete message it received.  Each call of `activate`,
and each time `connected` is set without an error, is recorded with that message
and the queue pair. -/
structure LinkRun where
  socket : Socket
  side : TxSide
  last : Option IBSYNMsg
  activations : List (Option IBSYNMsg × QueuePair)
  establishments : List (Option IBSYNMsg × QueuePair)

inductive LinkAction
  | handleConnection (injected : Bool) (scratch : Scratch) (read : ReadResult) (env : ConnEnv)
  | send (bl : Bufferlist) (post : PostResult)
  | fault

namespace LinkRun

/-- The last complete message after a read. -/
def lastAfter (r : LinkRun) (injected : Bool) (scratch : Scratch) (read : ReadResult) :
    Option IBSYNMsg :=
  if !injected && read.complete then some (recvMsg injected scratch read r.socket.peerMsg).2
  else r.last

/-- One step: the TCP descriptor becomes readable, the upper layer sends, or the
dispatcher faults the socket. -/
def step (r : LinkRun) : LinkAction → Option LinkRun
  | .handleConnection injected scratch read env =>
      match r.socket.handleConnection 0 0 r.side injected scratch read env with
      | none => none
      | some out =>
          let last := r.lastAfter injected scratch read
          some
            { socket := out.socket
              side := out.side
              last := last
              activations := r.activations ++
                (if out.activated then [(last, out.socket.qp)] else [])
              establishments := r.establishments ++
                (if out.established && r.socket.error == 0 then [(last, out.socket.qp)]
                 else []) }
  | .send bl post =>
      match r.socket.send 0 0 r.side bl post with
      | none => none
      | some out => some { r with socket := out.socket, side := out.side }
  | .fault => some { r with socket := r.socket.fault }

/-- A constructed socket, of either role. -/
structure Fresh (r : LinkRun) : Prop where
  connected : r.socket.connected = false
  active : r.socket.active = false
  error : r.socket.error = 0
  last : r.last = none
  activations : r.activations = []
  establishments : r.establishments = []

/-- A recorded event rests on a complete message, and its queue pair targets the
sender of that message. -/
def Grounded (event : Option IBSYNMsg × QueuePair) : Prop :=
  ∃ m, event.1 = some m ∧ event.2.Targets m

/-- The guard of the handshake, over a whole run: every activation and every
establishment is grounded, and a connected socket without an error is active. -/
structure HandshakeExact (r : LinkRun) : Prop where
  activations : ∀ e ∈ r.activations, Grounded e
  establishments : ∀ e ∈ r.establishments, Grounded e
  active_of_connected : r.socket.connected = true → r.socket.error = 0 →
    r.socket.active = true ∧ r.socket.qp.state = .rts

/-- As long as the socket is not connected: no read comes back empty before the
first complete message, and on a server a message that acknowledges comes after
the activation and from the endpoint the queue pair targets. -/
def arrivalsInOrder (r : LinkRun) : LinkAction → Prop
  | .handleConnection injected scratch read _ =>
      injected = false → r.socket.connected = false →
        (read = .bytes [] → r.last.isSome = true) ∧
          (read.complete = true → r.socket.isServer = true →
            (recvMsg injected scratch read r.socket.peerMsg).2.peerQpn ≠ 0 →
              r.socket.active = true ∧
                r.socket.qp.Targets (recvMsg injected scratch read r.socket.peerMsg).2)
  | .send _ _ => True
  | .fault => True

instance (r : LinkRun) (a : LinkAction) : Decidable (r.arrivalsInOrder a) :=
  match a with
  | .handleConnection _ _ _ _ => inferInstanceAs (Decidable (_ → _ → _ ∧ _))
  | .send _ _ => .isTrue trivial
  | .fault => .isTrue trivial

/-- What every run with arrivals in order maintains: a socket that is not connected
has no error, and once it has received a message it is an active server that has
been sent a `syn`. -/
structure Sound (r : LinkRun) : Prop where
  exact : r.HandshakeExact
  rts_of_active : r.socket.active = true → r.socket.qp.state = .rts
  error_of_waiting : r.socket.connected = false → r.socket.error = 0
  waiting : r.socket.connected = false → r.last.isSome = true →
    r.socket.isServer = true ∧ r.socket.active = true ∧ r.socket.peerMsg.peerQpn = 0

variable {r t : LinkRun}

theorem Fresh.sound (hfresh : r.Fresh) : r.Sound where
  exact :=
    { activations := by simp [hfresh.activations]
      establishments := by simp [hfresh.establishments]
      active_of_connected := by simp [hfresh.connected] }
  rts_of_active := by simp [hfresh.active]
  error_of_waiting := fun _ => hfresh.error
  waiting := by simp [hfresh.last]

/-- Sending leaves the link alone. -/
theorem Sound.of_sameLink {s : Socket} {side : TxSide} (hsound : r.Sound)
    (hlink : SameLink r.socket s) : Sound { r with socket := s, side := side } where
  exact :=
    { activations := hsound.exact.activations
      establishments := hsound.exact.establishments
      active_of_connected := by
        rw [hlink.connected, hlink.error, hlink.active, hlink.qp]
        exact hsound.exact.active_of_connected }
  rts_of_active := by
    rw [hlink.active, hlink.qp]
    exact hsound.rts_of_active
  error_of_waiting := by
    rw [hlink.connected, hlink.error]
    exact hsound.error_of_waiting
  waiting := by
    rw [hlink.connected, hlink.isServer, hlink.active, hlink.peerMsg]
    exact hsound.waiting

/-- A faulted socket is connected with an error, and its records stay. -/
theorem Sound.faulted {s : Socket} {side : TxSide} {last : Option IBSYNMsg}
    {activations establishments : List (Option IBSYNMsg × QueuePair)}
    (hactivations : ∀ e ∈ activations, Grounded e)
    (hestablishments : ∀ e ∈ establishments, Grounded e)
    (hrts : s.active = true → s.qp.state = .rts) :
    Sound ⟨s.fault, side, last, activations, establishments⟩ where
  exact := ⟨hactivations, hestablishments, by simp [Socket.fault, Socket.notify, econnreset]⟩
  rts_of_active := hrts
  error_of_waiting := by simp [Socket.fault, Socket.notify]
  waiting := by simp [Socket.fault, Socket.notify]

/-- Answering faults the socket or leaves it as it was. -/
theorem Sound.replied {s socket : Socket} {side : TxSide} {last : Option IBSYNMsg}
    {activations establishments : List (Option IBSYNMsg × QueuePair)} {env : ConnEnv}
    {sent : Option IBSYNMsg}
    (hsound : Sound ⟨s, side, last, activations, establishments⟩)
    (hreply : s.reply env = (socket, sent)) :
    Sound ⟨socket, side, last, activations, establishments⟩ := by
  rcases reply_cases s env with ⟨h, -⟩ | ⟨h, -⟩
  · rw [hreply] at h
    cases h
    exact Sound.faulted hsound.exact.activations hsound.exact.establishments
      hsound.rts_of_active
  · rw [hreply] at h
    cases h
    exact hsound

/-- A read either brings the last complete message or changes nothing, and then it
failed or came back empty. -/
theorem received_cases (r : LinkRun) (injected : Bool) (scratch : Scratch)
    (read : ReadResult) :
    (injected = false ∧ read.complete = true ∧
      (recvMsg injected scratch read r.socket.peerMsg).1 = tcpMsgLen ∧
      r.lastAfter injected scratch read =
        some (recvMsg injected scratch read r.socket.peerMsg).2) ∨
    (r.lastAfter injected scratch read = r.last ∧
      (recvMsg injected scratch read r.socket.peerMsg).2 = r.socket.peerMsg ∧
      (0 ≤ (recvMsg injected scratch read r.socket.peerMsg).1 →
        injected = false ∧ read = .bytes [])) := by
  rcases recvMsg_cases injected scratch read r.socket.peerMsg with
    ⟨hneg, him, hwhole⟩ | ⟨hinjected, hread, hrecv⟩ | ⟨hinjected, hcomplete, hlen⟩
  · refine .inr ⟨?_, him, fun h => absurd hneg (by omega)⟩
    rcases hwhole with h | h <;> simp [lastAfter, h]
  · refine .inr ⟨?_, by rw [hrecv], fun _ => ⟨hinjected, hread⟩⟩
    have hempty : (ReadResult.bytes []).complete = false := by decide
    simp [lastAfter, hread, hempty]
  · exact .inl ⟨hinjected, hcomplete, hlen, by simp [lastAfter, hinjected, hcomplete]⟩

/-- The records after a call that activated, or established, on message `m`. -/
theorem grounded_append {events : List (Option IBSYNMsg × QueuePair)} {flag : Bool}
    {event : Option IBSYNMsg × QueuePair} (hevents : ∀ e ∈ events, Grounded e)
    (hevent : flag = true → Grounded event) :
    ∀ e ∈ events ++ (if flag then [event] else []), Grounded e := by
  intro e he
  rcases List.mem_append.mp he with he | he
  · exact hevents e he
  · cases flag with
    | false => simp at he
    | true =>
        obtain rfl : e = event := by simpa using he
        exact hevent rfl

/-- A call that only writes `peer_msg`. -/
theorem Sound.written {m : IBSYNMsg} {side : TxSide} {last : Option IBSYNMsg}
    {activations establishments : List (Option IBSYNMsg × QueuePair)} (hsound : r.Sound)
    (hactivations : ∀ e ∈ activations, Grounded e)
    (hestablishments : ∀ e ∈ establishments, Grounded e)
    (hwaiting : r.socket.connected = false → last.isSome = true →
      r.socket.isServer = true ∧ r.socket.active = true ∧ m.peerQpn = 0) :
    Sound ⟨{ r.socket with peerMsg := m }, side, last, activations, establishments⟩ where
  exact := ⟨hactivations, hestablishments, hsound.exact.active_of_connected⟩
  rts_of_active := hsound.rts_of_active
  error_of_waiting := hsound.error_of_waiting
  waiting := hwaiting

/-- A call that leaves the socket active and ready to send, with its records. -/
theorem Sound.active {s : Socket} {side : TxSide} {last : Option IBSYNMsg}
    {activated established : Bool} {event : Option IBSYNMsg × QueuePair} (hsound : r.Sound)
    (hevent : Grounded event) (hactive : s.active = true) (hrts : s.qp.state = .rts)
    (hwaiting : s.connected = false →
      s.error = 0 ∧ s.isServer = true ∧ s.peerMsg.peerQpn = 0) :
    Sound ⟨s, side, last, r.activations ++ (if activated then [event] else []),
      r.establishments ++ (if established then [event] else [])⟩ where
  exact := ⟨grounded_append hsound.exact.activations fun _ => hevent,
    grounded_append hsound.exact.establishments fun _ => hevent, fun _ _ => ⟨hactive, hrts⟩⟩
  rts_of_active := fun _ => hrts
  error_of_waiting := fun h => (hwaiting h).1
  waiting := fun h _ => ⟨(hwaiting h).2.1, hactive, (hwaiting h).2.2⟩

/-- The step lemma for `handle_connection`. -/
theorem Sound.handleConnection {injected : Bool} {scratch : Scratch} {read : ReadResult}
    {env : ConnEnv} (hsound : r.Sound)
    (hok : r.arrivalsInOrder (.handleConnection injected scratch read env))
    (hstep : r.step (.handleConnection injected scratch read env) = some t) : t.Sound := by
  simp only [step, Socket.handleConnection] at hstep
  split at hstep
  · cases hstep
  rename_i out hhandle
  obtain rfl := Option.some.inj hstep
  have hreceived := received_cases r injected scratch read
  simp only [arrivalsInOrder] at hok
  generalize hlast : r.lastAfter injected scratch read = last at *
  generalize recvMsg injected scratch read r.socket.peerMsg = recv at *
  -- a socket that goes on without a new message is an active server after a `syn`
  have hstale : r.socket.connected = false → 0 ≤ recv.1 → last ≠ some recv.2 →
      r.socket.isServer = true ∧ r.socket.active = true ∧ recv.2.peerQpn = 0 := by
    intro hconnected hrecv hne
    rcases hreceived with ⟨-, -, -, h⟩ | ⟨-, him, hempty⟩
    · exact absurd h hne
    · obtain ⟨hinjected, hread⟩ := hempty hrecv
      rw [him]
      exact hsound.waiting hconnected ((hok hinjected hconnected).1 hread)
  cases handleReceived_cases hhandle with
  | again hrecv hout =>
      have hneg : recv.1 < 0 := by rw [hrecv]; decide
      obtain ⟨hlast', him⟩ : last = r.last ∧ recv.2 = r.socket.peerMsg := by
        rcases hreceived with ⟨-, -, hlen, -⟩ | ⟨h, him, -⟩
        · rw [hlen] at hneg
          exact absurd hneg (by decide)
        · exact ⟨h, him⟩
      subst hout hlast'
      exact hsound.written (grounded_append hsound.exact.activations (by simp))
        (grounded_append hsound.exact.establishments (by simp)) (him ▸ hsound.waiting)
  | failed hrecv hfatal hout =>
      subst hout
      exact Sound.faulted (grounded_append hsound.exact.activations (by simp))
        (grounded_append hsound.exact.establishments (by simp)) hsound.rts_of_active
  | unexpected hrecv hconnected hout =>
      subst hout
      exact Sound.faulted (grounded_append hsound.exact.activations (by simp))
        (grounded_append hsound.exact.establishments (by simp)) hsound.rts_of_active
  | synAck hrecv hconnected hserver s1 hactivated hreply hcalls =>
      -- a client goes on with a new message only
      have hnew : last = some recv.2 := by
        by_contra hne
        have h := (hstale hconnected hrecv hne).1
        rw [hserver] at h
        cases h
      have hqp : out.socket.qp = s1.notify.qp := reply_qp hreply
      have hgrounded : Grounded (last, out.socket.qp) :=
        ⟨recv.2, hnew, by
          rw [hqp, Socket.notify, hactivated.qp]
          exact ⟨rfl, rfl, rfl, rfl⟩⟩
      have hrts : s1.qp.state = .rts := by rw [hactivated.qp]; rfl
      have hup : s1.connected = true := by rw [hactivated.connected]; simp [hserver]
      have hactive : s1.notify.active = true := hactivated.active
      apply Sound.replied _ hreply
      exact hsound.active hgrounded hactive hrts fun h => absurd (hup.symm.trans h) (by simp)
  | synAgain hrecv hconnected hserver hsyn hactive hout =>
      subst hout
      exact hsound.written (grounded_append hsound.exact.activations (by simp))
        (grounded_append hsound.exact.establishments (by simp))
        fun _ _ => ⟨hserver, hactive, hsyn⟩
  | syn hrecv hconnected hserver hsyn hactive s1 hactivated hreply hcalls =>
      -- a server that is not active yet goes on with a new message only
      have hnew : last = some recv.2 := by
        by_contra hne
        have h := (hstale hconnected hrecv hne).2.1
        rw [hactive] at h
        cases h
      have hqp : out.socket.qp = s1.qp := reply_qp hreply
      have hgrounded : Grounded (last, out.socket.qp) :=
        ⟨recv.2, hnew, by rw [hqp, hactivated.qp]; exact ⟨rfl, rfl, rfl, rfl⟩⟩
      have hrts : s1.qp.state = .rts := by rw [hactivated.qp]; rfl
      have hwaiting : s1.error = 0 ∧ s1.isServer = true ∧ s1.peerMsg.peerQpn = 0 := by
        rw [hactivated.error, hactivated.isServer, hactivated.peerMsg]
        exact ⟨hsound.error_of_waiting hconnected, hserver, hsyn⟩
      apply Sound.replied _ hreply
      exact hsound.active hgrounded hactivated.active hrts fun _ => hwaiting
  | ack hrecv hconnected hserver hack s1 hlink hout hcalls =>
      -- an acknowledgement is never the message of an old `syn`
      obtain ⟨hnew, hactive, htargets⟩ : last = some recv.2 ∧ r.socket.active = true ∧
          r.socket.qp.Targets recv.2 := by
        rcases hreceived with ⟨hinjected, hcomplete, -, h⟩ | ⟨-, him, hempty⟩
        · obtain ⟨hactive, htargets⟩ := (hok hinjected hconnected).2 hcomplete hserver hack
          exact ⟨h, hactive, htargets⟩
        · obtain ⟨hinjected, hread⟩ := hempty hrecv
          have h := hsound.waiting hconnected ((hok hinjected hconnected).1 hread)
          rw [him] at hack
          exact absurd h.2.2 hack
      have hqp : out.socket.qp = r.socket.qp := by rw [hout]; exact hlink.qp
      have hgrounded : Grounded (last, out.socket.qp) :=
        ⟨recv.2, hnew, by rw [hqp]; exact htargets⟩
      have hrts : out.socket.qp.state = .rts := by
        rw [hqp]
        exact hsound.rts_of_active hactive
      have hup : out.socket.connected = true := by rw [hout]; exact hlink.connected
      have hactive' : out.socket.active = true := by rw [hout]; exact hlink.active.trans hactive
      exact hsound.active hgrounded hactive' hrts fun h => absurd (hup.symm.trans h) (by simp)

/-- Every step with arrivals in order keeps the invariant. -/
theorem Sound.step {a : LinkAction} (hsound : r.Sound) (hok : r.arrivalsInOrder a)
    (hstep : r.step a = some t) : t.Sound := by
  cases a with
  | handleConnection injected scratch read env => exact hsound.handleConnection hok hstep
  | send bl post =>
      simp only [LinkRun.step] at hstep
      split at hstep
      · cases hstep
      · rename_i out hsend
        cases hstep
        exact hsound.of_sameLink (send_sameLink hsend).1
  | fault =>
      cases hstep
      exact Sound.faulted hsound.exact.activations hsound.exact.establishments
        hsound.rts_of_active

end LinkRun

/-- One socket under `handle_connection`, `send` and `fault`. -/
def linkMachine : Machine LinkRun LinkAction where
  start := LinkRun.Fresh
  step := LinkRun.step

namespace LinkRun

/-- **Activation rests on a message.**  In every run with arrivals in order, each
activation and each establishment was on the last complete message, and a
connected socket without an error is active. -/
theorem handshakeExact_of_arrivalsInOrder {r : LinkRun}
    (hreached : linkMachine.ReachedUnder arrivalsInOrder r) : r.HandshakeExact := by
  have hsound : r.Sound :=
    hreached.invariant Sound (fun _ (h : Fresh _) => h.sound)
      fun _ _ _ h hok hstep => h.step hok hstep
  exact hsound.exact

/-- A constructed client whose `peer_msg` was never written. -/
def freshClient : LinkRun where
  socket :=
    { quietSocket with
      connected := false
      active := false
      qp := { quietSocket.qp with state := .init } }
  side := ⟨⟨4, []⟩, 0, [], fun _ => []⟩
  last := none
  activations := []
  establishments := []

theorem fresh_freshClient : freshClient.Fresh := ⟨rfl, rfl, rfl, rfl, rfl, rfl⟩

/-- Everything the client asks the system for succeeds. -/
def willing : ConnEnv := ⟨true, true, fun _ => ⟨tcpMsgLen, 0, false⟩, .posted⟩

/-- The read that brings `m`. -/
def arrival (m : IBSYNMsg) : LinkAction :=
  .handleConnection false ⟨[], 0, []⟩ (.bytes (msgBytes m)) willing

/-- The server's answer establishes the connection. -/
theorem handshakeExact_of_arrivalsInOrder_synAck :
    ∃ r : LinkRun, r.establishments.length = 1 ∧ r.socket.active = true ∧
      r.HandshakeExact := by
  have hrun : (linkMachine.replay arrivalsInOrder freshClient
      [arrival quietSocket.peerMsg]).any
        (fun r => r.establishments.length == 1 && r.socket.active) = true := by
    decide +kernel
  obtain ⟨r, hreplay, hr⟩ := (Option.any_eq_true _ _).mp hrun
  simp only [Bool.and_eq_true, beq_iff_eq] at hr
  exact ⟨r, hr.1, hr.2,
    handshakeExact_of_arrivalsInOrder (.of_replay (.start fresh_freshClient) hreplay)⟩

/-- The server closes the TCP connection before it answers: the client activates its
queue pair on the uninitialised `peer_msg` and reports the connection as up. -/
theorem not_handshakeExact_peer_closed :
    ∃ r : LinkRun, linkMachine.Reached r ∧ r.last = none ∧ r.socket.connected = true ∧
      r.socket.error = 0 ∧ r.activations.length = 1 ∧ ¬ r.HandshakeExact := by
  have hrun : (linkMachine.replay (fun _ _ => True) freshClient
      [.handleConnection false ⟨[], 0, []⟩ (.bytes []) willing]).any
        (fun r => decide (r.last = none ∧ r.socket.connected = true ∧ r.socket.error = 0 ∧
          r.activations = [(none, r.socket.qp)])) = true := by
    decide +kernel
  obtain ⟨r, hreplay, hr⟩ := (Option.any_eq_true _ _).mp hrun
  obtain ⟨hlast, hconnected, herror, hactivations⟩ := of_decide_eq_true hr
  refine ⟨r, .of_replay (.start fresh_freshClient) hreplay, hlast, hconnected, herror,
    by simp [hactivations], fun hexact => ?_⟩
  obtain ⟨m, hm, -⟩ := hexact.activations _ (hactivations ▸ List.mem_singleton_self _)
  cases hm

end LinkRun

end HwAsync.Rdma
