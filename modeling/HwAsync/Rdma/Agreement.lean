/-
# The RDMA handshake of a client and a server

Two sockets joined by a TCP channel in each direction.  The channels deliver whole
messages in order, and no TCP call fails; queue pairs, tx chunks and posts answer
as they like.  Whatever the order of `handle_connection` and `send` on the two
sides, the handshake is in one of four phases, and the phases say what each end
may rely on once it is connected.
-/

import HwAsync.Rdma.Handshake

namespace HwAsync.Rdma

open HwAsync.Lib HwAsync.Infiniband

/-- The two ends of the connection. -/
inductive End
  | client
  | server
  deriving DecidableEq, Repr

/-- Where a call runs: the worker, the number of the socket, and the state of the
worker and the dispatcher at that moment. -/
structure Host where
  worker : ℕ
  o : ℕ
  side : TxSide

/-- A data work request: the address of the end that posted it, and the queue pair
of the other end at that moment. -/
structure DataPost where
  sender : IBSYNMsg
  peer : QueuePair

/-- Both sockets, the messages in flight and the data posted so far. -/
structure Link where
  client : Socket
  server : Socket
  toClient : List IBSYNMsg
  toServer : List IBSYNMsg
  posts : List DataPost

inductive LinkStep
  | handleConnection (e : End) (host : Host) (env : ConnEnv)
  | send (e : End) (host : Host) (bl : Bufferlist) (post : PostResult)

namespace Link

def socket (l : Link) : End → Socket
  | .client => l.client
  | .server => l.server

def peerQp (l : Link) : End → QueuePair
  | .client => l.server.qp
  | .server => l.client.qp

def inbox (l : Link) : End → List IBSYNMsg
  | .client => l.toClient
  | .server => l.toServer

/-- `recv_msg` on a channel that delivers whole messages: the result, and what is
left in the channel. -/
def receive (channel : List IBSYNMsg) (peerMsg : IBSYNMsg) :
    (ℤ × IBSYNMsg) × List IBSYNMsg :=
  match channel with
  | [] => ((-eagain, peerMsg), [])
  | m :: rest => ((tcpMsgLen, m), rest)

theorem recvMsg_delivered {m : IBSYNMsg} (hround : RoundTrips m) (scratch : Scratch)
    (peerMsg : IBSYNMsg) (rest : List IBSYNMsg) :
    recvMsg false scratch (.bytes (msgBytes m)) peerMsg = (receive (m :: rest) peerMsg).1 :=
  hround scratch peerMsg

theorem recvMsg_nothing (scratch : Scratch) (peerMsg : IBSYNMsg) :
    recvMsg false scratch (.failed eagain (by decide)) peerMsg = (receive [] peerMsg).1 :=
  rfl

/-- The link after a call at one end. -/
def after (l : Link) (e : End) (s : Socket) (inbox : List IBSYNMsg)
    (sent : Option IBSYNMsg) (posted : List Chunk) : Link :=
  let posts := l.posts ++ (if posted = [] then [] else [⟨s.myMsg, l.peerQp e⟩])
  match e with
  | .client => ⟨s, l.server, inbox, l.toServer ++ sent.toList, posts⟩
  | .server => ⟨l.client, s, l.toClient ++ sent.toList, inbox, posts⟩

/-- One call at one end; a call whose `send_msg` fails is no step. -/
def step (l : Link) : LinkStep → Option Link
  | .handleConnection e host env =>
      if sendMsg env.write 0 < 0 then none
      else
        let r := receive (l.inbox e) (l.socket e).peerMsg
        match (l.socket e).handleReceived host.worker host.o host.side r.1 env with
        | none => none
        | some out => some (l.after e out.socket r.2 out.sent out.posted)
  | .send e host bl post =>
      match (l.socket e).send host.worker host.o host.side bl post with
      | none => none
      | some out => some (l.after e out.socket (l.inbox e) none out.posted)

/-- A socket as its constructor leaves it. -/
structure Constructed (s : Socket) : Prop where
  connected : s.connected = false
  error : s.error = 0
  isServer : s.isServer = false
  active : s.active = false
  peerQpn : s.myMsg.peerQpn = 0
  qp : s.qp.state = .init

/-- After `try_connect` on one side and `set_accept_fd` on the other. -/
structure Opened (l : Link) : Prop where
  client : ∃ s write m, Constructed s ∧ s.tryConnect write = (0, l.client, some m) ∧
    l.toServer = [m]
  server : ∃ s, Constructed s ∧ l.server = s.setAcceptFd
  qpn : l.client.myMsg.qpn ≠ 0 ∧ l.server.myMsg.qpn ≠ 0
  toClient : l.toClient = []
  posts : l.posts = []

/-- What the two ends agree on. -/
structure Agreement (l : Link) : Prop where
  client : l.client.connected = true → l.client.error = 0 →
    l.client.qp.Targets l.server.myMsg ∧ l.server.active = true ∧
      l.server.qp.Targets l.client.myMsg
  server : l.server.connected = true → l.server.error = 0 →
    l.client.active = true ∧ l.client.connected = true
  posts : ∀ p ∈ l.posts, p.peer.state ≠ .init ∧ p.peer.Targets p.sender

/-! ## Phases -/

/-- How far the handshake is: the client's first message is on its way, then the
server's answer, then the client's confirmation, then nothing. -/
inductive Phase
  | syn
  | synAck
  | ack
  | done
  deriving DecidableEq, Repr

namespace Phase

/-- The client has seen the answer. -/
def clientUp : Phase → Bool
  | .syn => false
  | .synAck => false
  | .ack => true
  | .done => true

/-- The server has seen the first message. -/
def serverUp : Phase → Bool
  | .syn => false
  | .synAck => true
  | .ack => true
  | .done => true

end Phase

/-- The socket `s` is activated on the address `m`. -/
structure Up (s : Socket) (m : IBSYNMsg) : Prop where
  active : s.active = true
  state : s.qp.state = .rts
  targets : s.qp.Targets m

/-- The invariant of the link in a phase. -/
structure InPhase (p : Phase) (l : Link) : Prop where
  isClient : l.client.isServer = false
  isServer : l.server.isServer = true
  clientError : l.client.error = 0
  serverError : l.server.error = 0
  qpn : l.server.myMsg.qpn ≠ 0
  clientConnected : l.client.connected = p.clientUp
  serverConnected : l.server.connected = (p == .done)
  serverActive : l.server.active = p.serverUp
  clientUp : p.clientUp = true → Up l.client l.server.myMsg
  serverUp : p.serverUp = true → Up l.server l.client.myMsg
  toServer : l.toServer = if p = .syn ∨ p = .ack then [l.client.myMsg] else []
  toClient : l.toClient = if p = .synAck then [l.server.myMsg] else []
  peerQpn : l.client.myMsg.peerQpn = if p.clientUp then l.server.myMsg.qpn else 0
  posts : ∀ d ∈ l.posts, d.peer.state = .rts ∧ d.peer.Targets d.sender

/-! ## Calls on a quiet channel and on a message -/

section Calls

variable {worker o : ℕ} {s : Socket} {t : TxSide} {env : ConnEnv} {out : ConnOutcome}

/-- With nothing to read the call changes nothing. -/
theorem handle_nothing
    (hhandle : s.handleReceived worker o t (-eagain, s.peerMsg) env = some out) :
    out.socket = s ∧ out.sent = none ∧ out.posted = [] := by
  have hneg : ¬ (0 : ℤ) ≤ -eagain := by decide
  cases handleReceived_cases hhandle with
  | again _ hout => subst hout; exact ⟨rfl, rfl, rfl⟩
  | failed _ hfatal _ => exact absurd rfl hfatal
  | unexpected hrecv _ _ => exact absurd hrecv hneg
  | synAck hrecv _ _ _ _ _ _ => exact absurd hrecv hneg
  | synAgain hrecv _ _ _ _ _ => exact absurd hrecv hneg
  | syn hrecv _ _ _ _ _ _ _ _ => exact absurd hrecv hneg
  | ack hrecv _ _ _ _ _ _ _ => exact absurd hrecv hneg

theorem reply_ok (henv : ¬ sendMsg env.write 0 < 0) (s : Socket) :
    s.reply env = (s, some s.myMsg) := if_neg henv

/-- What a whole message does at an end that is not connected. -/
theorem handle_message {m : IBSYNMsg} (hconnected : s.connected = false)
    (hhandle : s.handleReceived worker o t (tcpMsgLen, m) env = some out) :
    (s.isServer = false ∧
        ∃ s1, Activated { s with peerMsg := m, myMsg := { s.myMsg with peerQpn := m.qpn } } s1 ∧
          s1.notify.reply env = (out.socket, out.sent)) ∨
      (s.isServer = true ∧ m.peerQpn = 0 ∧ s.active = true) ∨
      (s.isServer = true ∧ m.peerQpn = 0 ∧
        ∃ s1, Activated { s with peerMsg := m } s1 ∧ s1.reply env = (out.socket, out.sent) ∧
          out.posted = []) ∨
      s.isServer = true ∧ m.peerQpn ≠ 0 ∧
        ∃ s1, SameLink { s with peerMsg := m, connected := true } s1 ∧ out.socket = s1.notify ∧
          out.sent = none := by
  have hlen : ¬ (tcpMsgLen : ℤ) < 0 := by decide
  have hagain : ¬ (tcpMsgLen : ℤ) = -eagain := by decide
  cases handleReceived_cases hhandle with
  | again hrecv _ => exact absurd hrecv hagain
  | failed hrecv _ _ => exact absurd hrecv hlen
  | unexpected _ h _ => exact absurd (hconnected.symm.trans h) (by simp)
  | synAck _ _ hserver s1 hactivated hreply _ => exact .inl ⟨hserver, s1, hactivated, hreply⟩
  | synAgain _ _ hserver hsyn hactive _ => exact .inr (.inl ⟨hserver, hsyn, hactive⟩)
  | syn _ _ hserver hsyn _ s1 hactivated hreply hcalls =>
      exact .inr (.inr (.inl ⟨hserver, hsyn, s1, hactivated, hreply, hcalls.2.2⟩))
  | ack _ _ hserver hack s1 hlink hout hcalls =>
      exact .inr (.inr (.inr ⟨hserver, hack, s1, hlink, hout, hcalls.2.2⟩))

/-- The client's call on the server's answer. -/
theorem handle_synAck {m : IBSYNMsg} (henv : ¬ sendMsg env.write 0 < 0)
    (hserver : s.isServer = false) (hconnected : s.connected = false)
    (hhandle : s.handleReceived worker o t (tcpMsgLen, m) env = some out) :
    ∃ s1, Activated { s with
        peerMsg := m, myMsg := { s.myMsg with peerQpn := m.qpn } } s1 ∧
      out.socket = s1.notify ∧ out.sent = some s1.myMsg := by
  have hnot : s.isServer ≠ true := by simp [hserver]
  rcases handle_message hconnected hhandle with ⟨_, s1, hactivated, hreply⟩ | h | h | h
  · rw [reply_ok henv, Prod.mk.injEq] at hreply
    exact ⟨s1, hactivated, hreply.1.symm, hreply.2.symm⟩
  · exact absurd h.1 hnot
  · exact absurd h.1 hnot
  · exact absurd h.1 hnot

/-- The server's call on the client's first message. -/
theorem handle_syn {m : IBSYNMsg} (henv : ¬ sendMsg env.write 0 < 0)
    (hserver : s.isServer = true) (hconnected : s.connected = false)
    (hactive : s.active = false) (hsyn : m.peerQpn = 0)
    (hhandle : s.handleReceived worker o t (tcpMsgLen, m) env = some out) :
    Activated { s with peerMsg := m } out.socket ∧ out.sent = some s.myMsg ∧
      out.posted = [] := by
  rcases handle_message hconnected hhandle with h | h | h | h
  · exact absurd (hserver.symm.trans h.1) (by simp)
  · exact absurd (hactive.symm.trans h.2.2) (by simp)
  · obtain ⟨_, _, s1, hactivated, hreply, hposted⟩ := h
    rw [reply_ok henv, Prod.mk.injEq] at hreply
    rw [← hreply.1, ← hreply.2]
    exact ⟨hactivated, congrArg some hactivated.myMsg, hposted⟩
  · exact absurd hsyn h.2.1

/-- The server's call on the client's confirmation. -/
theorem handle_ack {m : IBSYNMsg} (hserver : s.isServer = true)
    (hconnected : s.connected = false) (hack : m.peerQpn ≠ 0)
    (hhandle : s.handleReceived worker o t (tcpMsgLen, m) env = some out) :
    SameLink { s with peerMsg := m, connected := true } out.socket ∧ out.sent = none := by
  rcases handle_message hconnected hhandle with h | h | h | h
  · exact absurd (hserver.symm.trans h.1) (by simp)
  · exact absurd h.2.1 hack
  · exact absurd h.2.1 hack
  · obtain ⟨_, _, s1, hlink, hout, hsent⟩ := h
    rw [hout]
    exact ⟨⟨hlink.myMsg, hlink.peerMsg, hlink.isServer, hlink.connected, hlink.active,
      hlink.error, hlink.qp⟩, hsent⟩

end Calls

/-! ## Steps -/

variable {l l' : Link} {p : Phase}

/-- A call at one end records at most one post. -/
theorem forall_posts {P : DataPost → Prop} {posts : List DataPost} {posted : List Chunk}
    {d : DataPost} (hposts : ∀ d ∈ posts, P d) (hnew : posted ≠ [] → P d) :
    ∀ e ∈ posts ++ (if posted = [] then [] else [d]), P e := by
  intro e he
  rcases List.mem_append.mp he with he | he
  · exact hposts e he
  · split at he
    · simp at he
    · obtain rfl := List.mem_singleton.mp he
      exact hnew ‹_›

namespace InPhase

/-- An end that is connected may post: the other one is up, and on its address. -/
theorem ready (h : InPhase p l) (e : End) (hconnected : (l.socket e).connected = true) :
    (l.peerQp e).state = .rts ∧ (l.peerQp e).Targets (l.socket e).myMsg := by
  cases e with
  | client =>
      have hp : p.clientUp = true := h.clientConnected.symm.trans hconnected
      have hup := h.serverUp (by cases p <;> simp_all [Phase.clientUp, Phase.serverUp])
      exact ⟨hup.state, hup.targets⟩
  | server =>
      have hp : p = .done := by
        have h := h.serverConnected.symm.trans hconnected
        exact of_decide_eq_true h
      have hup := h.clientUp (by rw [hp]; rfl)
      exact ⟨hup.state, hup.targets⟩

/-- A call that keeps the link of its end and sends nothing keeps the phase. -/
theorem of_sameLink (h : InPhase p l) {e : End} {s : Socket} {posted : List Chunk}
    (hlink : SameLink (l.socket e) s)
    (hposted : posted ≠ [] → (l.socket e).connected = true) :
    InPhase p (l.after e s (l.inbox e) none posted) := by
  have hposts : ∀ d ∈ l.posts ++ (if posted = [] then [] else [⟨s.myMsg, l.peerQp e⟩]),
      d.peer.state = .rts ∧ d.peer.Targets d.sender :=
    forall_posts h.posts fun hne => by
      rw [hlink.myMsg]
      exact h.ready e (hposted hne)
  obtain ⟨hmyMsg, -, hrole, hconnected, hactive, herror, hqp⟩ := hlink
  cases e with
  | client =>
      have hup {m : IBSYNMsg} (hup : Up l.client m) : Up s m :=
        ⟨hactive.trans hup.active, (congrArg QueuePair.state hqp).trans hup.state,
          hqp ▸ hup.targets⟩
      simp only [socket] at hmyMsg hrole hconnected hactive herror hqp
      exact
        { isClient := hrole.trans h.isClient
          isServer := h.isServer
          clientError := herror.trans h.clientError
          serverError := h.serverError
          qpn := h.qpn
          clientConnected := hconnected.trans h.clientConnected
          serverConnected := h.serverConnected
          serverActive := h.serverActive
          clientUp := fun hp => hup (h.clientUp hp)
          serverUp := fun hp => by simpa [after, hmyMsg] using h.serverUp hp
          toServer := by simpa [after, hmyMsg] using h.toServer
          toClient := h.toClient
          peerQpn := by simpa [after, hmyMsg] using h.peerQpn
          posts := hposts }
  | server =>
      have hup {m : IBSYNMsg} (hup : Up l.server m) : Up s m :=
        ⟨hactive.trans hup.active, (congrArg QueuePair.state hqp).trans hup.state,
          hqp ▸ hup.targets⟩
      simp only [socket] at hmyMsg hrole hconnected hactive herror hqp
      exact
        { isClient := h.isClient
          isServer := hrole.trans h.isServer
          clientError := h.clientError
          serverError := herror.trans h.serverError
          qpn := by simpa [after, hmyMsg] using h.qpn
          clientConnected := h.clientConnected
          serverConnected := hconnected.trans h.serverConnected
          serverActive := hactive.trans h.serverActive
          clientUp := fun hp => by simpa [after, hmyMsg] using h.clientUp hp
          serverUp := fun hp => hup (h.serverUp hp)
          toServer := h.toServer
          toClient := by simpa [after, hmyMsg] using h.toClient
          peerQpn := by simpa [after, hmyMsg] using h.peerQpn
          posts := hposts }

section Handle

variable {worker o : ℕ} {t : TxSide} {env : ConnEnv} {out : ConnOutcome}

/-- Nothing in the channel: the phase stays. -/
theorem nothing (h : InPhase p l) {e : End} (hinbox : l.inbox e = [])
    (hhandle : (l.socket e).handleReceived worker o t
      (receive (l.inbox e) (l.socket e).peerMsg).1 env = some out) :
    InPhase p (l.after e out.socket (receive (l.inbox e) (l.socket e).peerMsg).2 out.sent
      out.posted) := by
  rw [hinbox] at hhandle ⊢
  obtain ⟨hsocket, hsent, hposted⟩ := handle_nothing hhandle
  rw [hsocket, hsent, hposted]
  have hsame := h.of_sameLink (SameLink.refl (l.socket e)) (fun hne => absurd rfl hne)
  rwa [hinbox] at hsame

/-- The server is activated on the client's first message and answers. -/
theorem syn (h : InPhase .syn l) (henv : ¬ sendMsg env.write 0 < 0)
    (hhandle : l.server.handleReceived worker o t (tcpMsgLen, l.client.myMsg) env =
      some out) :
    InPhase .synAck (l.after .server out.socket [] out.sent out.posted) := by
  obtain ⟨hactivated, hsent, hposted⟩ :=
    handle_syn henv h.isServer h.serverConnected h.serverActive h.peerQpn hhandle
  have hmyMsg : out.socket.myMsg = l.server.myMsg := hactivated.myMsg
  have hup : Up out.socket l.client.myMsg :=
    { active := hactivated.active
      state := by rw [hactivated.qp]; rfl
      targets := by rw [hactivated.qp]; exact ⟨rfl, rfl, rfl, rfl⟩ }
  rw [hsent, hposted]
  exact
    { isClient := h.isClient
      isServer := hactivated.isServer.trans h.isServer
      clientError := h.clientError
      serverError := hactivated.error.trans h.serverError
      qpn := by simpa [after, hmyMsg] using h.qpn
      clientConnected := h.clientConnected
      serverConnected := by
        have hserver := h.isServer
        have hconnected : l.server.connected = false := h.serverConnected
        have hafter : out.socket.connected = false := by
          rw [hactivated.connected]
          simp [hconnected, hserver]
        exact hafter
      serverActive := hactivated.active
      clientUp := fun hp => absurd hp (by decide)
      serverUp := fun _ => hup
      toServer := rfl
      toClient := by simp [after, hmyMsg, h.toClient]
      peerQpn := h.peerQpn
      posts := by simpa [after] using h.posts }

/-- The client is activated on the server's answer, and confirms. -/
theorem synAck (h : InPhase .synAck l) (henv : ¬ sendMsg env.write 0 < 0)
    (hhandle : l.client.handleReceived worker o t (tcpMsgLen, l.server.myMsg) env =
      some out) :
    InPhase .ack (l.after .client out.socket [] out.sent out.posted) := by
  obtain ⟨s1, hactivated, hsocket, hsent⟩ :=
    handle_synAck henv h.isClient h.clientConnected hhandle
  have hmyMsg : s1.myMsg = { l.client.myMsg with peerQpn := l.server.myMsg.qpn } :=
    hactivated.myMsg
  have hserverUp := h.serverUp rfl
  -- the address of the client does not depend on `peer_qpn`
  have htargets : l.server.qp.Targets s1.myMsg := by
    rw [hmyMsg]
    exact hserverUp.targets
  have hup : Up s1.notify l.server.myMsg :=
    { active := hactivated.active
      state := by rw [Socket.notify, hactivated.qp]; rfl
      targets := by rw [Socket.notify, hactivated.qp]; exact ⟨rfl, rfl, rfl, rfl⟩ }
  rw [hsocket, hsent]
  exact
    { isClient := hactivated.isServer.trans h.isClient
      isServer := h.isServer
      clientError := hactivated.error.trans h.clientError
      serverError := h.serverError
      qpn := h.qpn
      clientConnected := by
        have hclient := h.isClient
        simp [after, Socket.notify, hactivated.connected, hclient, Phase.clientUp]
      serverConnected := h.serverConnected
      serverActive := h.serverActive
      clientUp := fun _ => hup
      serverUp := fun _ => ⟨hserverUp.active, hserverUp.state, htargets⟩
      toServer := by simp [after, Socket.notify, h.toServer]
      toClient := rfl
      peerQpn := by simp [after, Socket.notify, hmyMsg, Phase.clientUp]
      posts := forall_posts h.posts fun _ => ⟨hserverUp.state, htargets⟩ }

/-- The server is connected by the client's confirmation. -/
theorem ack (h : InPhase .ack l)
    (hhandle : l.server.handleReceived worker o t (tcpMsgLen, l.client.myMsg) env =
      some out) :
    InPhase .done (l.after .server out.socket [] out.sent out.posted) := by
  have hpeerQpn : l.client.myMsg.peerQpn ≠ 0 := by
    rw [h.peerQpn]
    exact h.qpn
  obtain ⟨hlink, hsent⟩ := handle_ack h.isServer h.serverConnected hpeerQpn hhandle
  have hmyMsg : out.socket.myMsg = l.server.myMsg := hlink.myMsg
  have hqp : out.socket.qp = l.server.qp := hlink.qp
  have hserverUp := h.serverUp rfl
  have hclientUp := h.clientUp rfl
  rw [hsent]
  exact
    { isClient := h.isClient
      isServer := hlink.isServer.trans h.isServer
      clientError := h.clientError
      serverError := hlink.error.trans h.serverError
      qpn := by simpa [after, hmyMsg] using h.qpn
      clientConnected := h.clientConnected
      serverConnected := hlink.connected
      serverActive := hlink.active.trans h.serverActive
      clientUp := fun _ => by simpa [after, hmyMsg] using hclientUp
      serverUp := fun _ =>
        ⟨hlink.active.trans hserverUp.active,
          (congrArg QueuePair.state hqp).trans hserverUp.state, hqp ▸ hserverUp.targets⟩
      toServer := rfl
      toClient := by simp [after, h.toClient]
      peerQpn := by
        have hpeer : l.client.myMsg.peerQpn = l.server.myMsg.qpn := h.peerQpn
        simpa [after, hmyMsg, Phase.clientUp] using hpeer
      posts := forall_posts h.posts fun _ => by
        rw [hmyMsg]
        exact ⟨hclientUp.state, hclientUp.targets⟩ }

end Handle

/-- Every step keeps the phase or goes to the next one. -/
theorem step {a : LinkStep} (h : InPhase p l) (hstep : l.step a = some l') :
    ∃ p', InPhase p' l' := by
  cases a with
  | send e host bl post =>
      simp only [Link.step] at hstep
      split at hstep
      · cases hstep
      · rename_i out hsend
        cases hstep
        obtain ⟨hlink, hposted⟩ := send_sameLink hsend
        exact ⟨p, h.of_sameLink hlink hposted⟩
  | handleConnection e host env =>
      simp only [Link.step] at hstep
      split at hstep
      · cases hstep
      · rename_i henv
        split at hstep
        · cases hstep
        · rename_i out hhandle
          cases hstep
          cases hinbox : l.inbox e with
          | nil => exact ⟨p, hinbox ▸ h.nothing hinbox hhandle⟩
          | cons m rest =>
              rw [hinbox] at hhandle
              cases e with
              | client =>
                  have htoClient : l.toClient = m :: rest := hinbox
                  rw [h.toClient] at htoClient
                  cases p <;> simp at htoClient
                  obtain ⟨rfl, rfl⟩ := htoClient
                  exact ⟨.ack, h.synAck henv hhandle⟩
              | server =>
                  have htoServer : l.toServer = m :: rest := hinbox
                  rw [h.toServer] at htoServer
                  cases p <;> simp at htoServer <;> obtain ⟨rfl, rfl⟩ := htoServer
                  · exact ⟨.synAck, h.syn henv hhandle⟩
                  · exact ⟨.done, h.ack hhandle⟩

/-- What the two ends may rely on in any phase. -/
theorem agreement (h : InPhase p l) : Agreement l where
  client := fun hconnected _ => by
    have hp : p.clientUp = true := h.clientConnected.symm.trans hconnected
    have hp' : p.serverUp = true := by cases p <;> simp_all [Phase.clientUp, Phase.serverUp]
    exact ⟨(h.clientUp hp).targets, (h.serverUp hp').active, (h.serverUp hp').targets⟩
  server := fun hconnected _ => by
    have hp : p = .done := of_decide_eq_true (h.serverConnected.symm.trans hconnected)
    have hup : p.clientUp = true := by rw [hp]; rfl
    exact ⟨(h.clientUp hup).active, h.clientConnected.trans hup⟩
  posts := fun d hd => by
    obtain ⟨hstate, htargets⟩ := h.posts d hd
    exact ⟨by simp [hstate], htargets⟩

end InPhase

/-- A link that was just opened is in the first phase. -/
theorem Opened.inPhase (h : Opened l) : InPhase .syn l := by
  obtain ⟨s, write, m, hs, hconnect, htoServer⟩ := h.client
  obtain ⟨s', hs', hserver⟩ := h.server
  obtain ⟨hclient, hm⟩ : l.client = { s with
      myMsg := { s.myMsg with peerQpn := 0 }, conHandler := true } ∧
        m = { s.myMsg with peerQpn := 0 } := by
    simp only [Socket.tryConnect] at hconnect
    split at hconnect
    · simp at hconnect
    · simp only [Prod.mk.injEq, Option.some.injEq, true_and] at hconnect
      exact ⟨hconnect.1.symm, hconnect.2.symm⟩
  have hmyMsg : l.client.myMsg = m := by rw [hclient, hm]
  exact
    { isClient := by rw [hclient]; exact hs.isServer
      isServer := by rw [hserver]; rfl
      clientError := by rw [hclient]; exact hs.error
      serverError := by rw [hserver]; exact hs'.error
      qpn := h.qpn.2
      clientConnected := by rw [hclient]; exact hs.connected
      serverConnected := by rw [hserver]; exact hs'.connected
      serverActive := by rw [hserver]; exact hs'.active
      clientUp := fun hp => absurd hp (by decide)
      serverUp := fun hp => absurd hp (by decide)
      toServer := by simp [htoServer, hmyMsg]
      toClient := h.toClient
      peerQpn := by rw [hclient]; rfl
      posts := by simp [h.posts] }

end Link

/-- The client, the server and the channels between them. -/
def handshakeMachine : Machine Link LinkStep where
  start := Link.Opened
  step := Link.step

namespace Link

/-- **Agreement.**  Whatever the order of calls on the two ends. -/
theorem agreement_of_reached {l : Link} (hreached : handshakeMachine.Reached l) :
    Agreement l := by
  obtain ⟨p, hphase⟩ : ∃ p, InPhase p l :=
    hreached.invariant (fun l => ∃ p, InPhase p l) (fun _ h => ⟨.syn, Opened.inPhase h⟩)
      fun _ _ _ ⟨_, h⟩ _ hstep => h.step hstep
  exact hphase.agreement

/-- A constructed socket with queue pair number `qpn`. -/
def constructed (qpn : UInt32) : Socket :=
  { quietSocket with
    myMsg := { quietSocket.myMsg with qpn := qpn }
    connected := false
    active := false
    qp := { quietSocket.qp with state := .init }
    conHandler := false }

theorem constructed_constructed (qpn : UInt32) : Constructed (constructed qpn) :=
  ⟨rfl, rfl, rfl, rfl, rfl, rfl⟩

/-- The link of two such sockets, opened. -/
def openedLink : Link where
  client := { constructed 1 with conHandler := true }
  server := (constructed 3).setAcceptFd
  toClient := []
  toServer := [(constructed 1).myMsg]
  posts := []

theorem opened_openedLink : Opened openedLink where
  client := ⟨constructed 1, fun _ => ⟨tcpMsgLen, 0, false⟩, (constructed 1).myMsg,
    constructed_constructed 1, by decide +kernel, rfl⟩
  server := ⟨constructed 3, constructed_constructed 3, rfl⟩
  qpn := by decide
  toClient := rfl
  posts := rfl

/-- A worker with one free chunk. -/
def roomyHost : Host := ⟨0, 0, ⟨4, [.empty 100 4]⟩, 0, [], fun _ => []⟩

/-- The client queues two bytes, then the three messages are handled: the bytes are
posted when the answer arrives. -/
theorem agreement_of_reached_threeWay :
    ∃ l : Link, l.client.connected = true ∧ l.server.connected = true ∧
      l.posts.length = 1 ∧ Agreement l := by
  have hrun : (handshakeMachine.replay (fun _ _ => True) openedLink
      [.send .client roomyHost ⟨[⟨[1, 2], none⟩], by decide⟩ .posted,
        .handleConnection .server roomyHost LinkRun.willing,
        .handleConnection .client roomyHost LinkRun.willing,
        .handleConnection .server roomyHost LinkRun.willing]).any
      (fun l => l.client.connected && l.server.connected && l.posts.length == 1) = true := by
    decide +kernel
  obtain ⟨l, hreplay, hl⟩ := (Option.any_eq_true _ _).mp hrun
  simp only [Bool.and_eq_true, beq_iff_eq] at hl
  exact ⟨l, hl.1.1, hl.1.2, hl.2,
    agreement_of_reached (.of_replay (.start opened_openedLink) hreplay)⟩

end Link

end HwAsync.Rdma
