/-
# The bytes of the connect messages

Behind the addresses the connector sends connect messages until it is done, each with its authorizer
behind it, and reads a reply and what comes with it.  Neither end marks where something ends: a
reader takes as many bytes as the struct has, and then as many as a field of it says.

Both ends are put together here over the bytes of the socket.  What is in a message or a reply, and
whether an end fails over it, is left open; where an end goes next is said by the tag.

A connection that accepts reads all authorizers to one buffer, which it allocates with the first of
them and never again.  It may hand the socket over to the connection that it replaces, which goes on
with a buffer of its own.
-/

import HwAsync.Connect.Identify

namespace HwAsync.Connect

open HwAsync.Framing (Bytes Lane memcpy)
open HwAsync.Lib

/-- A tag that replies are made with. -/
def ReplyTag.Known : ReplyTag → Prop
  | .other _ => False
  | _ => True

instance decidableKnown (tag : ReplyTag) : Decidable tag.Known :=
  match tag with
  | .other _ => .isFalse id
  | .ready => .isTrue trivial
  | .resetSession => .isTrue trivial
  | .wait => .isTrue trivial
  | .retrySession => .isTrue trivial
  | .retryGlobal => .isTrue trivial
  | .badProtoVer => .isTrue trivial
  | .badAuthorizer => .isTrue trivial
  | .features => .isTrue trivial
  | .seq => .isTrue trivial

/-- How `ceph_msg_connect` and `ceph_msg_connect_reply` lie in memory. -/
structure ConnectWire where
  msg : FixedSize ConnectMsg
  replySize : ℕ
  replyBytes : ConnectReply → Bytes
  replyOfBytes : Bytes → ConnectReply
  /-- `recv_max_prefetch`. -/
  prefetch : ℕ
  msg_pos : 0 < msg.size
  msg_lt : msg.size < 2 ^ 32
  reply_pos : 0 < replySize
  reply_lt : replySize < 2 ^ 32
  length_replyBytes : ∀ r, (replyBytes r).length = replySize
  replyOfBytes_replyBytes : ∀ r, r.tag.Known → replyOfBytes (replyBytes r) = r
  prefetch_lt : prefetch < 2 ^ 31

/-- A connect message with its authorizer. -/
structure Ask where
  msg : ConnectMsg
  authorizer : Bytes
  deriving DecidableEq

/-- A reply with that of `verify_authorizer`. -/
structure Response where
  reply : ConnectReply
  authorizerReply : Bytes
  deriving DecidableEq

/-- A connect message that `handle_connect_msg` was called with: the authorizer that was read behind
it, and what `authorizer_buf` was, which is what is verified. -/
structure HandledMsg where
  ask : Ask
  authorizerBuf : Bytes
  deriving DecidableEq

/-- The connection that connects, from `STATE_CONNECTING_SEND_CONNECT_MSG` on, and what it has sent
and read so far. -/
structure Asker where
  stand : Stand
  connectReply : ConnectReply
  connectSeq : UInt32
  inSeq : UInt64
  asked : List Ask
  got : List Response
  sentSeq : Option UInt64
  ackedSeq : Option UInt64

/-- The connection that has the socket which was accepted, from `STATE_ACCEPTING_WAIT_CONNECT_MSG`
on; `handling` while `handle_connect_msg` runs or the socket is handed over, and `overrun` once
something was read to behind `authorizer_buf`.  `broughtBuf` is the buffer that it has come with,
and `before` how many messages were handled until then. -/
structure Answerer where
  stand : Stand
  connectMsg : ConnectMsg
  authorizerBuf : Bytes
  broughtBuf : Bytes
  before : ℕ
  handling : Bool
  overrun : Bool
  inSeq : UInt64
  handled : List HandledMsg
  replied : List Response
  sentSeq : Option UInt64
  ackedSeq : Option UInt64

/-- Both ends and the two directions of the socket; `aborted` once an assertion has failed. -/
structure Exchange where
  connector : Asker
  acceptor : Answerer
  up : Lane
  down : Lane
  aborted : Bool

/-- A piece, if there is anything of it. -/
def piece (bl : Bytes) : List Bytes := if bl = [] then [] else [bl]

/-- Where the acceptor goes with a reply. -/
def ReplyTag.acceptorNext : ReplyTag → RCState
  | .ready => .acceptingReady
  | .seq => .acceptingWaitSeq
  | _ => .acceptingWaitConnectMsg

/-- Where `handle_connect_reply` goes if nothing else stops it; none if the tag alone does.  It
stays where it is over a tag that it does not know. -/
def ReplyTag.connectorNext : ReplyTag → Option RCState
  | .ready => some .connectingReady
  | .resetSession => some .connectingSendConnectMsg
  | .wait => some .wait
  | .retrySession => some .connectingSendConnectMsg
  | .retryGlobal => some .connectingSendConnectMsg
  | .badProtoVer => none
  | .badAuthorizer => some .connectingSendConnectMsg
  | .features => none
  | .seq => some .connectingWaitAckSeq
  | .other _ => some .connectingWaitConnectReplyAuth

/-- What the connector does over a tag before it looks at anything else: `was_session_reset`, and
the `connect_seq` that the acceptor asks for. -/
def Asker.follow (c : Asker) : Asker :=
  match c.connectReply.tag with
  | .resetSession => { c with connectSeq := 0, inSeq := 0 }
  | .retrySession => { c with connectSeq := c.connectReply.connectSeq }
  | _ => c

/-- Where the acceptor stands behind a reply.  `_reply_accept` goes on with the next message whether
or not the reply is sent; only what follows the label `open` waits for that. -/
def Stand.replied (tag : ReplyTag) (l : Lane) (c : Stand) : Stand :=
  match tag with
  | .ready => c.sent tag.acceptorNext l
  | .seq => c.sent tag.acceptorNext l
  | _ => { c with state := tag.acceptorNext }

/-- The steps of the two ends and of the socket.  `k` is how much the socket takes at once and
`answers` what it returns to the reads.  `verified` is what `verify_reply` returns, and `fails` says
whether `handle_connect_reply` goes to the label `fail` for anything but the tag. -/
inductive ExchangeAction
  | asks (msg : ConnectMsg) (authorizer : Bytes) (k : ℕ)
  | readsReply (answers : List ℕ)
  | readsReplyAuth (answers : List ℕ) (verified fails : Bool)
  | readsAckSeq (answers : List ℕ) (k : ℕ)
  | connectorSends (k : ℕ)
  | connectorResumes
  | connectorLeaves
  | readsMsg (answers : List ℕ)
  | readsMsgAuth (answers : List ℕ)
  | handsOver (authorizerBuf : Bytes) (inSeq : UInt64)
  | replies (reply : ConnectReply) (authorizerReply : Bytes) (k : ℕ)
  | readsSeq (answers : List ℕ)
  | acceptorSends (k : ℕ)
  | acceptorResumes
  | acceptorLeaves

namespace Exchange

variable (w : ConnectWire)

/-- The pieces of a message, of a reply and of a number, as they are written. -/
def askPieces (a : Ask) : List Bytes := w.msg.bytes a.msg :: piece a.authorizer

def answerPieces (a : Response) : List Bytes := w.replyBytes a.reply :: piece a.authorizerReply

def seqPieces (seq : Option UInt64) : List Bytes := seq.toList.map FixedSize.u64.bytes

/-- `STATE_CONNECTING_SEND_CONNECT_MSG`. -/
def asks (msg : ConnectMsg) (authorizer : Bytes) (k : ℕ) (s : Exchange) : Exchange :=
  let ask : Ask :=
    ⟨{ msg with
        connectSeq := s.connector.connectSeq
        authorizerLen := authorizer.length.toUInt32 }, authorizer⟩
  let up := s.up.trySend (askPieces w ask).flatten k
  { s with
    up := up
    connector :=
      { s.connector with
        asked := s.connector.asked ++ [ask]
        stand := s.connector.stand.sent .connectingWaitConnectReply up } }

/-- `STATE_CONNECTING_WAIT_CONNECT_REPLY`. -/
def readsReply (answers : List ℕ) (s : Exchange) : Exchange :=
  let r := s.down.readUntil w.prefetch w.replySize answers
  match r.1 with
  | none => { s with down := r.2 }
  | some p =>
      { s with
        down := r.2
        connector :=
          { s.connector with
            connectReply := w.replyOfBytes p
            stand := { s.connector.stand with state := .connectingWaitConnectReplyAuth } } }

/-- The connector has read a reply, and goes to the label `fail`. -/
def failsReply (authorizerReply : Bytes) (s : Exchange) : Exchange :=
  { s with
    connector :=
      { s.connector with
        got := s.connector.got ++ [⟨s.connector.connectReply, authorizerReply⟩]
        stand := s.connector.stand.leave } }

/-- What `handle_connect_reply` does over the tag.  A session that is reset clears
`outcoming_bl`. -/
def followsReply (s : Exchange) : Exchange :=
  { s with
    up := if s.connector.connectReply.tag = .resetSession then s.up.clear else s.up
    connector := s.connector.follow }

/-- The assertion of `handle_connect_reply` over a `CEPH_MSGR_TAG_RETRY_SESSION`. -/
def RetryStale (reply : ConnectReply) (connectSeq : UInt32) : Prop :=
  reply.tag = .retrySession ∧ ¬ reply.connectSeq > connectSeq

instance decidableRetryStale (reply : ConnectReply) (connectSeq : UInt32) :
    Decidable (RetryStale reply connectSeq) := inferInstanceAs (Decidable (_ ∧ _))

/-- `handle_connect_reply`, and the assertion behind it. -/
def handleConnectReply (authorizerReply : Bytes) (fails : Bool) (s : Exchange) : Exchange :=
  if RetryStale s.connector.connectReply s.connector.connectSeq then
    { s.failsReply authorizerReply with aborted := true }
  else
    let t := s.followsReply
    match fails, s.connector.connectReply.tag.connectorNext with
    | false, some next =>
        { t with
          connector :=
            { t.connector with
              got := s.connector.got ++ [⟨s.connector.connectReply, authorizerReply⟩]
              stand := { s.connector.stand with state := next } }
          aborted := s.aborted || decide (next = .connectingWaitConnectReplyAuth) }
    | _, _ => t.failsReply authorizerReply

/-- `STATE_CONNECTING_WAIT_CONNECT_REPLY_AUTH`. -/
def readsReplyAuth (answers : List ℕ) (verified fails : Bool) (s : Exchange) : Exchange :=
  let len := s.connector.connectReply.authorizerLen.toNat
  if len = 0 then s.handleConnectReply [] fails
  else if 4096 ≤ len then
    { s with
      connector := { s.connector with stand := s.connector.stand.leave }
      aborted := true }
  else
    let r := s.down.readUntil w.prefetch len answers
    let s := { s with down := r.2 }
    match r.1 with
    | none => s
    | some p => if verified then s.handleConnectReply p fails else s.failsReply p

/-- `STATE_CONNECTING_WAIT_ACK_SEQ`. -/
def readsAckSeq (answers : List ℕ) (k : ℕ) (s : Exchange) : Exchange :=
  let r := s.down.readUntil w.prefetch FixedSize.u64.size answers
  match r.1 with
  | none => { s with down := r.2 }
  | some p =>
      let up := s.up.trySend (FixedSize.u64.bytes s.connector.inSeq) k
      { s with
        down := r.2
        up := up
        connector :=
          { s.connector with
            ackedSeq := some (FixedSize.u64.ofBytes p)
            sentSeq := some s.connector.inSeq
            stand := s.connector.stand.sent .connectingReady up } }

/-- `STATE_ACCEPTING_WAIT_CONNECT_MSG`. -/
def readsMsg (answers : List ℕ) (s : Exchange) : Exchange :=
  let r := s.up.readUntil w.prefetch w.msg.size answers
  match r.1 with
  | none => { s with up := r.2 }
  | some p =>
      { s with
        up := r.2
        acceptor :=
          { s.acceptor with
            connectMsg := w.msg.ofBytes p
            stand := { s.acceptor.stand with state := .acceptingWaitConnectMsgAuth } } }

/-- The call of `handle_connect_msg`. -/
def handleConnectMsg (authorizer : Bytes) (s : Exchange) : Exchange :=
  { s with
    acceptor :=
      { s.acceptor with
        handling := true
        handled := s.acceptor.handled ++
          [⟨⟨s.acceptor.connectMsg, authorizer⟩, s.acceptor.authorizerBuf⟩] } }

/-- `STATE_ACCEPTING_WAIT_CONNECT_MSG_AUTH` up to the call of `handle_connect_msg`. -/
def readsMsgAuth (answers : List ℕ) (s : Exchange) : Exchange :=
  let len := s.acceptor.connectMsg.authorizerLen.toNat
  if len = 0 then s.handleConnectMsg []
  else
    -- What `buffer::create` leaves in the memory is never read.
    let buf :=
      if s.acceptor.authorizerBuf = [] then List.replicate len 0 else s.acceptor.authorizerBuf
    let r := s.up.readUntil w.prefetch len answers
    match r.1 with
    | none =>
        { s with
          up := r.2
          acceptor :=
            { s.acceptor with
              authorizerBuf := buf
              overrun := s.acceptor.overrun || decide (buf.length < r.2.inbound.dest.length) } }
    | some p =>
        { s with
          up := r.2
          acceptor :=
            { s.acceptor with
              -- What lies behind the buffer is not part of it.
              authorizerBuf := (memcpy buf 0 p).take buf.length
              overrun := s.acceptor.overrun || decide (buf.length < p.length) } }.handleConnectMsg p

/-- The socket is given to the connection that is replaced, with the numbers and the buffer that it
has.  This one is stopped, and the other one goes on with the reply. -/
def handsOver (authorizerBuf : Bytes) (inSeq : UInt64) (s : Exchange) : Exchange :=
  { s with
    acceptor :=
      { s.acceptor with
        authorizerBuf := authorizerBuf
        broughtBuf := authorizerBuf
        before := s.acceptor.handled.length
        overrun := false
        inSeq := inSeq } }

/-- The end of `handle_connect_msg`, with `_reply_accept` or behind the label `open`. -/
def replies (reply : ConnectReply) (authorizerReply : Bytes) (k : ℕ) (s : Exchange) : Exchange :=
  let answer : Response :=
    ⟨{ reply with authorizerLen := authorizerReply.length.toUInt32 }, authorizerReply⟩
  let seq := if reply.tag = .seq then some s.acceptor.inSeq else none
  let down := s.down.trySend (answerPieces w answer ++ seqPieces seq).flatten k
  { s with
    down := down
    acceptor :=
      { s.acceptor with
        handling := false
        replied := s.acceptor.replied ++ [answer]
        sentSeq := seq
        inSeq := if reply.tag = .ready then 0 else s.acceptor.inSeq
        stand := s.acceptor.stand.replied reply.tag down } }

/-- `STATE_ACCEPTING_WAIT_SEQ`. -/
def readsSeq (answers : List ℕ) (s : Exchange) : Exchange :=
  let r := s.up.readUntil w.prefetch FixedSize.u64.size answers
  match r.1 with
  | none => { s with up := r.2 }
  | some p =>
      { s with
        up := r.2
        acceptor :=
          { s.acceptor with
            ackedSeq := some (FixedSize.u64.ofBytes p)
            stand := { s.acceptor.stand with state := .acceptingReady } } }

/-- One step.  The length of a `bufferlist` is an `unsigned`. -/
def step (s : Exchange) : ExchangeAction → Option Exchange
  | .asks msg authorizer k =>
      if s.connector.stand.state = .connectingSendConnectMsg ∧ authorizer.length < 2 ^ 32 then
        some (s.asks w msg authorizer k)
      else none
  | .readsReply answers =>
      if s.connector.stand.state = .connectingWaitConnectReply then some (s.readsReply w answers)
      else none
  | .readsReplyAuth answers verified fails =>
      if s.connector.stand.state = .connectingWaitConnectReplyAuth then
        some (s.readsReplyAuth w answers verified fails)
      else none
  | .readsAckSeq answers k =>
      if s.connector.stand.state = .connectingWaitAckSeq then some (s.readsAckSeq w answers k)
      else none
  | .connectorSends k => some { s with up := s.up.send k }
  | .connectorResumes =>
      if s.connector.stand.state = .waitSend then
        some { s with connector := { s.connector with stand := s.connector.stand.resume s.up } }
      else none
  | .connectorLeaves =>
      some { s with connector := { s.connector with stand := s.connector.stand.leave } }
  | .readsMsg answers =>
      if s.acceptor.stand.state = .acceptingWaitConnectMsg then some (s.readsMsg w answers)
      else none
  | .readsMsgAuth answers =>
      if s.acceptor.stand.state = .acceptingWaitConnectMsgAuth ∧ s.acceptor.handling = false then
        some (s.readsMsgAuth w answers)
      else none
  | .handsOver authorizerBuf inSeq =>
      if s.acceptor.stand.state = .acceptingWaitConnectMsgAuth ∧ s.acceptor.handling = true then
        some (s.handsOver authorizerBuf inSeq)
      else none
  | .replies reply authorizerReply k =>
      if s.acceptor.stand.state = .acceptingWaitConnectMsgAuth ∧ s.acceptor.handling = true ∧
          reply.tag.Known ∧ authorizerReply.length < 2 ^ 32 then
        some (s.replies w reply authorizerReply k)
      else none
  | .readsSeq answers =>
      if s.acceptor.stand.state = .acceptingWaitSeq then some (s.readsSeq w answers) else none
  | .acceptorSends k => some { s with down := s.down.send k }
  | .acceptorResumes =>
      if s.acceptor.stand.state = .waitSend then
        some { s with acceptor := { s.acceptor with stand := s.acceptor.stand.resume s.down } }
      else none
  | .acceptorLeaves =>
      some { s with acceptor := { s.acceptor with stand := s.acceptor.stand.leave } }

/-- The addresses are exchanged, and nothing was sent behind them. -/
structure Fresh (s : Exchange) : Prop where
  connector : s.connector.stand.state = .connectingSendConnectMsg ∧ s.connector.asked = [] ∧
    s.connector.got = [] ∧ s.connector.sentSeq = none ∧ s.connector.ackedSeq = none
  acceptor : s.acceptor.stand.state = .acceptingWaitConnectMsg ∧ s.acceptor.handled = [] ∧
    s.acceptor.replied = [] ∧ s.acceptor.sentSeq = none ∧ s.acceptor.ackedSeq = none ∧
    s.acceptor.handling = false
  authorizerBuf : s.acceptor.authorizerBuf = [] ∧ s.acceptor.broughtBuf = [] ∧
    s.acceptor.before = 0 ∧ s.acceptor.overrun = false
  up : s.up = .fresh
  down : s.down = .fresh
  aborted : s.aborted = false

end Exchange

/-- The two ends of one socket. -/
def exchangeMachine (w : ConnectWire) : Machine Exchange ExchangeAction where
  start := Exchange.Fresh
  step := Exchange.step w

/-! ## Whose turn it is -/

namespace Stand

variable {next state : RCState} {l : Lane} {c : Stand}

/-- It is in the state or on its way there, unless it has left. -/
def In (state : RCState) (c : Stand) : Prop := c.state = .closed ∨ c.At state

theorem in_sent : (c.sent next l).In next := .inr at_sent

theorem In.leave : c.leave.In next := .inl rfl

theorem In.resume (h : c.In next) (hstate : c.state = .waitSend) (hnext : next ≠ .waitSend) :
    (c.resume l).In next := by
  obtain hclosed | hat := h
  · cases hclosed.symm.trans hstate
  · exact .inr (hat.resume hstate hnext)

/-- An end that neither has left nor waits is where it is to be. -/
theorem In.eq (h : c.In next) (hstate : c.state = state) (hclosed : state ≠ .closed)
    (hwait : state ≠ .waitSend) : next = state := by
  obtain hleft | hat := h
  · exact absurd (hstate.symm.trans hleft) hclosed
  · exact hat.eq hstate hwait

end Stand

/-- What is under way between the ends, which take turns: nothing, a message in front of its header
or behind it, nothing while it is handled, a reply likewise, perhaps with a number behind it,
nothing once the connector waits for the other connection, and the two numbers.  After a failure
of the connector the acceptor goes on without it. -/
inductive Turn
  | idle
  | asked (a : Ask)
  | opened (a : Ask)
  | handling
  | replied (r : Response) (seq : Option UInt64)
  | replyOpened (r : Response) (seq : Option UInt64)
  | waiting
  | seqSent (seq : UInt64)
  | seqBack (seq back : UInt64)
  | ready (seqs : Option (UInt64 × UInt64))
  | broken (acceptorState : RCState) (left : List Bytes) (seq : Option UInt64)

/-- The length of a message is that of its authorizer. -/
structure Ask.Sized (a : Ask) : Prop where
  lt : a.authorizer.length < 2 ^ 32
  len : a.msg.authorizerLen = a.authorizer.length.toUInt32

/-- The length of a reply is that of what comes with it, and its tag is one that there is. -/
structure Response.Sized (r : Response) : Prop where
  lt : r.authorizerReply.length < 2 ^ 32
  len : r.reply.authorizerLen = r.authorizerReply.length.toUInt32
  known : r.reply.tag.Known

namespace Turn

variable (w : ConnectWire)

/-- Where the ends are. -/
def connectorState : Turn → RCState
  | idle => .connectingSendConnectMsg
  | asked _ => .connectingWaitConnectReply
  | opened _ => .connectingWaitConnectReply
  | handling => .connectingWaitConnectReply
  | replied _ _ => .connectingWaitConnectReply
  | replyOpened _ _ => .connectingWaitConnectReplyAuth
  | waiting => .wait
  | seqSent _ => .connectingWaitAckSeq
  | seqBack _ _ => .connectingReady
  | ready _ => .connectingReady
  | broken _ _ _ => .closed

def acceptorState : Turn → RCState
  | idle => .acceptingWaitConnectMsg
  | asked _ => .acceptingWaitConnectMsg
  | opened _ => .acceptingWaitConnectMsgAuth
  | handling => .acceptingWaitConnectMsgAuth
  | replied r _ => r.reply.tag.acceptorNext
  | replyOpened r _ => r.reply.tag.acceptorNext
  | waiting => .acceptingWaitConnectMsg
  | seqSent _ => .acceptingWaitSeq
  | seqBack _ _ => .acceptingWaitSeq
  | ready _ => .acceptingReady
  | broken acceptorState _ _ => acceptorState

def isHandling : Turn → Bool
  | handling => true
  | _ => false

/-- The connector has asked, and has not done yet what the reply says. -/
def Outstanding : Turn → Prop
  | asked _ => True
  | opened _ => True
  | handling => True
  | replied _ _ => True
  | replyOpened _ _ => True
  | _ => False

/-- What is in front of the acceptor and of the connector. -/
def up : Turn → List Bytes
  | asked a => Exchange.askPieces w a
  | opened a => piece a.authorizer
  | seqBack _ back => Exchange.seqPieces (some back)
  | _ => []

def down : Turn → List Bytes
  | replied r seq => Exchange.answerPieces w r ++ Exchange.seqPieces seq
  | replyOpened r seq => piece r.authorizerReply ++ Exchange.seqPieces seq
  | seqSent seq => Exchange.seqPieces (some seq)
  | broken _ left _ => left
  | _ => []

/-- The message that is not handled yet, and the reply. -/
def asking : Turn → List Ask
  | asked a => [a]
  | opened a => [a]
  | _ => []

def answering : Turn → List Response
  | replied r _ => [r]
  | replyOpened r _ => [r]
  | _ => []

/-- The numbers that were sent and read. -/
def acceptorSent : Turn → Option UInt64
  | replied _ seq => seq
  | replyOpened _ seq => seq
  | seqSent seq => some seq
  | seqBack seq _ => some seq
  | ready seqs => seqs.map Prod.fst
  | broken _ _ seq => seq
  | _ => none

def connectorAcked : Turn → Option UInt64
  | seqBack seq _ => some seq
  | ready seqs => seqs.map Prod.fst
  | _ => none

def connectorSent : Turn → Option UInt64
  | seqBack _ back => some back
  | ready seqs => seqs.map Prod.snd
  | _ => none

def acceptorAcked : Turn → Option UInt64
  | ready seqs => seqs.map Prod.snd
  | _ => none

/-- What is known of the message and the reply.  A number comes with one tag. -/
def Valid : Turn → Prop
  | asked a => a.Sized
  | opened a => a.Sized
  | replied r seq => r.Sized ∧ (seq.isSome ↔ r.reply.tag = .seq)
  | replyOpened r seq => r.Sized ∧ (seq.isSome ↔ r.reply.tag = .seq)
  | broken acceptorState _ _ =>
      acceptorState ≠ .acceptingWaitConnectMsgAuth ∧ acceptorState ≠ .waitSend
  | _ => True

end Turn

/-- The ends and the socket are as the turn says. -/
structure Exchange.Fits (w : ConnectWire) (turn : Turn) (s : Exchange) : Prop where
  valid : turn.Valid
  connector : s.connector.stand.In turn.connectorState
  acceptor : s.acceptor.stand.In turn.acceptorState
  handling : s.acceptor.handling = turn.isHandling
  up : s.up.Holds (turn.up w)
  down : s.down.Holds (turn.down w)
  connectMsg : ∀ a, turn = .opened a → s.acceptor.connectMsg = a.msg
  connectReply : ∀ r seq, turn = .replyOpened r seq → s.connector.connectReply = r.reply
  connectSeq : turn.Outstanding → ∀ a, s.connector.asked.getLast? = some a →
    a.msg.connectSeq = s.connector.connectSeq
  asked : s.connector.asked = s.acceptor.handled.map HandledMsg.ask ++ turn.asking
  replied : s.acceptor.replied = s.connector.got ++ turn.answering
  counted : s.acceptor.handled.length = s.acceptor.replied.length + turn.isHandling.toNat
  acceptorSent : s.acceptor.sentSeq = turn.acceptorSent
  connectorAcked : s.connector.ackedSeq = turn.connectorAcked
  connectorSent : s.connector.sentSeq = turn.connectorSent
  acceptorAcked : s.acceptor.ackedSeq = turn.acceptorAcked

/-! ## Pieces -/

section Pieces

variable {w : ConnectWire} {bl c : Bytes}

theorem piece_of_ne (h : bl ≠ []) : piece bl = [bl] := if_neg h

theorem flatten_piece (bl : Bytes) : (piece bl).flatten = bl := by
  unfold piece
  split
  · rename_i hnil
    exact hnil.symm
  · simp

theorem ne_nil_of_mem_piece (hc : c ∈ piece bl) : c ≠ [] := by
  unfold piece at hc
  split at hc
  · cases hc
  · rename_i hne
    rw [List.mem_singleton.mp hc]
    exact hne

theorem ne_nil_of_mem_askPieces {a : Ask} (hc : c ∈ Exchange.askPieces w a) : c ≠ [] := by
  rcases List.mem_cons.mp hc with rfl | hc
  · have hpos := w.msg_pos
    rw [← w.msg.length_bytes a.msg] at hpos
    exact List.ne_nil_of_length_pos hpos
  · exact ne_nil_of_mem_piece hc

theorem ne_nil_of_mem_answerPieces {r : Response} (hc : c ∈ Exchange.answerPieces w r) :
    c ≠ [] := by
  rcases List.mem_cons.mp hc with rfl | hc
  · have hpos := w.reply_pos
    rw [← w.length_replyBytes r.reply] at hpos
    exact List.ne_nil_of_length_pos hpos
  · exact ne_nil_of_mem_piece hc

theorem ne_nil_of_mem_seqPieces {seq : Option UInt64} (hc : c ∈ Exchange.seqPieces seq) :
    c ≠ [] := by
  obtain ⟨n, -, rfl⟩ := List.mem_map.mp hc
  have hpos : 0 < (FixedSize.u64.bytes n).length := by
    rw [FixedSize.u64.length_bytes]
    decide
  exact List.ne_nil_of_length_pos hpos

/-- What a field of 32 bits says of a length is the length. -/
theorem toNat_length (h : bl.length < 2 ^ 32) : bl.length.toUInt32.toNat = bl.length := by
  rw [Nat.toUInt32_eq, UInt32.toNat_ofNat']
  exact Nat.mod_eq_of_lt h

theorem length_eq_zero_iff (h : bl.length < 2 ^ 32) : bl.length.toUInt32.toNat = 0 ↔ bl = [] := by
  rw [toNat_length h, List.length_eq_zero_iff]

end Pieces

/-! ## The steps -/

namespace Exchange

/-- What comes with a reply does not fit into the buffer of the connector, or the reply asks for a
retry with a number that is not above that of the message. -/
def Refuted (s : Exchange) : Prop :=
  ∃ (i : ℕ) (a : Ask) (r : Response), s.connector.asked[i]? = some a ∧
    s.acceptor.replied[i]? = some r ∧
      (4096 ≤ r.authorizerReply.length ∨ RetryStale r.reply a.msg.connectSeq)

/-- More is asked and replied. -/
theorem Refuted.more {s t : Exchange} (h : s.Refuted)
    (hasked : s.connector.asked <+: t.connector.asked)
    (hreplied : s.acceptor.replied <+: t.acceptor.replied) : t.Refuted := by
  obtain ⟨i, a, r, ha, hr, hwhy⟩ := h
  obtain ⟨hiAsked, rfl⟩ := List.getElem?_eq_some_iff.mp ha
  obtain ⟨hiReplied, rfl⟩ := List.getElem?_eq_some_iff.mp hr
  exact ⟨i, _, _, List.prefix_iff_getElem?.mp hasked i hiAsked,
    List.prefix_iff_getElem?.mp hreplied i hiReplied, hwhy⟩

end Exchange

namespace Turn

theorem connectorState_ne_waitSend (turn : Turn) : turn.connectorState ≠ .waitSend := by
  cases turn <;> nofun

theorem acceptorNext_ne (tag : ReplyTag) :
    tag.acceptorNext ≠ .waitSend ∧ tag.acceptorNext ≠ .acceptingWaitConnectMsgAuth := by
  cases tag <;> exact ⟨nofun, nofun⟩

theorem Valid.acceptorState_ne_waitSend {turn : Turn} (h : turn.Valid) :
    turn.acceptorState ≠ .waitSend := by
  cases turn with
  | replied r => exact (acceptorNext_ne r.reply.tag).1
  | replyOpened r => exact (acceptorNext_ne r.reply.tag).1
  | broken state => exact h.2
  | _ => nofun

end Turn

namespace Exchange

section Steps

variable {w : ConnectWire} {s : Exchange} {turn : Turn} {answers : List ℕ} {k : ℕ}

theorem Fits.connectorSends (h : s.Fits w turn) :
    ({ s with up := s.up.send k } : Exchange).Fits w turn := { h with up := h.up.send }

theorem Fits.acceptorSends (h : s.Fits w turn) :
    ({ s with down := s.down.send k } : Exchange).Fits w turn := { h with down := h.down.send }

/-- An end stands elsewhere, on its way to the same state. -/
theorem Fits.connectorStands (h : s.Fits w turn) {stand : Stand}
    (hstand : stand.In turn.connectorState) :
    ({ s with connector := { s.connector with stand := stand } } : Exchange).Fits w turn :=
  { h with connector := hstand }

theorem Fits.acceptorStands (h : s.Fits w turn) {stand : Stand}
    (hstand : stand.In turn.acceptorState) :
    ({ s with acceptor := { s.acceptor with stand := stand } } : Exchange).Fits w turn :=
  { h with acceptor := hstand }

/-- The only turn in which the connector is to be in the state that it is in. -/
theorem Fits.connectorState_eq (h : s.Fits w turn) {state : RCState}
    (hstate : s.connector.stand.state = state) (hclosed : state ≠ .closed)
    (hwait : state ≠ .waitSend) : turn.connectorState = state :=
  h.connector.eq hstate hclosed hwait

theorem Fits.acceptorState_eq (h : s.Fits w turn) {state : RCState}
    (hstate : s.acceptor.stand.state = state) (hclosed : state ≠ .closed)
    (hwait : state ≠ .waitSend) : turn.acceptorState = state :=
  h.acceptor.eq hstate hclosed hwait

theorem Fits.asks (h : s.Fits w turn) {msg : ConnectMsg} {authorizer : Bytes}
    (hstate : s.connector.stand.state = .connectingSendConnectMsg)
    (hlength : authorizer.length < 2 ^ 32) :
    ∃ turn, (s.asks w msg authorizer k).Fits w turn := by
  have hturn := h.connectorState_eq hstate nofun nofun
  cases turn <;> cases hturn
  refine ⟨.asked ⟨{ msg with
    connectSeq := s.connector.connectSeq
    authorizerLen := authorizer.length.toUInt32 }, authorizer⟩, ?_⟩
  exact
    { h with
      valid := ⟨hlength, rfl⟩
      connector := Stand.in_sent
      up := h.up.trySend fun c => ne_nil_of_mem_askPieces
      connectMsg := nofun
      connectReply := nofun
      connectSeq := fun _ a hlast => by
        simp only [Exchange.asks, List.getLast?_append, List.getLast?_singleton,
          Option.some_or, Option.some.injEq] at hlast
        rw [← hlast]
        rfl
      asked := by
        have hasked := h.asked
        simp only [Turn.asking, List.append_nil] at hasked
        simp only [Exchange.asks, Turn.asking, hasked] }

/-- The acceptor has nothing in front of it but a message, or a number. -/
theorem up_eq_nil {w : ConnectWire} (hasked : ∀ a, turn ≠ .asked a)
    (hopened : ∀ a, turn ≠ .opened a) (hback : ∀ seq back, turn ≠ .seqBack seq back) :
    turn.up w = [] := by
  cases turn with
  | asked a => exact absurd rfl (hasked a)
  | opened a => exact absurd rfl (hopened a)
  | seqBack seq back => exact absurd rfl (hback seq back)
  | _ => rfl

/-- A read of the acceptor that finds nothing in front of it changes nothing. -/
theorem Fits.unread {n : ℕ} {p : Option Bytes} {up : Lane} (h : s.Fits w turn)
    (hempty : turn.up w = []) (hpos : 0 < n) (hlt : n < 2 ^ 32)
    (hread : s.up.readUntil w.prefetch n answers = (p, up)) :
    p = none ∧ Fits w turn { s with up := up } := by
  have hup := h.up
  rw [hempty] at hup
  obtain ⟨hnone, hholds⟩ := hup.read_nil hpos hlt w.prefetch_lt hread
  rw [← hempty] at hholds
  exact ⟨hnone, { h with up := hholds }⟩

theorem Fits.readsMsg (h : s.Fits w turn)
    (hstate : s.acceptor.stand.state = .acceptingWaitConnectMsg) :
    ∃ turn, (s.readsMsg w answers).Fits w turn := by
  have hturn := h.acceptorState_eq hstate nofun nofun
  unfold Exchange.readsMsg
  cases hread : s.up.readUntil w.prefetch w.msg.size answers with
  | mk r up =>
      by_cases hasked : ∃ a, turn = .asked a
      · obtain ⟨a, rfl⟩ := hasked
        have hup : s.up.Holds (w.msg.bytes a.msg :: piece a.authorizer) := h.up
        rw [← w.msg.length_bytes a.msg] at hread
        obtain ⟨rfl, hholds⟩ | ⟨rfl, hholds⟩ :=
          hup.read_cons (by rw [w.msg.length_bytes]; exact w.msg_lt) w.prefetch_lt hread
        · exact ⟨.asked a, { h with up := hholds }⟩
        · refine ⟨.opened a, ?_⟩
          exact
            { h with
              acceptor := .inr (.inl rfl)
              up := hholds
              connectMsg := fun b hb => by
                cases hb
                exact w.msg.ofBytes_bytes a.msg
              connectReply := nofun }
      · have hempty : turn.up w = [] := by
          refine up_eq_nil (fun a ha => hasked ⟨a, ha⟩) ?_ ?_
          · rintro a rfl
            cases hturn
          · rintro seq back rfl
            cases hturn
        obtain ⟨rfl, hfits⟩ := h.unread hempty w.msg_pos w.msg_lt hread
        exact ⟨turn, hfits⟩

/-- The message is read, and the acceptor handles it. -/
theorem Fits.handleConnectMsg {a : Ask} {up : Lane} (h : s.Fits w (.opened a))
    (hup : up.Holds []) (buf : Bytes) (overrun : Bool) :
    Fits w .handling (handleConnectMsg a.authorizer
      { s with
        up := up
        acceptor := { s.acceptor with authorizerBuf := buf, overrun := overrun } }) where
  valid := trivial
  connector := h.connector
  acceptor := h.acceptor
  handling := rfl
  up := hup
  down := h.down
  connectMsg := nofun
  connectReply := nofun
  connectSeq := h.connectSeq
  asked := by
    have hmsg := h.connectMsg a rfl
    have hasked := h.asked
    simp only [Turn.asking] at hasked
    simp [Exchange.handleConnectMsg, Turn.asking, hasked, hmsg]
  replied := h.replied
  counted := by
    have hcounted := h.counted
    simp only [Turn.isHandling, Bool.toNat_false, Nat.add_zero] at hcounted
    simp [Exchange.handleConnectMsg, Turn.isHandling, hcounted]
  acceptorSent := h.acceptorSent
  connectorAcked := h.connectorAcked
  connectorSent := h.connectorSent
  acceptorAcked := h.acceptorAcked

/-- An acceptor that reads an authorizer has read the message. -/
theorem Fits.opened_of_auth (h : s.Fits w turn)
    (hstate : s.acceptor.stand.state = .acceptingWaitConnectMsgAuth)
    (hhandling : s.acceptor.handling = false) : ∃ a, turn = .opened a := by
  have hturn := h.acceptorState_eq hstate nofun nofun
  cases turn with
  | opened a => exact ⟨a, rfl⟩
  | handling => cases h.handling.symm.trans hhandling
  | replied r => exact absurd hturn (Turn.acceptorNext_ne r.reply.tag).2
  | replyOpened r => exact absurd hturn (Turn.acceptorNext_ne r.reply.tag).2
  | broken state => exact absurd hturn h.valid.1
  | _ => cases hturn

theorem Fits.readsMsgAuth (h : s.Fits w turn)
    (hstate : s.acceptor.stand.state = .acceptingWaitConnectMsgAuth)
    (hhandling : s.acceptor.handling = false) :
    ∃ turn, (s.readsMsgAuth w answers).Fits w turn := by
  obtain ⟨a, rfl⟩ := h.opened_of_auth hstate hhandling
  obtain ⟨hlt, hlen⟩ : a.Sized := h.valid
  have hmsg : s.acceptor.connectMsg.authorizerLen = a.authorizer.length.toUInt32 := by
    rw [h.connectMsg a rfl, hlen]
  have hup : s.up.Holds (piece a.authorizer) := h.up
  unfold Exchange.readsMsgAuth
  rw [hmsg]
  by_cases hnone : a.authorizer = []
  · rw [if_pos ((length_eq_zero_iff hlt).mpr hnone)]
    rw [hnone] at hup
    have hhandled := h.handleConnectMsg hup s.acceptor.authorizerBuf s.acceptor.overrun
    rw [hnone] at hhandled
    exact ⟨.handling, hhandled⟩
  · rw [if_neg fun hzero => hnone ((length_eq_zero_iff hlt).mp hzero), toNat_length hlt]
    rw [piece_of_ne hnone] at hup
    dsimp only
    cases hread : s.up.readUntil w.prefetch a.authorizer.length answers with
    | mk r up =>
        obtain ⟨rfl, hholds⟩ | ⟨rfl, hholds⟩ := hup.read_cons hlt w.prefetch_lt hread
        · refine ⟨.opened a, ?_⟩
          rw [← piece_of_ne hnone] at hholds
          exact { h with up := hholds }
        · exact ⟨.handling, h.handleConnectMsg hholds ..⟩

theorem Stand.in_replied {tag : ReplyTag} {l : Lane} {c : Stand} :
    (c.replied tag l).In tag.acceptorNext := by
  unfold Stand.replied
  split
  · exact Stand.in_sent
  · exact Stand.in_sent
  · exact .inr (.inl rfl)

theorem Fits.replies (h : s.Fits w turn) {reply : ConnectReply} {authorizerReply : Bytes}
    (hstate : s.acceptor.stand.state = .acceptingWaitConnectMsgAuth)
    (hhandling : s.acceptor.handling = true) (hknown : reply.tag.Known)
    (hlength : authorizerReply.length < 2 ^ 32) :
    ∃ turn, (s.replies w reply authorizerReply k).Fits w turn := by
  have hturn := h.acceptorState_eq hstate nofun nofun
  obtain rfl : turn = .handling := by
    have hisHandling := h.handling.symm.trans hhandling
    cases turn <;> first | rfl | cases hisHandling
  refine ⟨.replied ⟨{ reply with authorizerLen := authorizerReply.length.toUInt32 },
    authorizerReply⟩ (if reply.tag = .seq then some s.acceptor.inSeq else none), ?_⟩
  exact
    { h with
      valid := ⟨⟨hlength, rfl, hknown⟩, by
        dsimp only
        split
        · rename_i hseq
          exact iff_of_true rfl hseq
        · rename_i hseq
          exact iff_of_false nofun hseq⟩
      acceptor := Stand.in_replied
      handling := rfl
      down := h.down.trySend fun c hc => (List.mem_append.mp hc).elim
        ne_nil_of_mem_answerPieces ne_nil_of_mem_seqPieces
      connectMsg := nofun
      connectReply := nofun
      replied := by
        have hreplied := h.replied
        simp only [Turn.answering, List.append_nil] at hreplied
        simp only [Exchange.replies, Turn.answering, hreplied]
      counted := by
        have hcounted := h.counted
        simp only [Turn.isHandling, Bool.toNat_true] at hcounted
        simp [Exchange.replies, Turn.isHandling, hcounted]
      acceptorSent := rfl }

theorem Fits.readsReply (h : s.Fits w turn)
    (hstate : s.connector.stand.state = .connectingWaitConnectReply) :
    ∃ turn, (s.readsReply w answers).Fits w turn := by
  have hturn := h.connectorState_eq hstate nofun nofun
  unfold Exchange.readsReply
  cases hread : s.down.readUntil w.prefetch w.replySize answers with
  | mk p down =>
      by_cases hreplied : ∃ r seq, turn = .replied r seq
      · obtain ⟨r, seq, rfl⟩ := hreplied
        have hdown : s.down.Holds
            (w.replyBytes r.reply :: (piece r.authorizerReply ++ seqPieces seq)) := h.down
        rw [← w.length_replyBytes r.reply] at hread
        obtain ⟨rfl, hholds⟩ | ⟨rfl, hholds⟩ :=
          hdown.read_cons (by rw [w.length_replyBytes]; exact w.reply_lt) w.prefetch_lt hread
        · exact ⟨.replied r seq, { h with down := hholds }⟩
        · refine ⟨.replyOpened r seq, ?_⟩
          exact
            { h with
              connector := .inr (.inl rfl)
              down := hholds
              connectMsg := nofun
              connectReply := fun r' seq' hr => by
                cases hr
                exact w.replyOfBytes_replyBytes r.reply h.valid.1.known }
      · have hempty : turn.down w = [] := by
          cases turn with
          | replied r seq => exact absurd ⟨r, seq, rfl⟩ hreplied
          | asked a => rfl
          | opened a => rfl
          | handling => rfl
          | _ => cases hturn
        have hdown := h.down
        rw [hempty] at hdown
        obtain ⟨rfl, hholds⟩ := hdown.read_nil w.reply_pos w.reply_lt w.prefetch_lt hread
        rw [← hempty] at hholds
        exact ⟨turn, { h with down := hholds }⟩

/-- A number comes with the tag that says so, and with no other. -/
theorem seqPieces_of_ne {seq : Option UInt64} {tag : ReplyTag} (hseq : seq.isSome ↔ tag = .seq)
    (hne : tag ≠ .seq) : seq = none := by
  cases seq with
  | none => rfl
  | some n => exact absurd (hseq.mp rfl) hne

/-- The turn behind a reply that was read: nothing is under way but the number, if there is one. -/
def afterReply (seq : Option UInt64) : ReplyTag → Turn
  | .ready => .ready none
  | .wait => .waiting
  | .seq => .seqSent (seq.getD 0)
  | _ => .idle

/-- What the turn behind a reply says about everything but the connector. -/
theorem Fits.afterReply {r : Response} {seq : Option UInt64} {up down : Lane} {next : RCState}
    (h : s.Fits w (.replyOpened r seq)) (hup : up.Holds [])
    (hdown : down.Holds (seqPieces seq)) (asker : Asker)
    (hnext : r.reply.tag.connectorNext = some next) (hstand : asker.stand.state = next)
    (hasked : asker.asked = s.connector.asked) (hgot : asker.got = s.connector.got ++ [r])
    (hsent : asker.sentSeq = s.connector.sentSeq)
    (hacked : asker.ackedSeq = s.connector.ackedSeq) :
    Fits w (afterReply seq r.reply.tag) { s with up := up, down := down, connector := asker } ∧
      next ≠ .connectingWaitConnectReplyAuth := by
  obtain ⟨⟨-, -, hknown⟩, hseq⟩ : r.Sized ∧ (seq.isSome ↔ r.reply.tag = .seq) := h.valid
  have hreplied : s.acceptor.replied = asker.got ++ [] := by
    rw [h.replied, hgot, List.append_nil]
    rfl
  have hacceptor : s.acceptor.stand.In r.reply.tag.acceptorNext := h.acceptor
  have hsentSeq : s.acceptor.sentSeq = seq := h.acceptorSent
  have hgoes (turn : Turn) (hvalid : turn.Valid) (hstate : turn.connectorState = next)
      (hstate' : turn.acceptorState = r.reply.tag.acceptorNext)
      (hhandling : turn.isHandling = false) (houtstanding : ¬ turn.Outstanding)
      (hup' : turn.up w = []) (hdown' : turn.down w = seqPieces seq)
      (hopened : ∀ a, turn ≠ .opened a) (hreply : ∀ r seq, turn ≠ .replyOpened r seq)
      (hasking : turn.asking = []) (hanswering : turn.answering = [])
      (hseqs : turn.acceptorSent = seq ∧ turn.connectorAcked = none ∧ turn.connectorSent = none ∧
        turn.acceptorAcked = none) :
      Fits w turn { s with up := up, down := down, connector := asker } :=
    { valid := hvalid
      connector := .inr (.inl (hstand.trans hstate.symm))
      acceptor := hstate' ▸ hacceptor
      handling := h.handling.trans hhandling.symm
      up := hup' ▸ hup
      down := hdown' ▸ hdown
      connectMsg := fun a ha => absurd ha (hopened a)
      connectReply := fun r seq hr => absurd hr (hreply r seq)
      connectSeq := fun hasking => absurd hasking houtstanding
      asked := by
        rw [hasking]
        exact hasked.trans h.asked
      replied := by
        rw [hanswering]
        exact hreplied
      counted := hhandling ▸ h.counted
      acceptorSent := hsentSeq.trans hseqs.1.symm
      connectorAcked := (hacked.trans h.connectorAcked).trans hseqs.2.1.symm
      connectorSent := (hsent.trans h.connectorSent).trans hseqs.2.2.1.symm
      acceptorAcked := h.acceptorAcked.trans hseqs.2.2.2.symm }
  have hplain (hne : r.reply.tag ≠ .seq) := seqPieces_of_ne hseq hne
  cases htag : r.reply.tag with
  | seq =>
      rw [htag] at hnext hgoes
      cases hnext
      obtain ⟨n, rfl⟩ := Option.isSome_iff_exists.mp (hseq.mpr htag)
      exact ⟨hgoes _ trivial rfl rfl rfl id rfl rfl nofun nofun rfl rfl ⟨rfl, rfl, rfl, rfl⟩, nofun⟩
  | other tag =>
      rw [htag] at hknown
      exact hknown.elim
  | features => rw [htag] at hnext; cases hnext
  | badProtoVer => rw [htag] at hnext; cases hnext
  | ready | wait | resetSession | retrySession | retryGlobal | badAuthorizer =>
      rw [htag] at hnext hgoes hplain
      cases hnext
      obtain rfl := hplain nofun
      exact ⟨hgoes _ trivial rfl rfl rfl id rfl rfl nofun nofun rfl rfl ⟨rfl, rfl, rfl, rfl⟩, nofun⟩

/-- The connector leaves over a reply, and the acceptor goes on with what is left. -/
theorem Fits.broken {r : Response} {seq : Option UInt64} {up down : Lane}
    (h : s.Fits w (.replyOpened r seq)) (hup : up.Holds []) (hdown : down.Holds (seqPieces seq))
    (asker : Asker) (hstand : asker.stand.state = .closed)
    (hasked : asker.asked = s.connector.asked) (hgot : asker.got = s.connector.got ++ [r])
    (hsent : asker.sentSeq = s.connector.sentSeq)
    (hacked : asker.ackedSeq = s.connector.ackedSeq) (aborted : Bool) :
    Fits w (.broken r.reply.tag.acceptorNext (seqPieces seq) seq)
      { s with up := up, down := down, connector := asker, aborted := aborted } :=
  { h with
    valid := ⟨(Turn.acceptorNext_ne r.reply.tag).2, (Turn.acceptorNext_ne r.reply.tag).1⟩
    connector := .inl hstand
    up := hup
    down := hdown
    connectMsg := nofun
    connectReply := nofun
    connectSeq := False.elim
    asked := hasked.trans h.asked
    replied := by
      rw [h.replied]
      dsimp only
      rw [hgot]
      exact (List.append_nil _).symm
    connectorAcked := hacked.trans h.connectorAcked
    connectorSent := hsent.trans h.connectorSent }

/-- Over a tag the connector changes nothing that was sent or read. -/
theorem follow_kept (c : Asker) : c.follow.connectReply = c.connectReply ∧
    c.follow.asked = c.asked ∧ c.follow.got = c.got ∧ c.follow.sentSeq = c.sentSeq ∧
      c.follow.ackedSeq = c.ackedSeq := by
  unfold Asker.follow
  split <;> exact ⟨rfl, rfl, rfl, rfl, rfl⟩

theorem followsReply_up (hup : s.up.Holds []) : s.followsReply.up.Holds [] := by
  unfold Exchange.followsReply
  dsimp only
  split
  · exact hup.clear
  · exact hup

/-- The reply is read, and the connector does what it says, or fails. -/
theorem Fits.handleConnectReply {r : Response} {seq : Option UInt64} {down : Lane}
    (h : s.Fits w (.replyOpened r seq)) (hdown : down.Holds (seqPieces seq)) (fails : Bool) :
    ∃ turn,
      Fits w turn ({ s with down := down }.handleConnectReply r.authorizerReply fails) ∧
        (({ s with down := down }.handleConnectReply r.authorizerReply fails).aborted = true →
          s.aborted = true ∨ RetryStale r.reply s.connector.connectSeq) := by
  have hreply := h.connectReply r seq rfl
  have hr : (⟨s.connector.connectReply, r.authorizerReply⟩ : Response) = r := by rw [hreply]
  obtain ⟨hkept, hasked, hgot, hsent, hacked⟩ := follow_kept s.connector
  have hup : ({ s with down := down } : Exchange).followsReply.up.Holds [] := followsReply_up h.up
  unfold Exchange.handleConnectReply
  dsimp only
  rw [hreply]
  split
  · rename_i hstale
    refine ⟨_, h.broken h.up hdown _ ?_ ?_ ?_ ?_ ?_ true, fun _ => .inr hstale⟩
    · rfl
    · rfl
    · exact congrArg (fun x => s.connector.got ++ [x]) hr
    · rfl
    · rfl
  · split
    · rename_i next hnext
      obtain ⟨hfits, hne⟩ := h.afterReply hup hdown { s.connector.follow with
        got := s.connector.got ++ [r], stand := { s.connector.stand with state := next } }
        hnext rfl hasked rfl hsent hacked
      refine ⟨_, { hfits with }, fun ha => .inl ?_⟩
      rw [decide_eq_false hne, Bool.or_false] at ha
      exact ha
    · refine ⟨_, h.broken hup hdown _ ?_ ?_ ?_ ?_ ?_ s.aborted, .inl⟩
      · rfl
      · exact hasked
      · dsimp only [Exchange.followsReply]
        rw [hgot, hkept, hr]
      · exact hsent
      · exact hacked

/-- The reply that is read is that to the message which was asked last. -/
theorem Fits.answered {r : Response} {seq : Option UInt64} (h : s.Fits w (.replyOpened r seq)) :
    ∃ (i : ℕ) (a : Ask), s.connector.asked[i]? = some a ∧ s.acceptor.replied[i]? = some r ∧
      a.msg.connectSeq = s.connector.connectSeq := by
  have hreplied : s.acceptor.replied = s.connector.got ++ [r] := h.replied
  have hlength : s.connector.asked.length = s.connector.got.length + 1 := by
    have hasked := congrArg List.length h.asked
    have hcounted := h.counted
    rw [hreplied, List.length_append] at hcounted
    rw [List.length_append, List.length_map, hcounted] at hasked
    exact hasked
  obtain ⟨a, ha⟩ : ∃ a, s.connector.asked[s.connector.got.length]? = some a :=
    ⟨_, List.getElem?_eq_getElem (by omega)⟩
  refine ⟨s.connector.got.length, a, ha, ?_, h.connectSeq trivial a ?_⟩
  · rw [hreplied, List.getElem?_append_right le_rfl, Nat.sub_self]
    rfl
  · rw [List.getLast?_eq_getElem?, hlength]
    exact ha

theorem Fits.readsReplyAuth (h : s.Fits w turn)
    (hstate : s.connector.stand.state = .connectingWaitConnectReplyAuth) (answers : List ℕ)
    (verified fails : Bool) :
    ∃ turn, (s.readsReplyAuth w answers verified fails).Fits w turn ∧
      ((s.readsReplyAuth w answers verified fails).aborted = true →
        s.aborted = true ∨ s.Refuted) := by
  have hturn := h.connectorState_eq hstate nofun nofun
  obtain ⟨r, seq, rfl⟩ : ∃ r seq, turn = .replyOpened r seq := by
    cases turn with
    | replyOpened r seq => exact ⟨r, seq, rfl⟩
    | _ => cases hturn
  obtain ⟨⟨hlt, hlen, -⟩, -⟩ : r.Sized ∧ (seq.isSome ↔ r.reply.tag = .seq) := h.valid
  obtain ⟨i, a, ha, hr, hseq⟩ := h.answered
  have hmsg : s.connector.connectReply.authorizerLen = r.authorizerReply.length.toUInt32 := by
    rw [h.connectReply r seq rfl, hlen]
  have hstale (hstale : RetryStale r.reply s.connector.connectSeq) : s.Refuted :=
    ⟨i, a, r, ha, hr, .inr (hseq ▸ hstale)⟩
  have hdown : s.down.Holds (piece r.authorizerReply ++ seqPieces seq) := h.down
  unfold Exchange.readsReplyAuth
  rw [hmsg]
  by_cases hnone : r.authorizerReply = []
  · rw [if_pos ((length_eq_zero_iff hlt).mpr hnone)]
    rw [hnone] at hdown
    obtain ⟨turn, hfits, haborted⟩ := h.handleConnectReply hdown fails
    rw [hnone] at hfits haborted
    exact ⟨turn, hfits, fun ha => (haborted ha).imp_right hstale⟩
  · rw [if_neg fun hzero => hnone ((length_eq_zero_iff hlt).mp hzero), toNat_length hlt]
    split
    · rename_i hlarge
      exact ⟨.replyOpened r seq, { h with connector := Stand.In.leave },
        fun _ => .inr ⟨i, a, r, ha, hr, .inl hlarge⟩⟩
    · rw [piece_of_ne hnone] at hdown
      dsimp only
      cases hread : s.down.readUntil w.prefetch r.authorizerReply.length answers with
      | mk p down =>
          obtain ⟨rfl, hholds⟩ | ⟨rfl, hholds⟩ := hdown.read_cons hlt w.prefetch_lt hread
          · refine ⟨.replyOpened r seq, { h with down := ?_ }, .inl⟩
            rw [Turn.down, piece_of_ne hnone]
            exact hholds
          · cases verified with
            | false =>
                refine ⟨_, h.broken h.up hholds _ ?_ ?_ ?_ ?_ ?_ s.aborted, .inl⟩
                · rfl
                · rfl
                · dsimp only
                  rw [h.connectReply r seq rfl]
                · rfl
                · rfl
            | true =>
                obtain ⟨turn, hfits, haborted⟩ := h.handleConnectReply hholds fails
                exact ⟨turn, hfits, fun ha => (haborted ha).imp_right hstale⟩

theorem Fits.readsAckSeq (h : s.Fits w turn)
    (hstate : s.connector.stand.state = .connectingWaitAckSeq) :
    ∃ turn, (s.readsAckSeq w answers k).Fits w turn := by
  have hturn := h.connectorState_eq hstate nofun nofun
  obtain ⟨seq, rfl⟩ : ∃ seq, turn = .seqSent seq := by
    cases turn with
    | seqSent seq => exact ⟨seq, rfl⟩
    | _ => cases hturn
  have hdown : s.down.Holds [FixedSize.u64.bytes seq] := h.down
  unfold Exchange.readsAckSeq
  cases hread : s.down.readUntil w.prefetch FixedSize.u64.size answers with
  | mk p down =>
      rw [← FixedSize.u64.length_bytes seq] at hread
      have hlt : (FixedSize.u64.bytes seq).length < 2 ^ 32 := by
        rw [FixedSize.u64.length_bytes]
        decide
      obtain ⟨rfl, hholds⟩ | ⟨rfl, hholds⟩ := hdown.read_cons hlt w.prefetch_lt hread
      · exact ⟨.seqSent seq, { h with down := hholds }⟩
      · refine ⟨.seqBack seq s.connector.inSeq, ?_⟩
        have hup : (s.up.trySend (seqPieces (some s.connector.inSeq)).flatten k).Holds _ :=
          h.up.trySend fun c => ne_nil_of_mem_seqPieces
        have hflatten : (seqPieces (some s.connector.inSeq)).flatten =
            FixedSize.u64.bytes s.connector.inSeq := List.append_nil _
        rw [hflatten] at hup
        exact
          { h with
            valid := trivial
            connector := Stand.in_sent
            up := hup
            down := hholds
            connectMsg := nofun
            connectReply := nofun
            connectorAcked := congrArg some (FixedSize.u64.ofBytes_bytes seq)
            connectorSent := rfl }

theorem Fits.readsSeq (h : s.Fits w turn)
    (hstate : s.acceptor.stand.state = .acceptingWaitSeq) :
    ∃ turn, (s.readsSeq w answers).Fits w turn := by
  have hturn := h.acceptorState_eq hstate nofun nofun
  unfold Exchange.readsSeq
  cases hread : s.up.readUntil w.prefetch FixedSize.u64.size answers with
  | mk p up =>
      by_cases hback : ∃ seq back, turn = .seqBack seq back
      · obtain ⟨seq, back, rfl⟩ := hback
        have hup : s.up.Holds [FixedSize.u64.bytes back] := h.up
        rw [← FixedSize.u64.length_bytes back] at hread
        have hlt : (FixedSize.u64.bytes back).length < 2 ^ 32 := by
          rw [FixedSize.u64.length_bytes]
          decide
        obtain ⟨rfl, hholds⟩ | ⟨rfl, hholds⟩ := hup.read_cons hlt w.prefetch_lt hread
        · exact ⟨.seqBack seq back, { h with up := hholds }⟩
        · refine ⟨.ready (some (seq, back)), ?_⟩
          exact
            { h with
              valid := trivial
              acceptor := .inr (.inl rfl)
              up := hholds
              connectMsg := nofun
              connectReply := nofun
              acceptorAcked := congrArg some (FixedSize.u64.ofBytes_bytes back) }
      · have hempty : turn.up w = [] := by
          refine up_eq_nil ?_ ?_ fun seq back hseq => hback ⟨seq, back, hseq⟩
          · rintro a rfl
            cases hturn
          · rintro a rfl
            cases hturn
        obtain ⟨rfl, hfits⟩ := h.unread hempty (by decide) (by decide) hread
        exact ⟨turn, hfits⟩

end Steps

theorem failsReply_kept (s : Exchange) (authorizerReply : Bytes) :
    (s.failsReply authorizerReply).acceptor = s.acceptor ∧
      (s.failsReply authorizerReply).connector.asked = s.connector.asked := ⟨rfl, rfl⟩

theorem handleConnectReply_kept (s : Exchange) (authorizerReply : Bytes) (fails : Bool) :
    (s.handleConnectReply authorizerReply fails).acceptor = s.acceptor ∧
      (s.handleConnectReply authorizerReply fails).connector.asked = s.connector.asked := by
  have hasked := (follow_kept s.connector).2.1
  unfold Exchange.handleConnectReply
  dsimp only
  split
  · exact failsReply_kept s authorizerReply
  · split
    · exact ⟨rfl, hasked⟩
    · exact ⟨rfl, hasked⟩

/-- The connector that reads a reply leaves the acceptor alone, and what it has asked. -/
theorem readsReplyAuth_kept (w : ConnectWire) (s : Exchange) (answers : List ℕ)
    (verified fails : Bool) :
    (s.readsReplyAuth w answers verified fails).acceptor = s.acceptor ∧
      (s.readsReplyAuth w answers verified fails).connector.asked = s.connector.asked := by
  unfold Exchange.readsReplyAuth
  dsimp only
  split
  · exact handleConnectReply_kept s [] fails
  · split
    · exact ⟨rfl, rfl⟩
    · split
      · exact ⟨rfl, rfl⟩
      · split
        · exact handleConnectReply_kept _ _ fails
        · exact failsReply_kept _ _

theorem fits_of_fresh {w : ConnectWire} {s : Exchange} (h : s.Fresh) : s.Fits w .idle where
  valid := trivial
  connector := .inr (.inl h.connector.1)
  acceptor := .inr (.inl h.acceptor.1)
  handling := h.acceptor.2.2.2.2.2
  up := h.up ▸ Lane.holds_fresh
  down := h.down ▸ Lane.holds_fresh
  connectMsg := nofun
  connectReply := nofun
  connectSeq := False.elim
  asked := by
    rw [h.connector.2.1, h.acceptor.2.1]
    rfl
  replied := by
    rw [h.acceptor.2.2.1, h.connector.2.2.1]
    rfl
  counted := by
    rw [h.acceptor.2.1, h.acceptor.2.2.1]
    rfl
  acceptorSent := h.acceptor.2.2.2.1
  connectorAcked := h.connector.2.2.2.2
  connectorSent := h.connector.2.2.2.1
  acceptorAcked := h.acceptor.2.2.2.2.1

/-- A failed assertion is one about a reply. -/
def AbortedFairly (s : Exchange) : Prop := s.aborted = true → s.Refuted

/-- The step lemma: whatever an end, the socket or another thread does, it is somebody's turn. -/
theorem Fits.step {w : ConnectWire} {s t : Exchange} {turn : Turn} (h : s.Fits w turn)
    (hfair : s.AbortedFairly) {a : ExchangeAction} (hstep : s.step w a = some t) :
    (∃ turn, t.Fits w turn) ∧ t.AbortedFairly := by
  cases a with
  | asks msg authorizer k =>
      simp only [Exchange.step, Option.ite_none_right_eq_some, Option.some.injEq] at hstep
      obtain ⟨⟨hstate, hlength⟩, rfl⟩ := hstep
      exact ⟨h.asks hstate hlength,
        fun ha => (hfair ha).more (List.prefix_append _ _) List.prefix_rfl⟩
  | readsReply answers =>
      simp only [Exchange.step, Option.ite_none_right_eq_some, Option.some.injEq] at hstep
      obtain ⟨hstate, rfl⟩ := hstep
      refine ⟨h.readsReply hstate, ?_⟩
      unfold Exchange.readsReply
      dsimp only
      split
      · exact hfair
      · exact hfair
  | readsReplyAuth answers verified fails =>
      simp only [Exchange.step, Option.ite_none_right_eq_some, Option.some.injEq] at hstep
      obtain ⟨hstate, rfl⟩ := hstep
      obtain ⟨turn, hfits, haborted⟩ := h.readsReplyAuth hstate answers verified fails
      obtain ⟨hacceptor, hasked⟩ := readsReplyAuth_kept w s answers verified fails
      refine ⟨⟨turn, hfits⟩, fun ha => ((haborted ha).elim hfair id).more ?_ ?_⟩
      · rw [hasked]
      · rw [hacceptor]
  | readsAckSeq answers k =>
      simp only [Exchange.step, Option.ite_none_right_eq_some, Option.some.injEq] at hstep
      obtain ⟨hstate, rfl⟩ := hstep
      refine ⟨h.readsAckSeq hstate, ?_⟩
      unfold Exchange.readsAckSeq
      dsimp only
      split
      · exact hfair
      · exact hfair
  | connectorSends k =>
      cases hstep
      exact ⟨⟨turn, h.connectorSends⟩, hfair⟩
  | connectorResumes =>
      simp only [Exchange.step, Option.ite_none_right_eq_some, Option.some.injEq] at hstep
      obtain ⟨hstate, rfl⟩ := hstep
      exact ⟨⟨turn, h.connectorStands
        (h.connector.resume hstate turn.connectorState_ne_waitSend)⟩, hfair⟩
  | connectorLeaves =>
      cases hstep
      exact ⟨⟨turn, h.connectorStands Stand.In.leave⟩, hfair⟩
  | readsMsg answers =>
      simp only [Exchange.step, Option.ite_none_right_eq_some, Option.some.injEq] at hstep
      obtain ⟨hstate, rfl⟩ := hstep
      refine ⟨h.readsMsg hstate, ?_⟩
      unfold Exchange.readsMsg
      dsimp only
      split
      · exact hfair
      · exact hfair
  | readsMsgAuth answers =>
      simp only [Exchange.step, Option.ite_none_right_eq_some, Option.some.injEq] at hstep
      obtain ⟨⟨hstate, hhandling⟩, rfl⟩ := hstep
      refine ⟨h.readsMsgAuth hstate hhandling, ?_⟩
      unfold Exchange.readsMsgAuth
      dsimp only
      split
      · exact hfair
      · split
        · exact hfair
        · exact hfair
  | handsOver authorizerBuf inSeq =>
      simp only [Exchange.step, Option.ite_none_right_eq_some, Option.some.injEq] at hstep
      obtain ⟨-, rfl⟩ := hstep
      exact ⟨⟨turn, { h with }⟩, hfair⟩
  | replies reply authorizerReply k =>
      simp only [Exchange.step, Option.ite_none_right_eq_some, Option.some.injEq] at hstep
      obtain ⟨⟨hstate, hhandling, hknown, hlength⟩, rfl⟩ := hstep
      exact ⟨h.replies hstate hhandling hknown hlength,
        fun ha => (hfair ha).more List.prefix_rfl (List.prefix_append _ _)⟩
  | readsSeq answers =>
      simp only [Exchange.step, Option.ite_none_right_eq_some, Option.some.injEq] at hstep
      obtain ⟨hstate, rfl⟩ := hstep
      refine ⟨h.readsSeq hstate, ?_⟩
      unfold Exchange.readsSeq
      dsimp only
      split
      · exact hfair
      · exact hfair
  | acceptorSends k =>
      cases hstep
      exact ⟨⟨turn, h.acceptorSends⟩, hfair⟩
  | acceptorResumes =>
      simp only [Exchange.step, Option.ite_none_right_eq_some, Option.some.injEq] at hstep
      obtain ⟨hstate, rfl⟩ := hstep
      exact ⟨⟨turn, h.acceptorStands
        (h.acceptor.resume hstate h.valid.acceptorState_ne_waitSend)⟩, hfair⟩
  | acceptorLeaves =>
      cases hstep
      exact ⟨⟨turn, h.acceptorStands Stand.In.leave⟩, hfair⟩

theorem fits_of_reached {w : ConnectWire} {s : Exchange} (h : (exchangeMachine w).Reached s) :
    (∃ turn, s.Fits w turn) ∧ s.AbortedFairly := by
  refine h.invariant (fun s => (∃ turn, s.Fits w turn) ∧ s.AbortedFairly) ?_ ?_
  · intro s hfresh
    exact ⟨⟨.idle, fits_of_fresh hfresh⟩, fun ha => nomatch hfresh.aborted.symm.trans ha⟩
  · rintro s a t ⟨⟨turn, hfits⟩, hfair⟩ - hstep
    exact hfits.step hfair hstep

/-- What the ends of one socket have said to each other. -/
structure Agreed (s : Exchange) : Prop where
  /-- The acceptor has read and handled the messages that the connector has sent, in order, and
  behind each the authorizer that was sent with it; one at most is under way. -/
  asked : ∃ rest, s.connector.asked = s.acceptor.handled.map HandledMsg.ask ++ rest ∧
    rest.length ≤ 1
  /-- And likewise the connector the replies. -/
  replied : ∃ rest, s.acceptor.replied = s.connector.got ++ rest ∧ rest.length ≤ 1
  /-- The connector has the reply to each message before it sends another one. -/
  inTurn : s.acceptor.replied.length ≤ s.acceptor.handled.length ∧
    s.connector.asked.length ≤ s.connector.got.length + 1
  /-- Both take the number that the other has sent. -/
  acked : ∀ seq, s.connector.ackedSeq = some seq → s.acceptor.sentSeq = some seq
  acked' : ∀ seq, s.acceptor.ackedSeq = some seq → s.connector.sentSeq = some seq
  /-- The connector is aborted only by a reply that `Refuted` names. -/
  aborted : s.AbortedFairly

theorem agreed_of_reached {w : ConnectWire} {s : Exchange}
    (h : (exchangeMachine w).Reached s) : s.Agreed := by
  obtain ⟨⟨turn, hfits⟩, hfair⟩ := fits_of_reached h
  have hasking : turn.asking.length + turn.isHandling.toNat + turn.answering.length ≤ 1 := by
    cases turn <;> exact Nat.le_of_ble_eq_true rfl
  have hreplied := congrArg List.length hfits.replied
  have hasked := congrArg List.length hfits.asked
  have hcounted := hfits.counted
  rw [List.length_append] at hreplied hasked
  rw [List.length_map] at hasked
  refine ⟨⟨turn.asking, hfits.asked, by omega⟩, ⟨turn.answering, hfits.replied, by omega⟩,
    ⟨by omega, by omega⟩, fun seq hseq => ?_, fun seq hseq => ?_, hfair⟩
  · rw [hfits.connectorAcked] at hseq
    rw [hfits.acceptorSent]
    cases turn with
    | seqBack => exact hseq
    | ready => exact hseq
    | _ => cases hseq
  · rw [hfits.acceptorAcked] at hseq
    rw [hfits.connectorSent]
    cases turn with
    | ready => exact hseq
    | _ => cases hseq

/-- The fields of `ceph_msg_connect`, one behind the other. -/
def msgCodec : FixedSize ConnectMsg :=
  FixedSize.map
    (.pair .u64 (.pair .u32 (.pair .u32 (.pair .u32 (.pair .u32 (.pair .u32 (.pair .u32 .u8)))))))
    (fun a => ⟨a.1, a.2.1, a.2.2.1, a.2.2.2.1, a.2.2.2.2.1, a.2.2.2.2.2.1, a.2.2.2.2.2.2.1,
      a.2.2.2.2.2.2.2⟩)
    (fun m => (m.features, m.hostType, m.globalSeq, m.connectSeq, m.protocolVersion,
      m.authorizerProtocol, m.authorizerLen, m.flags))
    fun _ => rfl

/-- The fields of `ceph_msg_connect_reply`. -/
def replyCodec : FixedSize (UInt8 × UInt64 × UInt32 × UInt32 × UInt32 × UInt32 × UInt8) :=
  .pair .u8 (.pair .u64 (.pair .u32 (.pair .u32 (.pair .u32 (.pair .u32 .u8)))))

/-- The bytes of the tags. -/
def tagByte : ReplyTag → UInt8
  | .ready => 1
  | .resetSession => 2
  | .wait => 3
  | .retrySession => 4
  | .retryGlobal => 5
  | .badProtoVer => 10
  | .badAuthorizer => 11
  | .features => 12
  | .seq => 13
  | .other tag => tag

def tagOfByte (b : UInt8) : ReplyTag :=
  match b.toNat with
  | 1 => .ready
  | 2 => .resetSession
  | 3 => .wait
  | 4 => .retrySession
  | 5 => .retryGlobal
  | 10 => .badProtoVer
  | 11 => .badAuthorizer
  | 12 => .features
  | 13 => .seq
  | _ => .other b

theorem tagOfByte_tagByte {tag : ReplyTag} (h : tag.Known) : tagOfByte (tagByte tag) = tag := by
  cases tag with
  | other tag => exact h.elim
  | _ => rfl

def plainWire : ConnectWire where
  msg := msgCodec
  replySize := replyCodec.size
  replyBytes r :=
    replyCodec.bytes (tagByte r.tag, r.features, r.globalSeq, r.connectSeq, r.protocolVersion,
      r.authorizerLen, r.flags)
  replyOfBytes bs :=
    let v := replyCodec.ofBytes bs
    ⟨tagOfByte v.1, v.2.1, v.2.2.1, v.2.2.2.1, v.2.2.2.2.1, v.2.2.2.2.2.1, v.2.2.2.2.2.2⟩
  prefetch := 64
  msg_pos := by decide
  msg_lt := by decide
  reply_pos := by decide
  reply_lt := by decide
  length_replyBytes r := replyCodec.length_bytes _
  replyOfBytes_replyBytes r h := by
    rw [replyCodec.ofBytes_bytes]
    simp only [tagOfByte_tagByte h]
  prefetch_lt := by decide

/-- Two ends behind the addresses. -/
def plain : Exchange where
  connector :=
    ⟨⟨.connectingSendConnectMsg, .none, none⟩, ⟨.other 0, 0, 0, 0, 0, 0, 0⟩, 0, 7, [], [], none,
      none⟩
  acceptor :=
    ⟨⟨.acceptingWaitConnectMsg, .none, none⟩, ⟨0, 0, 0, 0, 0, 0, 0, 0⟩, [], [], 0, false, false, 9,
      [], [], none, none⟩
  up := .fresh
  down := .fresh
  aborted := false

theorem fresh_plain : plain.Fresh :=
  ⟨⟨rfl, rfl, rfl, rfl, rfl⟩, ⟨rfl, rfl, rfl, rfl, rfl, rfl⟩, ⟨rfl, rfl, rfl, rfl⟩, rfl,
    rfl, rfl⟩

/-- A message is refused with something for the authorizer. -/
def oneRound : List ExchangeAction :=
  [.asks ⟨1, 4, 5, 0, 8, 2, 0, 0⟩ [21, 22] 30, .connectorSends 5, .connectorResumes,
    .readsMsg [10, 10, 10, 5], .readsMsgAuth [16],
    .replies ⟨.badAuthorizer, 1, 0, 0, 8, 0, 0⟩ [31] 10, .acceptorSends 100, .readsReply [16, 16],
    .readsReplyAuth [] true false]

/-- And the next one is not. -/
def twoRounds : List ExchangeAction :=
  oneRound ++
    [.asks ⟨1, 4, 5, 0, 8, 2, 0, 0⟩ [23] 100, .readsMsg [16, 16, 16], .readsMsgAuth [],
      .replies ⟨.seq, 1, 6, 1, 8, 0, 0⟩ [] 100, .readsReply [16, 16, 16],
      .readsReplyAuth [] true false, .readsAckSeq [8] 8, .readsSeq [8]]

theorem agreed_of_reached_twoRounds :
    ∃ s : Exchange, s.connector.ackedSeq = some 9 ∧ s.acceptor.ackedSeq = some 7 ∧
      s.acceptor.handled.map (fun h => h.ask.authorizer) = [[21, 22], [23]] ∧ s.Agreed := by
  obtain ⟨s, hreplay, hconnector, hacceptor, hhandled⟩ : ∃ s,
      (exchangeMachine plainWire).replay (fun _ _ => True) plain twoRounds = some s ∧
        s.connector.ackedSeq = some 9 ∧ s.acceptor.ackedSeq = some 7 ∧
        s.acceptor.handled.map (fun h => h.ask.authorizer) = [[21, 22], [23]] :=
    ⟨_, rfl, rfl, rfl, rfl⟩
  exact ⟨s, hconnector, hacceptor, hhandled,
    agreed_of_reached (.of_replay (.start fresh_plain) hreplay)⟩

end Exchange

/-- The connector reads, and goes on only with more bytes. -/
def Asker.Waits (c : Asker) : Prop :=
  c.stand.state = .connectingWaitConnectReply ∨ c.stand.state = .connectingWaitAckSeq ∨
    c.stand.state = .connectingWaitConnectReplyAuth ∧ c.connectReply.authorizerLen ≠ 0

/-- So does the acceptor. -/
def Answerer.Waits (c : Answerer) : Prop :=
  c.stand.state = .acceptingWaitConnectMsg ∨ c.stand.state = .acceptingWaitSeq ∨
    c.stand.state = .acceptingWaitConnectMsgAuth ∧ c.handling = false ∧
      c.connectMsg.authorizerLen ≠ 0

namespace Exchange

/-- **The ends do not wait for each other**: with nothing under way between them one has something
else to do than to read. -/
theorem not_both_wait {w : ConnectWire} {s : Exchange} (h : (exchangeMachine w).Reached s)
    (hup : s.up.Idle) (hdown : s.down.Idle) : ¬ (s.connector.Waits ∧ s.acceptor.Waits) := by
  obtain ⟨⟨turn, hfits⟩, -⟩ := fits_of_reached h
  have hupNil := hfits.up.eq_nil_of_idle hup
  have hdownNil := hfits.down.eq_nil_of_idle hdown
  have hpiece {bl : Bytes} (hnil : piece bl = []) : bl = [] := by
    rw [← flatten_piece bl, hnil]
    rfl
  rintro ⟨hconnector, hacceptor⟩
  have hconnectorState : turn.connectorState = .connectingWaitConnectReply ∨
      turn.connectorState = .connectingWaitAckSeq ∨
        turn.connectorState = .connectingWaitConnectReplyAuth ∧
          s.connector.connectReply.authorizerLen ≠ 0 := by
    obtain hstate | hstate | ⟨hstate, hlen⟩ := hconnector
    · exact .inl (hfits.connectorState_eq hstate nofun nofun)
    · exact .inr (.inl (hfits.connectorState_eq hstate nofun nofun))
    · exact .inr (.inr ⟨hfits.connectorState_eq hstate nofun nofun, hlen⟩)
  have hacceptorState : turn.acceptorState = .acceptingWaitConnectMsg ∨
      turn.acceptorState = .acceptingWaitSeq ∨
        turn.acceptorState = .acceptingWaitConnectMsgAuth ∧ s.acceptor.handling = false ∧
          s.acceptor.connectMsg.authorizerLen ≠ 0 := by
    obtain hstate | hstate | ⟨hstate, hrest⟩ := hacceptor
    · exact .inl (hfits.acceptorState_eq hstate nofun nofun)
    · exact .inr (.inl (hfits.acceptorState_eq hstate nofun nofun))
    · exact .inr (.inr ⟨hfits.acceptorState_eq hstate nofun nofun, hrest⟩)
  cases turn with
  | opened a =>
      have hnone : a.authorizer = [] := hpiece hupNil
      obtain hother | hother | ⟨-, -, hlen⟩ := hacceptorState
      · cases hother
      · cases hother
      · apply hlen
        rw [hfits.connectMsg a rfl, hfits.valid.len, hnone]
        rfl
  | handling =>
      obtain hother | hother | ⟨-, hhandling, -⟩ := hacceptorState
      · cases hother
      · cases hother
      · cases hfits.handling.symm.trans hhandling
  | replyOpened r seq =>
      have hnone : r.authorizerReply = [] := hpiece (List.append_eq_nil_iff.mp hdownNil).1
      obtain hother | hother | ⟨-, hlen⟩ := hconnectorState
      · cases hother
      · cases hother
      · apply hlen
        rw [hfits.connectReply r seq rfl, hfits.valid.1.len, hnone]
        rfl
  | asked a => cases hupNil
  | replied r seq => cases hdownNil
  | seqSent seq => cases hdownNil
  | _ =>
      obtain hother | hother | ⟨hother, -⟩ := hconnectorState
      · cases hother
      · cases hother
      · cases hother

/-- Behind a refusal the acceptor waits for a message, and the connector has it to send. -/
theorem not_both_wait_oneRound :
    ∃ s : Exchange, s.connector.got.length = 1 ∧ s.acceptor.Waits ∧ ¬ s.connector.Waits := by
  obtain ⟨s, hreplay, hgot, hstate, hup, hdown⟩ : ∃ s,
      (exchangeMachine plainWire).replay (fun _ _ => True) plain oneRound = some s ∧
        s.connector.got.length = 1 ∧ s.acceptor.stand.state = .acceptingWaitConnectMsg ∧
        (s.up.outgoing = [] ∧ s.up.inbound.unread = []) ∧
        s.down.outgoing = [] ∧ s.down.inbound.unread = [] :=
    ⟨_, rfl, rfl, rfl, ⟨rfl, rfl⟩, rfl, rfl⟩
  have hwaits : s.acceptor.Waits := .inl hstate
  exact ⟨s, hgot, hwaits, fun hconnector => not_both_wait
    (.of_replay (.start fresh_plain) hreplay) hup hdown ⟨hconnector, hwaits⟩⟩

end Exchange

end HwAsync.Connect
