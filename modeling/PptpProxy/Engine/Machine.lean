/-
  The whole engine of `proxy-engine/main.c` as an event system: the connection table, the listener
  table, the link state, and the outside world they act on.

  An event is one thing the main loop or lwIP can start: the top of an iteration, the return of
  `select`, a TCP callback, a DNS answer, a PPP status report, a control message, one turn of the
  accept loop, one turn of the connection loop, the end of the program.  It carries what the
  kernel and lwIP answer to the calls made in it.  `enabled` says what the environment may do
  (callbacks only on pcbs that have them, descriptors that are not in use, ...); apart from the
  order of the connection loop it does NOT restrict the order of events, so the runs of the
  source are among the runs here.

  `World` replays the interactions of every event: which pcbs are alive with which callbacks,
  which lookups are outstanding, which client descriptors are open.  Its `fault` bit is set by a
  `tcp_*` call on a pcb that is not alive, by a `close` of a descriptor that is not open, and by a
  callback whose argument is NULL.
-/
import Mathlib.Data.Fintype.Basic
import PptpProxy.Engine.Request
import PptpProxy.Lib.System
import PptpProxy.Listener.Control

namespace PptpProxy

open CLib Sys

/-- An index of the connection table, and with it the address `&connections[i]`. -/
abbrev Slot := Fin maxConnections

/-! ## The world -/

inductive PcbState
  | closed | synSent | established
  deriving DecidableEq, Repr

/-- What lwIP keeps for a pcb: the callback argument, which callbacks are installed, and how far
    the handshake is. -/
structure Pcb where
  arg : Option Slot
  recv : Bool
  sent : Bool
  err : Bool
  poll : Bool
  state : PcbState
  deriving DecidableEq, Repr

/-- A pcb as `tcp_new_ip_type` returns it. -/
def Pcb.fresh : Pcb := ⟨none, false, false, false, false, .closed⟩

/-- Some callback of the engine is installed. -/
def Pcb.armed (b : Pcb) : Bool := b.recv || b.sent || b.err || b.poll

/-- An outstanding lookup: the slot it is for, and the link session it was asked in. -/
structure DnsRequest where
  slot : Slot
  epoch : Nat
  deriving DecidableEq, Repr

structure World where
  pcb : PcbId → Option Pcb
  dns : List DnsRequest
  /-- The open client descriptors. -/
  fds : List Int
  /-- Every client descriptor ever accepted, and every one ever closed. -/
  accepted : List Int
  closed : List Int
  /-- How often `ppp_status` has left the link down. -/
  epoch : Nat
  fault : Bool

namespace World

/-- A `tcp_*` call that may change the pcb. -/
def onPcb (w : World) (p : PcbId) (f : Pcb → Option Pcb) : World :=
  match w.pcb p with
  | some b => { w with pcb := Function.update w.pcb p (f b) }
  | none => { w with fault := true }

/-- The effect of one interaction of slot `i`. -/
def io (i : Slot) (w : World) : Io → World
  | .accept fd => { w with fds := fd :: w.fds, accepted := fd :: w.accepted }
  | .close fd =>
    { w with fds := w.fds.erase fd, closed := fd :: w.closed,
             fault := w.fault || ! decide (fd ∈ w.fds) }
  | .tcpNew (some p) => { w with pcb := Function.update w.pcb p (some Pcb.fresh) }
  | .tcpArg p self => w.onPcb p fun b => some { b with arg := if self then some i else none }
  | .tcpRecv p on => w.onPcb p fun b => some { b with recv := on }
  | .tcpSent p on => w.onPcb p fun b => some { b with sent := on }
  | .tcpErr p on => w.onPcb p fun b => some { b with err := on }
  | .tcpPoll p on => w.onPcb p fun b => some { b with poll := on }
  | .tcpConnect p _ _ r =>
    w.onPcb p fun b => some { b with state := if r = .ok then .synSent else b.state }
  | .tcpSndbuf p _ | .tcpWrite p _ _ | .tcpOutput p | .tcpRecved p _ | .tcpClose p _ =>
    w.onPcb p some
  | .tcpAbort p => w.onPcb p fun _ => none
  | .connected p => w.onPcb p fun b => some { b with state := .established }
  | .errored p => w.onPcb p fun _ => none
  | .dnsGethostbyname _ r =>
    if r = .inprogress then { w with dns := ⟨i, w.epoch⟩ :: w.dns } else w
  | .dnsFound epoch => { w with dns := w.dns.erase ⟨i, epoch⟩ }
  | _ => w

def ios (i : Slot) (w : World) (l : List Io) : World := l.foldl (io i) w

@[simp] theorem ios_nil (i : Slot) (w : World) : w.ios i [] = w := rfl

@[simp] theorem ios_cons (i : Slot) (w : World) (x : Io) (l : List Io) :
    w.ios i (x :: l) = (w.io i x).ios i l := rfl

theorem ios_append (i : Slot) (w : World) (l l' : List Io) :
    w.ios i (l ++ l') = (w.ios i l).ios i l' := List.foldl_append

/-- A property of a live pcb. -/
def has (w : World) (p : PcbId) (f : Pcb → Bool) : Bool :=
  match w.pcb p with
  | some b => f b
  | none => false

end World

/-! ## The engine -/

structure State where
  conn : Slot → Connection
  /-- Per slot, the interactions since its client was accepted. -/
  history : Slot → List Io
  world : World
  listeners : List Listener
  sockets : ListenWorld
  ptyFd : Int
  controlFd : Int
  linkUp : Bool
  sentBytes : UInt64
  receivedBytes : UInt64
  connectedSinceMs : UInt64
  stopRequested : Bool
  /-- `readfds` and `writefds` of the current iteration. -/
  readfds : Int → Bool
  writefds : Int → Bool
  /-- The connection loop of this iteration has served the slots below. -/
  next : Nat
  /-- The program has not left the main loop. -/
  running : Bool

/-- The history of a slot starts anew with each client. -/
def record (h : List Io) : Io → List Io
  | .accept fd => [.accept fd]
  | x => h ++ [x]

/-- `sent_bytes` and `received_bytes` bumps among the interactions. -/
def sentIn (io : List Io) : Nat :=
  (io.map fun | .countSent n => n | _ => 0).sum
def receivedIn (io : List Io) : Nat :=
  (io.map fun | .countReceived n => n | _ => 0).sum

namespace State

/-- Slot `i` becomes `c` through the interactions `io`. -/
def put (s : State) (i : Slot) (c : Connection) (io : List Io) : State :=
  { s with
    conn := Function.update s.conn i c
    history := Function.update s.history i (io.foldl record (s.history i))
    world := s.world.ios i io
    sentBytes := s.sentBytes + UInt64.ofNat (sentIn io)
    receivedBytes := s.receivedBytes + UInt64.ofNat (receivedIn io) }

/-- A function of the source applied to slot `i`. -/
def onSlot (s : State) (i : Slot) (f : Connection → Connection × List Io) : State × List Io :=
  let (c, io) := f (s.conn i)
  (s.put i c io, io)

/-- One round of a loop over the table: the state and the calls so far. -/
def round (f : Slot → Connection → Connection × List Io) (r : State × List Io) (i : Slot) :
    State × List Io :=
  ((r.1.onSlot i (f i)).1, r.2 ++ (r.1.onSlot i (f i)).2)

/-- A loop over the whole table. -/
@[irreducible]
def forSlots (s : State) (f : Slot → Connection → Connection × List Io) : State × List Io :=
  (List.finRange maxConnections).foldl (round f) (s, [])

/-- The first slot `accept_client` may use. -/
def freeSlot (s : State) : Option Slot :=
  (List.finRange maxConnections).find? fun i =>
    decide ((s.conn i).fd < 0 ∧ (s.conn i).resolving = false)

/-- The descriptor is open: a client, a listening socket, the pty or the control socket. -/
def inUse (s : State) (fd : Int) : Prop :=
  fd ∈ s.world.fds ∨ fd ∈ s.sockets.sockets.map Prod.fst ∨ fd = s.ptyFd ∨ fd = s.controlFd

/-- The condition under which the top of the loop watches a client for input. -/
def readGate (c : Connection) : Bool :=
  decide (c.phase ≠ .resolving ∧ c.phase ≠ .connecting ∧
    c.toRemote.length < bufferSize - 8192 ∧ c.toLocal.length < bufferSize - 8192)

/-- `readfds` as the top of the loop fills it. -/
def watchRead (s : State) (fd : Int) : Bool :=
  decide (fd = s.ptyFd) || decide (0 ≤ s.controlFd ∧ fd = s.controlFd) ||
    s.listeners.any (·.fd = fd) ||
    (List.finRange maxConnections).any fun i =>
      decide (0 ≤ (s.conn i).fd ∧ (s.conn i).fd = fd) && readGate (s.conn i)

/-- `writefds` as the top of the loop fills it. -/
def watchWrite (s : State) (fd : Int) : Bool :=
  (List.finRange maxConnections).any fun i =>
    decide (0 ≤ (s.conn i).fd ∧ (s.conn i).fd = fd ∧ (s.conn i).toLocal ≠ [])

end State

/-- `CI_MPPE`, the CCP option number. -/
def ciMppe : Int := 18

inductive Event
  /-- The top of an iteration: both sets are filled, streaming slots are flushed. -/
  | top (a : Slot → Answers)
  /-- `select` returns: what it leaves in the sets. -/
  | select (readable writable : Int → Bool)
  | sent (p : PcbId) (length : Nat) (a : Answers)
  | poll (p : PcbId) (a : Answers)
  | error (p : PcbId)
  | receive (p : PcbId) (payload : Option Bytes) (a : Answers)
  | connected (p : PcbId) (err : Err) (a : Answers)
  /-- lwIP frees a pcb the engine has let go of. -/
  | reap (p : PcbId)
  | dnsDone (q : DnsRequest) (address : Option IpAddr) (a : Answers)
  | pppStatus (status transmitMethod receiveMethod : Int) (now : UInt64)
  | control (message : Bytes) (listen : Nat → Int) (now : UInt64)
  /-- One turn of `accept_client` on listener `j`; `nonblock` is whether `nonblocking` succeeds. -/
  | accept (j : Nat) (fd : Int) (nonblock : Bool) (a : Answers)
  /-- One turn of the connection loop. -/
  | serve (i : Slot) (w : WriteResult) (r : ReadResult) (a : Answers)
  /-- The main loop ends and all connections are closed. -/
  | stop

/-- What an event does: the new state, the interactions in order, and for a TCP callback what it
    returns to lwIP. -/
structure Outcome where
  state : State
  io : List Io
  result : Err

namespace State

/-- A TCP callback on `p`: lwIP passes the argument installed on the pcb. -/
def callback (s : State) (p : PcbId) (pre : List Io)
    (f : Connection → Connection × List Io × Err) : Outcome :=
  match (s.world.pcb p).bind Pcb.arg with
  | some i =>
    let (c, io, r) := f (s.conn i)
    ⟨s.put i c (pre ++ io), pre ++ io, r⟩
  | none => ⟨{ s with world := { s.world with fault := true } }, [], .ok⟩

/-- `close_connection` on every open slot. -/
def closeAll (s : State) : State × List Io :=
  s.forSlots fun _ c => if 0 ≤ c.fd then closeConnection c else (c, [])

/-- `ppp_status`. -/
def pppStatus (s : State) (status transmitMethod receiveMethod : Int) (now : UInt64) :
    State × List Io :=
  if status = 0 ∧ transmitMethod = ciMppe ∧ receiveMethod = ciMppe then
    if s.linkUp then (s, [])
    else
      ({ s with linkUp := true, connectedSinceMs := now, sentBytes := 0, receivedBytes := 0 }, [])
  else
    let (s, io) := closeAll { s with linkUp := false, connectedSinceMs := 0 }
    ({ s with world := { s.world with epoch := s.world.epoch + 1 } }, io)

/-- `handle_control` on a message that was read. -/
def control (s : State) (message : Bytes) (listen : Nat → Int) (now : UInt64) : State :=
  let r := handleControl ⟨s.linkUp, s.sentBytes, s.receivedBytes, s.connectedSinceMs, now⟩
    s.listeners listen message
  { s with
    listeners := r.listeners
    sockets := s.sockets.ios r.io
    stopRequested := s.stopRequested || r.stop }

/-- A descriptor that is accepted and closed at once touches no slot. -/
def turnAway (s : State) (fd : Int) : State × List Io :=
  ({ s with world := s.world.ios ⟨0, by decide⟩ [.accept fd, .close fd] },
    [.accept fd, .close fd])

/-- One turn of `accept_client`. -/
def accept (L : Lwip) (s : State) (l : Listener) (fd : Int) (nonblock : Bool) (a : Answers) :
    State × List Io :=
  if nonblock = false then s.turnAway fd
  else
    match s.freeSlot with
    | none => s.turnAway fd
    | some i =>
      s.onSlot i fun _ => acceptSlot L s.linkUp a fd l.kind l.remoteHost l.remotePort

/-- One turn of the connection loop. -/
def serve (L : Lwip) (s : State) (i : Slot) (w : WriteResult) (r : ReadResult) (a : Answers) :
    State × List Io :=
  if (s.conn i).fd < 0 then (s, [])
  else
    let (s₁, io₁) := if s.writefds (s.conn i).fd then s.onSlot i (flushLocal w) else (s, [])
    if (s₁.conn i).fd < 0 then (s₁, io₁)
    else if s₁.readfds (s₁.conn i).fd then
      let (s₂, io₂) := s₁.onSlot i (readClient L s.linkUp a r)
      (s₂, io₁ ++ io₂)
    else (s₁, io₁)

end State

/-- What happens on an event. -/
def exec (L : Lwip) (s : State) : Event → Outcome
  | .top a =>
    let (s', io) := s.forSlots fun i c => if c.phase = .streaming ∧ 0 ≤ c.fd
      then flushRemote (a i) c else (c, [])
    ⟨{ s' with readfds := s.watchRead, writefds := s.watchWrite, next := 0 }, io, .ok⟩
  | .select readable writable =>
    ⟨{ s with readfds := fun fd => s.readfds fd && readable fd
              writefds := fun fd => s.writefds fd && writable fd }, [], .ok⟩
  | .sent p n a => s.callback p [] (onTcpSent a n)
  | .poll p a => s.callback p [] (onTcpPoll a)
  | .error p =>
    s.callback p [.errored p] fun c => let (c, io) := onTcpError c; (c, io, .ok)
  | .receive p payload a => s.callback p [] (onTcpReceive a p payload .ok)
  | .connected p err a =>
    s.callback p (if err = .ok then [.connected p] else []) (onTcpConnected a err)
  | .reap p =>
    ⟨{ s with world := { s.world with pcb := Function.update s.world.pcb p none } }, [], .ok⟩
  | .dnsDone q address a =>
    let (c, io) := dnsDone a address (s.conn q.slot)
    ⟨s.put q.slot c (.dnsFound q.epoch :: io), .dnsFound q.epoch :: io, .ok⟩
  | .pppStatus status tx rx now =>
    let (s', io) := s.pppStatus status tx rx now
    ⟨s', io, .ok⟩
  | .control message listen now => ⟨s.control message listen now, [], .ok⟩
  | .accept j fd nonblock a =>
    match s.listeners[j]? with
    | none => ⟨s, [], .ok⟩
    | some l =>
      let (s', io) := s.accept L l fd nonblock a
      ⟨s', io, .ok⟩
  | .serve i w r a =>
    let (s', io) := s.serve L i w r a
    ⟨{ s' with next := i + 1 }, io, .ok⟩
  | .stop =>
    let (s', io) := s.closeAll
    ⟨{ s' with running := false }, io, .ok⟩

/-- lwIP allocates a pcb that is not alive. -/
def freshAnswers (s : State) (a : Answers) : Prop :=
  ∀ p, a.tcpNew = some p → s.world.pcb p = none

/-- The result of `handle_control` the event will have. -/
def controlIo (s : State) (message : Bytes) (listen : Nat → Int) (now : UInt64) : List ListenIo :=
  (handleControl ⟨s.linkUp, s.sentBytes, s.receivedBytes, s.connectedSinceMs, now⟩
    s.listeners listen message).io

/-- What the environment may do.  lwIP calls a callback only while it is installed on a live pcb,
    reports a connection once, and delivers data and FIN only on an established one; it always
    passes `ERR_OK` to the receive callback. -/
def enabled (s : State) (e : Event) : Prop :=
  s.running = true ∧
  match e with
  | .top _ => True
  | .select _ _ => True
  | .sent p n _ => s.world.has p (·.sent) = true ∧ n < 2 ^ 16
  | .poll p _ => s.world.has p (·.poll) = true
  | .error p => s.world.has p (·.err) = true
  | .receive p payload _ =>
    s.world.has p (fun b => b.recv && b.state == .established) = true ∧
      ∀ d, payload = some d → d.length < 2 ^ 16
  | .connected p _ _ => s.world.has p (·.state == .synSent) = true
  | .reap p => s.world.has p (! ·.armed) = true
  | .dnsDone q _ a => q ∈ s.world.dns ∧ freshAnswers s a
  | .pppStatus _ _ _ _ => True
  | .control message listen now =>
    ListenFresh (fun fd => fd ∈ s.world.fds ∨ fd = s.ptyFd ∨ fd = s.controlFd) s.sockets
      (controlIo s message listen now)
  | .accept j fd _ a =>
    (∃ l, s.listeners[j]? = some l ∧ s.readfds l.fd = true) ∧ 0 ≤ fd ∧ ¬ s.inUse fd ∧
      freshAnswers s a
  | .serve i w r a =>
    s.next ≤ i ∧ freshAnswers s a ∧
      (∀ n, w = .wrote n → 0 < n ∧ n ≤ (s.conn i).toLocal.length) ∧
      (∀ d, r = .data d → d ≠ [] ∧ d.length ≤ 8192)
  | .stop => True

/-- The state in which `main` enters its loop, after a start-up with the given ports, `--forward`
    specs and descriptors. -/
def State.initial (listeners : List Listener) (fds : Nat → Int) (ptyFd controlFd : Int) :
    State where
  conn := fun _ => Connection.initial
  history := fun _ => []
  world := { pcb := fun _ => none, dns := [], fds := [], accepted := [], closed := [],
             epoch := 0, fault := false }
  listeners := startListening fds listeners
  sockets := ListenWorld.ios ⟨[], false⟩ (startIo fds listeners)
  ptyFd := ptyFd
  controlFd := controlFd
  linkUp := false
  sentBytes := 0
  receivedBytes := 0
  connectedSinceMs := 0
  stopRequested := false
  readfds := fun _ => false
  writefds := fun _ => false
  next := 0
  running := true

/-- A successful start-up. -/
def Started (s : State) : Prop :=
  ∃ (httpPort socksPort : Int) (specs : List Bytes) (listeners : List Listener)
    (fds : Nat → Int) (ptyFd controlFd : Int),
    specs.length ≤ 32 ∧ buildListeners httpPort socksPort specs = some listeners ∧
    (∀ i, i < listeners.length → 0 ≤ fds i) ∧
    ListenFresh (fun fd => fd = ptyFd ∨ fd = controlFd) ⟨[], false⟩ (startIo fds listeners) ∧
    s = State.initial listeners fds ptyFd controlFd

/-- The engine. -/
def engine (L : Lwip) : System State Event where
  init := Started
  enabled := enabled
  step s e := (exec L s e).state

end PptpProxy
