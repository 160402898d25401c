/-
  One slot of the connection table of `proxy-engine/main.c`: the record `struct connection` and
  every function that drives a remote TCP connection from it (`close_connection` to
  `start_connection`).

  The functions are PURE: they take the slot and what lwIP answers to the calls they make
  (`Answers`), and return the slot and the list of interactions (`Io`) in the order in which the
  source performs them.  A buffer and its length field are one list (`header[0..header_len)`,
  `to_remote[0..remote_len)`, `to_local[0..local_len)`), so a `memmove` that closes the gap after a
  partial write is a `drop`.

  What is left out: the log lines (nothing reads them back), and the `errno` texts in them.
-/
import PptpProxy.Lib.CString

namespace PptpProxy

open CLib

/-! ## Constants and enumerations of the source -/

def maxConnections : Nat := 128
def maxListeners : Nat := 34
def maxHeader : Nat := 8192
def bufferSize : Nat := 65536
def maxControlRequest : Nat := 16384
/-- `TCP_MSS` of `lwipopts.h`. -/
def tcpMss : Nat := 1360

inductive ListenerKind
  | httpProxy | socksProxy | forward
  deriving DecidableEq, Repr

inductive ConnectionPhase
  | proxyHeader | socksGreeting | socksRequest | resolving | connecting | streaming
  | connectionClosed
  deriving DecidableEq, Repr

/-- `err_t` of lwIP. -/
inductive Err
  | ok | mem | buf | timeout | rte | inprogress | val | wouldblock | use | already | isconn
  | conn | ifc | abrt | rst | clsd | arg
  deriving DecidableEq, Repr

/-- Address of a `struct tcp_pcb`; lwIP reuses the address of a freed one. -/
abbrev PcbId := Nat

/-- `ip_addr_t`.  The build sets `LWIP_IPV6` to 0, so it is an IPv4 address. -/
abbrev IpAddr := BitVec 32

/-- `IP_IS_V4`, the constant 1 of a build without IPv6. -/
def ipIsV4 (_ : IpAddr) : Bool := true

/-- `size_t` subtraction. -/
def sizeSub (a b : Nat) : Nat := (a + 2 ^ 64 - b) % 2 ^ 64

theorem sizeSub_of_le {a b : Nat} (h : b ≤ a) (ha : a < 2 ^ 64) : sizeSub a b = a - b := by
  unfold sizeSub
  rw [show a + 2 ^ 64 - b = (a - b) + 2 ^ 64 from by omega, Nat.add_mod_right,
    Nat.mod_eq_of_lt (by omega)]

/-- One interaction of the engine with lwIP or with the kernel, in the order in which it happens.
    Besides the calls the engine makes there are the three moments at which lwIP changes what it
    holds for the engine before it calls back (`connected`, `errored`, `dnsFound`), and the calls
    of `append_bytes`, the one internal function whose failure closes a connection. -/
inductive Io
  | accept (fd : Int)
  | read (fd : Int) (data : Bytes)
  /-- The bytes `write` took. -/
  | write (fd : Int) (data : Bytes)
  | close (fd : Int)
  | appendBytes (length capacity count : Nat)
  | tcpNew (pcb : Option PcbId)
  /-- `tcp_arg` with the slot itself, or with NULL. -/
  | tcpArg (pcb : PcbId) (self : Bool)
  | tcpRecv (pcb : PcbId) (installed : Bool)
  | tcpSent (pcb : PcbId) (installed : Bool)
  | tcpErr (pcb : PcbId) (installed : Bool)
  | tcpPoll (pcb : PcbId) (installed : Bool)
  | tcpConnect (pcb : PcbId) (address : IpAddr) (port : Int) (result : Err)
  | tcpSndbuf (pcb : PcbId) (space : Nat)
  | tcpWrite (pcb : PcbId) (data : Bytes) (result : Err)
  | tcpOutput (pcb : PcbId)
  | pbufCopyPartial (data : Bytes)
  | tcpRecved (pcb : PcbId) (length : Nat)
  | tcpAbort (pcb : PcbId)
  | tcpClose (pcb : PcbId) (result : Err)
  | dnsGethostbyname (host : Bytes) (result : Err)
  | countSent (length : Nat)
  | countReceived (length : Nat)
  | connected (pcb : PcbId)
  | errored (pcb : PcbId)
  /-- The answer to a lookup made in the given link session. -/
  | dnsFound (epoch : Nat)
  deriving DecidableEq, Repr

/-- `struct connection`. -/
structure Connection where
  fd : Int
  kind : ListenerKind
  phase : ConnectionPhase
  tcp : Option PcbId
  resolving : Bool
  remoteClosed : Bool
  httpConnect : Bool
  host : Bytes
  port : Int
  header : Bytes
  toRemote : Bytes
  toLocal : Bytes
  deriving DecidableEq, Repr

/-- A slot as `main` leaves it before the first client: zeroed, with `fd = -1`. -/
def Connection.initial : Connection where
  fd := -1
  kind := .httpProxy
  phase := .proxyHeader
  tcp := none
  resolving := false
  remoteClosed := false
  httpConnect := false
  host := []
  port := 0
  header := []
  toRemote := []
  toLocal := []

/-- What lwIP answers to the calls of one step.  `dns` is the result of `dns_gethostbyname`, and
    `dnsAddress` the address it stored when that result is `ERR_OK`. -/
structure Answers where
  tcpNew : Option PcbId
  tcpConnect : Err
  dns : Err
  dnsAddress : IpAddr
  sndbuf : Nat
  tcpWrite : Err
  tcpClose : Err
  deriving DecidableEq, Repr

/-- lwIP's pure functions. -/
structure Lwip where
  /-- `ipaddr_aton`: the address a dotted text denotes. -/
  ipaddrAton : Bytes → Option IpAddr

/-! ## Teardown -/

/-- The five calls that take the engine's callbacks off a pcb. -/
def clearCallbacks (p : PcbId) : List Io :=
  [.tcpArg p false, .tcpRecv p false, .tcpSent p false, .tcpErr p false, .tcpPoll p false]

/-- The interactions of `close_connection`. -/
def closeIo (c : Connection) : List Io :=
  (if 0 ≤ c.fd then [.close c.fd] else []) ++
    match c.tcp with
    | some p => clearCallbacks p ++ [.tcpAbort p]
    | none => []

/-- `close_connection`. -/
def closeConnection (c : Connection) : Connection × List Io :=
  ({ c with fd := -1, tcp := none, phase := .connectionClosed,
            toRemote := [], toLocal := [], header := [] }, closeIo c)

/-! ## Buffers -/

/-- `append_bytes` on a buffer of the given capacity: `none` is the `false` it returns. -/
def appendBytes (buffer : Bytes) (capacity : Nat) (src : Bytes) : Option Bytes :=
  if src.length > sizeSub capacity buffer.length then none else some (buffer ++ src)

/-- The record of an `append_bytes` call. -/
def appendIo (buffer : Bytes) (capacity : Nat) (src : Bytes) : Io :=
  .appendBytes buffer.length capacity src.length

/-- `local_reply`. -/
def localReply (c : Connection) (data : Bytes) : Option Connection :=
  (appendBytes c.toLocal bufferSize data).map fun b => { c with toLocal := b }

/-- How many bytes `flush_remote` offers to `tcp_write`. -/
def flushCount (space : Nat) (c : Connection) : Nat :=
  min (if c.toRemote.length < space then c.toRemote.length else space) tcpMss

/-- `flush_remote`. -/
def flushRemote (a : Answers) (c : Connection) : Connection × List Io :=
  match c.tcp with
  | none => (c, [])
  | some p =>
    if c.phase ≠ .streaming ∨ c.toRemote = [] then (c, [])
    else
      let count := flushCount a.sndbuf c
      if count = 0 then (c, [.tcpSndbuf p a.sndbuf])
      else if a.tcpWrite ≠ .ok then
        (c, [.tcpSndbuf p a.sndbuf, .tcpWrite p (c.toRemote.take count) a.tcpWrite])
      else
        ({ c with toRemote := c.toRemote.drop count },
          [.tcpSndbuf p a.sndbuf, .tcpWrite p (c.toRemote.take count) .ok, .tcpOutput p])

/-! ## The TCP callbacks

  Each gets the pcb it was called for (the C parameter `tcp`), the slot its `arg` points at, and
  returns what lwIP gets back. -/

/-- `on_tcp_sent`. -/
def onTcpSent (a : Answers) (length : Nat) (c : Connection) : Connection × List Io × Err :=
  let (c, io) := flushRemote a c
  (c, .countSent length :: io, .ok)

/-- `on_tcp_poll`. -/
def onTcpPoll (a : Answers) (c : Connection) : Connection × List Io × Err :=
  let (c, io) := flushRemote a c
  (c, io, .ok)

/-- `on_tcp_error`: lwIP has already freed the pcb. -/
def onTcpError (c : Connection) : Connection × List Io :=
  closeConnection { c with tcp := none }

/-- `on_tcp_receive` when `p` is NULL: the remote sent FIN. -/
def onTcpFin (a : Answers) (tcp : PcbId) (c : Connection) : Connection × List Io × Err :=
  let c := { c with remoteClosed := true, tcp := none }
  let (c', closing) := if c.toLocal = [] then closeConnection c else (c, [])
  if a.tcpClose ≠ .ok then
    (c', clearCallbacks tcp ++ [.tcpClose tcp a.tcpClose, .tcpAbort tcp] ++ closing, .abrt)
  else
    (c', clearCallbacks tcp ++ [.tcpClose tcp .ok] ++ closing, .ok)

/-- `on_tcp_receive`. -/
def onTcpReceive (a : Answers) (tcp : PcbId) (p : Option Bytes) (err : Err) (c : Connection) :
    Connection × List Io × Err :=
  if err ≠ .ok then (c, [], err)
  else
    match p with
    | none => onTcpFin a tcp c
    | some payload =>
      if payload.length > sizeSub bufferSize c.toLocal.length then (c, [], .mem)
      else
        ({ c with toLocal := c.toLocal ++ payload },
          [.pbufCopyPartial payload, .countReceived payload.length,
            .tcpRecved tcp payload.length], .ok)

/-- The reply to a CONNECT request. -/
def connectOk : Bytes := ascii "HTTP/1.1 200 Connection Established\r\n\r\n"

/-- The reply to a SOCKS request. -/
def socksOk : Bytes := [5, 0, 0, 1, 0, 0, 0, 0, 0, 0]

/-- What `on_tcp_connected` tells the client; a plain HTTP request and a forward get nothing. -/
def connectedReply (c : Connection) : Option Bytes :=
  if c.kind = .httpProxy ∧ c.httpConnect = true then some connectOk
  else if c.kind = .socksProxy then some socksOk
  else none

/-- `on_tcp_connected`. -/
def onTcpConnected (a : Answers) (err : Err) (c : Connection) : Connection × List Io × Err :=
  if err ≠ .ok then
    let (c, io) := closeConnection c
    (c, io, .abrt)
  else
    let c := { c with phase := .streaming }
    match connectedReply c with
    | none =>
      let (c, io) := flushRemote a c
      (c, io, .ok)
    | some reply =>
      match localReply c reply with
      | none =>
        let (c', io) := closeConnection c
        (c', appendIo c.toLocal bufferSize reply :: io, .abrt)
      | some c' =>
        let (c'', io) := flushRemote a c'
        (c'', appendIo c.toLocal bufferSize reply :: io, .ok)

/-! ## Opening the remote connection -/

/-- `tcp_new_ip_type` and the five calls that install the engine's callbacks. -/
def installCallbacks (p : PcbId) : List Io :=
  [.tcpNew (some p), .tcpArg p true, .tcpRecv p true, .tcpSent p true, .tcpErr p true,
    .tcpPoll p true]

/-- `connect_ip`. -/
def connectIp (a : Answers) (address : IpAddr) (c : Connection) : Connection × List Io :=
  let c := { c with resolving := false }
  if c.phase = .connectionClosed ∨ c.fd < 0 then (c, [])
  else
    match a.tcpNew with
    | none =>
      let (c, io) := closeConnection { c with tcp := none }
      (c, .tcpNew none :: io)
    | some p =>
      let c := { c with tcp := some p, phase := .connecting }
      let opening := installCallbacks p ++ [.tcpConnect p address c.port a.tcpConnect]
      if a.tcpConnect ≠ .ok then
        let (c, io) := closeConnection c
        (c, opening ++ io)
      else (c, opening)

/-- `dns_done`; `none` is the NULL address of a failed lookup. -/
def dnsDone (a : Answers) (address : Option IpAddr) (c : Connection) : Connection × List Io :=
  match address with
  | none => closeConnection { c with resolving := false }
  | some address => connectIp a address c

/-- `start_connection`. -/
def startConnection (L : Lwip) (linkUp : Bool) (a : Answers) (c : Connection) :
    Connection × List Io :=
  if linkUp = false then closeConnection c
  else
    match L.ipaddrAton c.host with
    | some address => if ipIsV4 address then connectIp a address c else closeConnection c
    | none =>
      let c := { c with phase := .resolving, resolving := true }
      let asked := Io.dnsGethostbyname c.host a.dns
      if a.dns = .ok then
        let (c, io) := connectIp a a.dnsAddress c
        (c, asked :: io)
      else if a.dns ≠ .inprogress then
        let (c, io) := closeConnection { c with resolving := false }
        (c, asked :: io)
      else (c, [asked])

end PptpProxy
