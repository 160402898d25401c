/-
  The listener table of `proxy-engine/main.c`: start-up (`add_listener`, `parse_forward`, the
  listening loop of `main`) and live reconfiguration (`reconfigure_listeners`).

  `listeners[0..listener_count)` is a list.  `listen_loopback` is the kernel's: its results are an
  input, one per position of the requested list, and what the code does with descriptors is
  recorded as `ListenIo`, which `ListenWorld` replays into the set of open listening sockets.
-/
import PptpProxy.Engine.Request

namespace PptpProxy

open CLib

/-- `struct listener`. -/
structure Listener where
  fd : Int
  kind : ListenerKind
  localPort : Int
  remotePort : Int
  remoteHost : Bytes
  deriving DecidableEq, Repr

/-- What a listener is asked to be: everything but the descriptor. -/
def Listener.spec (l : Listener) : ListenerKind × Int × Bytes × Int :=
  (l.kind, l.localPort, l.remoteHost, l.remotePort)

/-! ## Start-up -/

/-- `add_listener`; a NULL `host` leaves the zeroed `remote_host`, and `snprintf` keeps at most
    255 bytes of it. -/
def addListener (listeners : List Listener) (kind : ListenerKind) (localPort : Int)
    (host : Option Bytes) (remotePort : Int) : Option (List Listener) :=
  if listeners.length = maxListeners ∨ validPort localPort = false then none
  else if listeners.any (·.localPort = localPort) then none
  else
    some (listeners ++ [{ fd := -1, kind := kind, localPort := localPort,
                          remotePort := remotePort, remoteHost := (host.getD []).take 255 }])

/-- `parse_forward`: `LOCAL:HOST:REMOTE`, cut at the first and at the last colon. -/
def parseForward (listeners : List Listener) (spec : Bytes) : Option (List Listener) :=
  if spec.length ≥ 512 then none
  else
    match strchr spec 58, strrchr spec 58 with
    | some first, some last =>
      if first = last then none
      else
        let host := (spec.take last).drop (first + 1)
        let (localPort, end1) := strtol (spec.take first)
        let (remotePort, end2) := strtol (spec.drop (last + 1))
        if end1 ≠ [] ∨ end2 ≠ [] ∨ host = [] ∨ host.length ≥ 256 ∨
            localPort < 1 ∨ localPort > 65535 ∨ remotePort < 1 ∨ remotePort > 65535 then none
        else addListener listeners .forward localPort (some host) remotePort
    | _, _ => none

/-- The `parse_forward` loop of `main`. -/
def parseForwards (listeners : List Listener) : List Bytes → Option (List Listener)
  | [] => some listeners
  | spec :: specs =>
    match parseForward listeners spec with
    | none => none
    | some listeners => parseForwards listeners specs

/-- The part of `main` that fills the table: the two proxies, then the forwards. -/
def buildListeners (httpPort socksPort : Int) (forwardSpecs : List Bytes) :
    Option (List Listener) :=
  if validPort httpPort = false ∨ validPort socksPort = false then none
  else
    match addListener [] .httpProxy httpPort none 0 with
    | none => none
    | some l =>
      match addListener l .socksProxy socksPort none 0 with
      | none => none
      | some l => parseForwards l forwardSpecs

/-- What the argument loop of `main` collects. -/
structure Arguments where
  server : Option Bytes
  user : Option Bytes
  pptpPath : Option Bytes
  passwordFifo : Option Bytes
  controlSocketPath : Option Bytes
  httpPort : Int
  socksPort : Int
  forwardSpecs : List Bytes
  deriving DecidableEq, Repr

def Arguments.default : Arguments where
  server := none
  user := none
  pptpPath := none
  passwordFifo := none
  controlSocketPath := none
  httpPort := 18080
  socksPort := 11080
  forwardSpecs := []

/-- The argument loop of `main` over `argv[1..]`; `none` is the exit with the usage text. -/
def parseArguments (o : Arguments) : List Bytes → Option Arguments
  | [] => some o
  | [_] => none
  | option :: value :: rest =>
    if option = ascii "--server" then parseArguments { o with server := some value } rest
    else if option = ascii "--user" then parseArguments { o with user := some value } rest
    else if option = ascii "--pptp" then parseArguments { o with pptpPath := some value } rest
    else if option = ascii "--password-fifo" then
      parseArguments { o with passwordFifo := some value } rest
    else if option = ascii "--control-socket" then
      parseArguments { o with controlSocketPath := some value } rest
    else if option = ascii "--http" then parseArguments { o with httpPort := atoi value } rest
    else if option = ascii "--socks" then parseArguments { o with socksPort := atoi value } rest
    else if option = ascii "--forward" ∧ o.forwardSpecs.length < 32 then
      -- `snprintf` into 512 bytes
      parseArguments { o with forwardSpecs := o.forwardSpecs ++ [value.take 511] } rest
    else none

/-- `main` up to the filled table. -/
def mainListeners (argv : List Bytes) : Option (List Listener) :=
  match parseArguments .default argv with
  | none => none
  | some o =>
    match o.server, o.user, o.pptpPath with
    | some server, some user, some _ =>
      if server = [] ∨ user = [] then none
      else buildListeners o.httpPort o.socksPort o.forwardSpecs
    | _, _, _ => none

/-! ## Descriptors -/

/-- What the table code does to listening sockets. -/
inductive ListenIo
  /-- `listen_loopback(port)` and its result, `-1` or a descriptor. -/
  | listen (port : Int) (result : Int)
  | close (fd : Int)
  deriving DecidableEq, Repr

/-- The kernel's view: the open listening descriptors, each with the port it is bound to, and
    whether the engine ever closed a descriptor that was not open. -/
structure ListenWorld where
  sockets : List (Int × Int)
  badClose : Bool
  deriving DecidableEq, Repr

def ListenWorld.io (w : ListenWorld) : ListenIo → ListenWorld
  | .listen port fd => if fd < 0 then w else { w with sockets := w.sockets ++ [(fd, port)] }
  | .close fd =>
    if fd ∈ w.sockets.map Prod.fst then
      { w with sockets := w.sockets.filter (·.1 ≠ fd) }
    else { w with badClose := true }

def ListenWorld.ios (w : ListenWorld) (io : List ListenIo) : ListenWorld := io.foldl .io w

/-- `listen_loopback` returns -1 or a descriptor that is not open: not a listening socket, and
    not one of the `other` descriptors of the process. -/
def ListenFresh (other : Int → Prop) : ListenWorld → List ListenIo → Prop
  | _, [] => True
  | w, i :: io =>
    (∀ port fd, i = .listen port fd →
      fd = -1 ∨ (0 ≤ fd ∧ fd ∉ w.sockets.map Prod.fst ∧ ¬ other fd)) ∧
    ListenFresh other (w.io i) io

/-- The listening loop of `main`, given that every call succeeds: entry `i` gets descriptor
    `fds i`. -/
def startListening (fds : Nat → Int) (listeners : List Listener) : List Listener :=
  listeners.mapIdx fun i l => { l with fd := fds i }

/-- The calls of that loop. -/
def startIo (fds : Nat → Int) (listeners : List Listener) : List ListenIo :=
  listeners.mapIdx fun i l => .listen l.localPort (fds i)

/-! ## Reconfiguration -/

/-- The descriptor a port is already listening on, or -1. -/
def currentFd (listeners : List Listener) (port : Int) : Int :=
  match listeners.find? (·.localPort = port) with
  | some l => l.fd
  | none => -1

/-- The first loop of `reconfigure_listeners` from entry `i` on: the entries with their
    descriptors, or the port that could not be opened; `opened` holds the descriptors opened so
    far, which a failure closes again. -/
def openRequested (listeners : List Listener) (listen : Nat → Int) :
    Nat → List Int → List Listener → Except Int (List Listener) × List ListenIo
  | _, _, [] => (.ok [], [])
  | i, opened, r :: rs =>
    let fd := currentFd listeners r.localPort
    if fd < 0 then
      let fd := listen i
      if fd < 0 then
        (.error r.localPort, .listen r.localPort fd :: opened.map .close)
      else
        let (res, io) := openRequested listeners listen (i + 1) (opened ++ [fd]) rs
        (res.map ({ r with fd := fd } :: ·), .listen r.localPort fd :: io)
    else
      let (res, io) := openRequested listeners listen (i + 1) opened rs
      (res.map ({ r with fd := fd } :: ·), io)

/-- The second loop: close what the new table does not keep. -/
def closeDropped (listeners requested : List Listener) : List ListenIo :=
  (listeners.filter fun l => ! requested.any (·.fd = l.fd)).map fun l => .close l.fd

/-- `reconfigure_listeners`: the new table, or the port in `*failed_port`. -/
def reconfigureListeners (listeners : List Listener) (listen : Nat → Int)
    (requested : List Listener) : Except Int (List Listener) × List ListenIo :=
  match openRequested listeners listen 0 [] requested with
  | (.error port, io) => (.error port, io)
  | (.ok table, io) => (.ok table, io ++ closeDropped listeners table)

end PptpProxy
