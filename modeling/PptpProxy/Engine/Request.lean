/-
  The client side of a slot: the request parsers of `proxy-engine/main.c` (`set_target`,
  `parse_authority`, `parse_http`, `parse_socks_request`), `feed_local`, which runs them over
  whatever the client has sent so far, and `flush_local`.

  A parser returns the slot, the interactions and the C `bool`.  The fields it has set before it
  gives up stay set (`http_connect`, the target), as in the source: the caller then closes the
  connection.
-/
import PptpProxy.Engine.Connection

namespace PptpProxy

open CLib

def crlf : Bytes := [13, 10]
def crlfcrlf : Bytes := [13, 10, 13, 10]

/-- `valid_port`. -/
def validPort (value : Int) : Bool := decide (0 < value ∧ value ≤ 65535)

/-- `set_target`; `host` is a C string. -/
def setTarget (c : Connection) (host : Bytes) (port : Int) : Option Connection :=
  if host.length = 0 ∨ host.length ≥ 256 ∨ validPort port = false then none
  else some { c with host := host, port := port }

/-- `parse_authority`: the host in front of the LAST colon and the port behind it. -/
def parseAuthority (authority : Bytes) (hostCapacity : Nat) (defaultPort : Int) :
    Option (Bytes × Int) :=
  let colon := strrchr authority 58
  let hostLen := colon.getD authority.length
  if hostLen = 0 ∨ hostLen ≥ hostCapacity ∨ (strchr authority 64).isSome = true ∨
      (strchr authority 91).isSome = true then none
  else
    match colon with
    | none => some (authority.take hostLen, defaultPort)
    | some k =>
      let (parsed, rest) := strtol (authority.drop (k + 1))
      if rest ≠ [] ∨ parsed < 1 ∨ parsed > 65535 then none
      else some (authority.take hostLen, parsed)

/-- `sscanf(first, "%19s %2047s %19s", method, uri, version)` when it fills all three. -/
def scanRequestLine (first : Bytes) : Option (Bytes × Bytes × Bytes) :=
  match scanToken 19 first with
  | none => none
  | some (method, rest) =>
    match scanToken 2047 rest with
    | none => none
    | some (uri, rest) =>
      match scanToken 19 rest with
      | none => none
      | some (version, _) => some (method, uri, version)

/-- The CONNECT branch of `parse_http`, up to `start_connection`. -/
def parseConnect (uri : Bytes) (c : Connection) : Connection × List Io × Bool :=
  match parseAuthority uri 256 443 with
  | none => (c, [], false)
  | some (host, port) =>
    let c := { c with httpConnect := true }
    match setTarget c host port with
    | none => (c, [], false)
    | some c =>
      match strstr (cstr c.header) crlfcrlf with
      | none => (c, [], false)
      | some endOfHeaders =>
        let early := c.header.drop (endOfHeaders + 4)
        if c.header.length > endOfHeaders + 4 then
          match appendBytes c.toRemote bufferSize early with
          | none => (c, [appendIo c.toRemote bufferSize early], false)
          | some r => ({ c with toRemote := r }, [appendIo c.toRemote bufferSize early], true)
        else (c, [], true)

/-- The authority of an absolute `http://` URI and, when there is one, the rest of the URI from
    the first `/` or `?` on. -/
def absoluteAuthority (uri : Bytes) : Option (Bytes × Option Bytes) :=
  if ¬ ascii "http://" <+: uri then none
  else
    let authority := uri.drop 7
    let slash := strpbrk authority (ascii "/?")
    let authorityLen := slash.getD authority.length
    if authorityLen = 0 ∨ authorityLen ≥ 256 then none
    else some (authority.take authorityLen, slash.map authority.drop)

/-- The path `parse_http` forwards: `/` when the URI has none, and a `/` in front of a bare query
    (through the 2048-byte `query_path`). -/
def originPath : Option Bytes → Option Bytes
  | none => some (ascii "/")
  | some slash =>
    if slash.head? = some 63 then
      if (47 :: slash).length ≥ 2048 then none else some (47 :: slash)
    else some slash

/-- The rewritten request line `new_first`, unless it overflows its 4096 bytes. -/
def newFirst (method path version : Bytes) : Option Bytes :=
  let line := method ++ [32] ++ path ++ [32] ++ version ++ crlf
  if line.length ≥ 4096 then none else some line

/-- The absolute-form branch of `parse_http`, up to `start_connection`. -/
def parseAbsolute (method uri version : Bytes) (firstLen : Nat) (c : Connection) :
    Connection × List Io × Bool :=
  match absoluteAuthority uri with
  | none => (c, [], false)
  | some (authority, slash) =>
    match parseAuthority authority 256 80 with
    | none => (c, [], false)
    | some (host, port) =>
      match setTarget c host port with
      | none => (c, [], false)
      | some c =>
        match originPath slash with
        | none => (c, [], false)
        | some path =>
          match newFirst method path version with
          | none => (c, [], false)
          | some line =>
            let rest := c.header.drop (firstLen + 2)
            if line.length + rest.length > bufferSize then (c, [], false)
            else ({ c with toRemote := line ++ rest }, [], true)

/-- `parse_http` up to `start_connection`: the target and the first bytes for the remote. -/
def parseHttpHead (c : Connection) : Connection × List Io × Bool :=
  if c.header.length ≥ maxHeader then (c, [], false)
  else
    match strstr (cstr c.header) crlf with
    | none => (c, [], false)
    | some firstLen =>
      if firstLen > 2048 then (c, [], false)
      else
        -- no NUL in front of the hit, so the copy in `first` is the whole line
        match scanRequestLine (c.header.take firstLen) with
        | none => (c, [], false)
        | some (method, uri, version) =>
          if ¬ ascii "HTTP/1." <+: version then (c, [], false)
          else if method = ascii "CONNECT" then parseConnect uri c
          else parseAbsolute method uri version firstLen c

/-- The common end of both parsers: `start_connection(c); return true`. -/
def thenStart (L : Lwip) (linkUp : Bool) (a : Answers) :
    Connection × List Io × Bool → Connection × List Io × Bool
  | (c, io, true) =>
    let (c, io') := startConnection L linkUp a c
    (c, io ++ io', true)
  | (c, io, false) => (c, io, false)

/-- `parse_http`. -/
def parseHttp (L : Lwip) (linkUp : Bool) (a : Answers) (c : Connection) :
    Connection × List Io × Bool :=
  thenStart L linkUp a (parseHttpHead c)

/-- `inet_ntop(AF_INET, ...)` of four bytes. -/
def inetNtop (b : Bytes) : Bytes :=
  [46].intercalate (b.map fun x => decimal x.toNat)

/-- What a complete or incomplete SOCKS request says. -/
inductive SocksRequest
  /-- More bytes are needed. -/
  | wait
  | bad
  /-- The host, the port and the length of the request. -/
  | target (host : Bytes) (port : Int) (length : Nat)
  deriving DecidableEq, Repr

/-- The decoding part of `parse_socks_request`; `b` is `header[0..header_len)`. -/
def decodeSocksRequest (b : Bytes) : SocksRequest :=
  match b with
  | b0 :: b1 :: b2 :: b3 :: rest =>
    if b0 ≠ 5 ∨ b1 ≠ 1 ∨ b2 ≠ 0 then .bad
    else if b3 = 1 then
      match rest with
      | a0 :: a1 :: a2 :: a3 :: p0 :: p1 :: _ =>
        .target (inetNtop [a0, a1, a2, a3]) (p0.toNat * 256 + p1.toNat : Nat) 10
      | _ => .wait
    else if b3 = 3 then
      match rest with
      | [] => .wait
      | n :: rest =>
        if n = 0 then .bad
        else if rest.length < n.toNat + 2 then .wait
        else
          -- `host` is a C string: a NUL among the bytes ends it
          .target (cstr (rest.take n.toNat))
            ((rest.getD n.toNat 0).toNat * 256 + (rest.getD (n.toNat + 1) 0).toNat : Nat)
            (5 + n.toNat + 2)
    else .bad
  | _ => .wait

/-- `parse_socks_request`. -/
def parseSocksRequest (L : Lwip) (linkUp : Bool) (a : Answers) (c : Connection) :
    Connection × List Io × Bool :=
  match decodeSocksRequest c.header with
  | .wait => (c, [], true)
  | .bad => (c, [], false)
  | .target host port length =>
    match setTarget c host port with
    | none => (c, [], false)
    | some c =>
      let early := c.header.drop length
      if early = [] then thenStart L linkUp a ({ c with header := [] }, [], true)
      else
        match appendBytes c.toRemote bufferSize early with
        | none => (c, [appendIo c.toRemote bufferSize early], false)
        | some r =>
          thenStart L linkUp a
            ({ c with toRemote := r, header := [] }, [appendIo c.toRemote bufferSize early], true)

/-- The reply to a SOCKS greeting. -/
def greetingOk : Bytes := [5, 0]

/-- The greeting branch of `feed_local`: `none` when the greeting is not complete yet. -/
def feedGreeting (c : Connection) : Option (Connection × List Io × Bool) :=
  if c.header.length < 2 then none
  else
    let greetingLen := 2 + (c.header.getD 1 0).toNat
    if greetingLen > c.header.length then none
    else
      let noAuth := ((c.header.take greetingLen).drop 2).contains 0
      if c.header.getD 0 0 ≠ 5 ∨ noAuth = false then some (c, [], false)
      else
        match localReply c greetingOk with
        | none => some (c, [appendIo c.toLocal bufferSize greetingOk], false)
        | some c' =>
          some ({ c' with header := c.header.drop greetingLen, phase := .socksRequest },
            [appendIo c.toLocal bufferSize greetingOk], true)

/-- `feed_local` while the slot relays: what it reads goes into `to_remote`. -/
def feedStream (c : Connection) (data : Bytes) : Connection × List Io × Bool :=
  match appendBytes c.toRemote bufferSize data with
  | none => (c, [appendIo c.toRemote bufferSize data], false)
  | some r => ({ c with toRemote := r }, [appendIo c.toRemote bufferSize data], true)

/-- `feed_local` behind the header capacity check, the new bytes already in `header`. -/
def feedHeader (L : Lwip) (linkUp : Bool) (a : Answers) (c : Connection) :
    Connection × List Io × Bool :=
  match c.phase with
  | .socksGreeting =>
    match feedGreeting c with
    | none => (c, [], true)
    | some (c, io, false) => (c, io, false)
    | some (c, io, true) =>
      let (c, io', ok) := parseSocksRequest L linkUp a c
      (c, io ++ io', ok)
  | .socksRequest => parseSocksRequest L linkUp a c
  | .proxyHeader =>
    if (strstr (cstr c.header) crlfcrlf).isSome then parseHttp L linkUp a c else (c, [], true)
  | _ => (c, [], true)

/-- `feed_local`. -/
def feedLocal (L : Lwip) (linkUp : Bool) (a : Answers) (c : Connection) (data : Bytes) :
    Connection × List Io × Bool :=
  if c.phase = .streaming ∨ c.phase = .connecting ∨ c.phase = .resolving then feedStream c data
  else if c.header.length + data.length ≥ maxHeader then (c, [], false)
  else feedHeader L linkUp a { c with header := c.header ++ data }

/-- The result of `write(c->fd, ...)`: how many bytes it took, a retryable error (`EAGAIN`,
    `EINTR`, or nothing taken), or another error. -/
inductive WriteResult
  | wrote (n : Nat)
  | retry
  | failed
  deriving DecidableEq, Repr

/-- `flush_local`. -/
def flushLocal (w : WriteResult) (c : Connection) : Connection × List Io :=
  if c.fd < 0 ∨ c.toLocal = [] then (c, [])
  else
    match w with
    | .wrote n =>
      let c' := { c with toLocal := c.toLocal.drop n }
      let wrote := Io.write c.fd (c.toLocal.take n)
      if c'.remoteClosed = true ∧ c'.toLocal = [] then
        let (c'', io) := closeConnection c'
        (c'', wrote :: io)
      else (c', [wrote])
    | .retry => (c, [])
    | .failed => closeConnection c

/-- The result of `read(c->fd, ...)`. -/
inductive ReadResult
  | data (d : Bytes)
  | eof
  | retry
  | failed
  deriving DecidableEq, Repr

/-- The client half of a turn of the main loop: what `main` does with the result of `read`. -/
def readClient (L : Lwip) (linkUp : Bool) (a : Answers) (r : ReadResult) (c : Connection) :
    Connection × List Io :=
  match r with
  | .data d =>
    let (c', io, ok) := feedLocal L linkUp a c d
    if ok = false then
      let (c'', io') := closeConnection c'
      (c'', .read c.fd d :: io ++ io')
    else (c', .read c.fd d :: io)
  | .eof => closeConnection c
  | .retry => (c, [])
  | .failed => closeConnection c

/-- The slot `accept_client` sets up for a new descriptor (`memset`, then the fields). -/
def Connection.accepted (fd : Int) (kind : ListenerKind) : Connection :=
  { Connection.initial with
    fd := fd
    kind := kind
    phase := if kind = .socksProxy then .socksGreeting else .proxyHeader }

/-- `accept_client` once it has a descriptor and a free slot; `remoteHost` and `remotePort` are
    the listener's. -/
def acceptSlot (L : Lwip) (linkUp : Bool) (a : Answers) (fd : Int) (kind : ListenerKind)
    (remoteHost : Bytes) (remotePort : Int) : Connection × List Io :=
  let c := Connection.accepted fd kind
  if kind = .forward then
    match setTarget c remoteHost remotePort with
    | none =>
      let (c, io) := closeConnection c
      (c, .accept fd :: io)
    | some c =>
      let (c, io) := startConnection L linkUp a c
      (c, .accept fd :: io)
  else (c, [.accept fd])

end PptpProxy
