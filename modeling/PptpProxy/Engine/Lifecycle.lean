/-
  The life of a slot as an automaton.

  The functions of `Engine.Connection` and `Engine.Request` branch on buffers, answers of lwIP and
  texts.  What they can do to a slot AND to the outside world is a short list: `Move` names each of
  these steps with the interactions it performs and the conditions under which it happens.  Every
  function is then shown ONCE to be a sequence of moves (`Moves`, in `Engine.Refine`), and each
  invariant of the engine (ownership, link gating, buffer bounds, byte streams) is proved over the
  moves only.

  A move may stop at a state the source passes through without naming it: a request that has
  found its target is in phase RESOLVING here even when the host is an address and the source goes
  straight to CONNECTING — `start_connection` overwrites the phase either way
  (`startConnection_phase`).
-/
import PptpProxy.Engine.Request

namespace PptpProxy

open CLib

/-! ## Vocabulary -/

/-- The slot still collects the client's request. -/
def ConnectionPhase.collecting : ConnectionPhase → Bool
  | .proxyHeader | .socksGreeting | .socksRequest => true
  | _ => false

/-- A collecting slot is in none of the later phases. -/
theorem ConnectionPhase.ne_of_collecting {p q : ConnectionPhase} (h : p.collecting = true)
    (hq : q.collecting = false) : p ≠ q := by
  rintro rfl
  rw [h] at hq
  cases hq

/-- The request is known: client bytes are for the remote. -/
def ConnectionPhase.relaying : ConnectionPhase → Bool
  | .resolving | .connecting | .streaming => true
  | _ => false

/-- A slot that relays is done collecting. -/
theorem ConnectionPhase.not_collecting {p : ConnectionPhase} (h : p.relaying = true) :
    p.collecting = false := by
  cases p with
  | proxyHeader => cases h
  | socksGreeting => cases h
  | socksRequest => cases h
  | _ => rfl

/-- While the slot collects, `feed_local` passes on what has come so far, if it has room. -/
theorem feedLocal_collecting {L : Lwip} {linkUp : Bool} {a : Answers} {c : Connection} {d : Bytes}
    (hphase : c.phase.collecting = true) (hlen : c.header.length + d.length < maxHeader) :
    feedLocal L linkUp a c d = feedHeader L linkUp a { c with header := c.header ++ d } := by
  have hearly : ¬ (c.phase = .streaming ∨ c.phase = .connecting ∨ c.phase = .resolving) := by
    rintro (hlate | hlate | hlate)
    · exact ConnectionPhase.ne_of_collecting hphase rfl hlate
    · exact ConnectionPhase.ne_of_collecting hphase rfl hlate
    · exact ConnectionPhase.ne_of_collecting hphase rfl hlate
  unfold feedLocal
  rw [if_neg hearly, if_neg (Nat.not_le.mpr hlen)]

/-- What `parse_authority` returns: all of a text without a colon, or the two sides of its last one. -/
theorem parseAuthority_cases {authority host : Bytes} {hostCapacity : Nat} {port defaultPort : Int}
    (h : parseAuthority authority hostCapacity defaultPort = some (host, port)) :
    64 ∉ authority ∧ 91 ∉ authority ∧ host ≠ [] ∧ host.length < hostCapacity ∧
    ((58 ∉ authority ∧ host = authority ∧ port = defaultPort) ∨
      ∃ k, strrchr authority 58 = some k ∧ host = authority.take k ∧
        authority = host ++ 58 :: authority.drop (k + 1) ∧
        strtol (authority.drop (k + 1)) = (port, []) ∧ 1 ≤ port ∧ port ≤ 65535) := by
  unfold parseAuthority at h
  dsimp only at h
  split at h
  · cases h
  · rename_i hok
    refine ⟨fun hat => hok (Or.inr (Or.inr (Or.inl (strchr_isSome.mpr hat)))),
      fun hbracket => hok (Or.inr (Or.inr (Or.inr (strchr_isSome.mpr hbracket)))), ?_⟩
    cases hcolon : strrchr authority 58 with
    | none =>
      rw [hcolon, Option.getD_none] at h hok
      obtain ⟨rfl, rfl⟩ := Prod.mk.inj (Option.some.inj h)
      rw [List.take_length]
      exact ⟨fun hnil => hok (Or.inl (List.length_eq_zero_iff.mpr hnil)), by omega,
        Or.inl ⟨not_mem_of_strrchr hcolon, rfl, rfl⟩⟩
    | some k =>
      rw [hcolon, Option.getD_some] at h hok
      dsimp only at h
      split at h
      · cases h
      · rename_i hport
        obtain ⟨rfl, rfl⟩ := Prod.mk.inj (Option.some.inj h)
        have hk := strrchr_lt hcolon
        have hlen : (authority.take k).length = k := by
          rw [List.length_take]
          omega
        have hrest : (strtol (authority.drop (k + 1))).2 = [] := by
          by_contra hne
          exact hport (Or.inl hne)
        refine ⟨fun hnil => ?_, by omega, Or.inr ⟨k, rfl, rfl, (strrchr_split hcolon).1,
          Prod.ext rfl hrest, by omega, by omega⟩⟩
        rw [hnil] at hlen
        exact hok (Or.inl hlen.symm)

/-- What an absolute-form request line asks for: the target and the line to send there. -/
structure OriginRequest where
  host : Bytes
  port : Int
  line : Bytes
  deriving DecidableEq, Repr

/-- The request line of a plain HTTP request, read the way `parse_http` reads it. -/
def originRequest (first : Bytes) : Option OriginRequest :=
  match scanRequestLine first with
  | none => none
  | some (method, uri, version) =>
    if ¬ ascii "HTTP/1." <+: version ∨ method = ascii "CONNECT" then none
    else
      match absoluteAuthority uri with
      | none => none
      | some (authority, slash) =>
        match parseAuthority authority 256 80, originPath slash with
        | some (host, port), some path =>
          (newFirst method path version).map fun line => ⟨host, port, line⟩
        | _, _ => none

/-- An `append_bytes` call whose `capacity - length` does not wrap around and which does not fail. -/
def Fits (length capacity count : Nat) : Prop :=
  length ≤ capacity ∧ ¬ count > sizeSub capacity length

/-- Only `append_bytes` calls, and all of them fit. -/
def AppendsOnly (io : List Io) : Prop :=
  ∀ i ∈ io, ∃ l k n, i = Io.appendBytes l k n ∧ Fits l k n

/-- An interaction that leaves every resource of the slot alone; lookups and allocations that came
    to nothing happen only while the link is up. -/
def Passing (up : Bool) : Io → Prop
  | .read _ _ | .countSent _ => True
  | .appendBytes l k n => Fits l k n
  | .tcpNew none => up = true
  | .dnsGethostbyname _ r => up = true ∧ r ≠ .inprogress
  | _ => False

/-- An interaction that leaves the slot as it is. -/
def Quiet (up : Bool) (c : Connection) : Io → Prop
  | .countSent _ => True
  | .tcpSndbuf p _ => c.tcp = some p
  | .tcpWrite p _ r => c.tcp = some p ∧ r ≠ .ok
  | .dnsGethostbyname _ r => up = true ∧ r ≠ .inprogress
  | _ => False

/-- `c'` is `c` after `close_connection`; the target fields do not matter any more. -/
structure Closed (c c' : Connection) : Prop where
  fd : c'.fd = -1
  tcp : c'.tcp = none
  phase : c'.phase = .connectionClosed
  resolving : c'.resolving = c.resolving
  header : c'.header = []
  toRemote : c'.toRemote = []
  toLocal : c'.toLocal = []

/-- The header in the slot names a target: the slot with that target, and with the bytes that are
    already for the remote in `to_remote`. -/
inductive Targets : Connection → List Io → Connection → Prop
  | connect {c : Connection} {io : List Io} {uri version host : Bytes} {port : Int} {n k : Nat}
      (hphase : c.phase = .proxyHeader) (hn : findSub crlf c.header = some n)
      (hscan : scanRequestLine (c.header.take n) = some (ascii "CONNECT", uri, version))
      (hauth : parseAuthority uri 256 443 = some (host, port))
      (hk : findSub crlfcrlf c.header = some k) :
      Targets c io { c with httpConnect := true, host := host, port := port,
                            toRemote := c.toRemote ++ c.header.drop (k + 4) }
  | origin {c : Connection} {n : Nat} {o : OriginRequest}
      (hphase : c.phase = .proxyHeader) (hn : findSub crlf c.header = some n) (hshort : n ≤ 2048)
      (hline : originRequest (c.header.take n) = some o) :
      Targets c [] { c with host := o.host, port := o.port,
                            toRemote := o.line ++ c.header.drop (n + 2) }
  | socks {c : Connection} {io : List Io} {host : Bytes} {port : Int} {n : Nat}
      (hphase : c.phase = .socksRequest)
      (hdecode : decodeSocksRequest c.header = .target host port n) :
      Targets c io { c with host := host, port := port, header := [],
                            toRemote := c.toRemote ++ c.header.drop n }

/-- Length of a SOCKS greeting, from its method count. -/
def greetingLength (header : Bytes) : Nat := 2 + (header.getD 1 0).toNat

/-! ## The moves -/

/-- One step in the life of a slot, with its interactions; `up` is the state of the link. -/
inductive Move (up : Bool) : Connection → List Io → Connection → Prop
  | quiet {c : Connection} {io : List Io} (h : ∀ i ∈ io, Quiet up c i) : Move up c io c
  /-- A client of an HTTP or SOCKS listener gets the slot. -/
  | accepted {c : Connection} {fd : Int} {kind : ListenerKind} (hfree : c.fd < 0)
      (hidle : c.resolving = false) (hkind : kind ≠ .forward) :
      Move up c [.accept fd] (Connection.accepted fd kind)
  /-- A client of a forward gets the slot, with the listener's target. -/
  | acceptedForward {c : Connection} {fd : Int} {host : Bytes} {port : Int} (hup : up = true)
      (hfree : c.fd < 0) (hidle : c.resolving = false) :
      Move up c [.accept fd]
        { Connection.accepted fd .forward with phase := .resolving, host := host, port := port }
  /-- A client gets the slot and is turned away at once. -/
  | acceptClosed {c c' : Connection} {fd : Int} (hfree : c.fd < 0) (hidle : c.resolving = false)
      (h : Closed c c') : Move up c [.accept fd, .close fd] c'
  | readHeader {c : Connection} {d : Bytes} (hfd : 0 ≤ c.fd) (hphase : c.phase.collecting = true)
      (hlen : (c.header ++ d).length < maxHeader) :
      Move up c [.read c.fd d] { c with header := c.header ++ d }
  | greeted {c : Connection} {io : List Io} (hfd : 0 ≤ c.fd) (hphase : c.phase = .socksGreeting)
      (htwo : 2 ≤ c.header.length) (hlen : greetingLength c.header ≤ c.header.length)
      (hroom : (c.toLocal ++ greetingOk).length ≤ bufferSize)
      (hio : AppendsOnly io) :
      Move up c io { c with toLocal := c.toLocal ++ greetingOk, phase := .socksRequest,
                            header := c.header.drop (greetingLength c.header) }
  | targeted {c c' : Connection} {io : List Io} (hup : up = true) (hfd : 0 ≤ c.fd)
      (htarget : Targets c io c') (hroom : c'.toRemote.length ≤ bufferSize)
      (hio : AppendsOnly io) :
      Move up c io { c' with phase := .resolving }
  /-- A lookup is under way. -/
  | asked {c : Connection} (hup : up = true) (hfd : 0 ≤ c.fd) (hphase : c.phase = .resolving)
      (hidle : c.resolving = false) :
      Move up c [.dnsGethostbyname c.host .inprogress] { c with resolving := true }
  /-- lwIP answers the lookup. -/
  | answered {c : Connection} {epoch : Nat} :
      Move up c [.dnsFound epoch] { c with resolving := false }
  | opened {c : Connection} {p : PcbId} {address : IpAddr} (hup : up = true) (hfd : 0 ≤ c.fd)
      (hphase : c.phase = .resolving) (hidle : c.resolving = false) :
      Move up c (installCallbacks p ++ [.tcpConnect p address c.port .ok])
        { c with tcp := some p, phase := .connecting }
  | openFailed {c c' : Connection} {p : PcbId} {address : IpAddr} {e : Err} (hup : up = true)
      (hfd : 0 ≤ c.fd) (hphase : c.phase = .resolving) (hidle : c.resolving = false)
      (he : e ≠ .ok) (h : Closed c c') :
      Move up c (installCallbacks p ++ [.tcpConnect p address c.port e] ++
        closeIo { c with tcp := some p, phase := .connecting }) c'
  | connected {c : Connection} {p : PcbId} {io : List Io} (htcp : c.tcp = some p)
      (hphase : c.phase = .connecting)
      (hroom : (c.toLocal ++ (connectedReply c).getD []).length ≤ bufferSize)
      (hio : AppendsOnly io) :
      Move up c (.connected p :: io)
        { c with phase := .streaming, toLocal := c.toLocal ++ (connectedReply c).getD [] }
  | flushed {c : Connection} {p : PcbId} {space count : Nat} (htcp : c.tcp = some p)
      (hphase : c.phase = .streaming) :
      Move up c [.tcpSndbuf p space, .tcpWrite p (c.toRemote.take count) .ok, .tcpOutput p]
        { c with toRemote := c.toRemote.drop count }
  | received {c : Connection} {p : PcbId} {d : Bytes} (htcp : c.tcp = some p)
      (hphase : c.phase = .streaming) (hroom : (c.toLocal ++ d).length ≤ bufferSize) :
      Move up c [.pbufCopyPartial d, .countReceived d.length, .tcpRecved p d.length]
        { c with toLocal := c.toLocal ++ d }
  /-- The remote sent FIN; a `tcp_close` that fails is followed by `tcp_abort`. -/
  | finished {c : Connection} {p : PcbId} {r : Err} (htcp : c.tcp = some p)
      (hphase : c.phase = .streaming) :
      Move up c (clearCallbacks p ++ .tcpClose p r :: (if r = .ok then [] else [.tcpAbort p]))
        { c with remoteClosed := true, tcp := none }
  | errored {c : Connection} {p : PcbId} (htcp : c.tcp = some p) :
      Move up c [.errored p] { c with tcp := none }
  | drained {c : Connection} {n : Nat} (hfd : 0 ≤ c.fd) :
      Move up c [.write c.fd (c.toLocal.take n)] { c with toLocal := c.toLocal.drop n }
  | readStream {c : Connection} {d : Bytes} {io : List Io} (hfd : 0 ≤ c.fd)
      (hphase : c.phase.relaying = true) (hroom : (c.toRemote ++ d).length ≤ bufferSize)
      (hio : AppendsOnly io) :
      Move up c (.read c.fd d :: io) { c with toRemote := c.toRemote ++ d }
  | closed {c c' : Connection} {pre : List Io} (hpre : ∀ i ∈ pre, Passing up i)
      (h : Closed c c') : Move up c (pre ++ closeIo c) c'

/-- A sequence of moves. -/
inductive Moves (up : Bool) : Connection → List Io → Connection → Prop
  | nil {c : Connection} : Moves up c [] c
  | cons {c₀ c₁ c₂ : Connection} {io io' : List Io} (h : Move up c₀ io c₁)
      (hs : Moves up c₁ io' c₂) : Moves up c₀ (io ++ io') c₂

section

variable {up : Bool} {c c' c'' : Connection} {io io' : List Io}

theorem Move.one (h : Move up c io c') : Moves up c io c' := by
  have := Moves.cons h .nil
  rwa [List.append_nil] at this

theorem Moves.append (h : Moves up c io c') (h' : Moves up c' io' c'') :
    Moves up c (io ++ io') c'' := by
  induction h with
  | nil => exact h'
  | cons hm _ ih =>
    rw [List.append_assoc]
    exact .cons hm (ih h')

end

theorem appendsOnly_nil : AppendsOnly [] := fun _ h => by cases h

theorem appendsOnly_one {b src : Bytes} (h : b.length + src.length ≤ bufferSize) :
    AppendsOnly [appendIo b bufferSize src] := by
  intro i hi
  obtain rfl := List.mem_singleton.mp hi
  refine ⟨_, _, _, rfl, by omega, ?_⟩
  rw [sizeSub_of_le (by omega) (by decide)]
  omega

theorem AppendsOnly.passing {up : Bool} {io : List Io} (h : AppendsOnly io) :
    ∀ i ∈ io, Passing up i := by
  intro i hi
  obtain ⟨l, k, n, rfl, hfit⟩ := h i hi
  exact hfit

/-! ## What a function asks of the environment -/

/-- An interaction in which the environment has no say. -/
def Calm : Io → Prop
  | .accept _ | .read _ _ | .tcpNew (some _) | .dnsFound _ => False
  | _ => True

/-- The interactions take at most the pcb `new` from lwIP, and that once; the rest is calm. -/
inductive Allocates (new : Option PcbId) : List Io → Prop
  | calm {io : List Io} (h : ∀ x ∈ io, Calm x) : Allocates new io
  | one {pre post : List Io} {p : PcbId} (hpre : ∀ x ∈ pre, Calm x) (hp : new = some p)
      (hpost : ∀ x ∈ post, Calm x) : Allocates new (pre ++ .tcpNew (some p) :: post)

theorem calm_nil : ∀ x ∈ ([] : List Io), Calm x := fun _ h => by cases h

theorem calm_cons {x : Io} {io : List Io} (hx : Calm x) (h : ∀ y ∈ io, Calm y) :
    ∀ y ∈ x :: io, Calm y := by
  intro y hy
  rcases List.mem_cons.mp hy with rfl | hy
  · exact hx
  · exact h y hy

theorem calm_append {io io' : List Io} (h : ∀ x ∈ io, Calm x) (h' : ∀ x ∈ io', Calm x) :
    ∀ x ∈ io ++ io', Calm x := by
  intro x hx
  rcases List.mem_append.mp hx with hx | hx
  · exact h x hx
  · exact h' x hx

theorem Allocates.nil {new : Option PcbId} : Allocates new [] := .calm calm_nil

theorem Allocates.head {new : Option PcbId} {post : List Io} {p : PcbId} (hp : new = some p)
    (hpost : ∀ x ∈ post, Calm x) : Allocates new (.tcpNew (some p) :: post) :=
  List.nil_append (.tcpNew (some p) :: post) ▸ .one calm_nil hp hpost

theorem Allocates.prepend {new : Option PcbId} {pre io : List Io} (h : Allocates new io)
    (hpre : ∀ x ∈ pre, Calm x) : Allocates new (pre ++ io) := by
  cases h with
  | calm h => exact .calm (calm_append hpre h)
  | one h1 hp h2 =>
    rw [← List.append_assoc]
    exact .one (calm_append hpre h1) hp h2

/-- What holds of every `append_bytes` call. -/
theorem AppendsOnly.all {io : List Io} {P : Io → Prop} (h : AppendsOnly io)
    (hP : ∀ l k n, P (.appendBytes l k n)) : ∀ x ∈ io, P x := by
  intro x hx
  obtain ⟨l, k, n, rfl, -⟩ := h x hx
  exact hP l k n

theorem AppendsOnly.calm {io : List Io} (h : AppendsOnly io) : ∀ x ∈ io, Calm x :=
  h.all fun _ _ _ => trivial

theorem clearCallbacks_calm (p : PcbId) : ∀ x ∈ clearCallbacks p, Calm x := by
  simp [clearCallbacks, Calm]

/-- What holds of everything `close_connection` can do. -/
theorem closeIo_all {P : Io → Prop} (c : Connection) (hclose : ∀ fd, P (.close fd))
    (hclear : ∀ p, ∀ x ∈ clearCallbacks p, P x) (habort : ∀ p, P (.tcpAbort p)) :
    ∀ x ∈ closeIo c, P x := by
  unfold closeIo
  refine List.forall_mem_append.mpr ⟨?_, ?_⟩
  · split
    · exact List.forall_mem_singleton.mpr (hclose c.fd)
    · exact fun x hx => (by cases hx)
  · split
    · rename_i p _
      exact List.forall_mem_append.mpr ⟨hclear p, List.forall_mem_singleton.mpr (habort p)⟩
    · exact fun x hx => (by cases hx)

theorem closeIo_calm (c : Connection) : ∀ x ∈ closeIo c, Calm x :=
  closeIo_all c (fun _ => trivial) clearCallbacks_calm (fun _ => trivial)

end PptpProxy
