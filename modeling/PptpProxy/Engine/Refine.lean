/-
  Every function of the source is a sequence of moves.

  Each function gets two lemmas: `_moves` (what it does to its slot is a sequence of moves of
  `Engine.Lifecycle`) and `_calm` or `_allocates` (what it asks of the environment on the way).  The
  hypotheses say in which state the engine calls it; `Engine.Run` shows that it calls it in no
  other.  The failing branches of `append_bytes` are refuted HERE: a move records only calls that fit.
-/
import PptpProxy.Engine.Lifecycle

namespace PptpProxy

open CLib

/-! ## Teardown and relay -/

section

variable {up : Bool} {c : Connection}

/-- `close_connection` on a slot that differs from `c` only in the target, the request and the
    buffers still closes `c`. -/
theorem Move.close (c₁ : Connection) (pre : List Io) (hpre : ∀ i ∈ pre, Passing up i)
    (hfd : c₁.fd = c.fd) (htcp : c₁.tcp = c.tcp) (hres : c₁.resolving = c.resolving) :
    Move up c (pre ++ (closeConnection c₁).2) (closeConnection c₁).1 := by
  have hio : (closeConnection c₁).2 = closeIo c := by
    show closeIo c₁ = closeIo c
    unfold closeIo
    rw [hfd, htcp]
  rw [hio]
  exact .closed hpre ⟨rfl, rfl, rfl, hres, rfl, rfl, rfl⟩

theorem closeConnection_moves (c : Connection) :
    Moves up c (closeConnection c).2 (closeConnection c).1 :=
  (Move.close c [] (fun _ h => by cases h) rfl rfl rfl).one

theorem appendBytes_of_room {b src : Bytes} {capacity : Nat}
    (h : b.length + src.length ≤ capacity) (hcap : capacity < 2 ^ 64) :
    appendBytes b capacity src = some (b ++ src) := by
  unfold appendBytes
  rw [sizeSub_of_le (by omega) hcap, if_neg (by omega)]

theorem flushRemote_moves (a : Answers) (c : Connection) :
    Moves up c (flushRemote a c).2 (flushRemote a c).1 := by
  unfold flushRemote
  split
  · exact .nil
  · rename_i p htcp
    split
    · exact .nil
    · rename_i hphase
      have hstreaming : c.phase = .streaming := by
        by_contra hne
        exact hphase (Or.inl hne)
      dsimp only
      split
      · refine (Move.quiet ?_).one
        intro i hi
        obtain rfl := List.mem_singleton.mp hi
        exact htcp
      · split
        · rename_i hw
          refine (Move.quiet ?_).one
          intro i hi
          rcases List.mem_cons.mp hi with rfl | hi
          · exact htcp
          · obtain rfl := List.mem_singleton.mp hi
            exact ⟨htcp, hw⟩
        · exact (Move.flushed htcp hstreaming).one

/-- What holds of everything `flush_remote` can do. -/
theorem flushRemote_all {P : Io → Prop} (a : Answers) (c : Connection)
    (hspace : ∀ p n, P (.tcpSndbuf p n)) (hwrite : ∀ p d r, P (.tcpWrite p d r))
    (houtput : ∀ p, P (.tcpOutput p)) : ∀ x ∈ (flushRemote a c).2, P x := by
  unfold flushRemote
  split
  · exact fun x hx => (by cases hx)
  · split
    · exact fun x hx => (by cases hx)
    · dsimp only
      split
      · simp [hspace]
      · split <;> simp [hspace, hwrite, houtput]

theorem flushRemote_calm (a : Answers) (c : Connection) : ∀ x ∈ (flushRemote a c).2, Calm x :=
  flushRemote_all a c (fun _ _ => trivial) (fun _ _ _ => trivial) (fun _ => trivial)

theorem onTcpSent_moves (a : Answers) (n : Nat) (c : Connection) :
    Moves up c (onTcpSent a n c).2.1 (onTcpSent a n c).1 := by
  have hcount : Move up c [.countSent n] c :=
    .quiet fun i hi => by obtain rfl := List.mem_singleton.mp hi; exact trivial
  exact .cons hcount (flushRemote_moves a c)

theorem onTcpPoll_moves (a : Answers) (c : Connection) :
    Moves up c (onTcpPoll a c).2.1 (onTcpPoll a c).1 :=
  flushRemote_moves a c

theorem onTcpError_moves {p : PcbId} (htcp : c.tcp = some p) :
    Moves up c (.errored p :: (onTcpError c).2) (onTcpError c).1 :=
  .cons (.errored htcp) (closeConnection_moves _)

theorem onTcpError_calm (p : PcbId) (c : Connection) :
    ∀ x ∈ .errored p :: (onTcpError c).2, Calm x :=
  calm_cons trivial (closeIo_calm _)

/-- What FIN does to the pcb; a `tcp_close` that fails is followed by `tcp_abort`. -/
def finIo (p : PcbId) (r : Err) : List Io :=
  clearCallbacks p ++ Io.tcpClose p r :: (if r = .ok then [] else [.tcpAbort p])

/-- What FIN does to the slot: it lets go of the pcb, and is closed when nothing is left for the
    client. -/
def letGo (c : Connection) : Connection × List Io :=
  if c.toLocal = [] then closeConnection { c with remoteClosed := true, tcp := none }
  else ({ c with remoteClosed := true, tcp := none }, [])

theorem onTcpFin_eq (a : Answers) (p : PcbId) (c : Connection) : onTcpFin a p c =
    ((letGo c).1, finIo p a.tcpClose ++ (letGo c).2, if a.tcpClose = .ok then .ok else .abrt) := by
  unfold onTcpFin finIo letGo
  dsimp only
  by_cases hr : a.tcpClose = .ok
  · rw [if_neg (not_not.mpr hr), if_pos hr, if_pos hr, hr]
  · rw [if_pos hr, if_neg hr, if_neg hr]

theorem finIo_all {P : Io → Prop} {p : PcbId} {r : Err} (hclear : ∀ x ∈ clearCallbacks p, P x)
    (hclose : P (.tcpClose p r)) (habort : P (.tcpAbort p)) : ∀ x ∈ finIo p r, P x := by
  refine List.forall_mem_append.mpr ⟨hclear, List.forall_mem_cons.mpr ⟨hclose, ?_⟩⟩
  split
  · exact fun x hx => (by cases hx)
  · exact List.forall_mem_singleton.mpr habort

/-- There is no pcb left to abort. -/
theorem letGo_all {P : Io → Prop} {c : Connection} (hclose : P (.close c.fd)) :
    ∀ x ∈ (letGo c).2, P x := by
  have hclosed : ∀ x ∈ closeIo { c with remoteClosed := true, tcp := none }, P x := by
    refine List.forall_mem_append.mpr ⟨?_, fun x hx => (by cases hx)⟩
    split
    · exact List.forall_mem_singleton.mpr hclose
    · exact fun x hx => (by cases hx)
  unfold letGo
  split
  · exact hclosed
  · exact fun x hx => (by cases hx)

theorem letGo_moves (c : Connection) :
    Moves up { c with remoteClosed := true, tcp := none } (letGo c).2 (letGo c).1 := by
  unfold letGo
  split
  · exact closeConnection_moves _
  · exact .nil

theorem onTcpReceive_moves {p : PcbId} (a : Answers) (payload : Option Bytes)
    (htcp : c.tcp = some p) (hphase : c.phase = .streaming) (hroom : c.toLocal.length ≤ bufferSize) :
    Moves up c (onTcpReceive a p payload .ok c).2.1 (onTcpReceive a p payload .ok c).1 := by
  cases payload with
  | some d =>
    simp only [onTcpReceive, ne_eq, not_true_eq_false, if_false]
    rw [sizeSub_of_le hroom (by decide)]
    split
    · exact .nil
    · refine (Move.received htcp hphase ?_).one
      rw [List.length_append]
      omega
  | none =>
    show Moves up c (onTcpFin a p c).2.1 (onTcpFin a p c).1
    rw [onTcpFin_eq]
    exact .cons (.finished htcp hphase) (letGo_moves c)

theorem onTcpReceive_calm (a : Answers) (p : PcbId) (payload : Option Bytes) (c : Connection) :
    ∀ x ∈ (onTcpReceive a p payload .ok c).2.1, Calm x := by
  cases payload with
  | some d =>
    simp only [onTcpReceive, ne_eq, not_true_eq_false, if_false]
    split
    · exact calm_nil
    · simp [Calm]
  | none =>
    show ∀ x ∈ (onTcpFin a p c).2.1, Calm x
    rw [onTcpFin_eq]
    exact calm_append (finIo_all (clearCallbacks_calm p) trivial trivial) (letGo_all trivial)

theorem connectedReply_length (c : Connection) : ((connectedReply c).getD []).length ≤ 39 := by
  unfold connectedReply
  split
  · decide
  · split <;> decide

theorem onTcpConnected_moves {p : PcbId} (a : Answers) (htcp : c.tcp = some p)
    (hphase : c.phase = .connecting) (hroom : c.toLocal.length + 39 ≤ bufferSize) :
    Moves up c (.connected p :: (onTcpConnected a .ok c).2.1) (onTcpConnected a .ok c).1 := by
  have hlen := connectedReply_length c
  simp only [onTcpConnected, ne_eq, not_true_eq_false, if_false]
  have hreply : connectedReply { c with phase := .streaming } = connectedReply c := rfl
  rw [hreply]
  cases hr : connectedReply c with
  | none =>
    have hm : Move up c [.connected p] _ :=
      .connected htcp hphase (by simp [hr]; omega) appendsOnly_nil
    rw [hr] at hm
    simp only [Option.getD_none, List.append_nil] at hm
    exact .cons hm (flushRemote_moves a _)
  | some reply =>
    rw [hr] at hlen
    simp only [Option.getD_some] at hlen
    have happ : localReply { c with phase := .streaming } reply
        = some { c with phase := .streaming, toLocal := c.toLocal ++ reply } := by
      show (appendBytes c.toLocal bufferSize reply).map _ = _
      rw [appendBytes_of_room (by omega) (by decide)]
      rfl
    dsimp only
    rw [happ]
    have hm : Move up c [.connected p, appendIo c.toLocal bufferSize reply] _ :=
      .connected htcp hphase
      (by rw [hr, List.length_append]; simp only [Option.getD_some]; omega)
      (appendsOnly_one (by omega))
    rw [hr] at hm
    exact .cons hm (flushRemote_moves a _)

theorem onTcpConnected_calm (a : Answers) (err : Err) (c : Connection) :
    ∀ x ∈ (onTcpConnected a err c).2.1, Calm x := by
  unfold onTcpConnected
  split
  · exact closeIo_calm c
  · dsimp only
    split
    · exact flushRemote_calm a _
    · split
      · exact calm_cons trivial (closeIo_calm _)
      · exact calm_cons trivial (flushRemote_calm a _)

theorem flushLocal_moves (w : WriteResult) (c : Connection) :
    Moves up c (flushLocal w c).2 (flushLocal w c).1 := by
  unfold flushLocal
  split
  · exact .nil
  · rename_i hfd
    have hfd' : 0 ≤ c.fd := by
      by_contra hneg
      exact hfd (Or.inl (by omega))
    cases w with
    | wrote n =>
      dsimp only
      split
      · exact .cons (.drained hfd') (closeConnection_moves _)
      · exact (Move.drained hfd').one
    | retry => exact .nil
    | failed => exact closeConnection_moves c

theorem flushLocal_calm (w : WriteResult) (c : Connection) :
    ∀ x ∈ (flushLocal w c).2, Calm x := by
  unfold flushLocal
  split
  · exact calm_nil
  · cases w with
    | wrote n =>
      dsimp only
      split
      · exact calm_cons trivial (closeIo_calm _)
      · simp [Calm]
    | retry => exact calm_nil
    | failed => exact closeIo_calm c

end

/-! ## Opening the remote connection -/

section

variable {c : Connection}

/-- `connect_ip` on a slot that waits for an address. -/
theorem connectIp_moves (a : Answers) (address : IpAddr) (hfd : 0 ≤ c.fd)
    (hphase : c.phase = .resolving) (hidle : c.resolving = false) (htcp : c.tcp = none) :
    Moves true c (connectIp a address c).2 (connectIp a address c).1 := by
  have hc : { c with resolving := false } = c := by rw [← hidle]
  unfold connectIp
  rw [hc]
  dsimp only
  rw [if_neg (by rw [hphase]; intro h; rcases h with h | h <;> [cases h; omega])]
  cases a.tcpNew with
  | none =>
    refine (Move.close (c := c) { c with tcp := none } [.tcpNew none] ?_ rfl htcp.symm rfl).one
    intro i hi
    obtain rfl := List.mem_singleton.mp hi
    exact rfl
  | some p =>
    dsimp only
    by_cases he : a.tcpConnect = .ok
    · rw [if_neg (by simp [he]), he]
      exact (Move.opened rfl hfd hphase hidle).one
    · rw [if_pos he]
      have hclosed : Closed c (closeConnection { c with tcp := some p, phase := .connecting }).1 :=
        ⟨rfl, rfl, rfl, rfl, rfl, rfl, rfl⟩
      exact (Move.openFailed rfl hfd hphase hidle he hclosed).one

theorem connectIp_allocates (a : Answers) (address : IpAddr) (c : Connection) :
    Allocates a.tcpNew (connectIp a address c).2 := by
  unfold connectIp
  dsimp only
  split
  · exact .nil
  · cases hnew : a.tcpNew with
    | none => exact .calm (calm_cons trivial (closeIo_calm _))
    | some p =>
      have hopen : ∀ x ∈ [Io.tcpArg p true, .tcpRecv p true, .tcpSent p true, .tcpErr p true,
          .tcpPoll p true, .tcpConnect p address c.port a.tcpConnect], Calm x := by
        simp [Calm]
      dsimp only
      split
      · exact .head rfl (calm_append hopen (closeIo_calm _))
      · exact .head rfl hopen

/-- The phase `start_connection` finds does not matter: every branch overwrites it. -/
theorem startConnection_phase (L : Lwip) (up : Bool) (a : Answers) (hfd : 0 ≤ c.fd)
    (hphase : c.phase ≠ .connectionClosed) :
    startConnection L up a c = startConnection L up a { c with phase := .resolving } := by
  have hip : ∀ address, connectIp a address c
      = connectIp a address { c with phase := .resolving } := by
    intro address
    unfold connectIp
    simp [hphase, show ¬ c.fd < 0 by omega, closeConnection, closeIo]
  unfold startConnection
  split
  · rfl
  · dsimp only
    cases L.ipaddrAton c.host with
    | some address =>
      dsimp only
      rw [hip address]
      rfl
    | none => rfl

theorem startConnection_moves (L : Lwip) (a : Answers) (hfd : 0 ≤ c.fd)
    (hphase : c.phase = .resolving) (hidle : c.resolving = false) (htcp : c.tcp = none) :
    Moves true c (startConnection L true a c).2 (startConnection L true a c).1 := by
  unfold startConnection
  rw [if_neg (by simp)]
  cases L.ipaddrAton c.host with
  | some address =>
    dsimp only
    split
    · exact connectIp_moves a address hfd hphase hidle htcp
    · exact closeConnection_moves c
  | none =>
    have hc : { c with phase := .resolving, resolving := false } = c := by rw [← hphase, ← hidle]
    dsimp only
    split
    · rename_i hok
      have hquiet : Move true c [.dnsGethostbyname c.host .ok] c := .quiet fun i hi => by
        obtain rfl := List.mem_singleton.mp hi
        exact ⟨rfl, by decide⟩
      have hip : connectIp a a.dnsAddress { c with phase := .resolving, resolving := true }
          = connectIp a a.dnsAddress c := by
        rw [← hphase]
        simp [connectIp]
      rw [hok, hip]
      exact .cons hquiet (connectIp_moves a a.dnsAddress hfd hphase hidle htcp)
    · split
      · rename_i hbad
        refine (Move.close (c := c) { c with phase := .resolving, resolving := false }
          [.dnsGethostbyname c.host a.dns] ?_ rfl rfl hidle.symm).one
        intro i hi
        obtain rfl := List.mem_singleton.mp hi
        exact ⟨rfl, hbad⟩
      · rename_i hprog
        have hprog' : a.dns = .inprogress := by
          by_contra hne
          exact hprog hne
        rw [hprog', ← hphase]
        exact (Move.asked rfl hfd hphase hidle).one

theorem startConnection_allocates (L : Lwip) (up : Bool) (a : Answers) (c : Connection) :
    Allocates a.tcpNew (startConnection L up a c).2 := by
  have hasked : ∀ x ∈ [Io.dnsGethostbyname c.host a.dns], Calm x := by simp [Calm]
  unfold startConnection
  split
  · exact .calm (closeIo_calm c)
  · split
    · split
      · exact connectIp_allocates a _ c
      · exact .calm (closeIo_calm c)
    · dsimp only
      split
      · exact (connectIp_allocates a _ _).prepend hasked
      · split
        · exact .calm (calm_append hasked (closeIo_calm _))
        · exact .calm hasked

/-- `dns_done`.  The lookup was asked for while the link was up, so a slot that is still open
    finds it up (`hup`). -/
theorem dnsDone_moves {up : Bool} (a : Answers) (address : Option IpAddr) (epoch : Nat)
    (hup : 0 ≤ c.fd → up = true) (hphase : 0 ≤ c.fd → c.phase = .resolving)
    (htcp : c.tcp = none) :
    Moves up c (.dnsFound epoch :: (dnsDone a address c).2) (dnsDone a address c).1 := by
  have hanswered : Move up c [.dnsFound epoch] { c with resolving := false } := .answered
  refine .cons hanswered ?_
  cases address with
  | none => exact closeConnection_moves _
  | some address =>
    by_cases hfd : 0 ≤ c.fd
    · obtain rfl : up = true := hup hfd
      exact connectIp_moves a address (c := { c with resolving := false }) hfd (hphase hfd) rfl htcp
    · show Moves up _ (connectIp a address c).2 (connectIp a address c).1
      unfold connectIp
      dsimp only
      rw [if_pos (Or.inr (by omega))]
      exact .nil

theorem dnsDone_allocates (a : Answers) (address : Option IpAddr) (c : Connection) :
    Allocates a.tcpNew (dnsDone a address c).2 := by
  cases address with
  | none => exact .calm (closeIo_calm _)
  | some address => exact connectIp_allocates a address c

end

/-! ## The request parsers -/

/-- A parser touches the target, the request and the buffers of its slot, nothing else. -/
structure Frame (c c' : Connection) : Prop where
  fd : c'.fd = c.fd
  kind : c'.kind = c.kind
  phase : c'.phase = c.phase
  tcp : c'.tcp = c.tcp
  resolving : c'.resolving = c.resolving

theorem Frame.refl (c : Connection) : Frame c c := ⟨rfl, rfl, rfl, rfl, rfl⟩

theorem setTarget_eq_some {c c' : Connection} {host : Bytes} {port : Int}
    (h : setTarget c host port = some c') : c' = { c with host := host, port := port } := by
  unfold setTarget at h
  split at h
  · cases h
  · exact (Option.some.inj h).symm

/-- The absolute-form branch gives up, perhaps with a target set, or has a line with room for the rest
    behind it. -/
theorem parseAbsolute_cases (method uri version : Bytes) (n : Nat) (c : Connection) :
    (∃ c', parseAbsolute method uri version n c = (c', [], false) ∧ Frame c c') ∨
    ∃ authority slash host port path line, absoluteAuthority uri = some (authority, slash) ∧
      parseAuthority authority 256 80 = some (host, port) ∧ originPath slash = some path ∧
      newFirst method path version = some line ∧
      line.length + (c.header.drop (n + 2)).length ≤ bufferSize ∧
      parseAbsolute method uri version n c =
        ({ c with host := host, port := port, toRemote := line ++ c.header.drop (n + 2) }, [], true) := by
  unfold parseAbsolute
  split
  · exact Or.inl ⟨c, rfl, .refl c⟩
  · rename_i authority slash habs
    split
    · exact Or.inl ⟨c, rfl, .refl c⟩
    · rename_i host port hauth
      split
      · exact Or.inl ⟨c, rfl, .refl c⟩
      · rename_i c₁ hset
        obtain rfl := setTarget_eq_some hset
        split
        · exact Or.inl ⟨_, rfl, ⟨rfl, rfl, rfl, rfl, rfl⟩⟩
        · rename_i path hpath
          split
          · exact Or.inl ⟨_, rfl, ⟨rfl, rfl, rfl, rfl, rfl⟩⟩
          · rename_i line hline
            dsimp only
            split
            · exact Or.inl ⟨_, rfl, ⟨rfl, rfl, rfl, rfl, rfl⟩⟩
            · rename_i hlen
              exact Or.inr ⟨authority, slash, host, port, path, line, habs, hauth, hpath, hline,
                Nat.not_lt.mp hlen, rfl⟩

/-- `parse_http` gives up over its first line, or goes into one of its two branches. -/
theorem parseHttpHead_cases (c : Connection) :
    parseHttpHead c = (c, [], false) ∨
    ∃ n method uri version, strstr (cstr c.header) crlf = some n ∧ n ≤ 2048 ∧
      scanRequestLine (c.header.take n) = some (method, uri, version) ∧
      ascii "HTTP/1." <+: version ∧
      parseHttpHead c = if method = ascii "CONNECT" then parseConnect uri c
        else parseAbsolute method uri version n c := by
  unfold parseHttpHead
  split
  · exact Or.inl rfl
  · split
    · exact Or.inl rfl
    · rename_i n hn
      split
      · exact Or.inl rfl
      · rename_i hshort
        split
        · exact Or.inl rfl
        · rename_i method uri version hscan
          split
          · exact Or.inl rfl
          · rename_i hver
            exact Or.inr ⟨n, method, uri, version, hn, Nat.not_lt.mp hshort, hscan, not_not.mp hver, rfl⟩

/-- What a parser leaves behind: the frame, the record of its `append_bytes` calls, and on success
    a target. -/
structure Parsed (c : Connection) (r : Connection × List Io × Bool) : Prop where
  frame : Frame c r.1
  appends : AppendsOnly r.2.1
  target : r.2.2 = true → Targets c r.2.1 r.1 ∧ r.1.toRemote.length ≤ bufferSize

theorem Parsed.rejected {c c' : Connection} {io : List Io} (hf : Frame c c')
    (hio : AppendsOnly io) : Parsed c (c', io, false) :=
  ⟨hf, hio, fun h => by cases h⟩

section

variable {c : Connection}

theorem parseConnect_parsed {uri version : Bytes} {n : Nat} (hphase : c.phase = .proxyHeader)
    (hn : findSub crlf c.header = some n)
    (hscan : scanRequestLine (c.header.take n) = some (ascii "CONNECT", uri, version))
    (hroom : c.toRemote.length + c.header.length ≤ bufferSize) :
    Parsed c (parseConnect uri c) := by
  unfold parseConnect
  split
  · exact .rejected (.refl c) appendsOnly_nil
  · rename_i host port hauth
    dsimp only
    split
    · exact .rejected ⟨rfl, rfl, rfl, rfl, rfl⟩ appendsOnly_nil
    · rename_i c₁ hset
      obtain rfl := setTarget_eq_some hset
      split
      · exact .rejected ⟨rfl, rfl, rfl, rfl, rfl⟩ appendsOnly_nil
      · rename_i k hk
        have hk' : findSub crlfcrlf c.header = some k := findSub_of_isPrefix (cstr_isPrefix _) hk
        dsimp only
        split
        · have hfit : c.toRemote.length + (c.header.drop (k + 4)).length ≤ bufferSize := by
            rw [List.length_drop]
            omega
          rw [appendBytes_of_room hfit (by decide)]
          refine ⟨⟨rfl, rfl, rfl, rfl, rfl⟩, appendsOnly_one hfit,
            fun _ => ⟨.connect hphase hn hscan hauth hk', ?_⟩⟩
          show (c.toRemote ++ c.header.drop (k + 4)).length ≤ bufferSize
          rw [List.length_append]
          exact hfit
        · rename_i hshort
          have hdrop : c.header.drop (k + 4) = [] := List.drop_eq_nil_of_le (by omega)
          refine ⟨⟨rfl, rfl, rfl, rfl, rfl⟩, appendsOnly_nil,
            fun _ => ⟨?_, by show c.toRemote.length ≤ bufferSize; omega⟩⟩
          have ht : Targets c [] { c with httpConnect := true, host := host, port := port,
                                          toRemote := c.toRemote ++ c.header.drop (k + 4) } :=
            .connect hphase hn hscan hauth hk'
          rw [hdrop, List.append_nil] at ht
          exact ht

theorem parseAbsolute_parsed {method uri version : Bytes} {n : Nat}
    (hphase : c.phase = .proxyHeader) (hn : findSub crlf c.header = some n) (hshort : n ≤ 2048)
    (hscan : scanRequestLine (c.header.take n) = some (method, uri, version))
    (hver : ascii "HTTP/1." <+: version) (hmethod : method ≠ ascii "CONNECT") :
    Parsed c (parseAbsolute method uri version n c) := by
  rcases parseAbsolute_cases method uri version n c with ⟨c', hrun, hframe⟩ |
    ⟨authority, slash, host, port, path, line, habs, hauth, hpath, hline, hlen, hrun⟩
  · rw [hrun]
    exact .rejected hframe appendsOnly_nil
  · have ho : originRequest (c.header.take n) = some ⟨host, port, line⟩ := by
      unfold originRequest
      rw [hscan]
      dsimp only
      rw [if_neg (by simp [hver, hmethod]), habs]
      dsimp only
      rw [hauth, hpath]
      dsimp only
      rw [hline]
      rfl
    rw [hrun]
    refine ⟨⟨rfl, rfl, rfl, rfl, rfl⟩, appendsOnly_nil,
      fun _ => ⟨.origin hphase hn hshort ho, ?_⟩⟩
    show (line ++ c.header.drop (n + 2)).length ≤ bufferSize
    rw [List.length_append]
    exact hlen

theorem parseHttpHead_parsed (hphase : c.phase = .proxyHeader)
    (hroom : c.toRemote.length + c.header.length ≤ bufferSize) : Parsed c (parseHttpHead c) := by
  rcases parseHttpHead_cases c with hrun | ⟨n, method, uri, version, hn, hshort, hscan, hver, hrun⟩
  · rw [hrun]
    exact .rejected (.refl c) appendsOnly_nil
  · have hn' : findSub crlf c.header = some n := findSub_of_isPrefix (cstr_isPrefix _) hn
    rw [hrun]
    split
    · rename_i hmethod
      exact parseConnect_parsed hphase hn' (hmethod ▸ hscan) hroom
    · rename_i hmethod
      exact parseAbsolute_parsed hphase hn' hshort hscan hver hmethod

end

/-! ## `feed_local` -/

/-- What `feed_local` did to the slot `c`, its interactions being `io`: a sequence of moves, and
    when it failed one after which the slot is still to be closed. -/
structure Fed (up : Bool) (a : Answers) (c : Connection) (pre : List Io)
    (r : Connection × List Io × Bool) : Prop where
  frame : r.2.2 = false → r.1.fd = c.fd ∧ r.1.tcp = c.tcp ∧ r.1.resolving = c.resolving
  moves : r.2.2 = true → Moves up c (pre ++ r.2.1) r.1
  appends : r.2.2 = false → AppendsOnly r.2.1
  allocates : Allocates a.tcpNew r.2.1

theorem Fed.rejected {up : Bool} {a : Answers} {c c' : Connection} {pre io : List Io}
    (hf : c'.fd = c.fd ∧ c'.tcp = c.tcp ∧ c'.resolving = c.resolving) (hio : AppendsOnly io) :
    Fed up a c pre (c', io, false) :=
  ⟨fun _ => hf, fun h => (by cases h), fun _ => hio, .calm hio.calm⟩

theorem Fed.waiting {up : Bool} {a : Answers} {c : Connection} : Fed up a c [] (c, [], true) :=
  ⟨fun h => (by cases h), fun _ => .nil, fun h => (by cases h), .nil⟩

section

variable {c : Connection} {up : Bool}

/-- A parser that found a target starts the connection. -/
theorem thenStart_fed {r : Connection × List Io × Bool} (L : Lwip) (a : Answers) (h : Parsed c r)
    (hfd : 0 ≤ c.fd) (hcol : c.phase.collecting = true) (htcp : c.tcp = none)
    (hidle : c.resolving = false) : Fed up a c [] (thenStart L up a r) := by
  obtain ⟨c', io, ok⟩ := r
  obtain ⟨hf, hio, ht⟩ := h
  dsimp only at hf hio ht
  cases ok with
  | false => exact .rejected ⟨hf.fd, hf.tcp, hf.resolving⟩ hio
  | true =>
    refine ⟨fun h => (by cases h), fun _ => ?_, fun h => (by cases h),
      (startConnection_allocates L up a c').prepend hio.calm⟩
    obtain ⟨htarget, hroom⟩ := ht rfl
    show Moves up c ([] ++ (io ++ (startConnection L up a c').2)) (startConnection L up a c').1
    rw [List.nil_append]
    have hopen : c'.phase ≠ .connectionClosed := by
      rw [hf.phase]
      exact ConnectionPhase.ne_of_collecting hcol rfl
    -- `start_connection` turns the request away while the link is down
    cases up with
    | false =>
      have hclose : startConnection L false a c' = closeConnection c' := rfl
      rw [hclose]
      exact (Move.close c' io hio.passing hf.fd hf.tcp hf.resolving).one
    | true =>
      rw [startConnection_phase L true a (by rw [hf.fd]; exact hfd) hopen]
      exact .cons (.targeted rfl hfd htarget hroom hio)
        (startConnection_moves L a (by show 0 ≤ c'.fd; rw [hf.fd]; exact hfd) rfl
          (hf.resolving.trans hidle) (hf.tcp.trans htcp))

theorem parseSocksRequest_fed (L : Lwip) (a : Answers) (hfd : 0 ≤ c.fd)
    (hphase : c.phase = .socksRequest) (htcp : c.tcp = none) (hidle : c.resolving = false)
    (hroom : c.toRemote.length + c.header.length ≤ bufferSize) :
    Fed up a c [] (parseSocksRequest L up a c) := by
  have hcol : c.phase.collecting = true := by rw [hphase]; rfl
  unfold parseSocksRequest
  split
  · exact .waiting
  · exact .rejected ⟨rfl, rfl, rfl⟩ appendsOnly_nil
  · rename_i host port n hdecode
    split
    · exact .rejected ⟨rfl, rfl, rfl⟩ appendsOnly_nil
    · rename_i c₁ hset
      obtain rfl := setTarget_eq_some hset
      have hfit : c.toRemote.length + (c.header.drop n).length ≤ bufferSize := by
        rw [List.length_drop]
        omega
      dsimp only
      split
      · rename_i hempty
        refine thenStart_fed L a ⟨⟨rfl, rfl, rfl, rfl, rfl⟩, appendsOnly_nil,
          fun _ => ⟨?_, by show c.toRemote.length ≤ bufferSize; omega⟩⟩ hfd hcol htcp hidle
        have ht : Targets c [] { c with host := host, port := port, header := [],
                                        toRemote := c.toRemote ++ c.header.drop n } :=
          .socks hphase hdecode
        rw [hempty, List.append_nil] at ht
        exact ht
      · rw [appendBytes_of_room hfit (by decide)]
        refine thenStart_fed L a ⟨⟨rfl, rfl, rfl, rfl, rfl⟩, appendsOnly_one hfit,
          fun _ => ⟨.socks hphase hdecode, ?_⟩⟩ hfd hcol htcp hidle
        show (c.toRemote ++ c.header.drop n).length ≤ bufferSize
        rw [List.length_append]
        exact hfit

/-- A greeting that is complete is answered, and the rest of the header is a request. -/
theorem feedGreeting_spec {r : Connection × List Io × Bool} (h : feedGreeting c = some r)
    (hroom : c.toLocal.length + 2 ≤ bufferSize) :
    AppendsOnly r.2.1 ∧ Frame { c with phase := r.1.phase } r.1 ∧
    (r.2.2 = true → 2 ≤ c.header.length ∧ greetingLength c.header ≤ c.header.length ∧
      (c.toLocal ++ greetingOk).length ≤ bufferSize ∧
      r.1 = { c with toLocal := c.toLocal ++ greetingOk, phase := .socksRequest,
                     header := c.header.drop (greetingLength c.header) }) := by
  unfold feedGreeting at h
  split at h
  · cases h
  · rename_i htwo
    dsimp only at h
    split at h
    · cases h
    · rename_i hlen
      split at h
      · obtain rfl := Option.some.inj h
        exact ⟨appendsOnly_nil, ⟨rfl, rfl, rfl, rfl, rfl⟩, fun h => (by cases h)⟩
      · have hreply : localReply c greetingOk = some { c with toLocal := c.toLocal ++ greetingOk } := by
          unfold localReply
          rw [appendBytes_of_room hroom (by decide)]
          rfl
        rw [hreply] at h
        obtain rfl := Option.some.inj h
        refine ⟨appendsOnly_one hroom, ⟨rfl, rfl, rfl, rfl, rfl⟩,
          fun _ => ⟨by omega, ?_, ?_, rfl⟩⟩
        · show 2 + (c.header.getD 1 0).toNat ≤ c.header.length
          omega
        · rw [List.length_append]
          exact hroom

theorem feedHeader_fed (L : Lwip) (a : Answers) (hfd : 0 ≤ c.fd)
    (hcol : c.phase.collecting = true) (htcp : c.tcp = none) (hidle : c.resolving = false)
    (hremote : c.toRemote.length + c.header.length ≤ bufferSize)
    (hlocal : c.toLocal.length + 2 ≤ bufferSize) :
    Fed up a c [] (feedHeader L up a c) := by
  unfold feedHeader
  split
  · rename_i hphase
    split
    · exact .waiting
    · rename_i c₁ io hg
      obtain ⟨hio, hf, _⟩ := feedGreeting_spec hg hlocal
      exact .rejected ⟨hf.fd, hf.tcp, hf.resolving⟩ hio
    · -- what is behind the greeting is parsed as a request at once
      rename_i c₁ io hg
      obtain ⟨hio, hf, hspec⟩ := feedGreeting_spec hg hlocal
      obtain ⟨htwo, hlen, hfit, rfl⟩ := hspec rfl
      have hfed : Fed up a _ [] _ := parseSocksRequest_fed L a
        (c := { c with toLocal := c.toLocal ++ greetingOk, phase := .socksRequest,
                       header := c.header.drop (greetingLength c.header) })
        hfd rfl htcp hidle (by dsimp only; rw [List.length_drop]; omega)
      refine ⟨hfed.frame, fun hok => ?_, fun hbad => ?_, hfed.allocates.prepend hio.calm⟩
      · rw [List.nil_append]
        exact .cons (.greeted hfd hphase htwo hlen hfit hio) (hfed.moves hok)
      · intro i hi
        rcases List.mem_append.mp hi with hi | hi
        · exact hio i hi
        · exact hfed.appends hbad i hi
  · rename_i hphase
    exact parseSocksRequest_fed L a hfd hphase htcp hidle hremote
  · rename_i hphase
    split
    · exact thenStart_fed L a (parseHttpHead_parsed hphase hremote) hfd hcol htcp hidle
    · exact .waiting
  · exact .waiting

/-- An open slot that can be read: its buffers have room for what comes, and while it collects
    its request it holds neither a pcb nor a lookup. -/
structure Readable (c : Connection) : Prop where
  fd : 0 ≤ c.fd
  isOpen : c.phase ≠ .connectionClosed
  noPcb : c.phase.collecting = true → c.tcp = none
  idle : c.phase.collecting = true → c.resolving = false
  toRemote : c.toRemote.length + maxHeader ≤ bufferSize
  toLocal : c.phase.collecting = true → c.toLocal.length + 2 ≤ bufferSize

/-- `feed_local` on such a slot. -/
theorem feedLocal_fed (L : Lwip) (a : Answers) (d : Bytes) (hc : Readable c)
    (hd : d.length ≤ maxHeader) : Fed up a c [.read c.fd d] (feedLocal L up a c d) := by
  obtain ⟨hfd, hopen, htcp, hidle, hremote, hlocal⟩ := hc
  unfold feedLocal
  by_cases hrel : c.phase.relaying = true
  · rw [if_pos (by revert hrel; cases c.phase <;> simp [ConnectionPhase.relaying])]
    have hfit : c.toRemote.length + d.length ≤ bufferSize := by omega
    unfold feedStream
    rw [appendBytes_of_room hfit (by decide)]
    refine ⟨fun h => (by cases h), fun _ => ?_, fun h => (by cases h),
      .calm (appendsOnly_one hfit).calm⟩
    exact (Move.readStream hfd hrel (by rw [List.length_append]; exact hfit)
      (appendsOnly_one hfit)).one
  · have hcol : c.phase.collecting = true := by
      revert hrel hopen
      cases c.phase <;> simp [ConnectionPhase.relaying, ConnectionPhase.collecting]
    rw [if_neg (by revert hrel; cases c.phase <;> simp [ConnectionPhase.relaying])]
    split
    · exact .rejected ⟨rfl, rfl, rfl⟩ appendsOnly_nil
    · rename_i hfit
      have hlen : (c.header ++ d).length < maxHeader := by
        rw [List.length_append]
        omega
      have hread : Move up c [.read c.fd d] { c with header := c.header ++ d } :=
        .readHeader hfd hcol hlen
      have hfed : Fed up a _ [] _ := feedHeader_fed L a (c := { c with header := c.header ++ d })
        hfd hcol (htcp hcol) (hidle hcol) (by dsimp only; omega) (hlocal hcol)
      exact ⟨hfed.frame, fun hok => .cons hread (hfed.moves hok), hfed.appends, hfed.allocates⟩

/-- What the main loop does with the result of a client `read`. -/
theorem readClient_moves (L : Lwip) (a : Answers) (r : ReadResult) (hc : Readable c)
    (hr : ∀ d, r = .data d → d.length ≤ maxHeader) :
    Moves up c (readClient L up a r c).2 (readClient L up a r c).1 := by
  cases r with
  | eof => exact closeConnection_moves c
  | retry => exact .nil
  | failed => exact closeConnection_moves c
  | data d =>
    have hfed : Fed up a c _ _ := feedLocal_fed L a d hc (hr d rfl)
    unfold readClient
    dsimp only
    generalize feedLocal L up a c d = r at hfed
    obtain ⟨c', io, ok⟩ := r
    cases ok with
    | true => exact hfed.moves rfl
    | false =>
      obtain ⟨h1, h2, h3⟩ := hfed.frame rfl
      -- a slot that was not fed is closed with what it had
      refine (Move.close c' (.read c.fd d :: io) ?_ h1 h2 h3).one
      intro i hi
      rcases List.mem_cons.mp hi with rfl | hi
      · exact trivial
      · exact (hfed.appends rfl).passing i hi

/-- What it asks of the environment, behind the `read` itself. -/
theorem readClient_allocates (L : Lwip) (a : Answers) (r : ReadResult) (hc : Readable c)
    (hr : ∀ d, r = .data d → d.length ≤ maxHeader) :
    ∃ io, Allocates a.tcpNew io ∧
      ((readClient L up a r c).2 = io ∨ ∃ d, (readClient L up a r c).2 = .read c.fd d :: io) := by
  cases r with
  | eof => exact ⟨closeIo c, .calm (closeIo_calm c), Or.inl rfl⟩
  | retry => exact ⟨[], .nil, Or.inl rfl⟩
  | failed => exact ⟨closeIo c, .calm (closeIo_calm c), Or.inl rfl⟩
  | data d =>
    have hfed : Fed up a c _ _ := feedLocal_fed L a d hc (hr d rfl)
    unfold readClient
    dsimp only
    generalize feedLocal L up a c d = r at hfed
    obtain ⟨c', io, ok⟩ := r
    cases ok with
    | true => exact ⟨io, hfed.allocates, Or.inr ⟨d, rfl⟩⟩
    | false =>
      exact ⟨io ++ closeIo c', .calm (calm_append (hfed.appends rfl).calm (closeIo_calm c')),
        Or.inr ⟨d, rfl⟩⟩

end

/-! ## `accept_client` -/

theorem acceptSlot_moves {c : Connection} {up : Bool} (L : Lwip) (a : Answers) {fd : Int}
    (kind : ListenerKind) (host : Bytes) (port : Int) (hfd : 0 ≤ fd) (hfree : c.fd < 0)
    (hidle : c.resolving = false) :
    Moves up c (acceptSlot L up a fd kind host port).2 (acceptSlot L up a fd kind host port).1 := by
  have hturned : ∀ {c₁ : Connection}, c₁.fd = fd → c₁.tcp = none → c₁.resolving = false →
      Moves up c (.accept fd :: (closeConnection c₁).2) (closeConnection c₁).1 := by
    intro c₁ h1 h2 h3
    have hio : (closeConnection c₁).2 = [.close fd] := by
      show closeIo c₁ = _
      unfold closeIo
      rw [h1, h2, if_pos hfd]
      rfl
    rw [hio]
    have hclosed : Closed c (closeConnection c₁).1 :=
      ⟨rfl, rfl, rfl, h3.trans hidle.symm, rfl, rfl, rfl⟩
    exact (Move.acceptClosed hfree hidle hclosed).one
  unfold acceptSlot
  dsimp only
  split
  · rename_i hkind
    subst hkind
    split
    · exact hturned rfl rfl rfl
    · rename_i c₁ hset
      obtain rfl := setTarget_eq_some hset
      cases up with
      | false => exact hturned rfl rfl rfl
      | true =>
        dsimp only
        rw [startConnection_phase L true a hfd (by simp [Connection.accepted])]
        exact .cons (.acceptedForward rfl hfree hidle) (startConnection_moves L a hfd rfl rfl rfl)
  · rename_i hkind
    exact (Move.accepted hfree hidle hkind).one

theorem acceptSlot_allocates (L : Lwip) (up : Bool) (a : Answers) (fd : Int) (kind : ListenerKind)
    (host : Bytes) (port : Int) :
    ∃ io, Allocates a.tcpNew io ∧ (acceptSlot L up a fd kind host port).2 = .accept fd :: io := by
  unfold acceptSlot
  dsimp only
  split
  · split
    · exact ⟨_, .calm (closeIo_calm _), rfl⟩
    · exact ⟨_, startConnection_allocates L up a _, rfl⟩
  · exact ⟨[], .nil, rfl⟩

end PptpProxy
