/-
  `start_connection`, seen from the parsers that end in it.

  A parser hands it a slot whose target is known.  Whether a connection gets under way depends on
  lwIP's answers and the host only (`opens`); the bytes that wait in `to_remote` do not matter to it
  (`startConnection_toRemote`).  Each call leaves one trace among the interactions, a lookup or an
  allocation (`startsIn_startConnection`), which is how calls are counted.
-/
import PptpProxy.Engine.Refine

namespace PptpProxy

open CLib

/-! ## Whether a connection gets under way -/

/-- Whether `start_connection` gets a connection under way, given lwIP's answers. -/
def opens (L : Lwip) (a : Answers) (host : Bytes) : Bool :=
  match L.ipaddrAton host with
  | some _ => a.tcpNew.isSome && a.tcpConnect == .ok
  | none =>
    if a.dns = .ok then a.tcpNew.isSome && a.tcpConnect == .ok else a.dns == .inprogress

/-- `c'` is `c` after an attempt to connect. -/
structure Dialled (c c' : Connection) (opened : Bool) : Prop where
  host : c'.host = c.host
  port : c'.port = c.port
  httpConnect : c'.httpConnect = c.httpConnect
  underWay : opened = true → c'.fd = c.fd ∧ c'.phase.relaying = true ∧ c'.toRemote = c.toRemote
  gone : opened = false → c'.fd < 0

section

variable {L : Lwip} {a : Answers} {c : Connection}

theorem Dialled.failed (c₁ : Connection) (hhost : c₁.host = c.host) (hport : c₁.port = c.port)
    (hconnect : c₁.httpConnect = c.httpConnect) : Dialled c (closeConnection c₁).1 false :=
  ⟨hhost, hport, hconnect, fun h => (by cases h), fun _ => by show (-1 : Int) < 0; decide⟩

theorem connectIp_dialled (address : IpAddr) (h0 : 0 ≤ c.fd) (hphase : c.phase ≠ .connectionClosed) :
    Dialled c (connectIp a address c).1 (a.tcpNew.isSome && a.tcpConnect == .ok) := by
  unfold connectIp
  dsimp only
  rw [if_neg (by simp only [not_or]; exact ⟨hphase, by omega⟩)]
  cases a.tcpNew with
  | none => exact .failed _ rfl rfl rfl
  | some p =>
    dsimp only
    by_cases hok : a.tcpConnect = .ok
    · rw [if_neg (by simp [hok]), hok]
      exact ⟨rfl, rfl, rfl, fun _ => ⟨rfl, rfl, rfl⟩, fun h => (by cases h)⟩
    · rw [if_pos hok, show (a.tcpConnect == Err.ok) = false by simpa using hok]
      exact .failed _ rfl rfl rfl

theorem startConnection_dialled (h0 : 0 ≤ c.fd) (hphase : c.phase ≠ .connectionClosed) :
    Dialled c (startConnection L true a c).1 (opens L a c.host) := by
  unfold startConnection opens
  rw [if_neg (by decide)]
  cases L.ipaddrAton c.host with
  | some address => exact connectIp_dialled address h0 hphase
  | none =>
    dsimp only
    split
    · -- the resolver's cache answered at once
      have h := connectIp_dialled (a := a)
        (c := { c with phase := .resolving, resolving := true }) a.dnsAddress h0 (fun h => by cases h)
      exact ⟨h.host, h.port, h.httpConnect, h.underWay, h.gone⟩
    · split
      · rename_i hne
        rw [show (a.dns == Err.inprogress) = false by simpa using hne]
        exact .failed _ rfl rfl rfl
      · rename_i hprogress
        rw [show (a.dns == Err.inprogress) = true by simpa using hprogress]
        exact ⟨rfl, rfl, rfl, fun _ => ⟨rfl, rfl, rfl⟩, fun h => (by cases h)⟩

end

/-! ## Calls of `start_connection` -/

/-- How often `start_connection` was called with the link up: it begins with a lookup, or, for an
    address, with the allocation of a pcb.  The allocation right behind a lookup belongs to it. -/
def startsIn : List Io → Nat
  | [] => 0
  | .dnsGethostbyname _ _ :: .tcpNew _ :: io => startsIn io + 1
  | .dnsGethostbyname _ _ :: io => startsIn io + 1
  | .tcpNew _ :: io => startsIn io + 1
  | _ :: io => startsIn io

/-- Only `append_bytes` calls, whether they fit or not. -/
def AppendCalls (io : List Io) : Prop := ∀ x ∈ io, ∃ l k n, x = Io.appendBytes l k n

theorem appendCalls_nil : AppendCalls [] := fun _ h => by cases h

theorem appendCalls_one (b src : Bytes) : AppendCalls [appendIo b bufferSize src] := by
  intro x hx
  exact ⟨_, _, _, List.mem_singleton.mp hx⟩

theorem AppendCalls.append {io io' : List Io} (h : AppendCalls io) (h' : AppendCalls io') :
    AppendCalls (io ++ io') := fun x hx => (List.mem_append.mp hx).elim (h x) (h' x)

/-- `append_bytes` calls are no starts, in front of the other interactions ... -/
theorem AppendCalls.startsIn_left {pre : List Io} (h : AppendCalls pre) (io : List Io) :
    startsIn (pre ++ io) = startsIn io := by
  induction pre with
  | nil => rfl
  | cons x pre ih =>
    obtain ⟨l, k, n, rfl⟩ := h _ List.mem_cons_self
    exact ih fun y hy => h y (List.mem_cons_of_mem _ hy)

theorem AppendCalls.startsIn_eq {io : List Io} (h : AppendCalls io) : startsIn io = 0 := by
  have := h.startsIn_left []
  rwa [List.append_nil] at this

theorem startsIn_append_record (io : List Io) (l k n : Nat) :
    startsIn (io ++ [.appendBytes l k n]) = startsIn io := by
  fun_induction startsIn io with
  | case1 => rfl
  | case2 host r pcb io ih =>
    show startsIn (io ++ _) + 1 = _
    rw [ih]
  | case3 host r io hnew ih =>
    cases io with
    | nil => rfl
    | cons x io =>
      rw [List.cons_append, List.cons_append, startsIn, ← List.cons_append, ih]
      intro pcb io' h
      obtain ⟨rfl, -⟩ := List.cons.inj h
      exact hnew pcb io rfl
  | case4 pcb io ih =>
    show startsIn (io ++ _) + 1 = _
    rw [ih]
  | case5 x io h1 h2 h3 ih =>
    rw [List.cons_append, startsIn, ih]
    · intro host r pcb io' hx _
      exact h2 host r hx
    · exact h2
    · exact h3

/-- ... and behind them. -/
theorem AppendCalls.startsIn_right {post : List Io} (h : AppendCalls post) (io : List Io) :
    startsIn (io ++ post) = startsIn io := by
  induction post generalizing io with
  | nil => rw [List.append_nil]
  | cons x post ih =>
    obtain ⟨l, k, n, rfl⟩ := h _ List.mem_cons_self
    rw [List.append_cons, ih (fun y hy => h y (List.mem_cons_of_mem _ hy)), startsIn_append_record]

section

variable {L : Lwip} {a : Answers} {c : Connection}

/-- `close_connection` starts nothing. -/
theorem startsIn_closeIo (c : Connection) : startsIn (closeIo c) = 0 := by
  unfold closeIo
  split <;> cases c.tcp <;> rfl

theorem startsIn_connectIp (address : IpAddr) (h0 : 0 ≤ c.fd)
    (hphase : c.phase ≠ .connectionClosed) :
    ∃ pcb io, (connectIp a address c).2 = .tcpNew pcb :: io ∧ startsIn io = 0 := by
  unfold connectIp
  dsimp only
  rw [if_neg (by simp only [not_or]; exact ⟨hphase, by omega⟩)]
  cases a.tcpNew with
  | none => exact ⟨none, _, rfl, startsIn_closeIo _⟩
  | some p =>
    dsimp only
    split
    · exact ⟨some p, _, rfl, startsIn_closeIo _⟩
    · exact ⟨some p, _, rfl, rfl⟩

/-! `start_connection` with the link up, answer by answer. -/

theorem startConnection_address {address : IpAddr} (h : L.ipaddrAton c.host = some address) :
    startConnection L true a c = connectIp a address c := by
  unfold startConnection
  rw [if_neg (by decide), h]
  rfl

theorem startConnection_cached (h : L.ipaddrAton c.host = none) (hdns : a.dns = .ok) :
    startConnection L true a c =
      ((connectIp a a.dnsAddress { c with phase := .resolving, resolving := true }).1,
        .dnsGethostbyname c.host a.dns ::
          (connectIp a a.dnsAddress { c with phase := .resolving, resolving := true }).2) := by
  unfold startConnection
  rw [if_neg (by decide), h]
  exact if_pos hdns

theorem startConnection_asked (h : L.ipaddrAton c.host = none) (hdns : a.dns = .inprogress) :
    startConnection L true a c =
      ({ c with phase := .resolving, resolving := true }, [.dnsGethostbyname c.host a.dns]) := by
  unfold startConnection
  rw [if_neg (by decide), h, hdns]
  rfl

theorem startConnection_refused (h : L.ipaddrAton c.host = none) (hok : a.dns ≠ .ok)
    (hasked : a.dns ≠ .inprogress) :
    startConnection L true a c =
      ((closeConnection { c with phase := .resolving, resolving := false }).1,
        .dnsGethostbyname c.host a.dns ::
          closeIo { c with phase := .resolving, resolving := false }) := by
  unfold startConnection
  rw [if_neg (by decide), h]
  dsimp only
  rw [if_neg hok, if_pos hasked]
  rfl

/-- **One trace per call.** -/
theorem startsIn_startConnection (h0 : 0 ≤ c.fd) (hphase : c.phase ≠ .connectionClosed) :
    startsIn (startConnection L true a c).2 = 1 := by
  cases haddr : L.ipaddrAton c.host with
  | some address =>
    obtain ⟨pcb, io, hio, hnone⟩ := startsIn_connectIp (a := a) address h0 hphase
    rw [startConnection_address haddr, hio, startsIn, hnone]
  | none =>
    by_cases hok : a.dns = .ok
    · obtain ⟨pcb, io, hio, hnone⟩ := startsIn_connectIp (a := a)
        (c := { c with phase := .resolving, resolving := true }) a.dnsAddress h0 (fun h => by cases h)
      rw [startConnection_cached haddr hok, hio, startsIn, hnone]
    · by_cases hasked : a.dns = .inprogress
      · rw [startConnection_asked haddr hasked]
        rfl
      · have hclose := startsIn_closeIo { c with phase := .resolving, resolving := false }
        rw [startConnection_refused haddr hok hasked, startsIn, hclose]
        intro pcb io h
        rw [h] at hclose
        cases hclose

/-- What waits in `to_remote` does not matter to `connect_ip`. -/
theorem connectIp_toRemote (address : IpAddr) (r : Bytes) (h0 : 0 ≤ c.fd)
    (hphase : c.phase ≠ .connectionClosed) :
    connectIp a address { c with toRemote := r } =
      ((if (a.tcpNew.isSome && a.tcpConnect == .ok) = true
          then { (connectIp a address c).1 with toRemote := r } else (connectIp a address c).1),
        (connectIp a address c).2) := by
  have hopen : ¬ (c.phase = .connectionClosed ∨ c.fd < 0) := by
    simp only [not_or]
    exact ⟨hphase, by omega⟩
  unfold connectIp
  dsimp only
  rw [if_neg hopen, if_neg hopen]
  cases a.tcpNew with
  | none => rfl
  | some p =>
    dsimp only
    by_cases hok : a.tcpConnect = .ok
    · rw [hok]
      rfl
    · rw [if_pos hok, if_pos hok, show (a.tcpConnect == Err.ok) = false by simpa using hok]
      rfl

/-- Nor to `start_connection`. -/
theorem startConnection_toRemote (r : Bytes) (h0 : 0 ≤ c.fd)
    (hphase : c.phase ≠ .connectionClosed) :
    startConnection L true a { c with toRemote := r } =
      ((if opens L a c.host = true then { (startConnection L true a c).1 with toRemote := r }
          else (startConnection L true a c).1), (startConnection L true a c).2) := by
  cases haddr : L.ipaddrAton c.host with
  | some address =>
    have hopens : opens L a c.host = (a.tcpNew.isSome && a.tcpConnect == .ok) := by
      unfold opens
      rw [haddr]
    rw [hopens, startConnection_address haddr]
    exact (startConnection_address (c := { c with toRemote := r }) haddr).trans
      (connectIp_toRemote address r h0 hphase)
  | none =>
    by_cases hok : a.dns = .ok
    · have hopens : opens L a c.host = (a.tcpNew.isSome && a.tcpConnect == .ok) := by
        unfold opens
        rw [haddr]
        exact if_pos hok
      have hconnect := connectIp_toRemote (a := a)
        (c := { c with phase := .resolving, resolving := true }) a.dnsAddress r h0
        (fun h => by cases h)
      rw [hopens, startConnection_cached haddr hok]
      refine (startConnection_cached (c := { c with toRemote := r }) haddr hok).trans ?_
      dsimp only at hconnect ⊢
      rw [hconnect]
    · have hopens : opens L a c.host = (a.dns == .inprogress) := by
        unfold opens
        rw [haddr]
        exact if_neg hok
      by_cases hasked : a.dns = .inprogress
      · rw [hopens, hasked, if_pos (by decide), startConnection_asked haddr hasked]
        exact startConnection_asked (c := { c with toRemote := r }) haddr hasked
      · rw [hopens, if_neg (by simpa using hasked), startConnection_refused haddr hok hasked]
        exact startConnection_refused (c := { c with toRemote := r }) haddr hok hasked

end

/-- `feed_local` hands the slot `c` to `start_connection`, once, and does nothing else but fill it. -/
def StartsAs (L : Lwip) (a : Answers) (c : Connection) (r : Connection × List Io × Bool) : Prop :=
  startsIn r.2.1 = 1 ∧ ∃ io, AppendCalls io ∧
    r = ((startConnection L true a c).1, io ++ (startConnection L true a c).2, true)

end PptpProxy
