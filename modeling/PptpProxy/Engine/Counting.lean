/-
  Who counts sent bytes.

  `sent_bytes` is bumped in `on_tcp_sent` and nowhere else: `sentIn_exec` says what every event of the
  engine adds to it.  The functions of the source are gone through one by one, callees first.
-/
import PptpProxy.Engine.Safety

namespace PptpProxy

open CLib Sys

/-! ## The functions -/

/-- Anything but a bump of `sent_bytes`. -/
def Uncounted : Io → Prop
  | .countSent _ => False
  | _ => True

theorem sentIn_append (io io' : List Io) : sentIn (io ++ io') = sentIn io + sentIn io' := by
  simp [sentIn]

theorem sentIn_uncounted {io : List Io} (h : ∀ x ∈ io, Uncounted x) : sentIn io = 0 := by
  induction io with
  | nil => rfl
  | cons x io ih =>
    have hx : sentIn [x] = 0 := by
      have := h x List.mem_cons_self
      cases x with
      | countSent n => exact this.elim
      | _ => rfl
    rw [← List.singleton_append, sentIn_append, hx,
      ih fun y hy => h y (List.mem_cons_of_mem x hy)]

section

variable {L : Lwip} {up : Bool} {a : Answers} {c : Connection}

theorem uncounted_nil : ∀ x ∈ ([] : List Io), Uncounted x := fun _ h => by cases h

theorem uncounted_cons {x : Io} {io : List Io} (hx : Uncounted x) (h : ∀ y ∈ io, Uncounted y) :
    ∀ y ∈ x :: io, Uncounted y := List.forall_mem_cons.mpr ⟨hx, h⟩

theorem uncounted_append {io io' : List Io} (h : ∀ x ∈ io, Uncounted x)
    (h' : ∀ x ∈ io', Uncounted x) : ∀ x ∈ io ++ io', Uncounted x :=
  List.forall_mem_append.mpr ⟨h, h'⟩

theorem closeIo_uncounted (c : Connection) : ∀ x ∈ closeIo c, Uncounted x := by
  refine closeIo_all c (fun _ => trivial) ?_ (fun _ => trivial)
  simp [clearCallbacks, Uncounted]

theorem flushRemote_uncounted (a : Answers) (c : Connection) :
    ∀ x ∈ (flushRemote a c).2, Uncounted x :=
  flushRemote_all a c (fun _ _ => trivial) (fun _ _ _ => trivial) (fun _ => trivial)

theorem flushLocal_uncounted (w : WriteResult) : ∀ x ∈ (flushLocal w c).2, Uncounted x := by
  unfold flushLocal
  split
  · exact uncounted_nil
  · cases w with
    | wrote n =>
      dsimp only
      split
      · exact uncounted_cons trivial (closeIo_uncounted _)
      · exact uncounted_cons trivial uncounted_nil
    | retry => exact uncounted_nil
    | failed => exact closeIo_uncounted c

theorem onTcpReceive_uncounted (p : PcbId) (payload : Option Bytes) :
    ∀ x ∈ (onTcpReceive a p payload .ok c).2.1, Uncounted x := by
  cases payload with
  | none =>
    show ∀ x ∈ (onTcpFin a p c).2.1, Uncounted x
    rw [onTcpFin_eq]
    refine uncounted_append (finIo_all ?_ trivial trivial) (letGo_all trivial)
    simp [clearCallbacks, Uncounted]
  | some d =>
    simp only [onTcpReceive, ne_eq, not_true_eq_false, if_false]
    split <;> simp [Uncounted]

theorem onTcpConnected_uncounted (err : Err) :
    ∀ x ∈ (onTcpConnected a err c).2.1, Uncounted x := by
  unfold onTcpConnected
  split
  · exact closeIo_uncounted c
  · dsimp only
    split
    · exact flushRemote_uncounted a _
    · split
      · exact uncounted_cons trivial (closeIo_uncounted _)
      · exact uncounted_cons trivial (flushRemote_uncounted a _)

theorem connectIp_uncounted (address : IpAddr) : ∀ x ∈ (connectIp a address c).2, Uncounted x := by
  unfold connectIp
  dsimp only
  split
  · exact uncounted_nil
  · split
    · exact uncounted_cons trivial (closeIo_uncounted _)
    · have hopening : ∀ p port, ∀ x ∈ installCallbacks p ++
          [.tcpConnect p address port a.tcpConnect], Uncounted x := by
        simp [installCallbacks, Uncounted]
      split
      · exact uncounted_append (hopening _ _) (closeIo_uncounted _)
      · exact hopening _ _

theorem dnsDone_uncounted (address : Option IpAddr) :
    ∀ x ∈ (dnsDone a address c).2, Uncounted x := by
  cases address with
  | none => exact closeIo_uncounted _
  | some address => exact connectIp_uncounted address

theorem startConnection_uncounted (c : Connection) :
    ∀ x ∈ (startConnection L up a c).2, Uncounted x := by
  unfold startConnection
  split
  · exact closeIo_uncounted c
  · split
    · split
      · exact connectIp_uncounted _
      · exact closeIo_uncounted c
    · dsimp only
      split
      · exact uncounted_cons trivial (connectIp_uncounted _)
      · split
        · exact uncounted_cons trivial (closeIo_uncounted _)
        · exact uncounted_cons trivial uncounted_nil

theorem thenStart_uncounted {r : Connection × List Io × Bool} (h : ∀ x ∈ r.2.1, Uncounted x) :
    ∀ x ∈ (thenStart L up a r).2.1, Uncounted x := by
  obtain ⟨c, io, ok⟩ := r
  cases ok with
  | true => exact uncounted_append h (startConnection_uncounted c)
  | false => exact h

theorem parseConnect_uncounted (uri : Bytes) (c : Connection) :
    ∀ x ∈ (parseConnect uri c).2.1, Uncounted x := by
  unfold parseConnect
  split
  · exact uncounted_nil
  · dsimp only
    split
    · exact uncounted_nil
    · split
      · exact uncounted_nil
      · split
        · split
          · exact uncounted_cons trivial uncounted_nil
          · exact uncounted_cons trivial uncounted_nil
        · exact uncounted_nil

theorem parseAbsolute_uncounted (method uri version : Bytes) (n : Nat) (c : Connection) :
    ∀ x ∈ (parseAbsolute method uri version n c).2.1, Uncounted x := by
  rcases parseAbsolute_cases method uri version n c with ⟨c', hrun, -⟩ |
    ⟨authority, slash, host, port, path, line, -, -, -, -, -, hrun⟩
  · rw [hrun]
    exact uncounted_nil
  · rw [hrun]
    exact uncounted_nil

theorem parseHttpHead_uncounted (c : Connection) : ∀ x ∈ (parseHttpHead c).2.1, Uncounted x := by
  rcases parseHttpHead_cases c with hrun | ⟨n, method, uri, version, -, -, -, -, hrun⟩
  · rw [hrun]
    exact uncounted_nil
  · rw [hrun]
    split
    · exact parseConnect_uncounted uri c
    · exact parseAbsolute_uncounted method uri version n c

theorem parseSocksRequest_uncounted (c : Connection) :
    ∀ x ∈ (parseSocksRequest L up a c).2.1, Uncounted x := by
  unfold parseSocksRequest
  split
  · exact uncounted_nil
  · exact uncounted_nil
  · split
    · exact uncounted_nil
    · dsimp only
      split
      · exact thenStart_uncounted uncounted_nil
      · split
        · exact uncounted_cons trivial uncounted_nil
        · exact thenStart_uncounted (uncounted_cons trivial uncounted_nil)

theorem feedGreeting_uncounted {r : Connection × List Io × Bool} (h : feedGreeting c = some r) :
    ∀ x ∈ r.2.1, Uncounted x := by
  unfold feedGreeting at h
  split at h
  · cases h
  · dsimp only at h
    split at h
    · cases h
    · split at h
      · obtain rfl := Option.some.inj h
        exact uncounted_nil
      · split at h
        · obtain rfl := Option.some.inj h
          exact uncounted_cons trivial uncounted_nil
        · obtain rfl := Option.some.inj h
          exact uncounted_cons trivial uncounted_nil

theorem feedLocal_uncounted (d : Bytes) : ∀ x ∈ (feedLocal L up a c d).2.1, Uncounted x := by
  unfold feedLocal
  split
  · unfold feedStream
    split
    · exact uncounted_cons trivial uncounted_nil
    · exact uncounted_cons trivial uncounted_nil
  · split
    · exact uncounted_nil
    · unfold feedHeader
      split
      · split
        · exact uncounted_nil
        · rename_i hg
          exact feedGreeting_uncounted hg
        · rename_i hg
          exact uncounted_append (feedGreeting_uncounted hg) (parseSocksRequest_uncounted _)
      · exact parseSocksRequest_uncounted _
      · split
        · exact thenStart_uncounted (parseHttpHead_uncounted _)
        · exact uncounted_nil
      · exact uncounted_nil

theorem readClient_uncounted (r : ReadResult) : ∀ x ∈ (readClient L up a r c).2, Uncounted x := by
  cases r with
  | eof => exact closeIo_uncounted c
  | retry => exact uncounted_nil
  | failed => exact closeIo_uncounted c
  | data d =>
    have hread : ∀ x ∈ Io.read c.fd d :: (feedLocal L up a c d).2.1, Uncounted x :=
      uncounted_cons trivial (feedLocal_uncounted d)
    unfold readClient
    dsimp only
    split
    · exact uncounted_append hread (closeIo_uncounted _)
    · exact hread

theorem acceptSlot_uncounted (fd : Int) (kind : ListenerKind) (host : Bytes) (port : Int) :
    ∀ x ∈ (acceptSlot L up a fd kind host port).2, Uncounted x := by
  unfold acceptSlot
  dsimp only
  split
  · split
    · exact uncounted_cons trivial (closeIo_uncounted _)
    · exact uncounted_cons trivial (startConnection_uncounted _)
  · exact uncounted_cons trivial uncounted_nil

end

/-! ## The events -/

section

variable {L : Lwip} {s : State} {i : Slot}

/-- The interactions of a callback are its function's, behind what lwIP did before. -/
theorem callback_uncounted {p : PcbId} {pre : List Io}
    {f : Connection → Connection × List Io × Err} (hpre : ∀ x ∈ pre, Uncounted x)
    (hf : ∀ c, ∀ x ∈ (f c).2.1, Uncounted x) : ∀ x ∈ (s.callback p pre f).io, Uncounted x := by
  unfold State.callback
  split
  · exact uncounted_append hpre (hf _)
  · exact uncounted_nil

theorem closeAll_uncounted : ∀ x ∈ s.closeAll.2, Uncounted x := by
  refine forSlots_forall ?_
  intro i c
  split
  · exact closeIo_uncounted c
  · exact uncounted_nil

theorem accept_uncounted (l : Listener) (fd : Int) (nonblock : Bool) (a : Answers) :
    ∀ x ∈ (s.accept L l fd nonblock a).2, Uncounted x := by
  have hturned : ∀ x ∈ (s.turnAway fd).2, Uncounted x :=
    uncounted_cons trivial (uncounted_cons trivial uncounted_nil)
  unfold State.accept
  split
  · exact hturned
  · split
    · exact hturned
    · exact acceptSlot_uncounted fd _ _ _

theorem serve_uncounted (w : WriteResult) (r : ReadResult) (a : Answers) :
    ∀ x ∈ (s.serve L i w r a).2, Uncounted x := by
  have hwritten : ∀ x ∈ (s.written i w).2, Uncounted x := by
    unfold State.written
    split
    · exact flushLocal_uncounted w
    · exact uncounted_nil
  by_cases h0 : 0 ≤ (s.conn i).fd
  · rcases serve_cases L h0 w r a with ⟨-, he⟩ | ⟨-, -, he⟩
    · rw [he]
      exact hwritten
    · rw [he]
      exact uncounted_append hwritten (readClient_uncounted r)
  · unfold State.serve
    rw [if_pos (Int.not_le.mp h0)]
    exact uncounted_nil

/-- What an event adds to `sent_bytes`. -/
def Event.acknowledged : Event → Nat
  | .sent _ n _ => n
  | _ => 0

/-- **Only `on_tcp_sent` counts.** -/
theorem sentIn_exec (hg : Good s) {e : Event} (he : enabled s e) :
    sentIn (exec L s e).io = e.acknowledged := by
  cases e with
  | sent p n a =>
    obtain ⟨i, hi⟩ := hg.owner he (p := p) rfl
    show sentIn (s.callback p [] (onTcpSent a n)).io = n
    rw [hg.callback hi]
    show sentIn ([.countSent n] ++ (flushRemote a (s.conn i)).2) = n
    rw [sentIn_append, sentIn_uncounted (flushRemote_uncounted a _)]
    simp [sentIn]
  | top a =>
    refine sentIn_uncounted (forSlots_forall ?_)
    intro i c
    split
    · exact flushRemote_uncounted (a i) c
    · exact uncounted_nil
  | select _ _ => rfl
  | poll p a => exact sentIn_uncounted (callback_uncounted uncounted_nil (flushRemote_uncounted a))
  | error p =>
    exact sentIn_uncounted (callback_uncounted (uncounted_cons trivial uncounted_nil)
      fun c => closeIo_uncounted _)
  | receive p payload a =>
    exact sentIn_uncounted (callback_uncounted uncounted_nil
      fun c => onTcpReceive_uncounted p payload)
  | connected p err a =>
    refine sentIn_uncounted (callback_uncounted ?_ fun c => onTcpConnected_uncounted err)
    split
    · exact uncounted_cons trivial uncounted_nil
    · exact uncounted_nil
  | reap _ => rfl
  | dnsDone q address a =>
    exact sentIn_uncounted (uncounted_cons trivial (dnsDone_uncounted address))
  | pppStatus status tx rx now =>
    show sentIn (s.pppStatus status tx rx now).2 = 0
    by_cases hup : status = 0 ∧ tx = ciMppe ∧ rx = ciMppe
    · unfold State.pppStatus
      rw [if_pos hup]
      split <;> rfl
    · rw [pppStatus_down hup]
      exact sentIn_uncounted closeAll_uncounted
  | control _ _ _ => rfl
  | accept j fd nonblock a =>
    obtain ⟨-, ⟨l, hl, -⟩, -⟩ := he
    rw [exec_accept hl]
    exact sentIn_uncounted (accept_uncounted l fd nonblock a)
  | serve i w r a => exact sentIn_uncounted (serve_uncounted w r a)
  | stop => exact sentIn_uncounted closeAll_uncounted

end

end PptpProxy
