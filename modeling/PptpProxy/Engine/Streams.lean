/-
  Byte streams: what a client sends against what is handed to the remote, and back.

  The history of a slot holds every interaction since its client was accepted; four projections of
  it are the streams on the four ends (`clientIn`, `remoteOut`, `remoteIn`, `clientOut`).  The
  invariant `Streams` ties them to the two sliding buffers: what has been handed to `tcp_write`
  plus `to_remote` is `outgoing`, a FUNCTION of what the client has sent, and what has been written
  to the client plus `to_local` is the proxy's own replies plus what was received.

  The key fact about `outgoing` is that it grows at the end only (`outgoing_append`): once a request is
  known, more client bytes never change how it was read.
-/
import Mathlib.Data.List.GetD
import PptpProxy.Engine.Safety

namespace PptpProxy

open CLib Sys

/-! ## The four streams of a history -/

/-- Everything read from the client. -/
def clientIn (h : List Io) : Bytes := h.flatMap fun | .read _ d => d | _ => []

/-- Everything `tcp_write` accepted. -/
def remoteOut (h : List Io) : Bytes := h.flatMap fun | .tcpWrite _ d .ok => d | _ => []

/-- The payloads of the pbufs that were accepted. -/
def remoteIn (h : List Io) : Bytes := h.flatMap fun | .pbufCopyPartial d => d | _ => []

/-- Everything `write` took for the client. -/
def clientOut (h : List Io) : Bytes := h.flatMap fun | .write _ d => d | _ => []

section

variable (h l : List Io)

theorem clientIn_append : clientIn (h ++ l) = clientIn h ++ clientIn l := List.flatMap_append

theorem remoteOut_append : remoteOut (h ++ l) = remoteOut h ++ remoteOut l := List.flatMap_append

theorem remoteIn_append : remoteIn (h ++ l) = remoteIn h ++ remoteIn l := List.flatMap_append

theorem clientOut_append : clientOut (h ++ l) = clientOut h ++ clientOut l := List.flatMap_append

end

/-- Interactions that carry no byte of any stream. -/
def Silent (l : List Io) : Prop :=
  clientIn l = [] ∧ remoteOut l = [] ∧ remoteIn l = [] ∧ clientOut l = []

theorem Silent.of_forall {l : List Io} (h : ∀ x ∈ l, Silent [x]) : Silent l := by
  induction l with
  | nil => exact ⟨rfl, rfl, rfl, rfl⟩
  | cons x l ih =>
    obtain ⟨a1, a2, a3, a4⟩ := h x List.mem_cons_self
    obtain ⟨b1, b2, b3, b4⟩ := ih fun y hy => h y (List.mem_cons_of_mem x hy)
    rw [← List.singleton_append]
    refine ⟨?_, ?_, ?_, ?_⟩
    · rw [clientIn_append, a1, b1]
      rfl
    · rw [remoteOut_append, a2, b2]
      rfl
    · rw [remoteIn_append, a3, b3]
      rfl
    · rw [clientOut_append, a4, b4]
      rfl

theorem AppendsOnly.silent {l : List Io} (h : AppendsOnly l) : Silent l := by
  refine .of_forall (h.all ?_)
  intro l k n
  exact ⟨rfl, rfl, rfl, rfl⟩

/-- A write that failed has handed nothing over. -/
theorem Quiet.silent {up : Bool} {c : Connection} {l : List Io} (h : ∀ x ∈ l, Quiet up c x) :
    Silent l := by
  refine .of_forall fun x hx => ?_
  have hq := h x hx
  cases x with
  | tcpWrite p d r =>
    refine ⟨rfl, ?_, rfl, rfl⟩
    cases r with
    | ok => exact absurd rfl hq.2
    | _ => rfl
  | countSent _ => exact ⟨rfl, rfl, rfl, rfl⟩
  | tcpSndbuf _ _ => exact ⟨rfl, rfl, rfl, rfl⟩
  | dnsGethostbyname _ _ => exact ⟨rfl, rfl, rfl, rfl⟩
  | _ => exact hq.elim

/-- Without a new client the history grows at the end. -/
theorem record_append {l h : List Io} (hl : ∀ fd, Io.accept fd ∉ l) :
    l.foldl record h = h ++ l := by
  induction l generalizing h with
  | nil => rw [List.append_nil]; rfl
  | cons x l ih =>
    have hx : record h x = h ++ [x] := by
      cases x with
      | accept fd => exact absurd List.mem_cons_self (hl fd)
      | _ => rfl
    rw [List.foldl_cons, hx, ih fun fd hmem => hl fd (List.mem_cons_of_mem x hmem),
      List.append_assoc]
    rfl

/-! ## What a client's bytes ask for -/

/-- The bytes behind the first CRLFCRLF. -/
def afterHeader (b : Bytes) : Option Bytes := (findSub crlfcrlf b).map fun k => b.drop (k + 4)

/-- A plain HTTP request with its first line rewritten. -/
def rewritten (b : Bytes) : Option Bytes :=
  match findSub crlf b with
  | none => none
  | some n => (originRequest (b.take n)).map fun o => o.line ++ b.drop (n + 2)

/-- The bytes behind a SOCKS greeting and request. -/
def afterSocks (b : Bytes) : Option Bytes :=
  match decodeSocksRequest (b.drop (greetingLength b)) with
  | .target _ _ n => some (b.drop (greetingLength b + n))
  | _ => none

/-- What the remote is to get, given everything the client has sent. -/
def outgoing (c : Connection) (b : Bytes) : Option Bytes :=
  match c.kind with
  | .forward => some b
  | .socksProxy => afterSocks b
  | .httpProxy => if c.httpConnect then afterHeader b else rewritten b

/-- The bytes the proxy itself has to say to the client. -/
def replies (c : Connection) : Bytes :=
  (if c.kind = .socksProxy ∧ c.phase ≠ .socksGreeting then greetingOk else []) ++
    (if c.phase = .streaming then (connectedReply c).getD [] else [])

/-- A SOCKS request that is complete is read the same way whatever follows it. -/
theorem decodeSocksRequest_append {b host : Bytes} {port : Int} {n : Nat}
    (h : decodeSocksRequest b = .target host port n) (t : Bytes) :
    n ≤ b.length ∧ decodeSocksRequest (b ++ t) = .target host port n := by
  unfold decodeSocksRequest at h
  split at h
  · rename_i b0 b1 b2 b3 rest
    split at h
    · cases h
    · rename_i hhead
      split at h
      · -- an IPv4 address
        rename_i hv4
        split at h
        · rename_i a0 a1 a2 a3 p0 p1 more
          obtain ⟨rfl, rfl, rfl⟩ := SocksRequest.target.inj h
          refine ⟨by simp, ?_⟩
          simp only [List.cons_append, decodeSocksRequest]
          rw [if_neg hhead, if_pos hv4]
        · cases h
      · rename_i hv4
        split at h
        · -- a host name
          rename_i hname
          split at h
          · cases h
          · rename_i k more
            split at h
            · cases h
            · rename_i hk
              split at h
              · cases h
              · rename_i hlen
                obtain ⟨rfl, rfl, rfl⟩ := SocksRequest.target.inj h
                refine ⟨by simp only [List.length_cons]; omega, ?_⟩
                simp only [List.cons_append, decodeSocksRequest]
                rw [if_neg hhead, if_neg hv4, if_pos hname, if_neg hk,
                  if_neg (by rw [List.length_append]; omega),
                  List.take_append_of_le_length (by omega),
                  List.getD_append _ _ _ _ (by omega), List.getD_append _ _ _ _ (by omega)]
        · cases h
  · cases h

/-- A greeting says how long it is with its second byte. -/
theorem greetingLength_append {b : Bytes} (h : 2 ≤ b.length) (t : Bytes) :
    greetingLength (b ++ t) = greetingLength b := by
  unfold greetingLength
  rw [List.getD_append _ _ _ _ (by omega)]

theorem decodeSocksRequest_nil : decodeSocksRequest [] = .wait := rfl

/-- **The outgoing stream grows at the end.** -/
theorem outgoing_append {c : Connection} {b out : Bytes} (h : outgoing c b = some out) (t : Bytes) :
    outgoing c (b ++ t) = some (out ++ t) := by
  unfold outgoing at h ⊢
  split at h
  · obtain rfl := Option.some.inj h
    rfl
  · unfold afterSocks at h ⊢
    split at h
    · rename_i host port n hdecode
      obtain rfl := Option.some.inj h
      -- the greeting is complete, so its length does not change
      have hlong : greetingLength b < b.length := by
        by_contra hle
        rw [List.drop_eq_nil_of_le (Nat.not_lt.mp hle), decodeSocksRequest_nil] at hdecode
        cases hdecode
      have hgreeting : greetingLength (b ++ t) = greetingLength b := by
        have htwo : 2 ≤ greetingLength b := Nat.le_add_right 2 _
        exact greetingLength_append (by omega) t
      obtain ⟨hn, hdecode'⟩ := decodeSocksRequest_append hdecode t
      rw [List.length_drop] at hn
      rw [hgreeting, List.drop_append_of_le_length (by omega), hdecode']
      dsimp only
      rw [List.drop_append_of_le_length (by omega)]
    · cases h
  · split at h
    · rename_i hconnect
      rw [if_pos hconnect]
      unfold afterHeader at h ⊢
      obtain ⟨k, hk, rfl⟩ := Option.map_eq_some_iff.mp h
      have hlen : k + 4 ≤ b.length := (findSub_split hk).2
      rw [findSub_append t hk, Option.map_some, List.drop_append_of_le_length hlen]
    · rename_i hconnect
      rw [if_neg hconnect]
      unfold rewritten at h ⊢
      cases hn : findSub crlf b with
      | none =>
        rw [hn] at h
        cases h
      | some n =>
        rw [hn] at h
        obtain ⟨o, ho, rfl⟩ := Option.map_eq_some_iff.mp h
        have hlen : n + 2 ≤ b.length := (findSub_split hn).2
        rw [findSub_append t hn]
        dsimp only
        rw [List.take_append_of_le_length (by omega), ho, Option.map_some,
          List.drop_append_of_le_length hlen, List.append_assoc]

/-! ## The invariant -/

/-- What a slot that still collects its request has of it: `b` is all the client has sent. -/
def Collects (c : Connection) (b : Bytes) : Prop :=
  match c.phase with
  | .proxyHeader => c.kind = .httpProxy ∧ c.httpConnect = false ∧ c.header = b
  | .socksGreeting => c.kind = .socksProxy ∧ c.header = b
  | .socksRequest =>
    c.kind = .socksProxy ∧ 2 ≤ b.length ∧ greetingLength b ≤ b.length ∧
      c.header = b.drop (greetingLength b)
  | _ => True

/-- The streams of a live slot. -/
structure Streams (c : Connection) (h : List Io) : Prop where
  collects : Collects c (clientIn h)
  /-- Nothing passes in either direction before the slot streams. -/
  early : c.phase ≠ .streaming → remoteOut h = [] ∧ remoteIn h = []
  toRemote : c.phase.relaying = true →
    outgoing c (clientIn h) = some (remoteOut h ++ c.toRemote)
  toClient : clientOut h ++ c.toLocal = replies c ++ remoteIn h

/-- The slots whose client is still there. -/
def LiveStreams (c : Connection) (h : List Io) : Prop := 0 ≤ c.fd → Streams c h

/-- The streams after some more interactions with the same client. -/
theorem Streams.grow {c' : Connection} {h l : List Io} (hno : ∀ fd, Io.accept fd ∉ l)
    (hcollects : Collects c' (clientIn h ++ clientIn l))
    (hearly : c'.phase ≠ .streaming →
      remoteOut h ++ remoteOut l = [] ∧ remoteIn h ++ remoteIn l = [])
    (hremote : c'.phase.relaying = true → outgoing c' (clientIn h ++ clientIn l) =
      some (remoteOut h ++ remoteOut l ++ c'.toRemote))
    (hclient : clientOut h ++ clientOut l ++ c'.toLocal =
      replies c' ++ (remoteIn h ++ remoteIn l)) : Streams c' (l.foldl record h) := by
  rw [record_append hno]
  refine ⟨?_, ?_, ?_, ?_⟩
  · rw [clientIn_append]
    exact hcollects
  · rw [remoteOut_append, remoteIn_append]
    exact hearly
  · rw [clientIn_append, remoteOut_append]
    exact hremote
  · rw [clientOut_append, remoteIn_append]
    exact hclient

/-- Interactions without a byte change no stream. -/
theorem Streams.silent {c c' : Connection} {h l : List Io} (hs : Streams c h) (hl : Silent l)
    (hno : ∀ fd, Io.accept fd ∉ l) (hcollects : Collects c' (clientIn h))
    (hearly : c'.phase ≠ .streaming → c.phase ≠ .streaming)
    (hremote : c'.phase.relaying = true →
      outgoing c' (clientIn h) = some (remoteOut h ++ c'.toRemote))
    (hclient : clientOut h ++ c'.toLocal = replies c' ++ remoteIn h) :
    Streams c' (l.foldl record h) := by
  obtain ⟨h1, h2, h3, h4⟩ := hl
  refine Streams.grow hno ?_ ?_ ?_ ?_
  · rw [h1, List.append_nil]
    exact hcollects
  · intro hp
    rw [h2, h3, List.append_nil, List.append_nil]
    exact hs.early (hearly hp)
  · rw [h1, h2, List.append_nil, List.append_nil]
    exact hremote
  · rw [h3, h4, List.append_nil, List.append_nil]
    exact hclient

theorem Collects.of_relaying {c : Connection} {b : Bytes} (h : c.phase.collecting = false) :
    Collects c b := by
  unfold Collects
  split
  · rename_i hp
    rw [hp] at h
    cases h
  · rename_i hp
    rw [hp] at h
    cases h
  · rename_i hp
    rw [hp] at h
    cases h
  · exact trivial

/-- A request that has found its target: the first bytes for the remote are the outgoing stream. -/
theorem Targets.outgoing {up : Bool} {c c' : Connection} {io h : List Io} (ht : Targets c io c')
    (hok : SlotOk up c) (hs : Streams c h) :
    outgoing c' (clientIn h) = some (remoteOut h ++ c'.toRemote) ∧
      c'.kind = c.kind ∧ c'.toLocal = c.toLocal := by
  have hcol := ht.frame.2.2.2
  have hns : c.phase ≠ .streaming := ConnectionPhase.ne_of_collecting hcol rfl
  have hempty := hok.unasked hcol
  obtain ⟨hout, -⟩ := hs.early hns
  have hc := hs.collects
  unfold Collects at hc
  cases ht with
  | connect hphase _ _ _ hk =>
    rw [hphase] at hc
    obtain ⟨hkind, -, hheader⟩ := hc
    refine ⟨?_, rfl, rfl⟩
    unfold PptpProxy.outgoing afterHeader
    simp only [hkind, if_true, ← hheader, hk, hout, hempty, List.nil_append, Option.map_some]
  | origin hphase hn _ hline =>
    rw [hphase] at hc
    obtain ⟨hkind, hconnect, hheader⟩ := hc
    refine ⟨?_, rfl, rfl⟩
    unfold PptpProxy.outgoing rewritten
    simp only [hkind, hconnect, ← hheader, hn, hline, hout, List.nil_append, Option.map_some]
    rfl
  | socks hphase hdecode =>
    rw [hphase] at hc
    obtain ⟨hkind, -, -, hheader⟩ := hc
    refine ⟨?_, rfl, rfl⟩
    unfold PptpProxy.outgoing afterSocks
    simp only [hkind, ← hheader, hdecode, hout, hempty, List.nil_append]
    rw [hheader, List.drop_drop]

theorem Collects.read {c : Connection} {b d : Bytes} (h : Collects c b) :
    Collects { c with header := c.header ++ d } (b ++ d) := by
  unfold Collects at h ⊢
  dsimp only
  split at h
  · obtain ⟨h1, h2, h3⟩ := h
    exact ⟨h1, h2, by rw [h3]⟩
  · obtain ⟨h1, h3⟩ := h
    exact ⟨h1, by rw [h3]⟩
  · obtain ⟨h1, h2, h3, h4⟩ := h
    rw [greetingLength_append h2, List.length_append]
    refine ⟨h1, by omega, by omega, ?_⟩
    rw [h4, List.drop_append_of_le_length h3]
  · exact trivial

theorem AppendsOnly.no_accept {l : List Io} (h : AppendsOnly l) (fd : Int) : Io.accept fd ∉ l := by
  intro hmem
  exact h.all (P := fun x => x ≠ .accept fd) (fun _ _ _ he => by cases he) _ hmem rfl

theorem AppendsOnly.no_accept_cons {l : List Io} (h : AppendsOnly l) {x : Io}
    (hx : ∀ fd, x ≠ .accept fd) (fd : Int) : Io.accept fd ∉ x :: l := by
  intro hmem
  rcases List.mem_cons.mp hmem with he | hmem
  · exact hx fd he.symm
  · exact h.no_accept fd hmem

/-! ### The moves that carry bytes -/

section

variable {c : Connection} {h : List Io}

theorem Streams.readHeader (hs : Streams c h) (hphase : c.phase.collecting = true) (d : Bytes) :
    Streams { c with header := c.header ++ d } ([.read c.fd d].foldl record h) := by
  have hin : clientIn [.read c.fd d] = d := List.append_nil d
  refine Streams.grow (by simp) ?_ ?_ ?_ ?_
  · rw [hin]
    exact hs.collects.read
  · intro hp
    obtain ⟨h1, h2⟩ := hs.early hp
    exact ⟨by rw [h1]; rfl, by rw [h2]; rfl⟩
  · intro hr
    rw [ConnectionPhase.not_collecting hr] at hphase
    cases hphase
  · show clientOut h ++ [] ++ c.toLocal = replies c ++ (remoteIn h ++ [])
    rw [List.append_nil, List.append_nil]
    exact hs.toClient

/-- The answer to a greeting is the first thing a SOCKS client gets. -/
theorem Streams.greet {io : List Io} (hs : Streams c h) (hphase : c.phase = .socksGreeting)
    (htwo : 2 ≤ c.header.length) (hlen : greetingLength c.header ≤ c.header.length)
    (hio : AppendsOnly io) :
    Streams { c with toLocal := c.toLocal ++ greetingOk, phase := .socksRequest,
                     header := c.header.drop (greetingLength c.header) } (io.foldl record h) := by
  have hns : c.phase ≠ .streaming := by rw [hphase]; decide
  have hc := hs.collects
  unfold Collects at hc
  rw [hphase] at hc
  obtain ⟨hkind, hheader⟩ := hc
  obtain ⟨-, hnone⟩ := hs.early hns
  refine hs.silent hio.silent hio.no_accept ?_ (fun _ => hns) (fun hr => (by cases hr)) ?_
  · rw [← hheader]
    exact ⟨hkind, htwo, hlen, rfl⟩
  · have hr : replies c = [] := by
      simp [replies, hphase]
    have hr' : replies { c with toLocal := c.toLocal ++ greetingOk, phase := .socksRequest,
                                header := c.header.drop (greetingLength c.header) } =
        greetingOk := by
      simp [replies, hkind]
    have hclient := hs.toClient
    rw [hr, hnone] at hclient
    rw [hr', hnone]
    dsimp only
    rw [← List.append_assoc, hclient]
    rfl

theorem Streams.target {up : Bool} {c₁ : Connection} {io : List Io} (hs : Streams c h)
    (hok : SlotOk up c) (ht : Targets c io c₁) (hio : AppendsOnly io) :
    Streams { c₁ with phase := .resolving } (io.foldl record h) := by
  obtain ⟨hout, hkind, hlocal⟩ := ht.outgoing hok hs
  have hphase : c.phase = .proxyHeader ∨ c.phase = .socksRequest := by
    cases ht with
    | connect hp _ _ _ _ => exact Or.inl hp
    | origin hp _ _ _ => exact Or.inl hp
    | socks hp _ => exact Or.inr hp
  have hns : c.phase ≠ .streaming := by
    rcases hphase with hp | hp
    · rw [hp]
      decide
    · rw [hp]
      decide
  have hsame : replies { c₁ with phase := .resolving } = replies c := by
    unfold replies
    dsimp only
    rw [hkind, if_neg hns]
    rcases hphase with hp | hp
    · simp [hp]
    · simp [hp]
  refine hs.silent hio.silent hio.no_accept trivial (fun _ => hns) (fun _ => hout) ?_
  rw [hsame]
  dsimp only
  rw [hlocal]
  exact hs.toClient

/-- The reply to a request is the last thing the proxy says on its own. -/
theorem Streams.connect {p : PcbId} {io : List Io} (hs : Streams c h)
    (hphase : c.phase = .connecting) (hio : AppendsOnly io) :
    Streams { c with phase := .streaming, toLocal := c.toLocal ++ (connectedReply c).getD [] }
      ((.connected p :: io).foldl record h) := by
  have hns : c.phase ≠ .streaming := by rw [hphase]; decide
  have hr : c.phase.relaying = true := by rw [hphase]; rfl
  obtain ⟨-, hnone⟩ := hs.early hns
  have hsame : replies { c with phase := .streaming,
                                toLocal := c.toLocal ++ (connectedReply c).getD [] } =
      replies c ++ (connectedReply c).getD [] := by
    simp [replies, hphase, connectedReply]
  refine hs.silent ?_ ?_ trivial (fun _ => hns) (fun _ => hs.toRemote hr) ?_
  · refine .of_forall fun x hx => ?_
    rcases List.mem_cons.mp hx with rfl | hx
    · exact ⟨rfl, rfl, rfl, rfl⟩
    · obtain ⟨_, _, _, rfl, -⟩ := hio x hx
      exact ⟨rfl, rfl, rfl, rfl⟩
  · exact hio.no_accept_cons (by simp)
  · have hclient := hs.toClient
    rw [hnone, List.append_nil] at hclient
    rw [hsame, hnone, List.append_nil, ← List.append_assoc, hclient]

theorem Streams.flush (hs : Streams c h) (hphase : c.phase = .streaming) (p : PcbId)
    (space count : Nat) :
    Streams { c with toRemote := c.toRemote.drop count }
      ([.tcpSndbuf p space, .tcpWrite p (c.toRemote.take count) .ok, .tcpOutput p].foldl
        record h) := by
  have hr : c.phase.relaying = true := by rw [hphase]; rfl
  have hout : remoteOut [.tcpSndbuf p space, .tcpWrite p (c.toRemote.take count) .ok,
      .tcpOutput p] = c.toRemote.take count := List.append_nil _
  refine Streams.grow (by simp) (.of_relaying ?_) (fun hp => absurd hphase hp) ?_ ?_
  · show c.phase.collecting = false
    rw [hphase]
    rfl
  · intro _
    rw [hout]
    show PptpProxy.outgoing c (clientIn h ++ []) = _
    rw [List.append_nil, List.append_assoc, List.take_append_drop]
    exact hs.toRemote hr
  · show clientOut h ++ [] ++ c.toLocal = replies c ++ (remoteIn h ++ [])
    rw [List.append_nil, List.append_nil]
    exact hs.toClient

theorem Streams.receive (hs : Streams c h) (hphase : c.phase = .streaming) (p : PcbId)
    (d : Bytes) :
    Streams { c with toLocal := c.toLocal ++ d }
      ([.pbufCopyPartial d, .countReceived d.length, .tcpRecved p d.length].foldl record h) := by
  have hr : c.phase.relaying = true := by rw [hphase]; rfl
  have hin : remoteIn [.pbufCopyPartial d, .countReceived d.length, .tcpRecved p d.length] = d :=
    List.append_nil _
  refine Streams.grow (by simp) (.of_relaying ?_) (fun hp => absurd hphase hp) ?_ ?_
  · show c.phase.collecting = false
    rw [hphase]
    rfl
  · intro _
    show PptpProxy.outgoing c (clientIn h ++ []) = some (remoteOut h ++ [] ++ c.toRemote)
    rw [List.append_nil, List.append_nil]
    exact hs.toRemote hr
  · rw [hin]
    show clientOut h ++ [] ++ (c.toLocal ++ d) = replies c ++ (remoteIn h ++ d)
    rw [List.append_nil, ← List.append_assoc, hs.toClient, List.append_assoc]

theorem Streams.drain (hs : Streams c h) (n : Nat) :
    Streams { c with toLocal := c.toLocal.drop n }
      ([.write c.fd (c.toLocal.take n)].foldl record h) := by
  have hout : clientOut [.write c.fd (c.toLocal.take n)] = c.toLocal.take n := List.append_nil _
  refine Streams.grow (by simp) ?_ ?_ ?_ ?_
  · show Collects c (clientIn h ++ [])
    rw [List.append_nil]
    exact hs.collects
  · intro hp
    obtain ⟨h1, h2⟩ := hs.early hp
    exact ⟨by rw [h1]; rfl, by rw [h2]; rfl⟩
  · intro hr
    show PptpProxy.outgoing c (clientIn h ++ []) = some (remoteOut h ++ [] ++ c.toRemote)
    rw [List.append_nil, List.append_nil]
    exact hs.toRemote hr
  · rw [hout]
    show _ = replies c ++ (remoteIn h ++ [])
    rw [List.append_nil, List.append_assoc, List.take_append_drop]
    exact hs.toClient

theorem Streams.readStream {io : List Io} (hs : Streams c h) (hphase : c.phase.relaying = true)
    (d : Bytes) (hio : AppendsOnly io) :
    Streams { c with toRemote := c.toRemote ++ d } ((.read c.fd d :: io).foldl record h) := by
  obtain ⟨h1, h2, h3, h4⟩ := hio.silent
  have hin : clientIn (.read c.fd d :: io) = d := by
    show d ++ clientIn io = d
    rw [h1, List.append_nil]
  refine Streams.grow ?_ (.of_relaying ?_) ?_ ?_ ?_
  · exact hio.no_accept_cons (by simp)
  · exact ConnectionPhase.not_collecting hphase
  · intro hp
    obtain ⟨e1, e2⟩ := hs.early hp
    exact ⟨by rw [e1]; exact h2, by rw [e2]; exact h3⟩
  · intro _
    rw [hin]
    show PptpProxy.outgoing c (clientIn h ++ d) =
      some (remoteOut h ++ remoteOut io ++ (c.toRemote ++ d))
    rw [h2, List.append_nil, outgoing_append (hs.toRemote hphase) d, List.append_assoc]
  · show clientOut h ++ clientOut io ++ c.toLocal = replies c ++ (remoteIn h ++ remoteIn io)
    rw [h3, h4, List.append_nil, List.append_nil]
    exact hs.toClient

/-- FIN carries no byte. -/
theorem Streams.finish (hs : Streams c h) (p : PcbId) (r : Err) :
    Streams { c with remoteClosed := true, tcp := none }
      ((clearCallbacks p ++ Io.tcpClose p r :: (if r = .ok then [] else [.tcpAbort p])).foldl
        record h) := by
  refine hs.silent ?_ ?_ hs.collects id hs.toRemote hs.toClient
  · refine .of_forall fun x hx => ?_
    rcases List.mem_append.mp hx with hx | hx
    · simp only [clearCallbacks, List.mem_cons, List.not_mem_nil, or_false] at hx
      rcases hx with rfl | rfl | rfl | rfl | rfl <;> exact ⟨rfl, rfl, rfl, rfl⟩
    · rcases List.mem_cons.mp hx with rfl | hx
      · exact ⟨rfl, rfl, rfl, rfl⟩
      · split at hx
        · cases hx
        · obtain rfl := List.mem_singleton.mp hx
          exact ⟨rfl, rfl, rfl, rfl⟩
  · intro fd hmem
    simp only [clearCallbacks, List.cons_append, List.nil_append, List.mem_cons, reduceCtorEq,
      false_or] at hmem
    split at hmem <;> simp at hmem

end

/-- **A move keeps the streams of its slot.** -/
theorem LiveStreams.move {up : Bool} {c c' : Connection} {io h : List Io} (hs : LiveStreams c h)
    (hok : SlotOk up c) (hm : Move up c io c') : LiveStreams c' (io.foldl record h) := by
  have hgone : ∀ {c₁ : Connection}, Closed c c₁ → LiveStreams c₁ (io.foldl record h) := by
    intro c₁ hc hfd
    rw [hc.fd] at hfd
    exact absurd hfd (by decide)
  cases hm with
  | quiet hq =>
    intro hfd
    have hs := hs hfd
    refine hs.silent (Quiet.silent hq) ?_ hs.collects id hs.toRemote hs.toClient
    intro fd hmem
    exact hq _ hmem
  | accepted hfree hidle hkind =>
    rename_i fd kind
    intro _
    cases kind with
    | forward => exact absurd rfl hkind
    | httpProxy => exact ⟨⟨rfl, rfl, rfl⟩, fun _ => ⟨rfl, rfl⟩, fun hr => (by cases hr), rfl⟩
    | socksProxy => exact ⟨⟨rfl, rfl⟩, fun _ => ⟨rfl, rfl⟩, fun hr => (by cases hr), rfl⟩
  | acceptedForward _ _ _ =>
    intro _
    exact ⟨trivial, fun _ => ⟨rfl, rfl⟩, fun _ => rfl, rfl⟩
  | acceptClosed _ _ hc => exact hgone hc
  | openFailed _ _ _ _ _ hc => exact hgone hc
  | closed _ hc => exact hgone hc
  | readHeader hfd hphase _ => exact fun _ => (hs hfd).readHeader hphase _
  | greeted hfd hphase htwo hlen _ hio => exact fun _ => (hs hfd).greet hphase htwo hlen hio
  | targeted _ hfd ht _ hio => exact fun _ => (hs hfd).target hok ht hio
  | asked _ hfd _ _ =>
    intro _
    have hs := hs hfd
    exact hs.silent ⟨rfl, rfl, rfl, rfl⟩ (by simp) hs.collects id hs.toRemote hs.toClient
  | answered =>
    intro hfd
    have hs := hs hfd
    exact hs.silent ⟨rfl, rfl, rfl, rfl⟩ (by simp) hs.collects id hs.toRemote hs.toClient
  | opened hup hfd hphase hidle =>
    rename_i p address
    intro _
    have hs := hs hfd
    have hns : c.phase ≠ .streaming := by rw [hphase]; decide
    have hr : c.phase.relaying = true := by rw [hphase]; rfl
    have hsame : replies { c with tcp := some p, phase := .connecting } = replies c := by
      simp [replies, hphase]
    refine hs.silent ⟨rfl, rfl, rfl, rfl⟩ (by simp [installCallbacks]) trivial (fun _ => hns)
      (fun _ => hs.toRemote hr) ?_
    rw [hsame]
    exact hs.toClient
  | connected _ hphase _ hio => exact fun hfd => (hs hfd).connect hphase hio
  | flushed _ hphase => exact fun hfd => (hs hfd).flush hphase _ _ _
  | received _ hphase _ => exact fun hfd => (hs hfd).receive hphase _ _
  | finished _ _ => exact fun hfd => (hs hfd).finish _ _
  | errored _ =>
    intro hfd
    have hs := hs hfd
    exact hs.silent ⟨rfl, rfl, rfl, rfl⟩ (by simp) hs.collects id hs.toRemote hs.toClient
  | drained hfd => exact fun _ => (hs hfd).drain _
  | readStream hfd hphase _ hio => exact fun _ => (hs hfd).readStream hphase _ hio

/-! ## Every run -/

/-- A property of a slot and its history that every move keeps is kept by a path. -/
theorem Path.slots {P : Connection → List Io → Prop} {clients answers : Prop} {s s' : State}
    {io : List Io}
    (hmove : ∀ up c io c' h, SlotOk up c → Move up c io c' → P c h → P c' (io.foldl record h))
    (hp : Path clients answers s io s') (hg : Good s)
    (h : ∀ i, P (s.conn i) (s.history i)) : ∀ i, P (s'.conn i) (s'.history i) := by
  induction hp with
  | nil => exact h
  | @move s s' j c' io io' hm hf _ ih =>
    refine ih (hg.move hm hf) fun i => ?_
    show P (Function.update s.conn j c' i)
      (Function.update s.history j (io.foldl record (s.history j)) i)
    by_cases hij : i = j
    · subst hij
      rw [Function.update_self, Function.update_self]
      exact hmove _ _ _ _ _ (hg.slots i) hm (h i)
    · rw [Function.update_of_ne hij, Function.update_of_ne hij]
      exact h i
  | @env s s₁ s' io io' he _ ih =>
    have hsame : s₁.conn = s.conn ∧ s₁.history = s.history := by cases he <;> exact ⟨rfl, rfl⟩
    refine ih (he.good hg) ?_
    rw [hsame.1, hsame.2]
    exact h

theorem Turn.history {s s' : State} (h : Turn s s') : s'.history = s.history := by
  cases h <;> rfl

/-- ... and by every run of the engine. -/
theorem reach_slots {P : Connection → List Io → Prop} {L : Lwip} {s : State}
    (hmove : ∀ up c io c' h, SlotOk up c → Move up c io c' → P c h → P c' (io.foldl record h))
    (hinit : P Connection.initial []) (h : (engine L).Reach s) :
    ∀ i, P (s.conn i) (s.history i) := by
  refine System.Reach.invariant (P := fun s => ∀ i, P (s.conn i) (s.history i)) ?_ ?_ h
  · rintro s ⟨_, _, _, _, _, _, _, -, -, -, -, rfl⟩ i
    exact hinit
  · intro s e hr hP he
    obtain ⟨s₁, hp, ht⟩ := exec_path L (reach_good hr) he
    have hP₁ := hp.slots hmove (reach_good hr) hP
    show ∀ i, P ((exec L s e).state.conn i) ((exec L s e).state.history i)
    rw [ht.conn, ht.history]
    exact hP₁

theorem reach_streams {L : Lwip} {s : State} (h : (engine L).Reach s) (i : Slot) :
    LiveStreams (s.conn i) (s.history i) := by
  refine reach_slots (P := LiveStreams) (fun up c io c' h hok hm hs => hs.move hok hm) ?_ h i
  intro h0
  exact absurd h0 (by decide)

end PptpProxy
