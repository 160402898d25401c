/-
  How the bytes of an HTTP client are cut into reads.

  `feedSegments` feeds a list of reads to `feed_local` the way the main loop does: a slot that relays
  is read again only once it streams and the read gate is open, and between two reads some of
  `to_remote` may have been flushed.  `feedSegments_eq` computes the verdict from the WHOLE byte
  stream; of the cut only one thing is left in it, how many bytes had been read when the header block
  was complete (`readAtHeader`).

  It is left because `feed_local` compares `header_len + length` with MAX_HEADER before it looks
  for the end of the header, so that body bytes which share a read with it count as header.
  `verdict_cut_iff` says which pairs of cuts agree, and `verdict_cut_fails` is a pair that does not.
-/
import PptpProxy.Engine.Start
import PptpProxy.Engine.Streams

namespace PptpProxy

open CLib

/-! ## What a header block asks for -/

/-- The target of a request and whether it is a CONNECT, from its first line. -/
def requestTarget (b : Bytes) : Option (Bytes × Int × Bool) :=
  match findSub crlf b with
  | none => none
  | some n =>
    if n > 2048 then none
    else
      match scanRequestLine (b.take n) with
      | none => none
      | some (method, uri, version) =>
        if ¬ ascii "HTTP/1." <+: version then none
        else if method = ascii "CONNECT" then
          (parseAuthority uri 256 443).map fun (host, port) => (host, port, true)
        else (originRequest (b.take n)).map fun o => (o.host, o.port, false)

/-- The first line does not change when bytes follow. -/
theorem requestTarget_append {b : Bytes} {n : Nat} (hn : findSub crlf b = some n) (t : Bytes) :
    requestTarget (b ++ t) = requestTarget b := by
  have hlen := (findSub_split hn).2
  unfold requestTarget
  rw [findSub_append t hn, hn]
  dsimp only
  rw [List.take_append_of_le_length (by omega)]

/-- The end of a header is also the end of a line. -/
theorem findSub_crlf_of_crlfcrlf {b : Bytes} {k : Nat} (hk : findSub crlfcrlf b = some k) :
    ∃ n, findSub crlf b = some n := by
  have hline : b = b.take k ++ crlf ++ (crlf ++ b.drop (k + crlfcrlf.length)) := by
    rw [← List.append_assoc, List.append_assoc _ crlf crlf]
    exact (findSub_split hk).1
  obtain ⟨n, hn, -⟩ := findSub_le_of_split hline
  exact ⟨n, hn⟩

/-- `set_target` takes whatever `parse_authority` returns. -/
theorem setTarget_parseAuthority {authority host : Bytes} {port dflt : Int} (c : Connection)
    (hdflt : validPort dflt = true) (h : parseAuthority authority 256 dflt = some (host, port)) :
    setTarget c host port = some { c with host := host, port := port } := by
  obtain ⟨-, -, hne, hlen, hport⟩ := parseAuthority_cases h
  have hvalid : validPort port = true := by
    rcases hport with ⟨-, -, rfl⟩ | ⟨k, -, -, -, -, hmin, hmax⟩
    · exact hdflt
    · exact decide_eq_true (by omega)
  unfold setTarget
  rw [if_neg]
  rw [hvalid, List.length_eq_zero_iff]
  rintro (hnil | hlong | hbad)
  · exact hne hnil
  · omega
  · cases hbad

section

variable {c : Connection} {k n : Nat}

/-- The CONNECT branch fails only when its authority does. -/
theorem parseConnect_spec (uri : Bytes) (hempty : c.toRemote = [])
    (hlen : c.header.length < maxHeader) (hk : strstr (cstr c.header) crlfcrlf = some k) :
    (parseAuthority uri 256 443 = none → (parseConnect uri c).2.2 = false) ∧
    ∀ host port, parseAuthority uri 256 443 = some (host, port) →
      ∃ io, AppendCalls io ∧
        parseConnect uri c = ({ c with httpConnect := true, host := host, port := port,
                                       toRemote := c.header.drop (k + 4) }, io, true) := by
  unfold parseConnect
  cases hauth : parseAuthority uri 256 443 with
  | none => exact ⟨fun _ => rfl, fun _ _ h => (by cases h)⟩
  | some t =>
    refine ⟨fun h => (by cases h), ?_⟩
    rintro host port h
    obtain rfl := Option.some.inj h
    dsimp only
    rw [setTarget_parseAuthority _ (by decide) hauth]
    dsimp only
    rw [hk]
    dsimp only
    split
    · have hfit : ([] : Bytes).length + (c.header.drop (k + 4)).length ≤ bufferSize := by
        simp only [maxHeader] at hlen
        simp only [List.length_nil, List.length_drop, bufferSize]
        omega
      rw [hempty, appendBytes_of_room hfit (by decide)]
      exact ⟨_, appendCalls_one _ _, rfl⟩
    · rw [List.drop_eq_nil_of_le (by omega), ← hempty]
      exact ⟨_, appendCalls_nil, rfl⟩

/-- The absolute-form branch does what `originRequest` says. -/
theorem parseAbsolute_spec {method uri version : Bytes} (hlen : c.header.length < maxHeader)
    (hscan : scanRequestLine (c.header.take n) = some (method, uri, version))
    (hver : ascii "HTTP/1." <+: version) (hmethod : method ≠ ascii "CONNECT") :
    (originRequest (c.header.take n) = none →
      (parseAbsolute method uri version n c).2.2 = false) ∧
    ∀ o, originRequest (c.header.take n) = some o →
      parseAbsolute method uri version n c =
        ({ c with host := o.host, port := o.port,
                  toRemote := o.line ++ c.header.drop (n + 2) }, [], true) := by
  have hshort : ∀ o, originRequest (c.header.take n) = some o → o.line.length < 4096 :=
    fun o => originRequest_length
  generalize hq : originRequest (c.header.take n) = q at hshort ⊢
  unfold originRequest at hq
  rw [hscan] at hq
  dsimp only at hq
  rw [if_neg (by simp [hver, hmethod])] at hq
  unfold parseAbsolute
  cases habs : absoluteAuthority uri with
  | none =>
    rw [habs] at hq
    subst hq
    exact ⟨fun _ => rfl, fun _ h => (by cases h)⟩
  | some t =>
    obtain ⟨authority, slash⟩ := t
    rw [habs] at hq
    dsimp only at hq ⊢
    cases hauth : parseAuthority authority 256 80 with
    | none =>
      rw [hauth] at hq
      subst hq
      exact ⟨fun _ => rfl, fun _ h => (by cases h)⟩
    | some t =>
      obtain ⟨host, port⟩ := t
      rw [hauth] at hq
      dsimp only
      rw [setTarget_parseAuthority _ (by decide) hauth]
      dsimp only
      cases hpath : originPath slash with
      | none =>
        rw [hpath] at hq
        subst hq
        exact ⟨fun _ => rfl, fun _ h => (by cases h)⟩
      | some path =>
        rw [hpath] at hq
        dsimp only at hq ⊢
        cases hline : newFirst method path version with
        | none =>
          rw [hline] at hq
          subst hq
          exact ⟨fun _ => rfl, fun _ h => (by cases h)⟩
        | some line =>
          rw [hline] at hq
          subst hq
          refine ⟨fun h => (by cases h), ?_⟩
          rintro o h
          have hroom := hshort o h
          obtain rfl := Option.some.inj h
          dsimp only at hroom ⊢
          rw [if_neg]
          simp only [maxHeader] at hlen
          simp only [List.length_drop, bufferSize]
          omega

/-- **What `parse_http` does with a complete header**: it takes the target of the first line, and
    what it puts into `to_remote` is the outgoing stream so far. -/
theorem parseHttpHead_spec (hkind : c.kind = .httpProxy) (hconnect : c.httpConnect = false)
    (hempty : c.toRemote = []) (hlen : c.header.length < maxHeader)
    (hk : strstr (cstr c.header) crlfcrlf = some k) :
    (requestTarget c.header = none → (parseHttpHead c).2.2 = false) ∧
    ∀ host port connect, requestTarget c.header = some (host, port, connect) →
      ∃ io image, AppendCalls io ∧
        parseHttpHead c = ({ c with httpConnect := connect, host := host, port := port,
                                    toRemote := image }, io, true) ∧
        outgoing { c with httpConnect := connect } c.header = some image := by
  obtain ⟨n, hn⟩ : ∃ n, strstr (cstr c.header) crlf = some n := findSub_crlf_of_crlfcrlf hk
  have hn' : findSub crlf c.header = some n := findSub_of_isPrefix (cstr_isPrefix _) hn
  have hk' : findSub crlfcrlf c.header = some k := findSub_of_isPrefix (cstr_isPrefix _) hk
  unfold requestTarget parseHttpHead
  rw [if_neg (by omega), hn, hn']
  dsimp only
  split
  · exact ⟨fun _ => rfl, fun _ _ _ h => (by cases h)⟩
  · cases hscan : scanRequestLine (c.header.take n) with
    | none => exact ⟨fun _ => rfl, fun _ _ _ h => (by cases h)⟩
    | some t =>
      obtain ⟨method, uri, version⟩ := t
      dsimp only
      split
      · exact ⟨fun _ => rfl, fun _ _ _ h => (by cases h)⟩
      · rename_i hver
        split
        · -- CONNECT: what follows the header goes out as it is
          obtain ⟨hnone, hsome⟩ := parseConnect_spec uri hempty hlen hk
          refine ⟨fun h => hnone (Option.map_eq_none_iff.mp h), ?_⟩
          rintro host port connect h
          obtain ⟨⟨host', port'⟩, hauth, he⟩ := Option.map_eq_some_iff.mp h
          obtain ⟨rfl, rfl, rfl⟩ : host' = host ∧ port' = port ∧ true = connect := by
            simpa using he
          obtain ⟨io, happ, hio⟩ := hsome _ _ hauth
          refine ⟨io, _, happ, hio, ?_⟩
          unfold outgoing afterHeader
          simp only [hkind, if_true, hk', Option.map_some]
        · -- any other method: the header goes out too, with its first line rewritten
          rename_i hmethod
          obtain ⟨hnone, hsome⟩ := parseAbsolute_spec hlen hscan (by simpa using hver) hmethod
          refine ⟨fun h => hnone (Option.map_eq_none_iff.mp h), ?_⟩
          rintro host port connect h
          obtain ⟨o, ho, he⟩ := Option.map_eq_some_iff.mp h
          obtain ⟨rfl, rfl, rfl⟩ : o.host = host ∧ o.port = port ∧ false = connect := by
            simpa using he
          refine ⟨[], _, appendCalls_nil, by rw [hsome o ho, ← hconnect], ?_⟩
          unfold outgoing rewritten
          simp only [hkind, hn', ho, Option.map_some]
          rfl

end

/-! ## Reads -/

/-- One read of the client: how many bytes of `to_remote` were flushed before it, and its data. -/
structure Segment where
  flushed : Nat
  data : Bytes
  deriving DecidableEq, Repr

/-- The slot at the time of the read; one that relays streams by then. -/
def Segment.ready (g : Segment) (c : Connection) : Connection :=
  { c with phase := if c.phase.relaying then .streaming else c.phase
           toRemote := c.toRemote.drop g.flushed }

/-- What becomes of a client's bytes.  The content is all that was put into `to_remote`; there is
    none when the connection could not be started. -/
inductive Verdict
  | waiting
  | rejected
  | accepted (host : Bytes) (port : Int) (httpConnect : Bool) (content : Option Bytes)
  deriving DecidableEq, Repr

/-- The verdict on a slot of which `sent` was flushed. -/
def verdict (c : Connection) (sent : Bytes) : Verdict :=
  if c.fd < 0 then .accepted c.host c.port c.httpConnect none
  else if c.phase.collecting then .waiting
  else .accepted c.host c.port c.httpConnect (some (sent ++ c.toRemote))

/-- A slot that `feed_local` gives up is closed; otherwise `next` happens to it. -/
def unlessRejected (next : Connection → Verdict) : Connection × List Io × Bool → Verdict
  | (_, _, false) => .rejected
  | (c, _, true) => next c

/-- The reads of a client through `feed_local`, with the link up. -/
def feedSegments (L : Lwip) (a : Answers) : Connection → Bytes → List Segment → Verdict
  | c, sent, [] => verdict c sent
  | c, sent, g :: gs =>
    if c.fd < 0 then verdict c sent
    else
      unlessRejected (fun c' => feedSegments L a c' (sent ++ c.toRemote.take g.flushed) gs)
        (feedLocal L true a (g.ready c) g.data)

/-- The main loop reads only through its gate. -/
def Gated (L : Lwip) (a : Answers) : Connection → List Segment → Prop
  | _, [] => True
  | c, g :: gs => 0 ≤ c.fd → State.readGate (g.ready c) = true ∧
      Gated L a (feedLocal L true a (g.ready c) g.data).1 gs

def bytesOf (gs : List Segment) : Bytes := gs.flatMap Segment.data

/-- A way of cutting the stream `b` of the client `fd` into reads. -/
structure Cut (L : Lwip) (a : Answers) (fd : Int) (b : Bytes) (gs : List Segment) : Prop where
  stream : bytesOf gs = b
  sizes : ∀ g ∈ gs, g.data ≠ [] ∧ g.data.length ≤ 8192
  gated : Gated L a (Connection.accepted fd .httpProxy) gs

/-- How many bytes have been read once at least `m` have; `n` were read before. -/
def readAtHeader (m : Nat) : Nat → List Segment → Nat
  | n, [] => n
  | n, g :: gs => if m ≤ n then n else readAtHeader m (n + g.data.length) gs

theorem readAtHeader_of_le {m n : Nat} (h : m ≤ n) (gs : List Segment) :
    readAtHeader m n gs = n := by
  cases gs with
  | nil => rfl
  | cons g gs => exact if_pos h

/-! ## The verdict on a stream -/

/-- The verdict on the whole stream `b` whose header block ends at `k + 4`; `fits` is all that is
    left of the cut. -/
def streamVerdict (L : Lwip) (a : Answers) (b : Bytes) (k : Nat) (fits : Bool) : Verdict :=
  if 0 ∈ b.take (k + 4) then
    if b.length < maxHeader then .waiting else .rejected
  else
    match requestTarget (b.take (k + 4)) with
    | none => .rejected
    | some (host, port, connect) =>
      if fits = false then .rejected
      else
        .accepted host port connect (if opens L a host = true then
          outgoing { Connection.accepted 0 .httpProxy with httpConnect := connect } b else none)

section

variable {L : Lwip} {a : Answers}

/-- No read of a slot that was closed matters. -/
theorem feedSegments_closed {c : Connection} (h : c.fd < 0) (sent : Bytes) (gs : List Segment) :
    feedSegments L a c sent gs = verdict c sent := by
  cases gs with
  | nil => rfl
  | cons g gs =>
    unfold feedSegments
    exact if_pos h

/-- A slot that relays takes every read the gate lets through. -/
theorem feedSegments_relaying {gs : List Segment} {c : Connection} {sent : Bytes} (h0 : 0 ≤ c.fd)
    (hr : c.phase.relaying = true) (hsizes : ∀ g ∈ gs, g.data.length ≤ 8192)
    (hgate : Gated L a c gs) :
    feedSegments L a c sent gs =
      .accepted c.host c.port c.httpConnect (some (sent ++ c.toRemote ++ bytesOf gs)) := by
  induction gs generalizing c sent with
  | nil =>
    have hcol : c.phase.collecting = false := ConnectionPhase.not_collecting hr
    unfold feedSegments verdict bytesOf
    rw [if_neg (by omega), hcol, List.flatMap_nil, List.append_nil]
    rfl
  | cons g gs ih =>
    obtain ⟨hopen, hrest⟩ := hgate h0
    have hready : g.ready c = { c with phase := .streaming, toRemote := c.toRemote.drop g.flushed } := by
      unfold Segment.ready
      rw [hr]
      rfl
    -- the gate leaves 8192 bytes of room, and no read is longer
    have hroom : (c.toRemote.drop g.flushed).length + g.data.length ≤ bufferSize := by
      rw [hready] at hopen
      unfold State.readGate at hopen
      rw [decide_eq_true_iff] at hopen
      have hlen := hsizes g List.mem_cons_self
      have hsmall := hopen.2.2.1
      dsimp only at hsmall
      simp only [bufferSize] at hsmall ⊢
      omega
    have hfeed : feedLocal L true a (g.ready c) g.data =
        ({ c with phase := .streaming, toRemote := c.toRemote.drop g.flushed ++ g.data },
          [appendIo (c.toRemote.drop g.flushed) bufferSize g.data], true) := by
      rw [hready]
      unfold feedLocal
      rw [if_pos (Or.inl rfl)]
      unfold feedStream
      dsimp only
      rw [appendBytes_of_room hroom (by decide)]
    unfold feedSegments
    rw [if_neg (by omega), hfeed]
    dsimp only [unlessRejected]
    rw [hfeed] at hrest
    rw [ih (c := { c with phase := .streaming, toRemote := c.toRemote.drop g.flushed ++ g.data }) h0
      rfl (fun g' hg' => hsizes g' (List.mem_cons_of_mem g hg')) hrest]
    -- what was flushed moved from `to_remote` to `sent`: together they have not changed
    unfold bytesOf
    rw [List.flatMap_cons, List.append_assoc sent, ← List.append_assoc (c.toRemote.take _),
      List.take_append_drop]
    simp only [List.append_assoc]

/-- A slot that has read `b` and has not found the end of the header. -/
def collected (fd : Int) (b : Bytes) : Connection :=
  { Connection.accepted fd .httpProxy with header := b }

/-- One read of such a slot. -/
theorem feedLocal_collected (fd : Int) (b : Bytes) (g : Segment) :
    feedLocal L true a (g.ready (collected fd b)) g.data =
      if b.length + g.data.length ≥ maxHeader then (collected fd b, [], false)
      else if (strstr (cstr (b ++ g.data)) crlfcrlf).isSome then
        parseHttp L true a (collected fd (b ++ g.data))
      else (collected fd (b ++ g.data), [], true) := by
  have hready : g.ready (collected fd b) = collected fd b := by
    unfold Segment.ready collected
    show ({ collected fd b with toRemote := [].drop g.flushed } : Connection) = _
    rw [List.drop_nil]
    rfl
  rw [hready]
  rfl

theorem feedSegments_collected {fd : Int} (h0 : 0 ≤ fd) (b : Bytes) (g : Segment)
    (gs : List Segment) :
    feedSegments L a (collected fd b) [] (g :: gs) =
      unlessRejected (fun c' => feedSegments L a c' [] gs)
        (feedLocal L true a (g.ready (collected fd b)) g.data) := by
  have htake : [] ++ (collected fd b).toRemote.take g.flushed = [] := List.take_nil
  have hopen : ¬ (collected fd b).fd < 0 := Int.not_lt.mpr h0
  rw [feedSegments, if_neg hopen, htake]

/-! ### When the code sees the end of the header -/

section

variable {s b : Bytes} {k : Nat}

/-- A hit in what has been read is the hit of the whole stream. -/
theorem hit_eq {j : Nat} (hk : findSub crlfcrlf s = some k) (hb : b <+: s)
    (hj : strstr (cstr b) crlfcrlf = some j) : j = k ∧ k + 4 ≤ (cstr b).length := by
  have hsame := findSub_of_isPrefix ((cstr_isPrefix b).trans hb) hj
  obtain rfl := Option.some.inj (hsame.symm.trans hk)
  exact ⟨rfl, (findSub_split hj).2⟩

theorem no_hit_of_short (hk : findSub crlfcrlf s = some k) (hb : b <+: s)
    (hlen : b.length < k + 4) : strstr (cstr b) crlfcrlf = none := by
  cases hj : strstr (cstr b) crlfcrlf with
  | none => rfl
  | some j =>
    have hle := (cstr_isPrefix b).length_le
    have := (hit_eq hk hb hj).2
    omega

/-- A NUL in the header block hides its end for good. -/
theorem no_hit_of_nul (hk : findSub crlfcrlf s = some k) (hb : b <+: s)
    (hnul : 0 ∈ s.take (k + 4)) : strstr (cstr b) crlfcrlf = none := by
  cases hj : strstr (cstr b) crlfcrlf with
  | none => rfl
  | some j =>
    have hlen := (hit_eq hk hb hj).2
    have hblock : s.take (k + 4) <+: cstr b := by
      refine List.prefix_of_prefix_length_le (List.take_prefix _ _)
        ((cstr_isPrefix b).trans hb) ?_
      rw [List.length_take]
      omega
    exact absurd rfl (ne_zero_of_mem_cstr (hblock.subset hnul))

theorem hit_of_complete (hk : findSub crlfcrlf s = some k) (hb : b <+: s)
    (hlen : k + 4 ≤ b.length) (hnul : 0 ∉ s.take (k + 4)) :
    (∃ t, b = s.take (k + 4) ++ t) ∧ strstr (cstr b) crlfcrlf = some k := by
  have hblock : s.take (k + 4) <+: b := by
    refine List.prefix_of_prefix_length_le (List.take_prefix _ _) hb ?_
    rw [List.length_take]
    omega
  obtain ⟨t, rfl⟩ := hblock
  refine ⟨⟨t, rfl⟩, ?_⟩
  rw [cstr_append fun x hx h => hnul (h ▸ hx)]
  exact findSub_append _ (findSub_take hk (Nat.le_refl _))

end

/-! ### The two ways through the header -/

/-- With a NUL in the header block the slot collects until its buffer is full. -/
theorem feedSegments_nul {fd : Int} {s b : Bytes} {k : Nat} {gs : List Segment} (h0 : 0 ≤ fd)
    (hk : findSub crlfcrlf s = some k) (hnul : 0 ∈ s.take (k + 4)) (hb : b.length < maxHeader)
    (hs : b ++ bytesOf gs = s) :
    feedSegments L a (collected fd b) [] gs =
      if s.length < maxHeader then .waiting else .rejected := by
  induction gs generalizing b with
  | nil =>
    unfold bytesOf at hs
    rw [List.flatMap_nil, List.append_nil] at hs
    subst hs
    have hopen : ¬ (collected fd b).fd < 0 := Int.not_lt.mpr h0
    unfold feedSegments verdict
    rw [if_neg hopen, if_pos hb]
    rfl
  | cons g gs ih =>
    have hs' : (b ++ g.data) ++ bytesOf gs = s := by
      rw [List.append_assoc]
      exact hs
    have hlen : s.length = b.length + g.data.length + (bytesOf gs).length := by
      rw [← hs', List.length_append, List.length_append]
    rw [feedSegments_collected h0, feedLocal_collected]
    by_cases hfull : b.length + g.data.length ≥ maxHeader
    · rw [if_pos hfull, if_neg (by omega)]
      rfl
    · rw [if_neg hfull, no_hit_of_nul hk ⟨_, hs'⟩ hnul]
      refine (ih ?_ hs')
      rw [List.length_append]
      omega

/-- `outgoing` reads the kind of listener and the CONNECT flag. -/
theorem outgoing_congr (c c' : Connection) (hkind : c'.kind = c.kind)
    (hconnect : c'.httpConnect = c.httpConnect) (b : Bytes) : outgoing c' b = outgoing c b := by
  unfold outgoing
  rw [hkind, hconnect]

/-- The read that completes a header block without NUL. -/
theorem feedSegments_complete {fd : Int} {s b : Bytes} {k : Nat} {gs : List Segment} (h0 : 0 ≤ fd)
    (hk : findSub crlfcrlf s = some k) (hnul : 0 ∉ s.take (k + 4)) (hb : k + 4 ≤ b.length)
    (hroom : b.length < maxHeader) (hs : b ++ bytesOf gs = s)
    (hsizes : ∀ g ∈ gs, g.data.length ≤ 8192)
    (hgate : Gated L a (parseHttp L true a (collected fd b)).1 gs) :
    unlessRejected (fun c' => feedSegments L a c' [] gs) (parseHttp L true a (collected fd b)) =
      streamVerdict L a s k true := by
  obtain ⟨⟨t, ht⟩, hhit⟩ := hit_of_complete hk ⟨_, hs⟩ hb hnul
  obtain ⟨n, hn⟩ := findSub_crlf_of_crlfcrlf (findSub_take hk (Nat.le_refl (k + 4)))
  have htarget : requestTarget b = requestTarget (s.take (k + 4)) := by
    rw [ht]
    exact requestTarget_append hn t
  obtain ⟨hnone, hsome⟩ := parseHttpHead_spec (c := collected fd b) rfl rfl rfl hroom hhit
  unfold streamVerdict
  rw [if_neg hnul, ← htarget]
  cases hreq : requestTarget b with
  | none =>
    have hfalse := hnone hreq
    have hparse : parseHttp L true a (collected fd b) =
        ((parseHttpHead (collected fd b)).1, (parseHttpHead (collected fd b)).2.1, false) := by
      unfold parseHttp thenStart
      split
      · rename_i heq
        rw [heq] at hfalse
        cases hfalse
      · rename_i heq
        rw [heq]
    rw [hparse]
    rfl
  | some target =>
    obtain ⟨host, port, connect⟩ := target
    obtain ⟨io, image, -, hhead, himage⟩ := hsome host port connect hreq
    have hdial := startConnection_dialled (L := L) (a := a)
      (c := { collected fd b with httpConnect := connect, host := host, port := port,
                                  toRemote := image }) h0 (fun h => by cases h)
    have hparse : parseHttp L true a (collected fd b) =
        ((startConnection L true a { collected fd b with
            httpConnect := connect, host := host, port := port, toRemote := image }).1,
          io ++ (startConnection L true a { collected fd b with
            httpConnect := connect, host := host, port := port, toRemote := image }).2, true) := by
      unfold parseHttp thenStart
      rw [hhead]
    rw [hparse] at hgate ⊢
    dsimp only [unlessRejected] at hgate ⊢
    -- from here on only what `Dialled` says about the slot counts
    generalize (startConnection L true a { collected fd b with
      httpConnect := connect, host := host, port := port, toRemote := image }).1 = c' at hdial hgate
    rw [if_neg (by decide)]
    obtain ⟨hhost, hport, hconnect, hway, hgone⟩ := hdial
    dsimp only at hhost hport hconnect hway hgone
    cases hopen : opens L a host with
    | true =>
      obtain ⟨hfd, hrelay, hremote⟩ := hway hopen
      have hopen' : 0 ≤ c'.fd := by
        rw [hfd]
        exact h0
      rw [feedSegments_relaying hopen' hrelay hsizes hgate, hhost, hport, hconnect, hremote,
        if_pos rfl, List.nil_append, ← hs]
      congr 1
      have himage' := (outgoing_congr { collected fd b with httpConnect := connect }
        { Connection.accepted 0 .httpProxy with httpConnect := connect } rfl rfl b).trans himage
      exact (outgoing_append himage' (bytesOf gs)).symm
    | false =>
      have hclosed := hgone hopen
      rw [feedSegments_closed hclosed]
      unfold verdict
      rw [if_pos hclosed, hhost, hport, hconnect]
      rfl

/-- Without a NUL the slot collects until the header block is complete. -/
theorem feedSegments_block {fd : Int} {s b : Bytes} {k : Nat} {gs : List Segment} (h0 : 0 ≤ fd)
    (hk : findSub crlfcrlf s = some k) (hnul : 0 ∉ s.take (k + 4)) (hshort : k + 4 < maxHeader)
    (hb : b.length < k + 4) (hs : b ++ bytesOf gs = s) (hsizes : ∀ g ∈ gs, g.data.length ≤ 8192)
    (hgate : Gated L a (collected fd b) gs) :
    feedSegments L a (collected fd b) [] gs =
      streamVerdict L a s k (decide (readAtHeader (k + 4) b.length gs < maxHeader)) := by
  induction gs generalizing b with
  | nil =>
    -- the whole stream is longer than that
    unfold bytesOf at hs
    rw [List.flatMap_nil, List.append_nil] at hs
    subst hs
    have hlen : k + 4 ≤ b.length := (findSub_split hk).2
    omega
  | cons g gs ih =>
    have hs' : (b ++ g.data) ++ bytesOf gs = s := by
      rw [List.append_assoc]
      exact hs
    have hlen : (b ++ g.data).length = b.length + g.data.length := List.length_append
    have hsizes' : ∀ g' ∈ gs, g'.data.length ≤ 8192 :=
      fun g' hg' => hsizes g' (List.mem_cons_of_mem g hg')
    have hread : readAtHeader (k + 4) b.length (g :: gs) =
        readAtHeader (k + 4) (b ++ g.data).length gs := by
      rw [hlen]
      exact if_neg (by omega)
    obtain ⟨-, hgate'⟩ := hgate h0
    rw [hread, feedSegments_collected h0]
    rw [feedLocal_collected] at hgate' ⊢
    by_cases hfull : b.length + g.data.length ≥ maxHeader
    · -- this read completes the block, but does not fit: `feed_local` gives up without looking
      rw [if_pos hfull, readAtHeader_of_le (by omega), decide_eq_false (by omega)]
      unfold streamVerdict
      rw [if_neg hnul]
      split <;> rfl
    · rw [if_neg hfull] at hgate' ⊢
      by_cases hdone : k + 4 ≤ (b ++ g.data).length
      · have hhit := (hit_of_complete hk ⟨_, hs'⟩ hdone hnul).2
        rw [hhit, Option.isSome_some, if_pos rfl] at hgate' ⊢
        rw [readAtHeader_of_le hdone, decide_eq_true (by omega)]
        exact feedSegments_complete h0 hk hnul hdone (by omega) hs' hsizes' hgate'
      · rw [no_hit_of_short hk ⟨_, hs'⟩ (by omega)] at hgate' ⊢
        exact ih (by omega) hs' hsizes' hgate'

/-- **The verdict on a cut stream.**  It depends on the cut only through whether less than MAX_HEADER
    bytes had been read when the header block was complete. -/
theorem feedSegments_eq {fd : Int} {s : Bytes} {k : Nat} {gs : List Segment} (h0 : 0 ≤ fd)
    (hk : findSub crlfcrlf s = some k) (hshort : k + 4 < maxHeader) (hcut : Cut L a fd s gs) :
    feedSegments L a (Connection.accepted fd .httpProxy) [] gs =
      streamVerdict L a s k (decide (readAtHeader (k + 4) 0 gs < maxHeader)) := by
  by_cases hnul : 0 ∈ s.take (k + 4)
  · have h := feedSegments_nul (L := L) (a := a) (b := []) h0 hk hnul (by decide)
      hcut.stream
    unfold streamVerdict
    rw [if_pos hnul]
    exact h
  · exact feedSegments_block (b := []) h0 hk hnul hshort (by simp) hcut.stream
      (fun g hg => (hcut.sizes g hg).2) hcut.gated

end

/-! ## Which cuts agree -/

/-- The header block is one the proxy can serve: it has no NUL, and a first line with a target. -/
def Servable (block : Bytes) : Prop := 0 ∉ block ∧ requestTarget block ≠ none

/-- Less than MAX_HEADER bytes have been read when the block that ends at `k + 4` is complete. -/
def HeaderFits (k : Nat) (gs : List Segment) : Prop := readAtHeader (k + 4) 0 gs < maxHeader

/-- **Cuts that agree.**  Two ways of cutting a stream with a header block shorter than MAX_HEADER
    into reads get the same verdict if and only if the block is none the proxy can serve, or both
    have read less than MAX_HEADER bytes when it is complete, or neither has. -/
theorem verdict_cut_iff {L : Lwip} {a : Answers} {fd : Int} (h0 : 0 ≤ fd) {s : Bytes} {k : Nat}
    (hk : findSub crlfcrlf s = some k) (hshort : k + 4 < maxHeader) {gs gs' : List Segment}
    (hcut : Cut L a fd s gs) (hcut' : Cut L a fd s gs') :
    feedSegments L a (Connection.accepted fd .httpProxy) [] gs =
        feedSegments L a (Connection.accepted fd .httpProxy) [] gs' ↔
      ¬ Servable (s.take (k + 4)) ∨ (HeaderFits k gs ↔ HeaderFits k gs') := by
  rw [feedSegments_eq h0 hk hshort hcut, feedSegments_eq h0 hk hshort hcut']
  unfold Servable HeaderFits streamVerdict
  by_cases hnul : 0 ∈ s.take (k + 4)
  · rw [if_pos hnul, if_pos hnul]
    exact ⟨fun _ => Or.inl fun h => h.1 hnul, fun _ => rfl⟩
  · rw [if_neg hnul, if_neg hnul]
    cases hreq : requestTarget (s.take (k + 4)) with
    | none => exact ⟨fun _ => Or.inl fun h => h.2 rfl, fun _ => rfl⟩
    | some target =>
      obtain ⟨host, port, connect⟩ := target
      by_cases hfit : readAtHeader (k + 4) 0 gs < maxHeader
      · by_cases hfit' : readAtHeader (k + 4) 0 gs' < maxHeader
        · simp [hfit, hfit']
        · simp [hfit, hfit', hnul]
      · by_cases hfit' : readAtHeader (k + 4) 0 gs' < maxHeader
        · simp [hfit, hfit', hnul]
        · simp [hfit, hfit']

/-! ### A request with a body -/

/-- The header of a request with a body of 8192 bytes. -/
def postHeader : Bytes := ascii "POST http://10.0.0.1/ HTTP/1.1\r\nContent-Length: 8192\r\n\r\n"

/-- So many bytes of the body. -/
def postBody (n : Nat) : Bytes := List.replicate n 65

theorem postBody_length (n : Nat) : (postBody n).length = n := List.length_replicate

theorem postBody_append (m n : Nat) : postBody m ++ postBody n = postBody (m + n) :=
  List.replicate_append_replicate

/-- The header alone may come in one read or in two. -/
theorem verdict_cut_post :
    feedSegments sampleLwip (willing 0) (Connection.accepted 20 .httpProxy) [] [⟨0, postHeader⟩] =
      feedSegments sampleLwip (willing 0) (Connection.accepted 20 .httpProxy) []
        [⟨0, postHeader.take 20⟩, ⟨0, postHeader.drop 20⟩] := by
  have hone : Cut sampleLwip (willing 0) 20 postHeader [⟨0, postHeader⟩] :=
    ⟨by decide, by decide, fun _ => ⟨by decide, trivial⟩⟩
  have htwo : Cut sampleLwip (willing 0) 20 postHeader
      [⟨0, postHeader.take 20⟩, ⟨0, postHeader.drop 20⟩] :=
    ⟨by decide, by decide, fun _ => ⟨by decide, fun _ => ⟨by decide, trivial⟩⟩⟩
  refine (verdict_cut_iff (k := 52) (by decide) (by decide) (by decide) hone htwo).mpr (Or.inr ?_)
  unfold HeaderFits
  decide

/-- With the body behind it, it is accepted when the two come in reads of their own and rejected
    when the first read is a full one. -/
theorem verdict_cut_fails : ¬ ∀ (L : Lwip) (a : Answers) (fd : Int) (s : Bytes) (k : Nat)
    (gs gs' : List Segment), 0 ≤ fd → findSub crlfcrlf s = some k → k + 4 < maxHeader →
    Cut L a fd s gs → Cut L a fd s gs' →
    feedSegments L a (Connection.accepted fd .httpProxy) [] gs =
      feedSegments L a (Connection.accepted fd .httpProxy) [] gs' := by
  intro hall
  have hlen : postHeader.length = 56 := by decide
  have hk : findSub crlfcrlf (postHeader ++ postBody 8192) = some 52 :=
    findSub_append _ (by decide)
  have hsize : ∀ {d d' : Bytes}, d.length ≠ 0 ∧ d.length ≤ 8192 → d'.length ≠ 0 ∧ d'.length ≤ 8192 →
      ∀ g ∈ [Segment.mk 0 d, Segment.mk 0 d'], g.data ≠ [] ∧ g.data.length ≤ 8192 := by
    rintro d d' ⟨h1, h2⟩ ⟨h3, h4⟩ g hg
    rcases List.mem_cons.mp hg with rfl | hg
    · exact ⟨fun h => h1 (List.length_eq_zero_iff.mpr h), h2⟩
    · obtain rfl := List.mem_singleton.mp hg
      exact ⟨fun h => h3 (List.length_eq_zero_iff.mpr h), h4⟩
  have hapart : Cut sampleLwip (willing 0) 20 (postHeader ++ postBody 8192)
      [⟨0, postHeader⟩, ⟨0, postBody 8192⟩] := by
    refine ⟨?_, hsize (by rw [hlen]; decide) (by rw [postBody_length]; decide),
      fun _ => ⟨by decide, fun _ => ⟨by decide, trivial⟩⟩⟩
    simp only [bytesOf, List.flatMap_cons, List.flatMap_nil, List.append_nil]
  have hfirst : (postHeader ++ postBody 8136).length = 8192 := by
    rw [List.length_append, hlen, postBody_length]
  have hfull : Cut sampleLwip (willing 0) 20 (postHeader ++ postBody 8192)
      [⟨0, postHeader ++ postBody 8136⟩, ⟨0, postBody 56⟩] := by
    refine ⟨?_, hsize (by rw [hfirst]; decide) (by rw [postBody_length]; decide),
      fun _ => ⟨by decide, ?_⟩⟩
    · simp only [bytesOf, List.flatMap_cons, List.flatMap_nil, List.append_nil, List.append_assoc,
        postBody_append]
    · have hfeed := feedLocal_collected (L := sampleLwip) (a := willing 0) 20 []
        ⟨0, postHeader ++ postBody 8136⟩
      rw [if_pos (by rw [hfirst]; decide)] at hfeed
      have hstart : collected 20 [] = Connection.accepted 20 .httpProxy := rfl
      rw [hstart] at hfeed
      rw [hfeed]
      exact fun _ => ⟨by decide, trivial⟩
  have heq := hall _ _ _ _ _ _ _ (by decide) hk (by decide) hapart hfull
  rw [feedSegments_eq (by decide) hk (by decide) hapart,
    feedSegments_eq (by decide) hk (by decide) hfull] at heq
  have hfits : readAtHeader 56 0 [⟨0, postHeader⟩, ⟨0, postBody 8192⟩] = 56 := by
    rw [readAtHeader, if_neg (by decide), Nat.zero_add, hlen]
    exact readAtHeader_of_le (by decide) _
  have hover : readAtHeader 56 0 [⟨0, postHeader ++ postBody 8136⟩, ⟨0, postBody 56⟩] = 8192 := by
    rw [readAtHeader, if_neg (by decide), Nat.zero_add, hfirst]
    exact readAtHeader_of_le (by decide) _
  have hblock : (postHeader ++ postBody 8192).take 56 = postHeader := hlen ▸ List.take_left
  have htarget : requestTarget postHeader = some (ascii "10.0.0.1", 80, false) := by decide
  rw [hfits, hover] at heq
  unfold streamVerdict at heq
  rw [hblock, if_neg (by decide), if_neg (by decide), htarget] at heq
  exact absurd heq (by simp [maxHeader])

end PptpProxy
