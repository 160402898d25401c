/-
  The buffers between the header and the remote.

  `parse_http` copies what it reads through `first`, `method`, `uri`, `version`, `authority_copy`,
  `query_path` and `new_first`, each with a size and a check of its own.  Most of these checks cannot
  fail: a request line has at most 2048 bytes, its tokens and the blanks between them fit it
  (`words_sum`), and from there on only a `/` and a CRLF are added.  `parseHttpWhole` is `parse_http`
  with the 255 bytes of the authority as its only limit behind the request line, and
  `parseHttpHead_whole` says that it computes the same, as long as the method and the version have no
  more than their 19 bytes.

  `PassedOn` is what the parsers get to see in a run of the engine: a header with room left in its
  array, and nothing for the remote yet.  The SOCKS side is in `Socks.Access`.
-/
import PptpProxy.Http.Accepted
import PptpProxy.Socks.Access
import PptpProxy.Engine.Safety

namespace PptpProxy

open CLib

/-! ## `parse_http` without its buffers -/

/-- `sscanf(first, "%s %s %s", method, uri, version)`, with fields of any width. -/
def threeWords (line : Bytes) : Option (Bytes × Bytes × Bytes) :=
  match words line with
  | method :: uri :: version :: _ => some (method, uri, version)
  | _ => none

/-- `path`, with a `query_path` of any size. -/
def pathWhole : Option Bytes → Bytes
  | none => ascii "/"
  | some slash => if slash.head? = some 63 then 47 :: slash else slash

/-- The request line in origin form, with a `new_first` of any size. -/
def lineWhole (method : Bytes) (slash : Option Bytes) (version : Bytes) : Bytes :=
  method ++ [32] ++ pathWhole slash ++ [32] ++ version ++ crlf

/-- `parseConnect`, with a `to_remote` of any size. -/
def parseConnectWhole (uri : Bytes) (c : Connection) : Connection × Bool :=
  match parseAuthority uri 256 443 with
  | none => (c, false)
  | some (host, port) =>
    let c := { c with httpConnect := true }
    match setTarget c host port with
    | none => (c, false)
    | some c =>
      match strstr (cstr c.header) crlfcrlf with
      | none => (c, false)
      | some endOfHeaders =>
        ({ c with toRemote := c.toRemote ++ c.header.drop (endOfHeaders + 4) }, true)

/-- `parseAbsolute`, with a `query_path`, a `new_first` and a `to_remote` of any size. -/
def parseAbsoluteWhole (method uri version : Bytes) (firstLen : Nat) (c : Connection) :
    Connection × Bool :=
  match absoluteAuthority uri with
  | none => (c, false)
  | some (authority, slash) =>
    match parseAuthority authority 256 80 with
    | none => (c, false)
    | some (host, port) =>
      match setTarget c host port with
      | none => (c, false)
      | some c =>
        ({ c with toRemote := lineWhole method slash version ++ c.header.drop (firstLen + 2) }, true)

/-- `parse_http` up to `start_connection` with the limits on the header, the request line and the
    authority alone. -/
def parseHttpWhole (c : Connection) : Connection × Bool :=
  if c.header.length ≥ maxHeader then (c, false)
  else
    match strstr (cstr c.header) crlf with
    | none => (c, false)
    | some firstLen =>
      if firstLen > 2048 then (c, false)
      else
        match threeWords (c.header.take firstLen) with
        | none => (c, false)
        | some (method, uri, version) =>
          if ¬ ascii "HTTP/1." <+: version then (c, false)
          else if method = ascii "CONNECT" then parseConnectWhole uri c
          else parseAbsoluteWhole method uri version firstLen c

/-! ## What the parsers get to see -/

/-- A slot as `feed_local` passes it on: in some reachable state, in its turn of the loop and perhaps
    behind `flush_local`, it is still collecting and what was read has found room in `header`
    (`feedLocal_collecting`). -/
def PassedOn (L : Lwip) (c : Connection) : Prop :=
  ∃ (s : State) (i : Slot) (c₀ : Connection) (d : Bytes), (engine L).Reach s ∧
    (c₀ = s.conn i ∨ ∃ w, c₀ = (flushLocal w (s.conn i)).1) ∧ 0 ≤ c₀.fd ∧
    c₀.phase.collecting = true ∧ c₀.header.length + d.length < maxHeader ∧
    c = { c₀ with header := c₀.header ++ d }

/-- `parse_http` has found its request line, of `n` bytes, and the version check lets it pass. -/
structure PassesVersion (c : Connection) (n : Nat) (method uri version : Bytes) : Prop where
  lineEnd : strstr (cstr c.header) crlf = some n
  short : n ≤ 2048
  fields : scanRequestLine (c.header.take n) = some (method, uri, version)
  known : ascii "HTTP/1." <+: version

/-- The copies `parse_http` makes behind the version check are neither cut nor refused. -/
structure ScratchFits (c : Connection) (n : Nat) (method uri version : Bytes) : Prop where
  /-- The conversion stopped at the end of a token, in front of its width. -/
  uri_whole : uri.length < 2047 ∧ ∃ w ∈ words (c.header.take n), uri <:+ w
  origin : ∀ authority slash, absoluteAuthority uri = some (authority, slash) →
    originPath slash = some (pathWhole slash) ∧
    newFirst method (pathWhole slash) version = some (lineWhole method slash version) ∧
    (lineWhole method slash version).length + (c.header.length - (n + 2)) ≤ bufferSize
  early : ∀ k, appendBytes c.toRemote bufferSize (c.header.drop k) =
    some (c.toRemote ++ c.header.drop k)

section

variable {L : Lwip} {c : Connection}

theorem flushLocal_kept {w : WriteResult} (h : 0 ≤ (flushLocal w c).1.fd) :
    (flushLocal w c).1.phase = c.phase ∧ (flushLocal w c).1.toRemote = c.toRemote := by
  unfold flushLocal at h ⊢
  split
  · exact ⟨rfl, rfl⟩
  · rename_i hopen
    rw [if_neg hopen] at h
    cases w with
    | wrote n =>
      dsimp only at h ⊢
      split at h
      · exact absurd (show (0 : Int) ≤ -1 from h) (by decide)
      · rename_i hmore
        rw [if_neg hmore]
        exact ⟨rfl, rfl⟩
    | retry => exact ⟨rfl, rfl⟩
    | failed => exact absurd (show (0 : Int) ≤ -1 from h) (by decide)

/-- What is passed on has room left in its array, and nothing for the remote yet. -/
theorem PassedOn.room (h : PassedOn L c) : c.header.length < maxHeader ∧ c.toRemote = [] := by
  obtain ⟨s, i, c₀, d, hreach, hflush, hfd, hphase, hlen, rfl⟩ := h
  refine ⟨by rw [List.length_append]; exact hlen, ?_⟩
  have hunasked := ((reach_good hreach).slots i).unasked
  rcases hflush with rfl | ⟨w, rfl⟩
  · exact hunasked hphase
  · obtain ⟨hsame, hremote⟩ := flushLocal_kept hfd
    rw [hsame] at hphase
    exact hremote.trans (hunasked hphase)

end

/-! ## The tokens of a short line -/

section

variable {line method uri version : Bytes}

/-- Behind the version check there are at least 7 bytes of version and two blanks in the line, so the
    URI cannot have been cut. -/
theorem scanRequestLine_room (hlen : line.length ≤ 2048)
    (h : scanRequestLine line = some (method, uri, version)) (hversion : ascii "HTTP/1." <+: version) :
    method.length ≤ 19 ∧ version.length ≤ 19 ∧ uri.length < 2047 ∧ ∃ w ∈ words line, uri <:+ w := by
  have hsum := words_sum line
  rcases scanRequestLine_cases hlen h with ⟨w, ws, hws, hmethod, rfl⟩ |
    ⟨v, w, ws, hws, hlong, rfl, rfl, rfl⟩
  · rw [hws] at hsum
    simp only [List.map_cons, List.sum_cons] at hsum
    have hseven : 7 ≤ (w.take 19).length := hversion.length_le
    rw [List.length_take] at hseven
    refine ⟨hmethod, List.length_take_le 19 w, by omega, uri, ?_, List.suffix_rfl⟩
    rw [hws]
    exact List.mem_cons_of_mem _ List.mem_cons_self
  · rw [hws] at hsum
    simp only [List.map_cons, List.sum_cons] at hsum
    refine ⟨List.length_take_le 19 v, List.length_take_le 19 w, by rw [List.length_drop]; omega, v, ?_,
      List.drop_suffix 19 v⟩
    rw [hws]
    exact List.mem_cons_self

/-- A line whose first and third word fit their fields is read as with fields of any width. -/
theorem scanRequestLine_threeWords (hlen : line.length ≤ 2048) (hfit : NarrowFields line) :
    scanRequestLine line = threeWords line := by
  have hsum := words_sum line
  unfold scanRequestLine threeWords
  obtain ⟨hfirst, hthird⟩ := hfit
  rcases scanToken_words 19 line with ⟨hws, hscan⟩ | ⟨w₁, ws₁, rest₁, hws₁, -, hscan₁, hrest₁, -⟩
  · rw [hscan, hws]
  rw [hws₁] at hsum hfirst hthird
  have hw₁ : w₁.length ≤ 19 := hfirst w₁ rfl
  rw [if_pos hw₁] at hrest₁
  rw [hscan₁, List.take_of_length_le hw₁, hws₁]
  dsimp only
  rcases scanToken_words 2047 rest₁ with ⟨hws, hscan⟩ | ⟨w₂, ws₂, rest₂, hws₂, -, hscan₂, hrest₂, -⟩
  · rw [hscan, ← hrest₁, hws]
  obtain rfl : ws₁ = w₂ :: ws₂ := hrest₁.symm.trans hws₂
  have hw₂ : w₂.length ≤ 2047 := by
    simp only [List.map_cons, List.sum_cons] at hsum
    omega
  rw [if_pos hw₂] at hrest₂
  rw [hscan₂, List.take_of_length_le hw₂]
  dsimp only
  rcases scanToken_words 19 rest₂ with ⟨hws, hscan⟩ | ⟨w₃, ws₃, rest₃, hws₃, -, hscan₃, -⟩
  · rw [hscan, ← hrest₂, hws]
  obtain rfl : ws₂ = w₃ :: ws₃ := hrest₂.symm.trans hws₃
  rw [hscan₃, List.take_of_length_le (hthird w₃ rfl)]

end

/-! ## The copies -/

section

variable {c : Connection} {n : Nat} {uri method version : Bytes}

theorem absoluteAuthority_slash {authority : Bytes} {slash : Option Bytes}
    (h : absoluteAuthority uri = some (authority, slash)) : (slash.getD []).length ≤ uri.length := by
  rw [absoluteAuthority_split h, List.length_append, List.length_append]
  omega

/-- A `query_path` is one byte longer than the part of the URI it is made of. -/
theorem pathWhole_length (slash : Option Bytes) :
    (pathWhole slash).length ≤ (slash.getD []).length + 1 := by
  cases slash with
  | none => exact Nat.le_refl 1
  | some s =>
    unfold pathWhole
    dsimp only [Option.getD_some]
    split
    · exact Nat.le_refl _
    · exact Nat.le_add_right s.length 1

theorem originPath_whole {slash : Option Bytes} (h : (slash.getD []).length < 2047) :
    originPath slash = some (pathWhole slash) := by
  cases slash with
  | none => rfl
  | some s =>
    unfold originPath pathWhole
    dsimp only [Option.getD_some] at h ⊢
    split
    · rw [if_neg (by rw [List.length_cons]; omega)]
    · rfl

theorem lineWhole_length (method : Bytes) (slash : Option Bytes) (version : Bytes) :
    (lineWhole method slash version).length =
      method.length + (pathWhole slash).length + version.length + 4 := by
  have hcrlf : crlf.length = 2 := rfl
  unfold lineWhole
  simp only [List.length_append, List.length_singleton]
  omega

/-- The first CRLF lies inside the header. -/
theorem lineEnd_inside (h : strstr (cstr c.header) crlf = some n) : n + 2 ≤ c.header.length :=
  (findSub_split (findSub_of_isPrefix (cstr_isPrefix _) h)).2

/-- **No copy of `parse_http` behind the version check is cut or refused.** -/
theorem PassesVersion.fits (h : PassesVersion c n method uri version)
    (hroom : c.header.length < maxHeader) (hempty : c.toRemote = []) :
    ScratchFits c n method uri version := by
  have hlen : (c.header.take n).length ≤ 2048 := (List.length_take_le n c.header).trans h.short
  obtain ⟨hmethod, hversion, huri, hword⟩ := scanRequestLine_room hlen h.fields h.known
  simp only [maxHeader] at hroom
  refine ⟨⟨huri, hword⟩, fun authority slash habs => ?_, fun k => ?_⟩
  · have hslash := absoluteAuthority_slash habs
    have hpath := pathWhole_length slash
    have hline := lineWhole_length method slash version
    refine ⟨originPath_whole (by omega), ?_, by simp only [bufferSize]; omega⟩
    unfold newFirst
    exact if_neg (show ¬ (lineWhole method slash version).length ≥ 4096 by omega)
  · rw [hempty]
    refine appendBytes_of_room ?_ (by decide)
    rw [List.length_nil, List.length_drop]
    simp only [bufferSize]
    omega

/-! ## `parse_http` is `parseHttpWhole` -/

/-- A parser's slot and its `bool`. -/
def outcome (r : Connection × List Io × Bool) : Connection × Bool := (r.1, r.2.2)

theorem parseConnect_whole (hfits : ScratchFits c n method uri version) :
    outcome (parseConnect uri c) = parseConnectWhole uri c := by
  unfold parseConnect parseConnectWhole
  cases parseAuthority uri 256 443 with
  | none => rfl
  | some t =>
    obtain ⟨host, port⟩ := t
    dsimp only
    cases htarget : setTarget { c with httpConnect := true } host port with
    | none => rfl
    | some c' =>
      obtain rfl := setTarget_eq_some htarget
      dsimp only
      cases strstr (cstr c.header) crlfcrlf with
      | none => rfl
      | some k =>
        dsimp only
        rw [hfits.early (k + 4)]
        by_cases hearly : c.header.length > k + 4
        · rw [if_pos hearly]
          rfl
        · rw [if_neg hearly, List.drop_of_length_le (by omega), List.append_nil]
          rfl

theorem parseAbsolute_whole (hfits : ScratchFits c n method uri version) :
    outcome (parseAbsolute method uri version n c) = parseAbsoluteWhole method uri version n c := by
  unfold parseAbsolute parseAbsoluteWhole
  cases habs : absoluteAuthority uri with
  | none => rfl
  | some t =>
    obtain ⟨authority, slash⟩ := t
    obtain ⟨hpath, hline, hroom⟩ := hfits.origin authority slash habs
    dsimp only
    cases parseAuthority authority 256 80 with
    | none => rfl
    | some t =>
      obtain ⟨host, port⟩ := t
      dsimp only
      cases htarget : setTarget c host port with
      | none => rfl
      | some c' =>
        obtain rfl := setTarget_eq_some htarget
        dsimp only
        rw [hpath]
        dsimp only
        rw [hline]
        dsimp only
        rw [if_neg (by rw [List.length_drop]; exact Nat.not_lt.mpr hroom)]
        rfl

/-- **`parse_http` computes what it would without its buffers**, when the method and the version fit
    theirs. -/
theorem parseHttpHead_whole (hroom : c.header.length < maxHeader) (hempty : c.toRemote = [])
    (hfit : NarrowFields (requestLine c.header)) : outcome (parseHttpHead c) = parseHttpWhole c := by
  unfold requestLine at hfit
  unfold parseHttpHead parseHttpWhole
  rw [if_neg (Nat.not_le.mpr hroom), if_neg (Nat.not_le.mpr hroom)]
  cases hn : strstr (cstr c.header) crlf with
  | none => rfl
  | some n =>
    rw [hn] at hfit
    dsimp only at hfit ⊢
    by_cases hlong : n > 2048
    · rw [if_pos hlong, if_pos hlong]
      rfl
    · have hlen : (c.header.take n).length ≤ 2048 :=
        (List.length_take_le n c.header).trans (Nat.not_lt.mp hlong)
      rw [if_neg hlong, if_neg hlong, ← scanRequestLine_threeWords hlen hfit]
      cases hscan : scanRequestLine (c.header.take n) with
      | none => rfl
      | some t =>
        obtain ⟨method, uri, version⟩ := t
        dsimp only
        by_cases hknown : ascii "HTTP/1." <+: version
        · have hfits : ScratchFits c n method uri version :=
            PassesVersion.fits ⟨hn, Nat.not_lt.mp hlong, hscan, hknown⟩ hroom hempty
          rw [if_neg (not_not.mpr hknown), if_neg (not_not.mpr hknown)]
          by_cases hconnect : method = ascii "CONNECT"
          · rw [if_pos hconnect, if_pos hconnect]
            exact parseConnect_whole hfits
          · rw [if_neg hconnect, if_neg hconnect]
            exact parseAbsolute_whole hfits
        · rw [if_pos hknown, if_pos hknown]
          rfl

end

/-- **The buffers of the request parsers.**  Of every slot that `feed_local` passes on: the first CRLF of
    its header lies inside it; behind the version check of `parse_http` the URI is a whole token, and
    neither `query_path` nor `new_first` nor `to_remote` is too small; so `parse_http` computes what it
    would without any of its buffers, when the method and the version have at most 19 bytes; and the
    greeting and the SOCKS request are read without a load behind `header_len`, a store behind `host` or a
    length below zero. -/
theorem parser_buffers {L : Lwip} {c : Connection} (h : PassedOn L c) (linkUp : Bool) (a : Answers) :
    (∀ n, strstr (cstr c.header) crlf = some n → n + 2 ≤ c.header.length) ∧
    (∀ n method uri version, PassesVersion c n method uri version →
      ScratchFits c n method uri version) ∧
    (NarrowFields (requestLine c.header) → outcome (parseHttpHead c) = parseHttpWhole c) ∧
    feedHeaderChecked L linkUp a c = .ok (feedHeader L linkUp a c) := by
  obtain ⟨hroom, hempty⟩ := h.room
  exact ⟨fun n => lineEnd_inside, fun n method uri version hpasses => hpasses.fits hroom hempty,
    parseHttpHead_whole hroom hempty, feedHeaderChecked_eq L linkUp a c⟩

/-- A client of the HTTP listener sends its header in one read. -/
theorem sampleRequest_passedOn {header : Bytes} (h : header.length < maxHeader) :
    PassedOn sampleLwip (sampleRequest header) := by
  refine ⟨sampleAccepted ⟨3, .httpProxy, 18080, 0, []⟩, slot0, Connection.accepted 20 .httpProxy, header,
    (sampleAccepted_leads (j := 0) rfl).reach sampleStart_started, Or.inl ?_, by decide, rfl, ?_, rfl⟩
  · decide
  · exact (Nat.zero_add header.length).symm ▸ h

/-- A query without a path goes through `query_path`. -/
theorem parser_buffers_query :
    (parseHttpHead (sampleRequest (ascii "GET http://10.0.0.1?q HTTP/1.1\r\n\r\n"))).1.toRemote =
      ascii "GET /?q HTTP/1.1\r\n\r\n" ∧
    outcome (parseHttpHead (sampleRequest (ascii "GET http://10.0.0.1?q HTTP/1.1\r\n\r\n"))) =
      parseHttpWhole (sampleRequest (ascii "GET http://10.0.0.1?q HTTP/1.1\r\n\r\n")) :=
  ⟨by decide, (parser_buffers (sampleRequest_passedOn (by decide)) true (willing 0)).2.2.1
    ⟨fun w h => by obtain rfl := Option.some.inj h; decide,
      fun w h => by obtain rfl := Option.some.inj h; decide⟩⟩

/-- `method` and `version` are buffers too: a method of 20 letters is refused because its last one is
    taken for the URI, and a version of 20 bytes goes out one byte short. -/
theorem parser_buffers_fails :
    (PassedOn sampleLwip (sampleRequest
        (ascii "ABCDEFGHIJKLMNOPQRST http://10.0.0.1/ HTTP/1.1\r\n\r\n")) ∧
      (parseHttpHead (sampleRequest
        (ascii "ABCDEFGHIJKLMNOPQRST http://10.0.0.1/ HTTP/1.1\r\n\r\n"))).2.2 = false ∧
      (parseHttpWhole (sampleRequest
        (ascii "ABCDEFGHIJKLMNOPQRST http://10.0.0.1/ HTTP/1.1\r\n\r\n"))).2 = true) ∧
    (PassedOn sampleLwip (sampleRequest (ascii "GET http://10.0.0.1/ HTTP/1.1000000000000\r\n\r\n")) ∧
      (parseHttpHead (sampleRequest
        (ascii "GET http://10.0.0.1/ HTTP/1.1000000000000\r\n\r\n"))).1.toRemote =
          ascii "GET / HTTP/1.100000000000\r\n\r\n" ∧
      (parseHttpWhole (sampleRequest
        (ascii "GET http://10.0.0.1/ HTTP/1.1000000000000\r\n\r\n"))).1.toRemote =
          ascii "GET / HTTP/1.1000000000000\r\n\r\n") :=
  ⟨⟨sampleRequest_passedOn (by decide), by decide, by decide⟩,
    ⟨sampleRequest_passedOn (by decide), by decide, by decide⟩⟩

end PptpProxy
