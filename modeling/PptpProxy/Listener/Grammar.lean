/-
  The grammar of the control socket, and the read loop in front of it.

  `ApplyGrammar` is the APPLY message in its own terms: the NON-EMPTY lines of the text, each by its
  non-empty fields.  `apply_request` gets at them with two nested `strtok_r` loops and checks as it
  goes; `applyText_eq_some` says that it accepts exactly the messages of the grammar, with the table
  they ask for.  The two directions are two inductions: over the lines for what the code accepts
  (`applyLines_sound`), over the rules for what it must accept (`applyLines_complete`).
-/
import PptpProxy.Engine.Machine

namespace PptpProxy

open CLib

/-! ## The read loop -/

/-- The result of one `read(peer, ...)`; data is at least a byte and fits the room that is left. -/
inductive ControlRead
  | data (d : Bytes)
  | eof
  | eintr
  /-- Any other error, the time-out of a second among them. -/
  | failed
  deriving DecidableEq, Repr

/-- The read loop of `handle_control`: the bytes it leaves in `request`, none after an error.  When
    the list is exhausted nothing more comes, and `SO_RCVTIMEO` makes the next read fail. -/
def readRequest (request : Bytes) : List ControlRead → Bytes
  | [] => if request.length < maxControlRequest - 1 then [] else request
  | r :: rs =>
    if request.length < maxControlRequest - 1 then
      match r with
      | .data d => readRequest (request ++ d) rs
      | .eof => request
      | .eintr => readRequest request rs
      | .failed => []
    else request

/-- `handle_control` from the first read on; `none` when it closes the peer without a command. -/
def controlReads (st : Status) (listeners : List Listener) (listen : Nat → Int)
    (reads : List ControlRead) : Option ControlResult :=
  if readRequest [] reads = [] then none
  else some (handleControl st listeners listen (readRequest [] reads))

/-- What that does to the engine. -/
def State.serveControl (s : State) (reads : List ControlRead) (listen : Nat → Int) (now : UInt64) :
    State :=
  if readRequest [] reads = [] then s else s.control (readRequest [] reads) listen now

/-- A read after which the loop goes on. -/
def ControlRead.pending : ControlRead → Prop
  | .data d => d ≠ []
  | .eintr => True
  | _ => False

/-- What reads have brought. -/
def ControlRead.bytes : ControlRead → Bytes
  | .data d => d
  | _ => []

/-- A way of reading the message: in pieces, with interruptions, up to the end of the stream. -/
def Fragments (message : Bytes) (reads : List ControlRead) : Prop :=
  ∃ rs, (∀ r ∈ rs, r.pending) ∧ rs.flatMap ControlRead.bytes = message ∧ reads = rs ++ [.eof]

/-- As long as the buffer has room, the loop collects what it reads. -/
theorem readRequest_pending {rs : List ControlRead} (hrs : ∀ r ∈ rs, r.pending) {request : Bytes}
    (hroom : (request ++ rs.flatMap ControlRead.bytes).length ≤ maxControlRequest - 1)
    (rest : List ControlRead) :
    readRequest request (rs ++ rest) =
      if (request ++ rs.flatMap ControlRead.bytes).length < maxControlRequest - 1
      then readRequest (request ++ rs.flatMap ControlRead.bytes) rest
      else request ++ rs.flatMap ControlRead.bytes := by
  induction rs generalizing request with
  | nil =>
    rw [List.flatMap_nil, List.append_nil, List.nil_append] at *
    by_cases hlt : request.length < maxControlRequest - 1
    · rw [if_pos hlt]
    · rw [if_neg hlt]
      cases rest with
      | nil => exact if_neg hlt
      | cons r rest => exact if_neg hlt
  | cons r rs ih =>
    have hr := hrs r List.mem_cons_self
    have hrs' : ∀ x ∈ rs, x.pending := fun x hx => hrs x (List.mem_cons_of_mem r hx)
    rw [List.flatMap_cons, ← List.append_assoc] at hroom ⊢
    cases r with
    | data d =>
      -- the read brought at least a byte, so there was room for it
      have hd : 0 < d.length := List.length_pos_iff.mpr hr
      have hlt : request.length < maxControlRequest - 1 := by
        rw [List.length_append, List.length_append] at hroom
        have : (ControlRead.bytes (.data d)).length = d.length := rfl
        omega
      refine Eq.trans ?_ (ih hrs' hroom)
      exact if_pos hlt
    | eintr =>
      have hnothing : request ++ ControlRead.bytes .eintr = request := List.append_nil request
      rw [hnothing] at hroom ⊢
      by_cases hlt : request.length < maxControlRequest - 1
      · refine Eq.trans ?_ (ih hrs' hroom)
        exact if_pos hlt
      · -- the buffer is full: nothing more is read, and nothing more was to come
        have hfull : (request ++ rs.flatMap ControlRead.bytes).length = request.length := by
          rw [List.length_append] at hroom ⊢
          omega
        have hnil : rs.flatMap ControlRead.bytes = [] := by
          rw [List.length_append] at hfull
          exact List.length_eq_zero_iff.mp (by omega)
        rw [hnil, List.append_nil, if_neg hlt]
        exact if_neg hlt
    | eof => exact hr.elim
    | failed => exact hr.elim

/-- The loop collects the message, however it is cut. -/
theorem readRequest_fragments {message : Bytes} {reads : List ControlRead}
    (hlen : message.length ≤ maxControlRequest - 1) (h : Fragments message reads) :
    readRequest [] reads = message := by
  obtain ⟨rs, hrs, hbytes, rfl⟩ := h
  have hread : readRequest [] (rs ++ [.eof]) = _ :=
    readRequest_pending hrs (by rw [List.nil_append, hbytes]; exact hlen) [.eof]
  rw [List.nil_append, hbytes] at hread
  rw [hread]
  split
  · rename_i hlt
    exact if_pos hlt
  · rfl

/-- A read that fails leaves nothing. -/
theorem readRequest_failed {rs : List ControlRead} (hrs : ∀ r ∈ rs, r.pending)
    (hroom : (rs.flatMap ControlRead.bytes).length < maxControlRequest - 1)
    (rest : List ControlRead) : readRequest [] (rs ++ .failed :: rest) = [] := by
  rw [readRequest_pending hrs (by rw [List.nil_append]; omega), List.nil_append, if_pos hroom]
  exact if_pos hroom

/-! ## The grammar of APPLY -/

/-- The non-empty parts of a text between delimiters. -/
def parts (delim : UInt8) (s : Bytes) : List Bytes := (s.splitOn delim).filter (! ·.isEmpty)

theorem strtokAll_parts (delim : UInt8) (s : Bytes) : strtokAll delim s = parts delim s :=
  strtokAll_eq_splitOn s

/-- The fields of an F line. -/
structure ApplyRule where
  localText : Bytes
  host : Bytes
  remoteText : Bytes
  deriving DecidableEq, Repr

/-- The characters of a host. -/
def hostAlphabet : Bytes :=
  ascii "ABCDEFGHIJKLMNOPQRSTUVWXYZabcdefghijklmnopqrstuvwxyz0123456789._-"

def IsHost (host : Bytes) : Prop :=
  1 ≤ host.length ∧ host.length ≤ 255 ∧ ∀ b ∈ host, b ∈ hostAlphabet

namespace ApplyRule

def fields (r : ApplyRule) : List Bytes := [ascii "F", r.localText, r.host, r.remoteText]

structure Valid (r : ApplyRule) : Prop where
  localPort : IsPort r.localText
  host : IsHost r.host
  remotePort : IsPort r.remoteText

/-- The local port. -/
def localPort (r : ApplyRule) : Int := digitsVal r.localText

/-- The listener a rule asks for. -/
def forward (r : ApplyRule) : Listener :=
  { fd := -1, kind := .forward, localPort := r.localPort, remotePort := digitsVal r.remoteText,
    remoteHost := r.host }

end ApplyRule

/-- A message of the grammar: a line APPLY with the two proxy ports, the rules, and a line END. -/
structure ApplyGrammar (message http socks : Bytes) (rules : List ApplyRule) : Prop where
  lines : (parts 10 message).map (parts 32) =
    [ascii "APPLY", http, socks] :: (rules.map ApplyRule.fields ++ [[ascii "END"]])
  count : rules.length ≤ 32
  httpPort : IsPort http
  socksPort : IsPort socks
  valid : ∀ r ∈ rules, r.Valid
  distinct : ((digitsVal http : Int) :: (digitsVal socks : Int) ::
    rules.map ApplyRule.localPort).Nodup

/-- The two proxies. -/
def proxyListeners (http socks : Bytes) : List Listener :=
  [{ fd := -1, kind := .httpProxy, localPort := digitsVal http, remotePort := 0, remoteHost := [] },
   { fd := -1, kind := .socksProxy, localPort := digitsVal socks, remotePort := 0,
     remoteHost := [] }]

/-- The table such a message asks for. -/
def requestedTable (http socks : Bytes) (rules : List ApplyRule) : List Listener :=
  proxyListeners http socks ++ rules.map ApplyRule.forward

/-- The alphabet in the order of its codes: letters, digits, and three more. -/
theorem hostAlphabet_toNat : hostAlphabet.map UInt8.toNat =
    List.range' 65 26 ++ List.range' 97 26 ++ List.range' 48 10 ++ [46, 95, 45] := by
  decide

theorem safeHostByte_iff (b : UInt8) : safeHostByte b = true ↔ b ∈ hostAlphabet := by
  have hmem : b ∈ hostAlphabet ↔ b.toNat ∈ hostAlphabet.map UInt8.toNat :=
    (List.mem_map_of_injective fun _ _ => UInt8.toNat_inj.mp).symm
  rw [hmem, hostAlphabet_toNat]
  simp only [safeHostByte, Bool.or_eq_true, Bool.and_eq_true, decide_eq_true_iff, beq_iff_eq,
    UInt8.le_iff_toNat_le, ← UInt8.toNat_inj, List.mem_append, List.mem_range'_1, List.mem_cons,
    List.not_mem_nil, or_false, UInt8.reduceToNat]
  omega

/-- `safe_host` accepts exactly the hosts of the grammar. -/
theorem safeHost_iff {host : Bytes} : safeHost host = true ↔ IsHost host := by
  unfold safeHost IsHost
  rw [Bool.and_eq_true, decide_eq_true_iff, List.all_eq_true]
  constructor
  · rintro ⟨⟨h0, h256⟩, hbytes⟩
    exact ⟨by omega, by omega, fun b hb => (safeHostByte_iff b).mp (hbytes b hb)⟩
  · rintro ⟨h1, h255, hbytes⟩
    exact ⟨⟨by omega, by omega⟩, fun b hb => (safeHostByte_iff b).mpr (hbytes b hb)⟩

/-! ### The F and END lines -/

section

variable {lines : List Bytes} {requested table : List Listener}

theorem port_eq {text : Bytes} (h : IsPort text) : parsePortNumber text = some (digitsVal text : Int) :=
  parsePortNumber_eq_some.mpr ⟨h, rfl⟩

/-- One F line of the grammar, with a port that is not in the table yet. -/
theorem applyLines_rule {line : Bytes} {r : ApplyRule} (hline : parts 32 line = r.fields)
    (hr : r.Valid) (hroom : requested.length ≠ maxListeners)
    (hnew : r.localPort ∉ requested.map (·.localPort)) :
    applyLines (line :: lines) requested = applyLines lines (requested ++ [r.forward]) := by
  have hfree : ¬ requested.any (·.localPort = r.localPort) = true := by
    intro h
    obtain ⟨l, hl, hport⟩ := List.any_eq_true.mp h
    exact hnew (List.mem_map.mpr ⟨l, hl, of_decide_eq_true hport⟩)
  rw [applyLines, strtokAll_parts, hline]
  unfold ApplyRule.fields
  dsimp only
  rw [if_neg (by decide), if_neg (by simp [hroom]), safeHost_iff.mpr hr.host, if_neg (by decide),
    port_eq hr.localPort, port_eq hr.remotePort]
  exact if_neg hfree

/-- **What the grammar allows is accepted.** -/
theorem applyLines_complete {rules : List ApplyRule}
    (hlines : lines.map (parts 32) = rules.map ApplyRule.fields ++ [[ascii "END"]])
    (hcount : requested.length + rules.length ≤ maxListeners) (hrules : ∀ r ∈ rules, r.Valid)
    (hdistinct : (requested.map (·.localPort) ++ rules.map ApplyRule.localPort).Nodup) :
    applyLines lines requested = some (requested ++ rules.map ApplyRule.forward) := by
  induction rules generalizing lines requested with
  | nil =>
    obtain ⟨line, rest, rfl, hline, hrest⟩ := List.map_eq_cons_iff.mp hlines
    obtain rfl := List.map_eq_nil_iff.mp hrest
    rw [applyLines, strtokAll_parts, hline, List.map_nil,
      List.append_nil]
    rfl
  | cons r rules ih =>
    obtain ⟨line, rest, rfl, hline, hrest⟩ := List.map_eq_cons_iff.mp hlines
    rw [List.length_cons] at hcount
    have hnew : r.localPort ∉ requested.map (·.localPort) := by
      intro hmem
      exact (List.nodup_append.mp hdistinct).2.2 _ hmem _ List.mem_cons_self rfl
    rw [applyLines_rule hline (hrules r List.mem_cons_self) (by omega) hnew,
      ih hrest (by rw [List.length_append, List.length_singleton]; omega)
        (fun x hx => hrules x (List.mem_cons_of_mem r hx)), List.append_assoc]
    · rfl
    · rw [List.map_append, List.append_assoc]
      exact hdistinct

/-- **What is accepted is of the grammar.** -/
theorem applyLines_sound (h : applyLines lines requested = some table)
    (hcount : requested.length ≤ maxListeners) (hnodup : (requested.map (·.localPort)).Nodup) :
    ∃ rules : List ApplyRule,
      lines.map (parts 32) = rules.map ApplyRule.fields ++ [[ascii "END"]] ∧
      requested.length + rules.length ≤ maxListeners ∧ (∀ r ∈ rules, r.Valid) ∧
      (requested.map (·.localPort) ++ rules.map ApplyRule.localPort).Nodup ∧
      table = requested ++ rules.map ApplyRule.forward := by
  induction lines generalizing requested with
  | nil => cases h
  | cons line lines ih =>
    rw [applyLines] at h
    split at h
    · cases h
    · rename_i kind fields hfields
      rw [strtokAll_parts] at hfields
      split at h
      · -- END, with nothing behind it in the line or in the message
        rename_i hkind
        split at h
        · cases h
        · rename_i hlast
          simp only [not_or, not_not] at hlast
          obtain ⟨rfl, rfl⟩ := hlast
          obtain rfl := Option.some.inj h
          refine ⟨[], ?_, by simpa using hcount, fun r hr => (by cases hr), ?_, ?_⟩
          · rw [List.map_cons, hfields, hkind]
            rfl
          · rw [List.map_nil, List.append_nil]
            exact hnodup
          · rw [List.map_nil, List.append_nil]
      · split at h
        · cases h
        · rename_i hkind
          simp only [not_or, not_not] at hkind
          obtain ⟨rfl, hroom⟩ := hkind
          split at h
          · rename_i localText host remoteText
            split at h
            · cases h
            · rename_i hhost
              split at h
              · rename_i localPort remotePort hlocal hremote
                split at h
                · cases h
                · rename_i hfree
                  obtain ⟨hlocalText, rfl⟩ := parsePortNumber_eq_some.mp hlocal
                  obtain ⟨hremoteText, rfl⟩ := parsePortNumber_eq_some.mp hremote
                  have hnew : (digitsVal localText : Int) ∉ requested.map (·.localPort) := by
                    intro hmem
                    obtain ⟨l, hl, hport⟩ := List.mem_map.mp hmem
                    exact hfree (List.any_eq_true.mpr ⟨l, hl, decide_eq_true hport⟩)
                  obtain ⟨rules, hlines, hroom', hrules, hdistinct, htable⟩ := ih h
                    (by rw [List.length_append, List.length_singleton]; omega)
                    (by
                      rw [List.map_append, List.map_singleton, ← List.concat_eq_append]
                      exact List.Nodup.concat hnew hnodup)
                  rw [List.length_append, List.length_singleton] at hroom'
                  refine ⟨⟨localText, host, remoteText⟩ :: rules, ?_, ?_, ?_, ?_, ?_⟩
                  · rw [List.map_cons, hfields, hlines]
                    rfl
                  · rw [List.length_cons]
                    omega
                  · intro r hr
                    rcases List.mem_cons.mp hr with rfl | hr
                    · exact ⟨hlocalText, safeHost_iff.mp (by simpa using hhost), hremoteText⟩
                    · exact hrules r hr
                  · rw [List.map_append, List.append_assoc] at hdistinct
                    exact hdistinct
                  · rw [htable, List.append_assoc]
                    rfl
              · cases h
          · cases h

end

/-! ### The whole message -/

section

variable {message : Bytes} {table : List Listener}

/-- **`apply_request` accepts exactly its grammar**, and asks for the table of the message. -/
theorem applyText_eq_some : applyText message = some table ↔
    ∃ http socks rules, ApplyGrammar message http socks rules ∧
      table = requestedTable http socks rules := by
  constructor
  · intro h
    unfold applyText at h
    rw [strtokAll_parts] at h
    split at h
    · cases h
    · rename_i line lines hlines
      rw [strtokAll_parts] at h
      split at h
      · rename_i command httpText socksText hfields
        split at h
        · cases h
        · rename_i hcommand
          rw [not_not] at hcommand
          split at h
          · rename_i http socks hhttp hsocks
            obtain ⟨hhttpText, rfl⟩ := parsePortNumber_eq_some.mp hhttp
            obtain ⟨hsocksText, rfl⟩ := parsePortNumber_eq_some.mp hsocks
            split at h
            · cases h
            · rename_i hne
              obtain ⟨rules, hrest, hcount, hvalid, hdistinct, htable⟩ := applyLines_sound h
                (show 2 ≤ maxListeners by decide) (by simp [hne])
              refine ⟨httpText, socksText, rules, ⟨?_, ?_, hhttpText, hsocksText, hvalid, hdistinct⟩,
                htable⟩
              · rw [hlines, List.map_cons, hfields, hcommand, hrest]
              · simp only [List.length_cons, List.length_nil, maxListeners] at hcount
                omega
          · cases h
      · cases h
  · rintro ⟨http, socks, rules, hg, rfl⟩
    obtain ⟨line, lines, hlines, hfields, hrest⟩ := List.map_eq_cons_iff.mp hg.lines
    have hne : (digitsVal http : Int) ≠ digitsVal socks := by
      rintro h
      exact (List.nodup_cons.mp hg.distinct).1 (List.mem_cons.mpr (Or.inl h))
    have hcount := hg.count
    unfold applyText
    rw [strtokAll_parts, hlines]
    dsimp only
    rw [strtokAll_parts, hfields]
    dsimp only
    rw [if_neg (by decide), port_eq hg.httpPort, port_eq hg.socksPort]
    dsimp only
    rw [if_neg hne]
    refine applyLines_complete hrest ?_ hg.valid hg.distinct
    simp only [List.length_cons, List.length_nil, maxListeners]
    omega

end

/-! ## What a peer gets -/

/-- The answer to an APPLY command, from what `apply_request` returns. -/
def applyResult (listeners : List Listener) :
    Except Int (List Listener) × List ListenIo → ControlResult
  | (.ok table, io) =>
    { reply := ascii "OK APPLY\n", listeners := table, stop := false, io := io }
  | (.error failedPort, io) =>
    { reply := ascii "ERR APPLY " ++ decimalInt failedPort ++ [10], listeners := listeners,
      stop := false, io := io }

section

variable {st : Status} {ls : List Listener} {listen : Nat → Int} {message : Bytes}

/-- The branches of `handle_control` on a message without NUL. -/
theorem handleControl_cases (hnul : 0 ∉ message) :
    handleControl st ls listen message =
      if message = ascii "STOP\n" then
        { reply := ascii "OK STOP\n", listeners := ls, stop := true, io := [] }
      else if message = ascii "STATUS\n" then
        { reply := statusReply st ls, listeners := ls, stop := false, io := [] }
      else if ascii "APPLY " <+: message then applyResult ls (applyRequest ls listen message)
      else { reply := ascii "ERR COMMAND\n", listeners := ls, stop := false, io := [] } := by
  have hcstr : cstr message = message := cstr_eq_self fun b hb h => hnul (h ▸ hb)
  unfold handleControl
  rw [hcstr]
  dsimp only
  split
  · rfl
  · split
    · rfl
    · split
      · split
        · rename_i hr
          rw [hr]
          rfl
        · rename_i hr
          rw [hr]
          rfl
      · rfl

theorem applyResult_stop (r : Except Int (List Listener) × List ListenIo) :
    (applyResult ls r).stop = false := by
  obtain ⟨res, io⟩ := r
  cases res <;> rfl

/-- No other reply looks like that to STATUS. -/
theorem applyResult_reply (r : Except Int (List Listener) × List ListenIo) :
    ¬ ascii "STATUS " <+: (applyResult ls r).reply := by
  obtain ⟨res, io⟩ := r
  cases res with
  | ok table =>
    have hother : ¬ ascii "STATUS " <+: ascii "OK APPLY\n" := by decide
    exact hother
  | error port =>
    rintro ⟨t, ht⟩
    have := congrArg List.head? ht
    simp [applyResult, ascii] at this

theorem statusReply_reply : ascii "STATUS " <+: statusReply st ls := by
  unfold statusReply
  simp only [List.append_assoc]
  exact List.prefix_append _ _

/-- A message without NUL stops the engine if and only if it is STOP. -/
theorem handleControl_stop (hnul : 0 ∉ message) :
    (handleControl st ls listen message).stop = true ↔ message = ascii "STOP\n" := by
  rw [handleControl_cases hnul]
  split
  · rename_i h
    exact ⟨fun _ => h, fun _ => rfl⟩
  · rename_i h
    refine ⟨fun hstop => ?_, fun h' => absurd h' h⟩
    split at hstop
    · cases hstop
    · split at hstop
      · rw [applyResult_stop] at hstop
        cases hstop
      · cases hstop

/-- It is answered like STATUS if and only if it is STATUS. -/
theorem handleControl_status (hnul : 0 ∉ message) :
    ascii "STATUS " <+: (handleControl st ls listen message).reply ↔ message = ascii "STATUS\n" := by
  have hstop : ¬ ascii "STATUS " <+: ascii "OK STOP\n" := by decide
  have hunknown : ¬ ascii "STATUS " <+: ascii "ERR COMMAND\n" := by decide
  rw [handleControl_cases hnul]
  split
  · rename_i h
    refine ⟨fun hreply => absurd hreply hstop, fun h' => ?_⟩
    rw [h'] at h
    exact absurd h (by decide)
  · split
    · rename_i h
      exact ⟨fun _ => h, fun _ => statusReply_reply⟩
    · rename_i h
      refine ⟨fun hreply => ?_, fun h' => absurd h' h⟩
      split at hreply
      · exact absurd hreply (applyResult_reply _)
      · exact absurd hreply hunknown

end

/-- **The control socket accepts exactly its grammar.**  However a message without NUL is cut into
    reads, it is STOP or STATUS exactly when it is that word and a newline; and an APPLY message is
    turned into the table it spells out exactly when it is of the grammar, and turned down without a
    socket being touched otherwise.  A read that fails ends it all: no command, and no change. -/
theorem control_grammar (st : Status) (ls : List Listener) (listen : Nat → Int) {message : Bytes}
    {reads : List ControlRead} (hnul : 0 ∉ message) (hlen : message.length ≤ maxControlRequest - 1)
    (hreads : Fragments message reads) :
    ((∃ r, controlReads st ls listen reads = some r ∧ r.stop = true) ↔
      message = ascii "STOP\n") ∧
    ((∃ r, controlReads st ls listen reads = some r ∧ ascii "STATUS " <+: r.reply) ↔
      message = ascii "STATUS\n") ∧
    (ascii "APPLY " <+: message →
      controlReads st ls listen reads = some (applyResult ls (applyRequest ls listen message)) ∧
      (∀ table, applyText message = some table ↔ ∃ http socks rules,
        ApplyGrammar message http socks rules ∧ table = requestedTable http socks rules) ∧
      (∀ table, applyText message = some table →
        applyRequest ls listen message = reconfigureListeners ls listen table) ∧
      (applyText message = none → applyRequest ls listen message = (.error 0, []))) ∧
    (∀ (s : State) (rs rest : List ControlRead) (now : UInt64), (∀ r ∈ rs, r.pending) →
      (rs.flatMap ControlRead.bytes).length < maxControlRequest - 1 →
      controlReads st ls listen (rs ++ .failed :: rest) = none ∧
      s.serveControl (rs ++ .failed :: rest) listen now = s) := by
  have hread : controlReads st ls listen reads =
      if message = [] then none else some (handleControl st ls listen message) := by
    unfold controlReads
    rw [readRequest_fragments hlen hreads]
  have hsome : ∀ r, controlReads st ls listen reads = some r ↔
      message ≠ [] ∧ handleControl st ls listen message = r := by
    intro r
    rw [hread]
    split
    · rename_i hnil
      exact ⟨fun h => (by cases h), fun h => absurd hnil h.1⟩
    · rename_i hne
      rw [Option.some.injEq]
      exact ⟨fun h => ⟨hne, h⟩, fun h => h.2⟩
  refine ⟨⟨?_, ?_⟩, ⟨?_, ?_⟩, fun happly => ⟨?_, fun table => applyText_eq_some, ?_, ?_⟩, ?_⟩
  · rintro ⟨r, hr, hstop⟩
    obtain ⟨-, rfl⟩ := (hsome r).mp hr
    exact (handleControl_stop hnul).mp hstop
  · intro h
    refine ⟨_, (hsome _).mpr ⟨?_, rfl⟩, (handleControl_stop hnul).mpr h⟩
    rw [h]
    decide
  · rintro ⟨r, hr, hreply⟩
    obtain ⟨-, rfl⟩ := (hsome r).mp hr
    exact (handleControl_status hnul).mp hreply
  · intro h
    refine ⟨_, (hsome _).mpr ⟨?_, rfl⟩, (handleControl_status hnul).mpr h⟩
    rw [h]
    decide
  · refine (hsome _).mpr ⟨?_, ?_⟩
    · rintro rfl
      exact absurd happly (by decide)
    · rw [handleControl_cases hnul, if_neg, if_neg, if_pos happly]
      · rintro rfl
        exact absurd happly (by decide)
      · rintro rfl
        exact absurd happly (by decide)
  · intro table h
    unfold applyRequest
    rw [h]
  · intro h
    unfold applyRequest
    rw [h]
  · intro s rs rest now hrs hroom
    have hnothing := readRequest_failed hrs hroom rest
    unfold controlReads State.serveControl
    rw [hnothing]
    exact ⟨if_pos rfl, if_pos rfl⟩

/-- Two rules behind the ports, in a message with a blank line and doubled blanks that comes in three
    reads, one of them interrupted. -/
theorem control_grammar_apply : ∃ rules, applyText
      (ascii "APPLY 18080  11080\n\nF 8000 h.example 080\n F 22 10.0.0.1 22\nEND") =
    some (requestedTable (ascii "18080") (ascii "11080") rules) ∧ rules.length = 2 := by
  have hreads : Fragments
      (ascii "APPLY 18080  11080\n\nF 8000 h.example 080\n F 22 10.0.0.1 22\nEND")
      [.data (ascii "APPLY 18080  "), .eintr, .data (ascii "11080\n\nF 8000 h.example 080\n F 22"),
        .data (ascii " 10.0.0.1 22\nEND"), .eof] := by
    refine ⟨[.data (ascii "APPLY 18080  "), .eintr,
      .data (ascii "11080\n\nF 8000 h.example 080\n F 22"), .data (ascii " 10.0.0.1 22\nEND")],
      ?_, by decide, rfl⟩
    intro r hr
    simp only [List.mem_cons, List.not_mem_nil, or_false] at hr
    rcases hr with rfl | rfl | rfl | rfl
    · show ascii "APPLY 18080  " ≠ []
      decide
    · trivial
    · show ascii "11080\n\nF 8000 h.example 080\n F 22" ≠ []
      decide
    · show ascii " 10.0.0.1 22\nEND" ≠ []
      decide
  obtain ⟨-, -, happly, -⟩ := control_grammar ⟨true, 0, 0, 1, 1⟩ [] (fun _ => -1) (by decide)
    (by decide) hreads
  obtain ⟨-, hiff, -, -⟩ := happly (by decide)
  have hdigits : ∀ ds : Bytes, ds.isEmpty = false ∧ ds.all isdigit = true ∧ 1 ≤ digitsVal ds ∧
      digitsVal ds ≤ 65535 → IsPort ds := by
    rintro ds ⟨hne, hall, hrange⟩
    exact ⟨by simpa using hne, List.all_eq_true.mp hall, hrange⟩
  refine ⟨[⟨ascii "8000", ascii "h.example", ascii "080"⟩, ⟨ascii "22", ascii "10.0.0.1", ascii "22"⟩],
    (hiff _).mpr ⟨ascii "18080", ascii "11080", _, ⟨?_, by decide, ?_, ?_, ?_, ?_⟩, rfl⟩, rfl⟩
  · decide +kernel
  · exact hdigits _ (by decide)
  · exact hdigits _ (by decide)
  · intro r hr
    simp only [List.mem_cons, List.not_mem_nil, or_false] at hr
    rcases hr with rfl | rfl
    · exact ⟨hdigits _ (by decide), safeHost_iff.mp (by decide), hdigits _ (by decide)⟩
    · exact ⟨hdigits _ (by decide), safeHost_iff.mp (by decide), hdigits _ (by decide)⟩
  · decide

end PptpProxy
