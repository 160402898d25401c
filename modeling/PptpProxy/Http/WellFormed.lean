/-
  What the proxy does with EVERY well-formed HTTP proxy request.

  `ProxyRequest` is a request line by its parts, with the bounds of the parser's buffers; what follows
  the line is arbitrary up to the first CRLFCRLF (no NUL in front of it) and completely arbitrary
  behind it.  `parseHttpHead_spec` has reduced `parse_http` to two questions about the bytes, the
  target of the first line (`requestTarget`) and the outgoing stream (`outgoing`); here both are
  computed from the parts.
-/
import PptpProxy.Http.Message
import PptpProxy.Http.Segments

namespace PptpProxy

open CLib

/-! ## Requests -/

/-- A byte of a word: neither white space nor NUL. -/
def wordByte (b : UInt8) : Bool := ! isspace b && b != 0

/-- `host` or `host:port`. -/
def hostPort (host : Bytes) : Option Bytes → Bytes
  | none => host
  | some port => host ++ 58 :: port

/-- The parts of a request line. -/
structure ProxyRequest where
  method : Bytes
  method_ne_nil : method ≠ []
  method_length : method.length ≤ 19
  method_word : ∀ b ∈ method, wordByte b = true
  host : Bytes
  host_ne_nil : host ≠ []
  host_word : ∀ b ∈ host, wordByte b = true ∧ b ∉ ascii ":@[/?"
  port : Option Bytes
  port_decimal : ∀ ds, port = some ds → IsPort ds
  authority_length : (hostPort host port).length ≤ 255
  /-- Path and query. -/
  suffix : Bytes
  suffix_head : ∀ b, suffix.head? = some b → b = 47 ∨ b = 63
  suffix_word : ∀ b ∈ suffix, wordByte b = true
  /-- The version behind `HTTP/1.`. -/
  minor : Bytes
  minor_length : minor.length ≤ 12
  minor_word : ∀ b ∈ minor, wordByte b = true

namespace ProxyRequest

variable (r : ProxyRequest)

def isConnect : Prop := r.method = ascii "CONNECT"

instance : Decidable r.isConnect := inferInstanceAs (Decidable (_ = _))

def authority : Bytes := hostPort r.host r.port

def version : Bytes := ascii "HTTP/1." ++ r.minor

/-- The authority alone for CONNECT, an absolute URI for every other method. -/
def uri : Bytes :=
  if r.isConnect then r.authority else ascii "http://" ++ (r.authority ++ r.suffix)

def requestLine : Bytes := r.method ++ 32 :: (r.uri ++ 32 :: r.version)

/-- All that the client sends, with `rest` behind the request line. -/
def text (rest : Bytes) : Bytes := r.requestLine ++ crlf ++ rest

/-- The port, or the default one of the scheme. -/
def targetPort : Int :=
  r.port.elim (if r.isConnect then 443 else 80) fun ds => digitsVal ds

/-- The path in origin form. -/
def originPath : Bytes :=
  if r.suffix = [] then ascii "/"
  else if r.suffix.head? = some 63 then 47 :: r.suffix
  else r.suffix

/-- The request line in origin form. -/
def originLine : Bytes :=
  r.method ++ [32] ++ r.originPath ++ [32] ++ r.version ++ crlf

end ProxyRequest

/-! ## Words -/

theorem wordByte_iff {b : UInt8} : wordByte b = true ↔ isspace b = false ∧ b ≠ 0 := by
  unfold wordByte
  rw [Bool.and_eq_true, Bool.not_eq_true', bne_iff_ne]

theorem wordByte_of_isdigit {b : UInt8} (h : isdigit b = true) : wordByte b = true := by
  refine wordByte_iff.mpr ⟨isspace_of_isdigit h, ?_⟩
  rintro rfl
  cases h

namespace ProxyRequest

variable (r : ProxyRequest)

theorem authority_word : ∀ b ∈ r.authority, wordByte b = true := by
  intro b hb
  unfold authority at hb
  cases hport : r.port with
  | none =>
    rw [hport] at hb
    exact (r.host_word b hb).1
  | some ds =>
    rw [hport] at hb
    rcases List.mem_append.mp hb with hb | hb
    · exact (r.host_word b hb).1
    · rcases List.mem_cons.mp hb with rfl | hb
      · decide
      · exact wordByte_of_isdigit ((r.port_decimal ds hport).2.1 b hb)

theorem uri_word : ∀ b ∈ r.uri, wordByte b = true := by
  have hscheme : ∀ b ∈ ascii "http://", wordByte b = true :=
    List.all_iff_forall_prop.mp (by decide)
  intro b hb
  unfold uri at hb
  split at hb
  · exact r.authority_word b hb
  · rcases List.mem_append.mp hb with hb | hb
    · exact hscheme b hb
    · rcases List.mem_append.mp hb with hb | hb
      · exact r.authority_word b hb
      · exact r.suffix_word b hb

theorem version_word : ∀ b ∈ r.version, wordByte b = true := by
  have hname : ∀ b ∈ ascii "HTTP/1.", wordByte b = true :=
    List.all_iff_forall_prop.mp (by decide)
  intro b hb
  rcases List.mem_append.mp hb with hb | hb
  · exact hname b hb
  · exact r.minor_word b hb

/-- Between its words the line has blanks, so neither CR nor NUL is in it. -/
theorem requestLine_byte {b : UInt8} (hb : b ∈ r.requestLine) : wordByte b = true ∨ b = 32 := by
  rcases List.mem_append.mp hb with hb | hb
  · exact Or.inl (r.method_word b hb)
  · rcases List.mem_cons.mp hb with rfl | hb
    · exact Or.inr rfl
    · rcases List.mem_append.mp hb with hb | hb
      · exact Or.inl (r.uri_word b hb)
      · rcases List.mem_cons.mp hb with rfl | hb
        · exact Or.inr rfl
        · exact Or.inl (r.version_word b hb)

theorem findSub_crlf_text (rest : Bytes) :
    findSub crlf (r.text rest) = some r.requestLine.length := by
  refine findSub_of_not_mem rest fun hmem => ?_
  rcases r.requestLine_byte hmem with h | h
  · cases h
  · cases h

/-! ## Reading the line -/

theorem authority_ne_nil : r.authority ≠ [] := by
  unfold authority
  cases r.port with
  | none => exact r.host_ne_nil
  | some ds => exact List.append_ne_nil_of_left_ne_nil r.host_ne_nil _

theorem version_length : r.version.length = 7 + r.minor.length := by
  unfold version
  rw [List.length_append]
  rfl

/-- `sscanf` gets all three words. -/
theorem scanRequestLine_requestLine (hline : r.requestLine.length ≤ 2048) :
    scanRequestLine r.requestLine = some (r.method, r.uri, r.version) := by
  have hv := r.version_length
  have hminor := r.minor_length
  have huri : r.uri.length ≤ 2047 := by
    unfold requestLine at hline
    simp only [List.length_append, List.length_cons] at hline
    omega
  have hne : r.uri ≠ [] := by
    unfold uri
    split
    · exact r.authority_ne_nil
    · exact List.append_ne_nil_of_right_ne_nil _
        (List.append_ne_nil_of_left_ne_nil r.authority_ne_nil _)
  refine scanRequestLine_words ⟨r.method_ne_nil, r.method_length⟩ ⟨hne, huri⟩ ⟨?_, by omega⟩
    (fun b hb => (wordByte_iff.mp (r.method_word b hb)).1)
    (fun b hb => (wordByte_iff.mp (r.uri_word b hb)).1)
    (fun b hb => (wordByte_iff.mp (r.version_word b hb)).1)
  intro h
  rw [h] at hv
  simp only [List.length_nil] at hv
  omega

/-- The bytes an authority may not have are not in it. -/
theorem authority_clean {x : UInt8} (hx : x ∈ ascii "@[/?") : x ∉ r.authority := by
  have hsub : ∀ z ∈ ascii "@[/?", z ∈ ascii ":@[/?" ∧ isdigit z = false ∧ z ≠ 58 :=
    List.all_iff_forall_prop.mp (by decide)
  obtain ⟨hmem, hdigit, hcolon⟩ := hsub x hx
  intro hin
  unfold authority at hin
  cases hport : r.port with
  | none =>
    rw [hport] at hin
    exact (r.host_word x hin).2 hmem
  | some ds =>
    rw [hport] at hin
    rcases List.mem_append.mp hin with hin | hin
    · exact (r.host_word x hin).2 hmem
    · rcases List.mem_cons.mp hin with rfl | hin
      · exact hcolon rfl
      · rw [(r.port_decimal ds hport).2.1 x hin] at hdigit
        cases hdigit

/-- `parse_authority` gets the host and the port. -/
theorem parseAuthority_authority (dflt : Int) :
    parseAuthority r.authority 256 dflt =
      some (r.host, r.port.elim dflt fun ds => digitsVal ds) := by
  have hat : ¬ (strchr r.authority 64).isSome = true := fun h =>
    r.authority_clean (by decide) (strchr_isSome.mp h)
  have hbracket : ¬ (strchr r.authority 91).isSome = true := fun h =>
    r.authority_clean (by decide) (strchr_isSome.mp h)
  have hcolon : (58 : UInt8) ∉ r.host := fun h => (r.host_word 58 h).2 (by decide)
  have hpos : 0 < r.host.length := List.length_pos_iff.mpr r.host_ne_nil
  have hlen := r.authority_length
  unfold parseAuthority
  dsimp only
  cases hport : r.port with
  | none =>
    have hauth : r.authority = r.host := by unfold authority; rw [hport]; rfl
    rw [hport] at hlen
    have hlen : r.host.length ≤ 255 := hlen
    rw [hauth] at hat hbracket ⊢
    rw [strrchr_eq_none hcolon, Option.getD_none, if_neg, List.take_length]
    · rfl
    · rintro (h | h | h | h)
      · omega
      · omega
      · exact hat h
      · exact hbracket h
  | some ds =>
    obtain ⟨hne, hdigits, hlow, hhigh⟩ := r.port_decimal ds hport
    have hauth : r.authority = r.host ++ 58 :: ds := by unfold authority; rw [hport]; rfl
    have hlast : strrchr (r.host ++ 58 :: ds) 58 = some r.host.length :=
      strrchr_append fun hmem => absurd (hdigits 58 hmem) (by decide)
    have hdrop : (r.host ++ 58 :: ds).drop (r.host.length + 1) = ds := by
      rw [← List.drop_drop, List.drop_left]
      rfl
    have hvalue : min longMax (digitsVal ds : Int) = digitsVal ds := by
      simp only [longMax]
      omega
    rw [hport] at hlen
    have hlen : (r.host ++ 58 :: ds).length ≤ 255 := hlen
    rw [List.length_append, List.length_cons] at hlen
    rw [hauth] at hat hbracket ⊢
    rw [hlast, Option.getD_some, if_neg]
    · dsimp only
      rw [hdrop, strtol_digits hne hdigits, hvalue, if_neg, List.take_left]
      · rfl
      · rintro (h | h | h)
        · exact h rfl
        · omega
        · omega
    · rintro (h | h | h | h)
      · omega
      · omega
      · exact hat h
      · exact hbracket h

/-- The authority of an absolute URI ends at the path or the query, or with the URI. -/
theorem absoluteAuthority_absolute :
    absoluteAuthority (ascii "http://" ++ (r.authority ++ r.suffix)) =
      some (r.authority, if r.suffix = [] then none else some r.suffix) := by
  have hclean : ∀ x ∈ r.authority, x ∉ ascii "/?" := by
    have hsub : ∀ z ∈ ascii "/?", z ∈ ascii "@[/?" := List.all_iff_forall_prop.mp (by decide)
    exact fun x hx hmem => r.authority_clean (hsub x hmem) hx
  have hpos : 0 < r.authority.length := List.length_pos_iff.mpr r.authority_ne_nil
  have hlen : r.authority.length ≤ 255 := r.authority_length
  have hdrop : (ascii "http://" ++ (r.authority ++ r.suffix)).drop 7 = r.authority ++ r.suffix := rfl
  unfold absoluteAuthority
  rw [if_neg (not_not.mpr (List.prefix_append _ _)), hdrop]
  dsimp only
  cases hsuffix : r.suffix with
  | nil =>
    have hnone : strpbrk r.authority (ascii "/?") = none := by
      unfold strpbrk
      rw [List.findIdx?_eq_none_iff]
      intro x hx
      simpa using hclean x hx
    rw [List.append_nil, hnone, Option.getD_none, if_neg (by omega), List.take_length, if_pos rfl]
    rfl
  | cons y t =>
    have hy : y ∈ ascii "/?" := by
      rcases r.suffix_head y (by rw [hsuffix]; rfl) with rfl | rfl
      · decide
      · decide
    rw [strpbrk_append hclean hy, Option.getD_some, if_neg (by omega), List.take_left,
      if_neg (List.cons_ne_nil y t), Option.map_some, List.drop_left]

/-- The path that goes out. -/
theorem originPath_suffix (hline : r.suffix.length < 2047) :
    PptpProxy.originPath (if r.suffix = [] then none else some r.suffix) = some r.originPath := by
  unfold ProxyRequest.originPath
  split
  · rfl
  · unfold PptpProxy.originPath
    dsimp only
    split
    · rw [if_neg (by rw [List.length_cons]; omega)]
    · rfl

/-- The line in origin form, and the target. -/
theorem originRequest_requestLine_eq (hline : r.requestLine.length ≤ 2048) (h : ¬ r.isConnect) :
    originRequest r.requestLine = some ⟨r.host, r.targetPort, r.originLine⟩ := by
  have huri : r.uri = ascii "http://" ++ (r.authority ++ r.suffix) := if_neg h
  have hv := r.version_length
  have hpos : 0 < r.authority.length := List.length_pos_iff.mpr r.authority_ne_nil
  have hparts : r.method.length + 1 + (7 + r.authority.length + r.suffix.length) + 1 +
      r.version.length ≤ 2048 := by
    unfold requestLine at hline
    rw [huri] at hline
    simp only [List.length_append, List.length_cons, show (ascii "http://").length = 7 from rfl]
      at hline
    omega
  have hpath : r.originPath.length ≤ r.suffix.length + 1 := by
    unfold ProxyRequest.originPath
    split
    · rename_i hnil
      rw [hnil]
      decide
    · split
      · exact Nat.le_refl _
      · omega
  have hnew : newFirst r.method r.originPath r.version = some r.originLine := by
    refine if_neg ?_
    simp only [List.length_append, List.length_cons, List.length_nil, crlf]
    omega
  have hport : r.targetPort = r.port.elim 80 fun ds => (digitsVal ds : Int) := by
    unfold targetPort
    rw [if_neg h]
  unfold originRequest
  rw [r.scanRequestLine_requestLine hline]
  dsimp only
  rw [if_neg, huri, r.absoluteAuthority_absolute]
  · dsimp only
    rw [r.parseAuthority_authority, r.originPath_suffix (by omega)]
    dsimp only
    rw [hnew, hport]
    rfl
  · rintro (hversion | hmethod)
    · exact hversion (List.prefix_append _ _)
    · exact h hmethod

/-- What the first line of the text asks for. -/
theorem requestTarget_text (hline : r.requestLine.length ≤ 2048) (rest : Bytes) :
    requestTarget (r.text rest) = some (r.host, r.targetPort, decide r.isConnect) := by
  have htake : (r.text rest).take r.requestLine.length = r.requestLine := by
    unfold text
    rw [List.append_assoc, List.take_left]
  unfold requestTarget
  rw [r.findSub_crlf_text rest]
  dsimp only
  rw [if_neg (Nat.not_lt.mpr hline), htake, r.scanRequestLine_requestLine hline]
  dsimp only
  have hversion : ascii "HTTP/1." <+: r.version := List.prefix_append _ _
  rw [if_neg (not_not.mpr hversion)]
  by_cases h : r.isConnect
  · have huri : r.uri = r.authority := if_pos h
    have hport : r.targetPort = r.port.elim 443 fun ds => (digitsVal ds : Int) := by
      unfold targetPort
      rw [if_pos h]
    have hmethod : r.method = ascii "CONNECT" := h
    rw [if_pos hmethod, huri, r.parseAuthority_authority, decide_eq_true h, hport]
    rfl
  · have hmethod : ¬ r.method = ascii "CONNECT" := h
    rw [if_neg hmethod, r.originRequest_requestLine_eq hline h, decide_eq_false h]
    rfl

end ProxyRequest

/-! ## What the proxy does -/

/-- The slot of a client that was read in one piece. -/
def askedSlot (fd : Int) (text host : Bytes) (port : Int) (connect : Bool) (out : Bytes) :
    Connection :=
  { Connection.accepted fd .httpProxy with
    header := text, host := host, port := port, httpConnect := connect, toRemote := out }

/-- A header block without NUL in front of its end is seen by `feed_local`. -/
theorem strstr_crlfcrlf {b x y : Bytes} (hend : b = x ++ crlfcrlf ++ y) (hnul : 0 ∉ x) :
    ∃ k, strstr (cstr b) crlfcrlf = some k := by
  have hclean : ∀ z ∈ x ++ crlfcrlf, z ≠ 0 := by
    have hmark : ∀ z ∈ crlfcrlf, z ≠ 0 := List.all_iff_forall_prop.mp (by decide)
    intro z hz
    rcases List.mem_append.mp hz with hz | hz
    · rintro rfl
      exact hnul hz
    · exact hmark z hz
  obtain ⟨k, hk, -⟩ := findSub_le_of_split (s := x ++ crlfcrlf ++ cstr y) rfl
  refine ⟨k, ?_⟩
  rw [hend, cstr_append hclean]
  exact hk

section

variable {L : Lwip} {a : Answers} {fd : Int}

/-- A complete header is parsed at once. -/
theorem feedLocal_complete {b : Bytes} {k : Nat} (hlen : b.length < maxHeader)
    (hk : strstr (cstr b) crlfcrlf = some k) :
    feedLocal L true a (Connection.accepted fd .httpProxy) b =
      parseHttp L true a { Connection.accepted fd .httpProxy with header := b } := by
  have hhit : (strstr (cstr ([] ++ b)) crlfcrlf).isSome = true := by
    rw [List.nil_append, hk]
    rfl
  have hroom : ([] : Bytes).length + b.length < maxHeader := by
    rw [List.length_nil]
    omega
  exact (feedLocal_collecting rfl hroom).trans (if_pos hhit)

/-- The slot that `parse_http` hands to `start_connection`. -/
theorem parseHttp_starts {b host out : Bytes} {port : Int} {connect : Bool} {k : Nat} (h0 : 0 ≤ fd)
    (hlen : b.length < maxHeader) (hk : strstr (cstr b) crlfcrlf = some k)
    (htarget : requestTarget b = some (host, port, connect))
    (hout : outgoing { Connection.accepted fd .httpProxy with httpConnect := connect } b =
      some out) :
    StartsAs L a (askedSlot fd b host port connect out)
      (feedLocal L true a (Connection.accepted fd .httpProxy) b) := by
  obtain ⟨-, hsome⟩ := parseHttpHead_spec
    (c := { Connection.accepted fd .httpProxy with header := b }) rfl rfl rfl hlen hk
  obtain ⟨io, image, happ, hhead, himage⟩ := hsome host port connect htarget
  have hsame : image = out := by
    have himage' := (outgoing_congr { Connection.accepted fd .httpProxy with httpConnect := connect }
      { Connection.accepted fd .httpProxy with header := b, httpConnect := connect } rfl rfl b).symm
    exact Option.some.inj (himage.symm.trans (himage'.symm.trans hout))
  subst hsame
  have hparse : feedLocal L true a (Connection.accepted fd .httpProxy) b =
      ((startConnection L true a (askedSlot fd b host port connect image)).1,
        io ++ (startConnection L true a (askedSlot fd b host port connect image)).2, true) := by
    rw [feedLocal_complete hlen hk]
    unfold parseHttp
    rw [hhead]
    rfl
  refine ⟨?_, io, happ, hparse⟩
  rw [hparse]
  exact (happ.startsIn_left _).trans (startsIn_startConnection h0 fun h => by cases h)

end

/-- **Every well-formed request is served.**  With the link up, a request whose text has a CRLFCRLF
    without a NUL in front of it and is shorter than MAX_HEADER ends in one call of
    `start_connection`, for its own host and port.  What waits for the remote then is, for CONNECT, all
    that follows the first CRLFCRLF, and otherwise the request with its line in origin form and every
    other byte as it was. -/
theorem http_wellFormed {L : Lwip} {a : Answers} {fd : Int} (h0 : 0 ≤ fd) (r : ProxyRequest)
    (rest : Bytes) (hline : r.requestLine.length ≤ 2048) (hlen : (r.text rest).length < maxHeader)
    (hend : ∃ x y, r.text rest = x ++ crlfcrlf ++ y ∧ 0 ∉ x) :
    (¬ r.isConnect →
      StartsAs L a (askedSlot fd (r.text rest) r.host r.targetPort false (r.originLine ++ rest))
        (feedLocal L true a (Connection.accepted fd .httpProxy) (r.text rest))) ∧
    (r.isConnect → ∃ early, afterHeader (r.text rest) = some early ∧
      StartsAs L a (askedSlot fd (r.text rest) r.host r.targetPort true early)
        (feedLocal L true a (Connection.accepted fd .httpProxy) (r.text rest))) := by
  obtain ⟨x, y, hsplit, hnul⟩ := hend
  obtain ⟨k, hk⟩ := strstr_crlfcrlf hsplit hnul
  have htarget := r.requestTarget_text hline rest
  refine ⟨fun h => ?_, fun h => ?_⟩
  · rw [decide_eq_false h] at htarget
    refine parseHttp_starts h0 hlen hk htarget ?_
    have htake : (r.text rest).take r.requestLine.length = r.requestLine := by
      unfold ProxyRequest.text
      rw [List.append_assoc, List.take_left]
    have hdrop : (r.text rest).drop (r.requestLine.length + 2) = rest := by
      unfold ProxyRequest.text
      rw [List.append_assoc, ← List.drop_drop, List.drop_left]
      rfl
    show rewritten (r.text rest) = _
    unfold rewritten
    rw [r.findSub_crlf_text rest]
    dsimp only
    rw [htake, hdrop, r.originRequest_requestLine_eq hline h]
    rfl
  · rw [decide_eq_true h] at htarget
    have hk' : findSub crlfcrlf (r.text rest) = some k :=
      findSub_of_isPrefix (cstr_isPrefix _) hk
    have hearly : afterHeader (r.text rest) = some ((r.text rest).drop (k + 4)) := by
      unfold afterHeader
      rw [hk']
      rfl
    exact ⟨_, hearly, parseHttp_starts h0 hlen hk htarget hearly⟩

/-- A POST with a query and no path, to a host with a port. -/
def samplePost : ProxyRequest where
  method := ascii "POST"
  method_ne_nil := by decide
  method_length := by decide
  method_word := List.all_iff_forall_prop.mp (by decide)
  host := ascii "10.0.0.1"
  host_ne_nil := by decide
  host_word := List.all_iff_forall_prop.mp (by decide)
  port := some (ascii "8080")
  port_decimal ds h := by
    obtain rfl := Option.some.inj h
    exact ⟨by decide, List.all_iff_forall_prop.mp (by decide), by decide, by decide⟩
  authority_length := by decide
  suffix := ascii "?q=1"
  suffix_head b h := by
    obtain rfl := Option.some.inj h
    exact Or.inr rfl
  suffix_word := List.all_iff_forall_prop.mp (by decide)
  minor := ascii "1"
  minor_length := by decide
  minor_word := List.all_iff_forall_prop.mp (by decide)

/-- Its body is a NUL and a CR. -/
theorem http_wellFormed_post :
    StartsAs sampleLwip (willing 0)
      (askedSlot 20 (ascii "POST http://10.0.0.1:8080?q=1 HTTP/1.1\r\nA: b\r\n\r\n" ++ [0, 13])
        (ascii "10.0.0.1") 8080 false (ascii "POST /?q=1 HTTP/1.1\r\nA: b\r\n\r\n" ++ [0, 13]))
      (feedLocal sampleLwip true (willing 0) (Connection.accepted 20 .httpProxy)
        (ascii "POST http://10.0.0.1:8080?q=1 HTTP/1.1\r\nA: b\r\n\r\n" ++ [0, 13])) := by
  have htext : samplePost.text (ascii "A: b\r\n\r\n" ++ [0, 13]) =
      ascii "POST http://10.0.0.1:8080?q=1 HTTP/1.1\r\nA: b\r\n\r\n" ++ [0, 13] := by decide
  have hout : samplePost.originLine ++ (ascii "A: b\r\n\r\n" ++ [0, 13]) =
      ascii "POST /?q=1 HTTP/1.1\r\nA: b\r\n\r\n" ++ [0, 13] := by decide
  have hport : samplePost.targetPort = 8080 := by decide
  have h := (http_wellFormed (L := sampleLwip) (a := willing 0) (by decide : (0 : Int) ≤ 20)
    samplePost (ascii "A: b\r\n\r\n" ++ [0, 13]) (by decide) (by decide)
    ⟨ascii "POST http://10.0.0.1:8080?q=1 HTTP/1.1\r\nA: b", [0, 13], by decide, by decide⟩).1
    (by decide)
  rw [htext, hout, hport] at h
  exact h

end PptpProxy
