/-
  HTTP/1.x requests in absolute form, and what `parse_http` makes of one.

  `HttpRequest` is a request without a body as a client of a proxy writes it (`encode`), with its
  well-formedness in the structure.  The code rejects many of them (an authority with `@` or `[`, a
  port out of range, a line of more than 2048 bytes); `originRequest_requestLine` says that when it
  accepts one it has read it RIGHT: the target is the authority the URI names, and the new first
  line is the request's own in origin form.
-/
import PptpProxy.Engine.Lifecycle

namespace PptpProxy

open CLib

/-! ## Requests -/

/-- A printable ASCII character other than the blank. -/
def visible (b : UInt8) : Bool := 33 ≤ b && b ≤ 126

/-- A request `METHOD http://HOST[:PORT]/PATH HTTP/1.x` with its header lines and no body.  `host`
    is the authority up to its port: a colon in it belongs to an IPv6 literal or to user
    information. -/
structure HttpRequest where
  method : Bytes
  host : Bytes
  port : Option Bytes
  path : Bytes
  minor : UInt8
  headers : List Bytes
  method_visible : ∀ b ∈ method, visible b = true
  method_ne_nil : method ≠ []
  method_ne_connect : method ≠ ascii "CONNECT"
  host_visible : ∀ b ∈ host, visible b = true
  host_delim : ∀ b ∈ host, b ∉ ascii "/?#"
  host_colon : 58 ∈ host → 64 ∈ host ∨ 91 ∈ host
  port_digits : ∀ ds, port = some ds → ∀ b ∈ ds, isdigit b = true
  path_visible : ∀ b ∈ path, visible b = true
  path_slash : path.head? = some 47
  minor_digit : isdigit minor = true
  headers_line : ∀ h ∈ headers, h ≠ [] ∧ 13 ∉ h ∧ 10 ∉ h

namespace HttpRequest

variable (r : HttpRequest)

def version : Bytes := ascii "HTTP/1." ++ [r.minor]

/-- The authority as it stands in the URI. -/
def authority : Bytes :=
  match r.port with
  | none => r.host
  | some ds => r.host ++ 58 :: ds

def uri : Bytes := ascii "http://" ++ (r.authority ++ r.path)

/-- The host and the port the URI names; an empty or missing port is 80. -/
def target : Bytes × Int :=
  (r.host, match r.port with
    | none => 80
    | some [] => 80
    | some ds => digitsVal ds)

/-- The request line as the client sends it to the proxy, without its CRLF. -/
def requestLine : Bytes := r.method ++ 32 :: (r.uri ++ 32 :: r.version)

/-- The request line in origin form. -/
def originLine : Bytes := r.method ++ [32] ++ r.path ++ [32] ++ r.version ++ crlf

/-- The header lines and the empty line behind them. -/
def headerLines : Bytes := r.headers.flatMap (· ++ crlf) ++ crlf

/-- The request as the client sends it to the proxy. -/
def encode : Bytes := r.requestLine ++ crlf ++ r.headerLines

/-- The request as its origin server is to get it. -/
def originForm : Bytes := r.originLine ++ r.headerLines

end HttpRequest

/-! ## No blank and no line end inside a word -/

theorem visible_iff {b : UInt8} : visible b = true ↔ 33 ≤ b.toNat ∧ b.toNat ≤ 126 := by
  unfold visible
  rw [Bool.and_eq_true, decide_eq_true_iff, decide_eq_true_iff, UInt8.le_iff_toNat_le,
    UInt8.le_iff_toNat_le]
  rfl

theorem isspace_of_visible {b : UInt8} (h : visible b = true) : isspace b = false := by
  obtain ⟨h1, -⟩ := visible_iff.mp h
  have h32 : b ≠ 32 := by
    rintro rfl
    exact absurd h1 (by decide)
  have h13 : ¬ b ≤ 13 := by
    intro hle
    have : b.toNat ≤ 13 := UInt8.le_iff_toNat_le.mp hle
    omega
  simp [isspace, h32, h13]

/-- A blank ends a word. -/
theorem isspace_of_blank (l : Bytes) (b : UInt8) (h : (32 :: l).head? = some b) :
    isspace b = true := by
  obtain rfl := Option.some.inj h
  rfl

/-- A line of three words that fit the widths of the conversions is read word for word. -/
theorem scanRequestLine_words {method uri version : Bytes}
    (hm : method ≠ [] ∧ method.length ≤ 19) (hu : uri ≠ [] ∧ uri.length ≤ 2047)
    (hv : version ≠ [] ∧ version.length ≤ 19) (hmw : ∀ b ∈ method, isspace b = false)
    (huw : ∀ b ∈ uri, isspace b = false) (hvw : ∀ b ∈ version, isspace b = false) :
    scanRequestLine (method ++ 32 :: (uri ++ 32 :: version)) = some (method, uri, version) := by
  have hmethod := scanToken_word 19 hm.1 hmw (isspace_of_blank (uri ++ 32 :: version))
  have huri := scanToken_word 2047 hu.1 huw (isspace_of_blank version)
  have hversion : scanToken 19 (version ++ []) = some (version.take 19, version.drop 19 ++ []) :=
    scanToken_word 19 hv.1 hvw (fun b hb => (by cases hb))
  rw [List.take_of_length_le hm.2, List.drop_of_length_le hm.2, List.nil_append] at hmethod
  rw [List.take_of_length_le hu.2, List.drop_of_length_le hu.2, List.nil_append] at huri
  rw [List.append_nil, List.take_of_length_le hv.2] at hversion
  unfold scanRequestLine
  rw [hmethod]
  dsimp only
  rw [scanToken_space, huri]
  dsimp only
  rw [scanToken_space, hversion]

theorem visible_of_isdigit {b : UInt8} (h : isdigit b = true) : visible b = true := by
  obtain ⟨h1, h2⟩ := isdigit_iff.mp h
  rw [visible_iff]
  omega

namespace HttpRequest

variable (r : HttpRequest)

theorem authority_visible : ∀ b ∈ r.authority, visible b = true := by
  intro b hb
  unfold authority at hb
  split at hb
  · exact r.host_visible b hb
  · rename_i ds hport
    rcases List.mem_append.mp hb with hb | hb
    · exact r.host_visible b hb
    · rcases List.mem_cons.mp hb with rfl | hb
      · rfl
      · exact visible_of_isdigit (r.port_digits ds hport b hb)

theorem uri_visible : ∀ b ∈ r.uri, visible b = true := by
  intro b hb
  rcases List.mem_append.mp hb with hb | hb
  · have hscheme : ∀ b ∈ ascii "http://", visible b = true :=
      List.all_iff_forall_prop.mp (by decide)
    exact hscheme b hb
  · rcases List.mem_append.mp hb with hb | hb
    · exact r.authority_visible b hb
    · exact r.path_visible b hb

theorem version_visible : ∀ b ∈ r.version, visible b = true := by
  intro b hb
  rcases List.mem_append.mp hb with hb | hb
  · have hname : ∀ b ∈ ascii "HTTP/1.", visible b = true :=
      List.all_iff_forall_prop.mp (by decide)
    exact hname b hb
  · obtain rfl := List.mem_singleton.mp hb
    exact visible_of_isdigit r.minor_digit

/-- The first CRLF of a request ends its request line. -/
theorem cr_not_mem_requestLine : (13 : UInt8) ∉ r.requestLine := by
  have hvisible : ∀ l : Bytes, (∀ b ∈ l, visible b = true) → (13 : UInt8) ∉ l := by
    intro l hl hmem
    exact absurd (hl 13 hmem) (by decide)
  intro hmem
  rcases List.mem_append.mp hmem with hmem | hmem
  · exact hvisible _ r.method_visible hmem
  · rcases List.mem_cons.mp hmem with he | hmem
    · exact absurd he (by decide)
    · rcases List.mem_append.mp hmem with hmem | hmem
      · exact hvisible _ r.uri_visible hmem
      · rcases List.mem_cons.mp hmem with he | hmem
        · exact absurd he (by decide)
        · exact hvisible _ r.version_visible hmem

theorem findSub_crlf_encode : findSub crlf r.encode = some r.requestLine.length :=
  findSub_of_not_mem r.headerLines r.cr_not_mem_requestLine

end HttpRequest

/-! ## What `parse_http` reads -/

section

variable (r : HttpRequest)

theorem uri_ne_nil : r.uri ≠ [] := by
  unfold HttpRequest.uri
  intro h
  have := congrArg List.length h
  simp [ascii] at this

theorem version_length : r.version.length = 8 := rfl

/-- The conversion of the method takes at most 19 bytes of it. -/
theorem scanRequestLine_method {method uri version : Bytes}
    (h : scanRequestLine r.requestLine = some (method, uri, version)) :
    method = r.method.take 19 := by
  have hmethod := scanToken_word 19 r.method_ne_nil
    (fun b hb => isspace_of_visible (r.method_visible b hb))
    (isspace_of_blank (r.uri ++ 32 :: r.version))
  unfold scanRequestLine at h
  rw [show r.requestLine = r.method ++ 32 :: (r.uri ++ 32 :: r.version) from rfl, hmethod] at h
  dsimp only at h
  split at h
  · cases h
  · split at h
    · cases h
    · obtain ⟨rfl, -⟩ := Prod.mk.inj (Option.some.inj h)
      rfl

/-- A request line of at most 2048 bytes with a method of at most 19 is read word for word. -/
theorem scanRequestLine_short (hlen : r.requestLine.length ≤ 2048) (hm : r.method.length ≤ 19) :
    scanRequestLine r.requestLine = some (r.method, r.uri, r.version) := by
  have hurilen : r.uri.length ≤ 2047 := by
    have := version_length r
    unfold HttpRequest.requestLine at hlen
    simp only [List.length_append, List.length_cons] at hlen
    omega
  exact scanRequestLine_words ⟨r.method_ne_nil, hm⟩ ⟨uri_ne_nil r, hurilen⟩
    ⟨by simp [HttpRequest.version], by rw [version_length]; decide⟩
    (fun b hb => isspace_of_visible (r.method_visible b hb))
    (fun b hb => isspace_of_visible (r.uri_visible b hb))
    (fun b hb => isspace_of_visible (r.version_visible b hb))

/-- A longer method spills into the next conversion, and the URI is taken for the version. -/
theorem scanRequestLine_long {method uri version : Bytes} (hlen : r.requestLine.length ≤ 2048)
    (hm : 19 < r.method.length)
    (h : scanRequestLine r.requestLine = some (method, uri, version)) : version = r.uri.take 19 := by
  have hspill : r.method.drop 19 ≠ [] := by
    intro hnil
    have := List.drop_eq_nil_iff.mp hnil
    omega
  have hspilllen : (r.method.drop 19).length ≤ 2047 := by
    unfold HttpRequest.requestLine at hlen
    rw [List.length_drop]
    simp only [List.length_append, List.length_cons] at hlen
    omega
  have hmethod := scanToken_word 19 r.method_ne_nil
    (fun b hb => isspace_of_visible (r.method_visible b hb)) (isspace_of_blank (r.uri ++ 32 :: r.version))
  have hrest := scanToken_word 2047 hspill
    (fun b hb => isspace_of_visible (r.method_visible b (List.mem_of_mem_drop hb)))
    (isspace_of_blank (r.uri ++ 32 :: r.version))
  have huri := scanToken_word 19 (uri_ne_nil r)
    (fun b hb => isspace_of_visible (r.uri_visible b hb)) (isspace_of_blank r.version)
  rw [List.take_of_length_le hspilllen, List.drop_of_length_le hspilllen, List.nil_append] at hrest
  unfold scanRequestLine at h
  rw [show r.requestLine = r.method ++ 32 :: (r.uri ++ 32 :: r.version) from rfl, hmethod] at h
  dsimp only at h
  rw [hrest] at h
  dsimp only at h
  rw [scanToken_space, huri] at h
  have := congrArg (fun t : Bytes × Bytes × Bytes => t.2.2) (Option.some.inj h)
  exact this.symm

theorem absoluteAuthority_uri {authority : Bytes} {slash : Option Bytes}
    (h : absoluteAuthority r.uri = some (authority, slash)) :
    authority = r.authority ∧ slash = some r.path := by
  obtain ⟨path, hpath⟩ : ∃ path, r.path = 47 :: path := by
    have := r.path_slash
    cases hp : r.path with
    | nil =>
      rw [hp] at this
      cases this
    | cons b path =>
      rw [hp] at this
      obtain rfl := Option.some.inj this
      exact ⟨path, rfl⟩
  have hdrop : r.uri.drop 7 = r.authority ++ r.path := rfl
  have hclean : ∀ x ∈ r.authority, x ∉ ascii "/?" := by
    intro x hx
    unfold HttpRequest.authority at hx
    have hhost : ∀ y ∈ r.host, y ∉ ascii "/?" := by
      intro y hy hmem
      refine r.host_delim y hy ?_
      have hsub : ∀ z ∈ ascii "/?", z ∈ ascii "/?#" :=
        List.all_iff_forall_prop.mp (by decide)
      exact hsub y hmem
    split at hx
    · exact hhost x hx
    · rename_i ds hport
      rcases List.mem_append.mp hx with hx | hx
      · exact hhost x hx
      · rcases List.mem_cons.mp hx with rfl | hx
        · decide
        · intro hmem
          have hnodigit : ∀ z ∈ ascii "/?", isdigit z = false :=
            List.all_iff_forall_prop.mp (by decide)
          have := r.port_digits ds hport x hx
          rw [hnodigit x hmem] at this
          cases this
  have hslash : strpbrk (r.uri.drop 7) (ascii "/?") = some r.authority.length := by
    rw [hdrop, hpath]
    exact strpbrk_append hclean (by decide)
  unfold absoluteAuthority at h
  rw [if_neg (by simp [HttpRequest.uri])] at h
  dsimp only at h
  rw [hslash] at h
  dsimp only [Option.getD_some, Option.map_some] at h
  split at h
  · cases h
  · obtain ⟨rfl, rfl⟩ := Prod.mk.inj (Option.some.inj h)
    rw [hdrop]
    exact ⟨List.take_left, congrArg some List.drop_left⟩

theorem parseAuthority_target {host : Bytes} {port : Int}
    (h : parseAuthority r.authority 256 80 = some (host, port)) : (host, port) = r.target := by
  obtain ⟨hnoat, hnobracket, -, -, hshape⟩ := parseAuthority_cases h
  have hsub : ∀ b ∈ r.host, b ∈ r.authority := by
    intro b hb
    unfold HttpRequest.authority
    split
    · exact hb
    · exact List.mem_append_left _ hb
  have hnocolon : (58 : UInt8) ∉ r.host := by
    intro hmem
    rcases r.host_colon hmem with hat | hbracket
    · exact hnoat (hsub _ hat)
    · exact hnobracket (hsub _ hbracket)
  unfold HttpRequest.target
  cases hport : r.port with
  | none =>
    have hauth : r.authority = r.host := by unfold HttpRequest.authority; rw [hport]
    rw [hauth] at hshape
    rcases hshape with ⟨-, rfl, rfl⟩ | ⟨k, hcolon, -⟩
    · rfl
    · rw [strrchr_eq_none hnocolon] at hcolon
      cases hcolon
  | some ds =>
    have hdigits := r.port_digits ds hport
    have hauth : r.authority = r.host ++ 58 :: ds := by unfold HttpRequest.authority; rw [hport]
    have hlast : strrchr (r.host ++ 58 :: ds) 58 = some r.host.length := by
      refine strrchr_append fun hmem => ?_
      exact absurd (hdigits 58 hmem) (by decide)
    rw [hauth] at hshape
    rcases hshape with ⟨hno, -⟩ | ⟨k, hcolon, rfl, -, hread, hmin, hmax⟩
    · exact absurd (List.mem_append_right r.host List.mem_cons_self) hno
    · obtain rfl := Option.some.inj (hlast.symm.trans hcolon)
      have hdrop : (r.host ++ 58 :: ds).drop (r.host.length + 1) = ds := by
        rw [← List.drop_drop, List.drop_left]
        rfl
      rw [hdrop] at hread
      rw [List.take_left]
      cases hds : ds with
      | nil =>
        rw [hds, strtol_nil] at hread
        obtain ⟨rfl, -⟩ := Prod.mk.inj hread
        exact absurd hmin (by decide)
      | cons d t =>
        rw [strtol_digits (by rw [hds]; exact List.cons_ne_nil d t) hdigits] at hread
        obtain ⟨rfl, -⟩ := Prod.mk.inj hread
        have hexact : min longMax (digitsVal ds : Int) = digitsVal ds := by
          simp only [longMax] at hmax ⊢
          omega
        rw [hexact, hds]

/-- **What `parse_http` makes of a request it accepts**: the target its URI names and its line in
    origin form. -/
theorem originRequest_requestLine {o : OriginRequest} (hlen : r.requestLine.length ≤ 2048)
    (h : originRequest r.requestLine = some o) :
    (o.host, o.port) = r.target ∧ o.line = r.originLine := by
  by_cases hm : r.method.length ≤ 19
  · unfold originRequest at h
    rw [scanRequestLine_short r hlen hm] at h
    dsimp only at h
    split at h
    · cases h
    · split at h
      · cases h
      · rename_i authority slash habs
        obtain ⟨rfl, rfl⟩ := absoluteAuthority_uri r habs
        split at h
        · rename_i host port path hauth hpath
          obtain ⟨line, hline, rfl⟩ := Option.map_eq_some_iff.mp h
          refine ⟨parseAuthority_target r hauth, ?_⟩
          have hsame : path = r.path := by
            unfold originPath at hpath
            dsimp only at hpath
            rw [if_neg (by rw [r.path_slash]; decide)] at hpath
            exact (Option.some.inj hpath).symm
          unfold newFirst at hline
          dsimp only at hline
          split at hline
          · cases hline
          · rw [← Option.some.inj hline, hsame]
            rfl
        · cases h
  · -- the version would have to be the beginning of the URI
    exfalso
    unfold originRequest at h
    split at h
    · cases h
    · rename_i method uri version hscan
      have hversion := scanRequestLine_long r hlen (Nat.not_le.mp hm) hscan
      rw [if_pos] at h
      · cases h
      · left
        rintro ⟨t, ht⟩
        rw [hversion] at ht
        have := congrArg List.head? ht
        simp [HttpRequest.uri, ascii] at this

/-- A request other than CONNECT is not taken for one. -/
theorem scanRequestLine_not_connect {uri version : Bytes} :
    scanRequestLine r.requestLine ≠ some (ascii "CONNECT", uri, version) := by
  intro h
  have hmethod := scanRequestLine_method r h
  have hlen := congrArg List.length hmethod
  rw [List.length_take] at hlen
  have hseven : (ascii "CONNECT").length = 7 := by decide
  rw [List.take_of_length_le (by omega)] at hmethod
  exact r.method_ne_connect hmethod.symm

end

end PptpProxy
