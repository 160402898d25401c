/-
  What an ACCEPTED HTTP request is known to say.

  `Http.WellFormed` goes from a well-formed request to what the proxy does with it; this file goes
  back, from the `true` of a parser to the text it was given, for every text.

  * `parseAuthority_accepts`: the texts `parse_authority` takes are `HOST` and `HOST:PORT`, but the host
    may have colons of its own (the cut is at the LAST one) and `strtol` lets a plus sign pass in front
    of the digits.  `authority_means` says when neither happens.
  * `scanRequestLine_cases`: `sscanf` fills its three fields from the words of the line, but a word that
    is longer than its field goes on in the next field, and nothing looks behind the third.
    `request_line_understood` says when the fields are the words.
-/
import PptpProxy.Http.WellFormed

namespace PptpProxy

open CLib

/-! ## Authorities -/

/-- The text is a host alone, or a host, a colon and a decimal port number. -/
def AuthoritySays (authority : Bytes) (defaultPort : Int) (host : Bytes) (port : Int) : Prop :=
  (58 ∉ authority ∧ host = authority ∧ port = defaultPort) ∨
  ∃ digits, authority = host ++ 58 :: digits ∧ 58 ∉ host ∧ IsPort digits ∧ port = digitsVal digits

/-- The host fits its buffer and has neither user information nor a bracket in it. -/
def HostFits (hostCapacity : Nat) (host : Bytes) : Prop :=
  1 ≤ host.length ∧ host.length ≤ hostCapacity - 1 ∧ 64 ∉ host ∧ 91 ∉ host

/-- There is at most one colon, and no plus sign right behind it. -/
def PlainAuthority (authority : Bytes) : Prop :=
  authority.count 58 ≤ 1 ∧ ¬ ascii ":+" <:+: authority

section

variable {authority host : Bytes} {hostCapacity : Nat} {port defaultPort : Int}

/-- A port text `strtol` is content with: digits, with or without a plus sign. -/
theorem strtol_accepts {s rest : Bytes} {parsed : Int} (hspace : ∀ b ∈ s, isspace b = false)
    (h : strtol s = (parsed, rest)) (hrange : ¬ (rest ≠ [] ∨ parsed < 1 ∨ parsed > 65535)) :
    ∃ digits, (s = digits ∨ s = 43 :: digits) ∧ IsPort digits ∧ parsed = digitsVal digits := by
  have hrest : rest = [] := by
    by_contra hne
    exact hrange (Or.inl hne)
  subst hrest
  unfold strtol at h
  cases hexact : strtolExact s with
  | none =>
    rw [hexact] at h
    obtain ⟨rfl, -⟩ := Prod.mk.inj h
    omega
  | some t =>
    obtain ⟨v, rest⟩ := t
    rw [hexact] at h
    obtain ⟨hv, rfl⟩ := Prod.mk.inj h
    -- a saturated value is out of range, so this one is exact
    have hfit : parsed = v := by
      simp only [longMax, longMin] at hv
      omega
    obtain ⟨ds, hne, hdigits, hminus | ⟨hs, hval⟩⟩ := strtolExact_whole hspace hexact
    · omega
    · exact ⟨ds, hs, ⟨hne, hdigits, by omega, by omega⟩, by omega⟩

/-- **What `parse_authority` takes.** -/
theorem parseAuthority_accepts (hspace : ∀ b ∈ authority, isspace b = false)
    (h : parseAuthority authority hostCapacity defaultPort = some (host, port)) :
    HostFits hostCapacity host ∧
    ((58 ∉ authority ∧ host = authority ∧ port = defaultPort) ∨
      ∃ digits, (authority = host ++ 58 :: digits ∨ authority = host ++ 58 :: 43 :: digits) ∧
        IsPort digits ∧ port = digitsVal digits) := by
  obtain ⟨hat, hbracket, hne, hlen, hport⟩ := parseAuthority_cases h
  have hpos : 0 < host.length := List.length_pos_iff.mpr hne
  rcases hport with ⟨hno, rfl, rfl⟩ | ⟨k, -, hhost, hsplit, hread, hmin, hmax⟩
  · exact ⟨⟨hpos, by omega, hat, hbracket⟩, Or.inl ⟨hno, rfl, rfl⟩⟩
  · have hsub : ∀ x ∈ host, x ∈ authority := by
      intro x hx
      rw [hsplit]
      exact List.mem_append_left _ hx
    obtain ⟨digits, hdigits, hisport, hval⟩ :=
      strtol_accepts (fun x hx => hspace x (List.mem_of_mem_drop hx)) hread (by simp; omega)
    refine ⟨⟨hpos, by omega, fun hmem => hat (hsub 64 hmem), fun hmem => hbracket (hsub 91 hmem)⟩,
      Or.inr ⟨digits, ?_, hisport, hval⟩⟩
    rcases hdigits with hdigits | hdigits
    · exact Or.inl (hdigits ▸ hsplit)
    · exact Or.inr (hdigits ▸ hsplit)

/-- The only colon in front of digits is the one the text was put together with. -/
theorem AuthoritySays.plain (h : AuthoritySays authority defaultPort host port) :
    PlainAuthority authority := by
  rcases h with ⟨hno, -⟩ | ⟨digits, rfl, hhost, ⟨-, hdigits, -⟩, -⟩
  · refine ⟨by rw [List.count_eq_zero_of_not_mem hno]; decide, fun hin => ?_⟩
    exact hno (hin.mem (by decide))
  · have hcolon : (58 : UInt8) ∉ digits := fun hmem => absurd (hdigits 58 hmem) (by decide)
    have hcount : (host ++ 58 :: digits).count 58 = 1 := by
      rw [List.count_append, List.count_cons_self, List.count_eq_zero_of_not_mem hhost,
        List.count_eq_zero_of_not_mem hcolon]
    refine ⟨by omega, ?_⟩
    rintro ⟨x, y, hxy⟩
    have hsame : host ++ 58 :: digits = x ++ 58 :: (43 :: y) := by
      rw [← hxy]
      simp [ascii]
    obtain ⟨-, -, hplus⟩ := (List.append_cons_inj_of_notMem hhost hcolon).mp hsame
    exact absurd (hdigits 43 (hplus ▸ List.mem_cons_self)) (by decide)

/-- **When an accepted authority means what it says.**  Of a text without white space and NUL that
    `parse_authority` takes, the result is the text's own host and port, and the host is a name, exactly
    when the text has at most one colon and no plus sign behind it. -/
theorem authority_means (hword : ∀ b ∈ authority, wordByte b = true)
    (h : parseAuthority authority hostCapacity defaultPort = some (host, port)) :
    (AuthoritySays authority defaultPort host port ∧ HostFits hostCapacity host) ↔
      PlainAuthority authority := by
  obtain ⟨hfits, hsays⟩ := parseAuthority_accepts (fun b hb => (wordByte_iff.mp (hword b hb)).1) h
  constructor
  · intro hmeans
    exact hmeans.1.plain
  · rintro ⟨hcount, hplus⟩
    refine ⟨?_, hfits⟩
    rcases hsays with hbare | ⟨digits, rfl | rfl, hport, hval⟩
    · exact Or.inl hbare
    · refine Or.inr ⟨digits, rfl, ?_, hport, hval⟩
      rw [List.count_append, List.count_cons_self] at hcount
      exact List.count_eq_zero.mp (by omega)
    · exact absurd ⟨host, digits, by simp [ascii]⟩ hplus

end

theorem authority_means_port :
    AuthoritySays (ascii "10.0.0.1:8080") 80 (ascii "10.0.0.1") 8080 ∧ HostFits 256 (ascii "10.0.0.1") :=
  (authority_means (List.all_iff_forall_prop.mp (by decide))
    (by decide : parseAuthority (ascii "10.0.0.1:8080") 256 80 = some (ascii "10.0.0.1", 8080))).mpr
    ⟨by decide, by decide⟩

/-- An IPv6 literal is taken for a host and a port: its last group becomes the port, and what is in front
    of the last colon the host.  So is a plus sign taken for a part of the port. -/
theorem authority_means_fails :
    (∀ b ∈ ascii "2001:db8::1", wordByte b = true) ∧
    parseAuthority (ascii "2001:db8::1") 256 443 = some (ascii "2001:db8:", 1) ∧
    ¬ AuthoritySays (ascii "2001:db8::1") 443 (ascii "2001:db8:") 1 ∧
    parseAuthority (ascii "10.0.0.1:+80") 256 443 = some (ascii "10.0.0.1", 80) ∧
    ¬ AuthoritySays (ascii "10.0.0.1:+80") 443 (ascii "10.0.0.1") 80 := by
  refine ⟨List.all_iff_forall_prop.mp (by decide), by decide, fun h => ?_, by decide, fun h => ?_⟩
  · exact absurd h.plain.1 (by decide)
  · exact h.plain.2 ⟨ascii "10.0.0.1", ascii "80", by decide⟩

/-! ## Request lines -/

/-- The request line in a header buffer: everything in front of the first CRLF. -/
def requestLine (header : Bytes) : Bytes :=
  match strstr (cstr header) crlf with
  | none => []
  | some n => header.take n

/-- The first and the third word of the line fit `method` and `version`. -/
def NarrowFields (line : Bytes) : Prop :=
  (∀ w, (words line)[0]? = some w → w.length ≤ 19) ∧ ∀ w, (words line)[2]? = some w → w.length ≤ 19

/-- At most three words, the first and the third of at most 19 bytes. -/
def FitsFields (line : Bytes) : Prop := (words line).length ≤ 3 ∧ NarrowFields line

section

variable {line method uri version : Bytes}

/-- **What the three conversions read.**  On a line of at most 2048 bytes the URI is never cut, but a
    method of more than 19 bytes goes on as the URI. -/
theorem scanRequestLine_cases (hlen : line.length ≤ 2048)
    (h : scanRequestLine line = some (method, uri, version)) :
    (∃ w ws, words line = method :: uri :: w :: ws ∧ method.length ≤ 19 ∧ version = w.take 19) ∨
    ∃ v w ws, words line = v :: w :: ws ∧ 19 < v.length ∧ method = v.take 19 ∧ uri = v.drop 19 ∧
      version = w.take 19 := by
  unfold scanRequestLine at h
  rcases scanToken_words 19 line with ⟨-, hnone⟩ | ⟨w₁, ws₁, rest₁, hws₁, hne₁, hscan₁, hrest₁, hlen₁⟩
  · rw [hnone] at h
    cases h
  rw [hscan₁] at h
  dsimp only at h
  rcases scanToken_words 2047 rest₁ with ⟨-, hnone⟩ | ⟨w₂, ws₂, rest₂, hws₂, -, hscan₂, hrest₂, -⟩
  · rw [hnone] at h
    cases h
  rw [hscan₂] at h
  dsimp only at h
  rcases scanToken_words 19 rest₂ with ⟨-, hnone⟩ | ⟨w₃, ws₃, rest₃, hws₃, -, hscan₃, -⟩
  · rw [hnone] at h
    cases h
  rw [hscan₃] at h
  obtain ⟨rfl, hrest⟩ := Prod.mk.inj (Option.some.inj h)
  obtain ⟨rfl, rfl⟩ := Prod.mk.inj hrest
  -- the method took a byte, so at most 2047 are left for the URI
  have hshort : w₂.length ≤ 2047 := by
    have hpos : 0 < w₁.length := List.length_pos_iff.mpr hne₁
    have hrest := words_length hws₂
    rw [List.length_take] at hlen₁
    omega
  rw [if_pos hshort, hws₃] at hrest₂
  rw [hws₂] at hrest₁
  rw [List.take_of_length_le hshort]
  subst hrest₂
  split at hrest₁
  · rename_i hfit
    left
    refine ⟨w₃, ws₃, ?_, ?_, rfl⟩
    · rw [hws₁, List.take_of_length_le hfit, ← hrest₁]
    · rw [List.length_take]
      omega
  · rename_i hlong
    right
    obtain ⟨rfl, rfl⟩ := List.cons.inj hrest₁
    exact ⟨w₁, w₃, ws₃, hws₁, by omega, rfl, rfl, rfl⟩

/-- The fields are the words exactly when every word has a field that it fits. -/
theorem words_eq_fields_iff (hlen : line.length ≤ 2048)
    (h : scanRequestLine line = some (method, uri, version)) :
    words line = [method, uri, version] ↔ FitsFields line := by
  rcases scanRequestLine_cases hlen h with ⟨w, ws, hws, hmethod, rfl⟩ |
    ⟨v, w, ws, hws, hlong, rfl, rfl, rfl⟩
  · constructor
    · intro heq
      rw [hws] at heq
      obtain ⟨hw, rfl⟩ := List.cons.inj (List.cons.inj (List.cons.inj heq).2).2
      refine ⟨by rw [hws]; exact Nat.le_refl 3, fun x hx => ?_, fun x hx => ?_⟩
      · rw [hws] at hx
        obtain rfl := Option.some.inj hx
        exact hmethod
      · rw [hws] at hx
        obtain rfl := Option.some.inj hx
        rw [hw, List.length_take]
        omega
    · rintro ⟨hthree, -, hversion⟩
      rw [hws] at hthree hversion ⊢
      obtain rfl : ws = [] := List.length_eq_zero_iff.mp (by simp only [List.length_cons] at hthree; omega)
      rw [List.take_of_length_le (hversion w rfl)]
  · constructor
    · intro heq
      rw [hws] at heq
      have hcut := congrArg List.length (List.cons.inj heq).1
      rw [List.length_take] at hcut
      omega
    · rintro ⟨-, hmethod, -⟩
      exact absurd (hmethod v (by rw [hws]; rfl)) (by omega)

end

/-- The line of a request other than CONNECT goes out with its method and its version, and with the
    whole URI behind the authority. -/
def Forwards (method uri version rest out : Bytes) : Prop :=
  ∃ authority suffix path, uri = ascii "http://" ++ (authority ++ suffix) ∧
    (path = suffix ∨ path = 47 :: suffix) ∧
    out = method ++ [32] ++ path ++ [32] ++ version ++ crlf ++ rest

/-- `parse_http` works with the words of the request line, all of them and whole, and forwards them. -/
def Understood (c : Connection) : Prop :=
  ∃ method uri version, scanRequestLine (requestLine c.header) = some (method, uri, version) ∧
    words (requestLine c.header) = [method, uri, version] ∧
    (method ≠ ascii "CONNECT" → Forwards method uri version
      (c.header.drop ((requestLine c.header).length + 2)) (parseHttpHead c).1.toRemote)

section

variable {c : Connection} {method uri version : Bytes}

theorem originPath_suffix_cases {slash : Option Bytes} {path : Bytes}
    (h : originPath slash = some path) : path = slash.getD [] ∨ path = 47 :: slash.getD [] := by
  cases slash with
  | none =>
    obtain rfl := Option.some.inj h
    exact Or.inr rfl
  | some s =>
    unfold originPath at h
    dsimp only at h
    split at h
    · split at h
      · cases h
      · exact Or.inr (Option.some.inj h).symm
    · exact Or.inl (Option.some.inj h).symm

theorem absoluteAuthority_split {authority : Bytes} {slash : Option Bytes}
    (h : absoluteAuthority uri = some (authority, slash)) :
    uri = ascii "http://" ++ (authority ++ slash.getD []) := by
  unfold absoluteAuthority at h
  split at h
  · cases h
  · rename_i hscheme
    obtain ⟨rest, rfl⟩ := not_not.mp hscheme
    dsimp only at h
    rw [show (ascii "http://" ++ rest).drop 7 = rest from rfl] at h
    split at h
    · cases h
    · obtain ⟨rfl, rfl⟩ := Prod.mk.inj (Option.some.inj h)
      congr 1
      cases strpbrk rest (ascii "/?") with
      | none => simp
      | some k => simp

theorem parseAbsolute_forwards {n : Nat} (h : (parseAbsolute method uri version n c).2.2 = true) :
    Forwards method uri version (c.header.drop (n + 2))
      (parseAbsolute method uri version n c).1.toRemote := by
  rcases parseAbsolute_cases method uri version n c with ⟨c', hrun, -⟩ |
    ⟨authority, slash, host, port, path, line, habs, -, hpath, hline, -, hrun⟩
  · rw [hrun] at h
    cases h
  · rw [hrun]
    refine ⟨authority, slash.getD [], path, absoluteAuthority_split habs,
      originPath_suffix_cases hpath, ?_⟩
    unfold newFirst at hline
    dsimp only at hline
    split at hline
    · cases hline
    · rw [← Option.some.inj hline]

/-- What every accepted header buffer has. -/
theorem parseHttpHead_accepts (h : (parseHttpHead c).2.2 = true) :
    (requestLine c.header).length ≤ 2048 ∧
    ∃ method uri version, scanRequestLine (requestLine c.header) = some (method, uri, version) ∧
      (method ≠ ascii "CONNECT" → Forwards method uri version
        (c.header.drop ((requestLine c.header).length + 2)) (parseHttpHead c).1.toRemote) := by
  rcases parseHttpHead_cases c with hrun | ⟨n, method, uri, version, hn, hshort, hscan, -, hrun⟩
  · rw [hrun] at h
    cases h
  · have hline : requestLine c.header = c.header.take n := by
      unfold requestLine
      rw [hn]
    have hlength : (c.header.take n).length = n := by
      have hinside := (findSub_split (findSub_of_isPrefix (cstr_isPrefix _) hn)).2
      rw [List.length_take]
      omega
    rw [hline, hlength]
    refine ⟨hshort, method, uri, version, hscan, fun hconnect => ?_⟩
    rw [if_neg hconnect] at hrun
    rw [hrun] at h ⊢
    exact parseAbsolute_forwards h

end

theorem parseHttp_head {L : Lwip} {linkUp : Bool} {a : Answers} {c : Connection}
    (h : (parseHttp L linkUp a c).2.2 = true) : (parseHttpHead c).2.2 = true := by
  unfold parseHttp at h
  generalize parseHttpHead c = r at h ⊢
  obtain ⟨c', io, ok⟩ := r
  cases ok with
  | true => rfl
  | false => exact h

/-- **When an accepted request line is understood.**  Of a header buffer for which `parse_http` returns
    true, the request line has three words, which are the method, the URI and the version that
    `parse_http` works with and forwards, exactly when it has no more than three and the first and the
    third have at most 19 bytes. -/
theorem request_line_understood {L : Lwip} {linkUp : Bool} {a : Answers} {c : Connection}
    (h : (parseHttp L linkUp a c).2.2 = true) :
    Understood c ↔ FitsFields (requestLine c.header) := by
  obtain ⟨hlen, method, uri, version, hscan, hforward⟩ := parseHttpHead_accepts (parseHttp_head h)
  constructor
  · rintro ⟨method', uri', version', hscan', hwords, -⟩
    exact (words_eq_fields_iff hlen hscan').mp hwords
  · intro hfits
    exact ⟨method, uri, version, hscan, (words_eq_fields_iff hlen hscan).mpr hfits, hforward⟩

/-- A request of an HTTP client, in the slot it gets. -/
def sampleRequest (header : Bytes) : Connection :=
  { Connection.accepted 20 .httpProxy with header := header }

theorem request_line_understood_get :
    Understood (sampleRequest (ascii "GET http://10.0.0.1/a HTTP/1.1\r\n\r\n")) :=
  (request_line_understood (by decide :
    (parseHttp sampleLwip true (willing 0)
      (sampleRequest (ascii "GET http://10.0.0.1/a HTTP/1.1\r\n\r\n"))).2.2 = true)).mpr
    ⟨by decide, fun w h => by obtain rfl := Option.some.inj h; decide,
      fun w h => by obtain rfl := Option.some.inj h; decide⟩

/-- A header line behind a bare LF is dropped. -/
theorem request_line_understood_fails :
    (parseHttp sampleLwip true (willing 0)
      (sampleRequest (ascii "GET http://10.0.0.1/a HTTP/1.1\nHost: b\r\n\r\n"))).2.2 = true ∧
    words (requestLine (ascii "GET http://10.0.0.1/a HTTP/1.1\nHost: b\r\n\r\n")) =
      [ascii "GET", ascii "http://10.0.0.1/a", ascii "HTTP/1.1", ascii "Host:", ascii "b"] ∧
    ¬ Understood (sampleRequest (ascii "GET http://10.0.0.1/a HTTP/1.1\nHost: b\r\n\r\n")) := by
  have hwords : words (requestLine (ascii "GET http://10.0.0.1/a HTTP/1.1\nHost: b\r\n\r\n")) =
      [ascii "GET", ascii "http://10.0.0.1/a", ascii "HTTP/1.1", ascii "Host:", ascii "b"] := by decide
  refine ⟨by decide, hwords, ?_⟩
  rintro ⟨method, uri, version, -, hthree, -⟩
  have := congrArg List.length (hwords.symm.trans hthree)
  cases this

end PptpProxy
