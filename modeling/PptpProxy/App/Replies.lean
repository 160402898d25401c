/-
  The engine's replies on the control socket and the app's readers for them (`PPTPProxyClient.swift`).

  The engine prints with `snprintf` into fixed buffers; the app splits the text at spaces and reads
  the fields with `UInt64` and `Int`, the newline still on the last field of a STATUS reply.
  `status_reply` and `error_reply` are the two round trips, `replies_decoded` puts them together.
-/
import PptpProxy.App.Routes
import PptpProxy.Listener.Apply

namespace PptpProxy

open CLib

/-! ## Swift strings, continued -/

/-- What else the Swift libraries say about texts: `String(decoding:as:)` of UTF-8. -/
structure SwiftStrings extends Foundation where
  decoding : Bytes → Text

/-- ASCII bytes are read byte by byte. -/
def SwiftStrings.AsciiDecoding (S : SwiftStrings) : Prop :=
  ∀ b : Bytes, (∀ x ∈ b, x.toNat ≤ 127) → S.decoding b = b.map fun x => Char.ofNat x.toNat

/-- The ASCII members of `CharacterSet.whitespacesAndNewlines`. -/
def Foundation.AsciiWhitespace (F : Foundation) : Prop :=
  ∀ c : Char, c.toNat ≤ 127 →
    (F.whitespacesAndNewlines c = true ↔ c = ' ' ∨ (9 ≤ c.toNat ∧ c.toNat ≤ 13))

/-- `split(separator:)`, which leaves empty parts out. -/
def Foundation.split (F : Foundation) (separator : Char) (t : Text) : List Text :=
  (((F.characters t).splitOn [separator]).map List.flatten).filter fun part => ! part.isEmpty

/-- `UInt64(_:)`: an optional sign and decimal digits that fit. -/
def swiftUInt64 (t : Text) : Option UInt64 :=
  let neg := t.head? == some '-'
  let ds := if t.head? == some '-' || t.head? == some '+' then t.drop 1 else t
  if ds = [] ∨ ds.any (! ·.isDigit) = true then none
  else
    let magnitude : Nat := ds.foldl (fun v c => 10 * v + (c.toNat - 48)) 0
    if neg = true ∧ magnitude ≠ 0 then none
    else if magnitude < 2 ^ 64 then some (UInt64.ofNat magnitude) else none

/-! ## The readers -/

/-- The fields `refreshBackendStatus` takes from a STATUS reply. -/
structure StatusReport where
  link : Text
  sent : UInt64
  received : UInt64
  elapsed : UInt64
  deriving DecidableEq, Repr

/-- The guard of `refreshBackendStatus` on the reply. -/
def decodeStatus (F : Foundation) (reply : Text) : Option StatusReport :=
  match F.split ' ' reply with
  | [field0, field1, field2, field3, field4, _, _] =>
    if field0 ≠ "STATUS".toList then none
    else
      match swiftUInt64 field2, swiftUInt64 field3, swiftUInt64 field4 with
      | some sent, some received, some elapsed => some ⟨field1, sent, received, elapsed⟩
      | _, _, _ => none
  | _ => none

/-- What `applyProxySettings` tells the user about a reply. -/
inductive ApplyReport
  | applied
  | cannotOpen (port : Int)
  | badFormat
  deriving DecidableEq, Repr

/-- The text of `proxyMessage`. -/
def ApplyReport.proxyMessage : ApplyReport → Text
  | .applied => "현재 연결에 적용했습니다. 새 연결부터 변경된 설정을 사용합니다.".toList
  | .cannotOpen port => "실패: 로컬 포트 ".toList ++ decimalText port ++ "를 열 수 없습니다.".toList
  | .badFormat => "실패: 설정 형식 또는 포트 충돌을 확인하세요.".toList

/-- The switch of `applyProxySettings` over a reply that arrived. -/
def decodeApply (F : Foundation) (reply : Text) : ApplyReport :=
  if reply = "OK APPLY\n".toList then .applied
  else
    match F.split ' ' (trimmingCharacters F.whitespacesAndNewlines reply) with
    | [part0, part1, part2] =>
      if part0 = "ERR".toList ∧ part1 = "APPLY".toList then
        match swiftInt part2 with
        | some port => if 0 < port then .cannotOpen port else .badFormat
        | none => .badFormat
      else .badFormat
    | _ => .badFormat

/-! ## The writers -/

/-- The format of the STATUS reply. -/
def formatStatus (link : Bool) (sent received elapsed : UInt64) (http socks : Int) : Bytes :=
  ascii "STATUS " ++ (if link then ascii "1" else ascii "0") ++ [32] ++ decimal sent.toNat ++ [32] ++
    decimal received.toNat ++ [32] ++ decimal elapsed.toNat ++ [32] ++ decimalInt http ++ [32] ++
    decimalInt socks ++ [10]

/-- The seconds `handle_control` reports. -/
def Status.elapsed (st : Status) : UInt64 :=
  if st.linkUp = true ∧ st.connectedSinceMs ≠ 0 then (st.now - st.connectedSinceMs) / 1000 else 0

theorem statusReply_eq (st : Status) (listeners : List Listener) :
    statusReply st listeners = formatStatus st.linkUp st.sentBytes st.receivedBytes st.elapsed
      ((listeners.map (·.localPort)).getD 0 0) ((listeners.map (·.localPort)).getD 1 0) := rfl

/-- The format of the reply to an APPLY that failed. -/
def formatError (failedPort : Int) : Bytes := ascii "ERR APPLY " ++ decimalInt failedPort ++ [10]

/-! ## Fields -/

/-- ASCII bytes as a text. -/
def asText (b : Bytes) : Text := b.map fun x => Char.ofNat x.toNat

theorem asText_append (b b' : Bytes) : asText (b ++ b') = asText b ++ asText b' := List.map_append

/-- A field: not empty, and of ASCII characters that stand for themselves and separate nothing. -/
def IsField (t : Text) : Prop := t ≠ [] ∧ ∀ c ∈ t, c.toNat ≤ 127 ∧ c ≠ '\r' ∧ c ≠ ' '

theorem IsField.append {t u : Text} (ht : IsField t) (hu : ∀ c ∈ u, c.toNat ≤ 127 ∧ c ≠ '\r' ∧ c ≠ ' ') :
    IsField (t ++ u) := by
  refine ⟨List.append_ne_nil_of_left_ne_nil ht.1 u, ?_⟩
  intro c hc
  rcases List.mem_append.mp hc with hc | hc
  · exact ht.2 c hc
  · exact hu c hc

/-- The digits of a number, as characters. -/
theorem mem_asText_decimal {n : Nat} {c : Char} (hc : c ∈ asText (decimal n)) :
    48 ≤ c.toNat ∧ c.toNat ≤ 57 := by
  obtain ⟨b, hb, rfl⟩ := List.mem_map.mp hc
  have hdigit := decimal_isdigit hb
  rw [toNat_ofNat_ascii (toNat_of_isdigit hdigit)]
  exact isdigit_iff.mp hdigit

theorem isField_decimal (n : Nat) : IsField (asText (decimal n)) := by
  refine ⟨fun h => decimal_ne_nil n (List.map_eq_nil_iff.mp h), ?_⟩
  intro c hc
  obtain ⟨h1, h2⟩ := mem_asText_decimal hc
  refine ⟨by omega, ?_, ?_⟩
  · rintro rfl
    exact absurd h1 (by decide)
  · rintro rfl
    exact absurd h1 (by decide)

/-- Fields with a space between them are split into these fields. -/
theorem split_fields {F : Foundation} (hF : F.AsciiCharacters) {ws : List Text} (hne : ws ≠ [])
    (h : ∀ w ∈ ws, IsField w) : F.split ' ' ([' '].intercalate ws) = ws := by
  have hplain : ∀ c ∈ [' '].intercalate ws, c.toNat ≤ 127 ∧ c ≠ '\r' := by
    clear hne
    induction ws with
    | nil => exact fun c hc => (by cases hc)
    | cons w ws ih =>
      have hw := (h w List.mem_cons_self).2
      intro c hc
      cases ws with
      | nil =>
        rw [List.intercalate_singleton] at hc
        exact ⟨(hw c hc).1, (hw c hc).2.1⟩
      | cons v ws =>
        rw [List.intercalate_cons_cons] at hc
        rcases List.mem_append.mp hc with hc | hc
        · rcases List.mem_append.mp hc with hc | hc
          · exact ⟨(hw c hc).1, (hw c hc).2.1⟩
          · obtain rfl := List.mem_singleton.mp hc
            decide
        · exact ih (fun u hu => h u (List.mem_cons_of_mem w hu)) c hc
  have hsplit : (([' '].intercalate ws).map fun c => [c]).splitOn [' '] =
      ws.map fun w => w.map fun c => [c] := by
    clear hplain
    induction ws with
    | nil => exact absurd rfl hne
    | cons w ws ih =>
      have hspace : [' '] ∉ w.map fun c => [c] := by
        intro hmem
        obtain ⟨c, hc, he⟩ := List.mem_map.mp hmem
        exact ((h w List.mem_cons_self).2 c hc).2.2 (List.cons.inj he).1
      cases ws with
      | nil =>
        rw [List.intercalate_singleton, List.splitOn_eq_singleton hspace]
        rfl
      | cons v ws =>
        rw [List.intercalate_cons_cons, List.append_assoc, List.map_append, List.singleton_append,
          List.map_cons, List.splitOn_append_cons_self, List.splitOn_eq_singleton hspace,
          ih (List.cons_ne_nil v ws) fun u hu => h u (List.mem_cons_of_mem w hu)]
        rfl
  unfold Foundation.split
  rw [hF _ hplain, hsplit, List.map_map]
  have hflat : ws.map (List.flatten ∘ fun w => w.map fun c => [c]) = ws := by
    conv => rhs; rw [← List.map_id ws]
    exact List.map_congr_left fun w _ => flatten_singletons w
  rw [hflat, List.filter_eq_self]
  intro w hw
  simpa using (h w hw).1

/-- `UInt64` reads what `%llu` printed. -/
theorem swiftUInt64_decimal (n : UInt64) : swiftUInt64 (asText (decimal n.toNat)) = some n := by
  have hsign : ∀ c : Char, c.toNat < 48 → ((asText (decimal n.toNat)).head? == some c) = false := by
    intro c hc
    refine beq_eq_false_iff_ne.mpr ?_
    intro hhead
    have := (mem_asText_decimal (List.mem_of_head? hhead)).1
    omega
  have hall : (asText (decimal n.toNat)).any (! ·.isDigit) = false := by
    rw [List.any_eq_false]
    intro c hc
    simp [isDigit_of_toNat (mem_asText_decimal hc)]
  have hvalue : (asText (decimal n.toNat)).foldl (fun v c => 10 * v + (c.toNat - 48)) 0 = n.toNat :=
    (foldl_digits fun x hx => decimal_isdigit hx).trans (digitsVal_decimal _)
  have hlt : n.toNat < 2 ^ 64 := n.toNat_lt
  unfold swiftUInt64
  simp only [hsign '-' (by decide), hsign '+' (by decide), Bool.or_self, Bool.false_eq_true, if_false,
    hall, (isField_decimal n.toNat).1, or_self, hvalue, false_and]
  rw [if_pos hlt, UInt64.ofNat_toNat]

/-! ## The round trips -/

/-- A STATUS reply is seven fields, the newline on the last. -/
theorem asText_formatStatus (link : Bool) (sent received elapsed : UInt64) {http socks : Int}
    (hhttp : InPortRange http) (hsocks : InPortRange socks) :
    asText (formatStatus link sent received elapsed http socks) =
      [' '].intercalate ["STATUS".toList, if link then ['1'] else ['0'],
        asText (decimal sent.toNat), asText (decimal received.toNat),
        asText (decimal elapsed.toNat), asText (decimal http.toNat),
        asText (decimal socks.toNat) ++ ['\n']] := by
  have hspace : asText [32] = [' '] := by decide
  have hnewline : asText [10] = ['\n'] := by decide
  have hhead : asText (ascii "STATUS ") = "STATUS".toList ++ [' '] := by decide
  have hlink : asText (if link then ascii "1" else ascii "0") = if link then ['1'] else ['0'] := by
    cases link <;> decide
  unfold formatStatus
  rw [decimalInt_port hhttp, decimalInt_port hsocks]
  simp only [asText_append, hspace, hnewline, hhead, hlink, List.intercalate_cons_cons,
    List.intercalate_singleton, List.append_assoc]

theorem formatStatus_length (link : Bool) (sent received elapsed : UInt64) {http socks : Int}
    (hhttp : InPortRange http) (hsocks : InPortRange socks) :
    (formatStatus link sent received elapsed http socks).length < 256 := by
  have hcounter : ∀ n : UInt64, (decimal n.toNat).length ≤ 20 := by
    intro n
    refine decimal_length (by decide) ?_
    have := n.toNat_lt
    omega
  have h1 := hcounter sent
  have h2 := hcounter received
  have h3 := hcounter elapsed
  have h4 := decimal_port_length hhttp
  have h5 := decimal_port_length hsocks
  have hhead : (ascii "STATUS ").length = 7 := by decide
  have hlink : (if link then ascii "1" else ascii "0").length = 1 := by cases link <;> decide
  unfold formatStatus
  rw [decimalInt_port hhttp, decimalInt_port hsocks]
  simp only [List.length_append, List.length_singleton, hhead, hlink]
  omega

theorem formatStatus_ascii (link : Bool) (sent received elapsed : UInt64) {http socks : Int}
    (hhttp : InPortRange http) (hsocks : InPortRange socks) :
    ∀ x ∈ formatStatus link sent received elapsed http socks, x.toNat ≤ 127 := by
  have hdigits : ∀ n, ∀ x ∈ decimal n, x.toNat ≤ 127 := fun n x hx =>
    toNat_of_isdigit (decimal_isdigit hx)
  have hhead : ∀ x ∈ ascii "STATUS ", x.toNat ≤ 127 := List.all_iff_forall_prop.mp (by decide)
  have hlink : ∀ x ∈ if link then ascii "1" else ascii "0", x.toNat ≤ 127 := by
    cases link
    · exact List.all_iff_forall_prop.mp (by decide)
    · exact List.all_iff_forall_prop.mp (by decide)
  unfold formatStatus
  rw [decimalInt_port hhttp, decimalInt_port hsocks]
  intro x hx
  simp only [List.mem_append, List.mem_singleton] at hx
  rcases hx with (((((((((((hx | hx) | rfl) | hx) | rfl) | hx) | rfl) | hx) | rfl) | hx) | rfl) | hx) | rfl
  · exact hhead x hx
  · exact hlink x hx
  · decide
  · exact hdigits _ x hx
  · decide
  · exact hdigits _ x hx
  · decide
  · exact hdigits _ x hx
  · decide
  · exact hdigits _ x hx
  · decide
  · exact hdigits _ x hx
  · decide

/-- **The STATUS round trip.** -/
theorem decodeStatus_formatStatus {F : Foundation} (hF : F.AsciiCharacters) (link : Bool)
    (sent received elapsed : UInt64) {http socks : Int} (hhttp : InPortRange http)
    (hsocks : InPortRange socks) :
    (F.split ' ' (asText (formatStatus link sent received elapsed http socks))).length = 7 ∧
    decodeStatus F (asText (formatStatus link sent received elapsed http socks)) =
      some ⟨if link then ['1'] else ['0'], sent, received, elapsed⟩ := by
  have hsplit : F.split ' ' (asText (formatStatus link sent received elapsed http socks)) =
      ["STATUS".toList, if link then ['1'] else ['0'], asText (decimal sent.toNat),
        asText (decimal received.toNat), asText (decimal elapsed.toNat),
        asText (decimal http.toNat), asText (decimal socks.toNat) ++ ['\n']] := by
    rw [asText_formatStatus link sent received elapsed hhttp hsocks]
    refine split_fields hF (List.cons_ne_nil _ _) ?_
    intro w hw
    simp only [List.mem_cons, List.not_mem_nil, or_false] at hw
    rcases hw with rfl | rfl | rfl | rfl | rfl | rfl | rfl
    · exact ⟨by decide, List.all_iff_forall_prop.mp (by decide)⟩
    · cases link
      · exact ⟨by decide, List.all_iff_forall_prop.mp (by decide)⟩
      · exact ⟨by decide, List.all_iff_forall_prop.mp (by decide)⟩
    · exact isField_decimal _
    · exact isField_decimal _
    · exact isField_decimal _
    · exact isField_decimal _
    · exact (isField_decimal _).append (List.all_iff_forall_prop.mp (by decide))
  unfold decodeStatus
  rw [hsplit]
  refine ⟨rfl, ?_⟩
  dsimp only
  rw [if_neg (not_not.mpr rfl), swiftUInt64_decimal, swiftUInt64_decimal, swiftUInt64_decimal]

/-! ### The reply to an APPLY that failed -/

/-- `Int` reads what `%d` printed, also a zero. -/
theorem swiftInt_decimal {n : Nat} (h : n ≤ 65535) : swiftInt (asText (decimal n)) = some (n : Int) := by
  by_cases h0 : n = 0
  · subst h0
    decide
  · have hport : InPortRange (n : Int) := ⟨by omega, by omega⟩
    have htext : decimalText (n : Int) = asText (decimal n) := by
      unfold decimalText
      rw [decimalInt_port hport]
      rfl
    rw [← htext]
    exact swiftInt_decimalText hport

section

variable {F : Foundation} (hspace : F.AsciiWhitespace)

include hspace

theorem whitespace_of_digit {c : Char} (h : 48 ≤ c.toNat ∧ c.toNat ≤ 57) :
    F.whitespacesAndNewlines c = false := by
  rw [← Bool.not_eq_true, hspace c (by omega)]
  rintro (rfl | h')
  · exact absurd h.1 (by decide)
  · omega

/-- Trimming takes the newline off the reply and nothing else. -/
theorem trim_formatError (n : Nat) :
    trimmingCharacters F.whitespacesAndNewlines
        (asText (ascii "ERR APPLY " ++ decimal n ++ [10])) =
      asText (ascii "ERR APPLY ") ++ asText (decimal n) := by
  have hE : F.whitespacesAndNewlines 'E' = false := by
    rw [← Bool.not_eq_true, hspace 'E' (by decide)]
    decide
  have hnewline : F.whitespacesAndNewlines '\n' = true := (hspace '\n' (by decide)).mpr (by decide)
  have hfront : ∀ t : Text, (('E' :: t).dropWhile F.whitespacesAndNewlines) = 'E' :: t := fun t =>
    List.dropWhile_cons_of_neg (by rw [hE]; decide)
  have hhead : ∃ t, asText (ascii "ERR APPLY ") = 'E' :: t := ⟨"RR APPLY ".toList, by decide⟩
  obtain ⟨t, ht⟩ := hhead
  obtain ⟨d, ds, hds⟩ : ∃ d ds, (asText (decimal n)).reverse = d :: ds :=
    List.exists_cons_of_ne_nil (fun h => (isField_decimal n).1 (List.reverse_eq_nil_iff.mp h))
  have hd : F.whitespacesAndNewlines d = false := by
    refine whitespace_of_digit hspace (mem_asText_decimal (n := n) ?_)
    rw [← List.mem_reverse, hds]
    exact List.mem_cons_self
  have hback : (asText (ascii "ERR APPLY ") ++ asText (decimal n) ++ ['\n']).reverse =
      '\n' :: d :: (ds ++ (asText (ascii "ERR APPLY ")).reverse) := by
    rw [List.reverse_append, List.reverse_append, hds]
    rfl
  have hbytes : asText (ascii "ERR APPLY " ++ decimal n ++ [10]) =
      asText (ascii "ERR APPLY ") ++ asText (decimal n) ++ ['\n'] := by
    rw [asText_append, asText_append]
    rfl
  unfold trimmingCharacters
  rw [hbytes]
  conv => lhs; rw [ht, List.append_assoc, List.cons_append, hfront, ← List.cons_append, ← ht,
    ← List.append_assoc]
  rw [hback, List.dropWhile_cons_of_pos hnewline, List.dropWhile_cons_of_neg (by rw [hd]; decide),
    ← List.cons_append, ← hds, ← List.reverse_append, List.reverse_reverse]

/-- **The round trip of an error.** -/
theorem decodeApply_formatError (hF : F.AsciiCharacters) {n : Nat} (h : n ≤ 65535) :
    decodeApply F (asText (formatError n)) = if 0 < n then .cannotOpen n else .badFormat := by
  have hprint : formatError (n : Int) = ascii "ERR APPLY " ++ decimal n ++ [10] := by
    unfold formatError decimalInt
    rw [if_neg (by omega)]
    rfl
  have hnot : ¬ asText (formatError n) = "OK APPLY\n".toList := by
    rw [hprint, asText_append, asText_append]
    intro he
    have := congrArg List.head? he
    revert this
    simp [asText, ascii]
  have hsplit : F.split ' ' (asText (ascii "ERR APPLY ") ++ asText (decimal n)) =
      ["ERR".toList, "APPLY".toList, asText (decimal n)] := by
    have hwords : asText (ascii "ERR APPLY ") = "ERR".toList ++ [' '] ++ ("APPLY".toList ++ [' ']) := by
      decide
    have hjoin : asText (ascii "ERR APPLY ") ++ asText (decimal n) =
        [' '].intercalate ["ERR".toList, "APPLY".toList, asText (decimal n)] := by
      rw [hwords, List.intercalate_cons_cons, List.intercalate_cons_cons, List.intercalate_singleton,
        List.append_assoc]
    rw [hjoin]
    refine split_fields hF (List.cons_ne_nil _ _) ?_
    intro w hw
    simp only [List.mem_cons, List.not_mem_nil, or_false] at hw
    rcases hw with rfl | rfl | rfl
    · exact ⟨by decide, List.all_iff_forall_prop.mp (by decide)⟩
    · exact ⟨by decide, List.all_iff_forall_prop.mp (by decide)⟩
    · exact isField_decimal n
  unfold decodeApply
  rw [if_neg hnot, hprint, trim_formatError hspace, hsplit]
  dsimp only
  rw [if_pos ⟨rfl, rfl⟩, swiftInt_decimal h]
  dsimp only
  by_cases h0 : 0 < n
  · rw [if_pos h0, if_pos (by omega)]
  · rw [if_neg h0, if_neg (by omega)]

end

theorem formatError_length {n : Nat} (h : n ≤ 65535) : (formatError n).length < 64 := by
  have hdigits : (decimal n).length ≤ 5 := decimal_length (by decide) (by omega)
  have hhead : (ascii "ERR APPLY ").length = 10 := by decide
  unfold formatError decimalInt
  rw [if_neg (by omega)]
  simp only [List.length_append, List.length_singleton, hhead, Int.toNat_natCast]
  omega

theorem formatError_ascii (n : Nat) : ∀ x ∈ formatError n, x.toNat ≤ 127 := by
  have hhead : ∀ x ∈ ascii "ERR APPLY ", x.toNat ≤ 127 := List.all_iff_forall_prop.mp (by decide)
  unfold formatError decimalInt
  rw [if_neg (by omega)]
  intro x hx
  rcases List.mem_append.mp hx with hx | hx
  · rcases List.mem_append.mp hx with hx | hx
    · exact hhead x hx
    · exact toNat_of_isdigit (decimal_isdigit hx)
  · obtain rfl := List.mem_singleton.mp hx
    decide

/-- **The app reads what the engine wrote.**  A STATUS reply fits the engine's 256 bytes and comes apart
    into seven fields with the link flag and the three counters; the reply to an APPLY that failed fits
    its 64 bytes and is reported with the port when there is one, and as a format error when the port is
    0. -/
theorem replies_decoded {S : SwiftStrings} (hchars : S.AsciiCharacters) (hdecoding : S.AsciiDecoding)
    (hspace : S.AsciiWhitespace) :
    (∀ (link : Bool) (sent received elapsed : UInt64) (http socks : Int),
      InPortRange http → InPortRange socks →
      (formatStatus link sent received elapsed http socks).length < 256 ∧
      (S.split ' ' (S.decoding (formatStatus link sent received elapsed http socks))).length = 7 ∧
      decodeStatus S.toFoundation (S.decoding (formatStatus link sent received elapsed http socks)) =
        some ⟨if link then ['1'] else ['0'], sent, received, elapsed⟩) ∧
    (∀ (st : Status) (listeners : List Listener) (listen : Nat → Int),
      (handleControl st listeners listen (ascii "STATUS\n")).reply =
        formatStatus st.linkUp st.sentBytes st.receivedBytes st.elapsed
          ((listeners.map (·.localPort)).getD 0 0) ((listeners.map (·.localPort)).getD 1 0)) ∧
    (∀ failedPort : Int, 0 ≤ failedPort → failedPort ≤ 65535 →
      (formatError failedPort).length < 64 ∧
      decodeApply S.toFoundation (S.decoding (formatError failedPort)) =
        if 0 < failedPort then .cannotOpen failedPort else .badFormat) ∧
    (∀ (st : Status) (listeners : List Listener) (listen : Nat → Int) (message : Bytes)
      (failedPort : Int) (io : List ListenIo), ascii "APPLY " <+: message →
      applyRequest listeners listen (cstr message) = (.error failedPort, io) →
      (handleControl st listeners listen message).reply = formatError failedPort) := by
  refine ⟨?_, ?_, ?_, ?_⟩
  · intro link sent received elapsed http socks hhttp hsocks
    have htext : S.decoding (formatStatus link sent received elapsed http socks) =
        asText (formatStatus link sent received elapsed http socks) :=
      hdecoding _ (formatStatus_ascii link sent received elapsed hhttp hsocks)
    rw [htext]
    exact ⟨formatStatus_length link sent received elapsed hhttp hsocks,
      decodeStatus_formatStatus hchars link sent received elapsed hhttp hsocks⟩
  · intro st listeners listen
    have hcommand : cstr (ascii "STATUS\n") = ascii "STATUS\n" := by decide
    unfold handleControl
    rw [hcommand]
    dsimp only
    rw [if_neg (by decide), if_pos rfl]
    exact statusReply_eq st listeners
  · intro failedPort h0 h1
    obtain ⟨n, rfl⟩ := Int.eq_ofNat_of_zero_le h0
    have hn : n ≤ 65535 := by omega
    have htext : S.decoding (formatError n) = asText (formatError n) :=
      hdecoding _ (formatError_ascii n)
    rw [htext, decodeApply_formatError hspace hchars hn]
    refine ⟨formatError_length hn, ?_⟩
    by_cases hpos : 0 < n
    · rw [if_pos hpos, if_pos (by omega)]
    · rw [if_neg hpos, if_neg (by omega)]
  · intro st listeners listen message failedPort io hmessage he
    rw [handleControl_apply st hmessage, he]
    rfl

/-- `String(decoding:as:)` on ASCII. -/
def sampleStrings : SwiftStrings := { sampleFoundation with decoding := asText }

/-- A full counter and a port that is taken. -/
theorem replies_decoded_full :
    decodeStatus sampleStrings.toFoundation
        (sampleStrings.decoding (formatStatus true 18446744073709551615 5 0 18080 11080)) =
      some ⟨['1'], 18446744073709551615, 5, 0⟩ ∧
    decodeApply sampleStrings.toFoundation (sampleStrings.decoding (formatError 8080)) =
      .cannotOpen 8080 := by
  have hspace : sampleStrings.AsciiWhitespace := by
    intro c _
    have hsame : c.toNat = 32 ↔ c = ' ' := by
      rw [← Char.toNat_inj]
      rfl
    show decide (c.toNat = 32 ∨ (9 ≤ c.toNat ∧ c.toNat ≤ 13)) = true ↔ _
    rw [decide_eq_true_iff, hsame]
  obtain ⟨hstatus, -, herror, -⟩ := replies_decoded (S := sampleStrings) (fun t _ => rfl)
    (fun b _ => rfl) hspace
  exact ⟨(hstatus true 18446744073709551615 5 0 18080 11080 (by decide) (by decide)).2.2,
    (herror 8080 (by decide) (by decide)).2⟩

end PptpProxy
