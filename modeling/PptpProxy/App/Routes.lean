/-
  The two ways a configuration reaches the engine agree.

  `connect` passes it as arguments, `applyProxySettings` as an APPLY message, and the engine reads the
  two with different code.  Both halves of the proof meet at the list of `ForwardRule`s the app has
  validated: the arguments give the table `tableOf` of these rules (`mainListeners_connect`), and
  so does the message (`applyText_message`).
-/
import PptpProxy.App.Settings
import PptpProxy.Listener.Invariant

namespace PptpProxy

open CLib

/-! ## Texts and bytes -/

theorem toNat_ofNat_ascii {n : Nat} (h : n ≤ 127) : (Char.ofNat n).toNat = n := by
  have hv : n.isValidChar := Or.inl (by omega)
  unfold Char.ofNat
  rw [dif_pos hv]
  rfl

theorem utf8_append (t t' : Text) : utf8 (t ++ t') = utf8 t ++ utf8 t' := List.flatMap_append

theorem utf8_cons {c : Char} (h : c.toNat ≤ 127) (t : Text) :
    utf8 (c :: t) = UInt8.ofNat c.toNat :: utf8 t := by
  have hone : String.utf8EncodeChar c = [UInt8.ofNat c.toNat] := if_pos h
  unfold utf8
  rw [List.flatMap_cons, hone]
  rfl

/-- ASCII bytes, as a text, are these bytes again. -/
theorem utf8_map_ofNat {b : Bytes} (h : ∀ x ∈ b, x.toNat ≤ 127) :
    utf8 (b.map fun x => Char.ofNat x.toNat) = b := by
  induction b with
  | nil => rfl
  | cons x b ih =>
    have hval := toNat_ofNat_ascii (h x List.mem_cons_self)
    rw [List.map_cons, utf8_cons (by rw [hval]; exact h x List.mem_cons_self), hval,
      ih fun y hy => h y (List.mem_cons_of_mem x hy), UInt8.ofNat_toNat]

/-- The characters of a text, put together again. -/
theorem flatten_singletons (t : Text) : (t.map fun c => [c]).flatten = t := by
  induction t with
  | nil => rfl
  | cons c t ih => rw [List.map_cons, List.flatten_cons, ih]; rfl

theorem decimalInt_port {p : Int} (h : InPortRange p) : decimalInt p = decimal p.toNat := by
  unfold decimalInt
  rw [if_neg]
  have := h.1
  omega

theorem toNat_of_isdigit {b : UInt8} (h : isdigit b = true) : b.toNat ≤ 127 := by
  have := isdigit_iff.mp h
  omega

theorem utf8_decimalText {p : Int} (h : InPortRange p) : utf8 (decimalText p) = decimal p.toNat := by
  unfold decimalText
  rw [decimalInt_port h]
  exact utf8_map_ofNat fun x hx => toNat_of_isdigit (decimal_isdigit hx)

/-- A port number has at most five digits. -/
theorem decimal_port_length {p : Int} (h : InPortRange p) : (decimal p.toNat).length ≤ 5 := by
  refine decimal_length (by decide) ?_
  have := h.2
  omega

/-- The digits of a port number, as characters. -/
theorem mem_decimalText {p : Int} (h : InPortRange p) {c : Char} (hc : c ∈ decimalText p) :
    48 ≤ c.toNat ∧ c.toNat ≤ 57 := by
  unfold decimalText at hc
  rw [decimalInt_port h] at hc
  obtain ⟨b, hb, rfl⟩ := List.mem_map.mp hc
  have hdigit := decimal_isdigit hb
  rw [toNat_ofNat_ascii (toNat_of_isdigit hdigit)]
  exact isdigit_iff.mp hdigit

theorem isDigit_of_toNat {c : Char} (h : 48 ≤ c.toNat ∧ c.toNat ≤ 57) : c.isDigit = true := by
  unfold Char.isDigit
  rw [Bool.and_eq_true, decide_eq_true_iff, decide_eq_true_iff]
  exact ⟨UInt32.le_iff_toNat_le.mpr h.1, UInt32.le_iff_toNat_le.mpr h.2⟩

theorem decimalText_ne_nil {p : Int} (h : InPortRange p) : decimalText p ≠ [] := by
  unfold decimalText
  rw [decimalInt_port h]
  intro hnil
  exact decimal_ne_nil _ (List.map_eq_nil_iff.mp hnil)

/-- Digits have the same value as bytes and as characters. -/
theorem foldl_digits {b : Bytes} (h : ∀ x ∈ b, isdigit x = true) :
    (b.map fun x => Char.ofNat x.toNat).foldl (fun v c => 10 * v + (c.toNat - 48)) 0 =
      digitsVal b := by
  have hsame : ∀ (b : Bytes) (v : Nat), (∀ x ∈ b, isdigit x = true) →
      b.foldl (fun v x => 10 * v + ((Char.ofNat x.toNat).toNat - 48)) v =
        b.foldl (fun v x => 10 * v + (x.toNat - 48)) v := by
    intro b
    induction b with
    | nil => exact fun _ _ => rfl
    | cons x b ih =>
      intro v hb
      rw [List.foldl_cons, List.foldl_cons,
        toNat_ofNat_ascii (toNat_of_isdigit (hb x List.mem_cons_self))]
      exact ih _ fun y hy => hb y (List.mem_cons_of_mem x hy)
  rw [List.foldl_map]
  exact hsame b 0 h

/-- `Int` reads what it printed. -/
theorem swiftInt_decimalText {p : Int} (h : InPortRange p) : swiftInt (decimalText p) = some p := by
  have hdigit : ∀ c ∈ decimalText p, 48 ≤ c.toNat ∧ c.toNat ≤ 57 := fun c => mem_decimalText h
  have hsign : ∀ c : Char, c.toNat < 48 → ¬ (decimalText p).head? = some c := by
    intro c hc hhead
    have := (hdigit c (List.mem_of_head? hhead)).1
    omega
  have hvalue : (decimalText p).foldl (fun v c => 10 * v + (c.toNat - 48)) 0 = p.toNat := by
    unfold decimalText
    rw [decimalInt_port h, foldl_digits fun x hx => decimal_isdigit hx]
    exact digitsVal_decimal _
  unfold swiftInt
  have hminus : ((decimalText p).head? == some '-') = false :=
    beq_eq_false_iff_ne.mpr (hsign '-' (by decide))
  have hplus : ((decimalText p).head? == some '+') = false :=
    beq_eq_false_iff_ne.mpr (hsign '+' (by decide))
  have hall : (decimalText p).any (! ·.isDigit) = false := by
    rw [List.any_eq_false]
    intro c hc
    simp [isDigit_of_toNat (hdigit c hc)]
  obtain ⟨h1, h2⟩ := h
  simp only [hminus, hplus, Bool.or_self, Bool.false_eq_true, if_false, hvalue, hall,
    decimalText_ne_nil ⟨h1, h2⟩, or_self]
  rw [if_pos (by omega)]
  congr 1
  omega

/-! ## Rules -/

theorem allowed_ascii {c : Char} (h : allowed c = true) :
    c.toNat ≤ 127 ∧ c ≠ '\r' ∧ c ≠ ':' ∧ safeHostByte (UInt8.ofNat c.toNat) = true := by
  have hall : ∀ c ∈ "abcdefghijklmnopqrstuvwxyzABCDEFGHIJKLMNOPQRSTUVWXYZ0123456789._-".toList,
      c.toNat ≤ 127 ∧ c ≠ '\r' ∧ c ≠ ':' ∧ safeHostByte (UInt8.ofNat c.toNat) = true :=
    List.all_iff_forall_prop.mp (by decide)
  exact hall c (List.contains_iff_mem.mp h)

/-- The bytes of an allowed host are safe. -/
theorem safeHostByte_utf8 {t : Text} (h : ∀ c ∈ t, allowed c = true) :
    ∀ b ∈ utf8 t, safeHostByte b = true := by
  induction t with
  | nil => exact fun b hb => (by cases hb)
  | cons c t ih =>
    obtain ⟨hascii, -, -, hsafe⟩ := allowed_ascii (h c List.mem_cons_self)
    rw [utf8_cons hascii]
    intro b hb
    rcases List.mem_cons.mp hb with rfl | hb
    · exact hsafe
    · exact ih (fun d hd => h d (List.mem_cons_of_mem c hd)) b hb

namespace ForwardRule

variable (r : ForwardRule)

/-- The bytes of the host. -/
def hostBytes : Bytes := utf8 r.host

theorem hostBytes_safe : ∀ b ∈ r.hostBytes, safeHostByte b = true :=
  safeHostByte_utf8 r.host_allowed

theorem hostBytes_ne_nil : r.hostBytes ≠ [] := by
  obtain ⟨c, t, hhost⟩ := List.exists_cons_of_ne_nil r.host_ne_nil
  have hascii := (allowed_ascii (r.host_allowed c (hhost ▸ List.mem_cons_self))).1
  unfold hostBytes
  rw [hhost, utf8_cons hascii]
  exact List.cons_ne_nil _ _

theorem text_ascii : ∀ c ∈ r.text, c.toNat ≤ 127 ∧ c ≠ '\r' := by
  have hport : ∀ {p : Int}, InPortRange p → ∀ c ∈ decimalText p, c.toNat ≤ 127 ∧ c ≠ '\r' := by
    intro p hp c hc
    obtain ⟨h1, h2⟩ := mem_decimalText hp hc
    refine ⟨by omega, ?_⟩
    rintro rfl
    exact absurd h1 (by decide)
  intro c hc
  rcases List.mem_append.mp hc with hc | hc
  · exact hport r.local_range c hc
  · rcases List.mem_cons.mp hc with rfl | hc
    · decide
    · rcases List.mem_append.mp hc with hc | hc
      · have h := allowed_ascii (r.host_allowed c hc)
        exact ⟨h.1, h.2.1⟩
      · rcases List.mem_cons.mp hc with rfl | hc
        · decide
        · exact hport r.remote_range c hc

/-- The rule as the bytes of an argument. -/
theorem utf8_text : utf8 r.text =
    decimal r.localPort.toNat ++ 58 :: (r.hostBytes ++ 58 :: decimal r.remotePort.toNat) := by
  unfold text
  rw [utf8_append, utf8_cons (by decide), utf8_append, utf8_cons (by decide),
    utf8_decimalText r.local_range, utf8_decimalText r.remote_range]
  rfl

/-- The three fields of a rule. -/
theorem splitColonOmitting_text {F : Foundation} (hF : F.AsciiCharacters) :
    F.splitColonOmitting r.text = [decimalText r.localPort, r.host, decimalText r.remotePort] := by
  have hport : ∀ {p : Int}, InPortRange p → [':'] ∉ (decimalText p).map fun c => [c] := by
    intro p hp hmem
    obtain ⟨c, hc, he⟩ := List.mem_map.mp hmem
    have := (mem_decimalText hp hc).2
    rw [(List.cons.inj he).1] at this
    exact absurd this (by decide)
  have hhost : [':'] ∉ r.host.map fun c => [c] := by
    intro hmem
    obtain ⟨c, hc, he⟩ := List.mem_map.mp hmem
    exact (allowed_ascii (r.host_allowed c hc)).2.2.1 (List.cons.inj he).1
  have hsplit : F.splitColon r.text =
      [decimalText r.localPort, r.host, decimalText r.remotePort] := by
    unfold Foundation.splitColon
    rw [hF _ r.text_ascii]
    unfold text
    rw [List.map_append, List.map_cons, List.map_append, List.map_cons,
      List.splitOn_append_cons_self, List.splitOn_eq_singleton (hport r.local_range),
      List.splitOn_append_cons_self, List.splitOn_eq_singleton hhost,
      List.splitOn_eq_singleton (hport r.remote_range)]
    simp only [List.cons_append, List.nil_append, List.map_cons, List.map_nil, flatten_singletons]
  unfold Foundation.splitColonOmitting
  rw [hsplit]
  simp [decimalText_ne_nil r.local_range, decimalText_ne_nil r.remote_range, r.host_ne_nil]

/-- The entry of the engine's table that a rule asks for. -/
def listener : Listener where
  fd := -1
  kind := .forward
  localPort := r.localPort
  remotePort := r.remotePort
  remoteHost := r.hostBytes

end ForwardRule

/-! ## What the app has validated -/

/-- The two ports and the rules behind a configuration of `validatedProxyConfig`. -/
structure Routes where
  http : Int
  socks : Int
  rules : List ForwardRule
  http_range : InPortRange http
  socks_range : InPortRange socks
  few : rules.length ≤ 32
  distinct : (http :: socks :: rules.map (·.localPort)).Nodup

namespace Routes

def config (R : Routes) : ProxyConfig := ⟨R.http, R.socks, R.rules.map ForwardRule.text⟩

/-- The two proxies of the table. -/
def proxies (R : Routes) : List Listener :=
  [⟨-1, .httpProxy, R.http, 0, []⟩, ⟨-1, .socksProxy, R.socks, 0, []⟩]

/-- The table the engine should get. -/
def table (R : Routes) : List Listener := R.proxies ++ R.rules.map ForwardRule.listener

theorem http_ne_socks (R : Routes) : R.http ≠ R.socks := by
  intro he
  exact (List.nodup_cons.mp R.distinct).1 (he ▸ List.mem_cons_self)

end Routes

/-- The loop of `parsedForwards` keeps valid rules with local ports of their own. -/
theorem parsedLines_rules {F : Foundation} {lines texts : List Text} {ports : List Int}
    (h : parsedLines F lines ports = some texts) :
    ∃ rules : List ForwardRule, texts = rules.map ForwardRule.text ∧
      (rules.map (·.localPort)).Nodup ∧ ∀ r ∈ rules, r.localPort ∉ ports := by
  induction lines generalizing ports texts with
  | nil =>
    obtain rfl : [] = texts := Option.some.inj h
    exact ⟨[], rfl, List.nodup_nil, fun r hr => (by cases hr)⟩
  | cons raw rest ih =>
    unfold parsedLines at h
    dsimp only at h
    split at h
    · exact ih h
    · split at h
      · cases h
      · rename_i rule _
        split at h
        · cases h
        · rename_i hfree
          obtain ⟨texts', hrest, rfl⟩ := Option.map_eq_some_iff.mp h
          obtain ⟨rules, rfl, hnodup, hnew⟩ := ih hrest
          refine ⟨rule :: rules, rfl, ?_, ?_⟩
          · rw [List.map_cons, List.nodup_cons]
            refine ⟨?_, hnodup⟩
            intro hmem
            obtain ⟨r, hr, he⟩ := List.mem_map.mp hmem
            exact hnew r hr (he ▸ List.mem_cons_self)
          · intro r hr
            rcases List.mem_cons.mp hr with rfl | hr
            · exact hfree
            · exact fun hp => hnew r hr (List.mem_cons_of_mem _ hp)

theorem parsedForwards_rules {F : Foundation} {forwardText : Text} {texts : List Text}
    (h : parsedForwards F forwardText = some texts) :
    ∃ rules : List ForwardRule, texts = rules.map ForwardRule.text ∧
      (rules.map (·.localPort)).Nodup ∧ rules.length ≤ 32 := by
  unfold parsedForwards at h
  split at h
  · cases h
  · rename_i result hresult
    split at h
    · rename_i hfew
      obtain rfl := Option.some.inj h
      obtain ⟨rules, rfl, hnodup, -⟩ := parsedLines_rules hresult
      exact ⟨rules, rfl, hnodup, by simpa using hfew⟩
    · cases h

/-- The last test of `validatedProxyConfig` reads the rule's own local port back. -/
theorem takesProxyPort_text {F : Foundation} (hF : F.AsciiCharacters) (http socks : Int)
    (r : ForwardRule) :
    takesProxyPort F http socks r.text = decide (r.localPort = http ∨ r.localPort = socks) := by
  unfold takesProxyPort
  rw [r.splitColonOmitting_text hF, List.head?_cons, Option.bind_some,
    swiftInt_decimalText r.local_range]

/-- A configuration the app accepts comes from valid routes. -/
theorem validatedProxyConfig_routes {F : Foundation} (hF : F.AsciiCharacters)
    {httpPort socksPort forwardText : Text} {config : ProxyConfig}
    (h : validatedProxyConfig F httpPort socksPort forwardText = some config) :
    ∃ R : Routes, config = R.config := by
  unfold validatedProxyConfig at h
  split at h
  · rename_i http socks _ _
    split at h
    · cases h
    · rename_i hports
      obtain ⟨hhttp, hsocks, hne⟩ : InPortRange http ∧ InPortRange socks ∧ http ≠ socks := by
        tauto
      split at h
      · cases h
      · rename_i forwards hforwards
        split at h
        · cases h
        · rename_i hfree
          obtain rfl := Option.some.inj h
          obtain ⟨rules, rfl, hnodup, hfew⟩ := parsedForwards_rules hforwards
          have hapart : ∀ r ∈ rules, r.localPort ≠ http ∧ r.localPort ≠ socks := by
            intro r hr
            have hno : ¬ takesProxyPort F http socks r.text = true := by
              intro htakes
              exact hfree (List.any_eq_true.mpr ⟨r.text, List.mem_map_of_mem hr, htakes⟩)
            rw [takesProxyPort_text hF, decide_eq_true_iff] at hno
            tauto
          have hdistinct : (http :: socks :: rules.map (·.localPort)).Nodup := by
            rw [List.nodup_cons, List.nodup_cons]
            refine ⟨?_, ?_, hnodup⟩
            · intro hmem
              rcases List.mem_cons.mp hmem with he | hmem
              · exact hne he
              · obtain ⟨r, hr, he⟩ := List.mem_map.mp hmem
                exact (hapart r hr).1 he
            · intro hmem
              obtain ⟨r, hr, he⟩ := List.mem_map.mp hmem
              exact (hapart r hr).2 he
          exact ⟨⟨http, socks, rules, hhttp, hsocks, hfew, hdistinct⟩, rfl⟩
  · cases h

/-! ## The rules as arguments and as lines

Both loops of the engine append one entry per rule to the table they have, as long as `Room` is left. -/

/-- The table can take these rules: there are entries left and no local port is used twice. -/
def Room (ls : List Listener) (rules : List ForwardRule) : Prop :=
  ls.length + rules.length ≤ maxListeners ∧
    (ls.map (·.localPort) ++ rules.map (·.localPort)).Nodup

theorem Room.step {ls : List Listener} {r : ForwardRule} {rules : List ForwardRule}
    (h : Room ls (r :: rules)) :
    ls.length ≠ maxListeners ∧ ls.any (·.localPort = r.localPort) = false ∧
      Room (ls ++ [r.listener]) rules := by
  obtain ⟨hlen, hnodup⟩ := h
  rw [List.length_cons] at hlen
  refine ⟨by omega, ?_, ?_, ?_⟩
  · rw [List.any_eq_false]
    intro l hl
    rw [decide_eq_true_iff]
    intro he
    rw [List.nodup_append] at hnodup
    exact hnodup.2.2 _ (List.mem_map_of_mem hl) _ List.mem_cons_self he
  · rw [List.length_append, List.length_singleton]
    omega
  · rw [List.map_append, List.append_assoc]
    exact hnodup

theorem Routes.room (R : Routes) : Room R.proxies R.rules := by
  refine ⟨?_, R.distinct⟩
  have := R.few
  show 2 + R.rules.length ≤ 34
  omega

/-- What the engine makes of the digits of a port. -/
theorem strtol_port {p : Int} (h : InPortRange p) : strtol (decimal p.toNat) = (p, []) := by
  rw [strtol_digits (decimal_ne_nil _) fun b hb => decimal_isdigit hb, digitsVal_decimal]
  obtain ⟨h1, h2⟩ := h
  congr 1
  simp only [longMax]
  omega

theorem validPort_port {p : Int} (h : InPortRange p) : validPort p = true := validPort_iff.mpr h

theorem colon_not_mem_decimal (n : Nat) : (58 : UInt8) ∉ decimal n := by
  intro h
  exact absurd (decimal_isdigit h) (by decide)

theorem utf8_text_length (r : ForwardRule) : (utf8 r.text).length ≤ 511 := by
  have h1 := decimal_port_length r.local_range
  have h2 := decimal_port_length r.remote_range
  have h3 : r.hostBytes.length < 256 := r.host_short
  rw [r.utf8_text]
  simp only [List.length_append, List.length_cons]
  omega

/-- `parse_forward` reads a rule. -/
theorem parseForward_text {ls : List Listener} {r : ForwardRule} {rules : List ForwardRule}
    (h : Room ls (r :: rules)) : parseForward ls (utf8 r.text) = some (ls ++ [r.listener]) := by
  obtain ⟨hroom, hnew, -⟩ := h.step
  have hshort : r.hostBytes.length < 256 := r.host_short
  have hlen := utf8_text_length r
  have hregroup : utf8 r.text =
      (decimal r.localPort.toNat ++ 58 :: r.hostBytes) ++ 58 :: decimal r.remotePort.toNat := by
    rw [r.utf8_text, List.append_assoc]
    rfl
  have hfirst : strchr (utf8 r.text) 58 = some (decimal r.localPort.toNat).length := by
    rw [r.utf8_text]
    exact strchr_append (colon_not_mem_decimal _)
  have hlast : strrchr (utf8 r.text) 58 =
      some (decimal r.localPort.toNat ++ 58 :: r.hostBytes).length := by
    rw [hregroup]
    exact strrchr_append (colon_not_mem_decimal _)
  have hlocal : (utf8 r.text).take (decimal r.localPort.toNat).length =
      decimal r.localPort.toNat := by
    rw [r.utf8_text, List.take_left]
  have hhost : ((utf8 r.text).take (decimal r.localPort.toNat ++ 58 :: r.hostBytes).length).drop
      ((decimal r.localPort.toNat).length + 1) = r.hostBytes := by
    rw [hregroup, List.take_left, List.drop_append]
    simp
  have hremote : (utf8 r.text).drop
      ((decimal r.localPort.toNat ++ 58 :: r.hostBytes).length + 1) =
      decimal r.remotePort.toNat := by
    rw [hregroup, List.drop_append]
    simp
  unfold parseForward
  rw [if_neg (by omega), hfirst, hlast]
  dsimp only
  rw [if_neg (by simp), hlocal, hhost, hremote, strtol_port r.local_range,
    strtol_port r.remote_range]
  dsimp only
  obtain ⟨hl1, hl2⟩ := r.local_range
  obtain ⟨hr1, hr2⟩ := r.remote_range
  rw [if_neg (by simp [r.hostBytes_ne_nil]; omega)]
  unfold addListener
  rw [if_neg (by simp [hroom, validPort_port r.local_range]), hnew, Option.getD_some,
    List.take_of_length_le (by omega)]
  rfl

theorem parseForwards_text {rules : List ForwardRule} {ls : List Listener} (h : Room ls rules) :
    parseForwards ls (rules.map fun r => utf8 r.text) =
      some (ls ++ rules.map ForwardRule.listener) := by
  induction rules generalizing ls with
  | nil => rw [List.map_nil, List.map_nil, List.append_nil]; rfl
  | cons r rules ih =>
    rw [List.map_cons, parseForwards, parseForward_text h]
    dsimp only
    rw [ih h.step.2.2, List.append_assoc]
    rfl

/-! ## The arguments -/

theorem atoi_port {p : Int} (h : InPortRange p) : atoi (decimal p.toNat) = p := by
  obtain ⟨h1, h2⟩ := h
  unfold atoi toInt32
  rw [strtol_port ⟨h1, h2⟩]
  dsimp only
  omega

/-- The argument loop collects the rules one by one. -/
theorem parseArguments_forwards {rules : List ForwardRule} {o : Arguments}
    (h : o.forwardSpecs.length + rules.length ≤ 32) :
    parseArguments o ((rules.map ForwardRule.text).flatMap fun t => [ascii "--forward", utf8 t]) =
      some { o with forwardSpecs := o.forwardSpecs ++ rules.map fun r => utf8 r.text } := by
  induction rules generalizing o with
  | nil =>
    rw [List.map_nil, List.map_nil, List.append_nil]
    rfl
  | cons r rules ih =>
    rw [List.length_cons] at h
    rw [List.map_cons, List.flatMap_cons, List.cons_append, List.cons_append, List.nil_append,
      parseArguments, if_neg (by decide), if_neg (by decide), if_neg (by decide),
      if_neg (by decide), if_neg (by decide), if_neg (by decide), if_neg (by decide),
      if_pos ⟨rfl, by omega⟩, List.take_of_length_le (utf8_text_length r)]
    rw [ih (by simp only [List.length_append, List.length_singleton]; omega), List.append_assoc]
    rfl

/-- The engine started with valid routes has their table. -/
theorem mainListeners_connect (R : Routes) (session : Session) :
    mainListeners (connectArguments session R.config) = some R.table := by
  have hargs : parseArguments .default (connectArguments session R.config) =
      some { server := some session.server, user := some session.user,
             pptpPath := some session.pptpPath, passwordFifo := some session.passwordFifo,
             controlSocketPath := some session.controlSocket, httpPort := R.http,
             socksPort := R.socks, forwardSpecs := R.rules.map fun r => utf8 r.text } := by
    have hfew : ([] : List Bytes).length + R.rules.length ≤ 32 := by simpa using R.few
    show parseArguments
      { server := some session.server, user := some session.user,
        pptpPath := some session.pptpPath, passwordFifo := some session.passwordFifo,
        controlSocketPath := some session.controlSocket,
        httpPort := atoi (utf8 (decimalText R.http)),
        socksPort := atoi (utf8 (decimalText R.socks)), forwardSpecs := [] }
      ((R.rules.map ForwardRule.text).flatMap fun t => [ascii "--forward", utf8 t]) = _
    rw [utf8_decimalText R.http_range, utf8_decimalText R.socks_range, atoi_port R.http_range,
      atoi_port R.socks_range, parseArguments_forwards hfew]
    rfl
  have hproxies : buildListeners R.http R.socks (R.rules.map fun r => utf8 r.text) =
      parseForwards R.proxies (R.rules.map fun r => utf8 r.text) := by
    unfold buildListeners
    rw [if_neg (by simp [validPort_port R.http_range, validPort_port R.socks_range])]
    have hhttp : addListener [] .httpProxy R.http none 0 =
        some [⟨-1, .httpProxy, R.http, 0, []⟩] := by
      unfold addListener
      rw [if_neg (by simp [validPort_port R.http_range, maxListeners])]
      rfl
    have hsocks : addListener [⟨-1, .httpProxy, R.http, 0, []⟩] .socksProxy R.socks none 0 =
        some R.proxies := by
      unfold addListener
      rw [if_neg (by simp [validPort_port R.socks_range, maxListeners]), if_neg (by simp [R.http_ne_socks])]
      rfl
    rw [hhttp]
    dsimp only
    rw [hsocks]
  unfold mainListeners
  rw [hargs]
  dsimp only
  rw [if_neg (by simp [session.server_ne_nil, session.user_ne_nil]), hproxies,
    parseForwards_text R.room]
  rfl

/-! ## The message -/

theorem parsePortNumber_port {p : Int} (h : InPortRange p) :
    parsePortNumber (decimal p.toNat) = some p := by
  have hdigits : ∀ b ∈ decimal p.toNat, isdigit b = true := fun b hb => decimal_isdigit hb
  have hrange : strtolErange (decimal p.toNat) = false := by
    unfold strtolErange
    rw [strtolExact_digits (decimal_ne_nil _) hdigits, digitsVal_decimal]
    obtain ⟨h1, h2⟩ := h
    apply decide_eq_false
    simp only [longMin, longMax]
    omega
  have hall : (decimal p.toNat).any (! isdigit ·) = false := by
    rw [List.any_eq_false]
    intro b hb
    simp [hdigits b hb]
  unfold parsePortNumber
  rw [if_neg (by simp only [decimal_ne_nil, hall]; simp), strtol_port h, hrange]
  obtain ⟨h1, h2⟩ := h
  dsimp only
  rw [if_neg (by simp; omega)]

theorem ForwardRule.safeHost_hostBytes (r : ForwardRule) : safeHost r.hostBytes = true := by
  have hlen : r.hostBytes.length < 256 := r.host_short
  have hne : r.hostBytes.length ≠ 0 := fun h => r.hostBytes_ne_nil (List.length_eq_zero_iff.mp h)
  unfold safeHost
  rw [decide_eq_true ⟨hne, hlen⟩, Bool.true_and, List.all_eq_true]
  exact r.hostBytes_safe

/-- The fields of the `F` line of a rule. -/
def ForwardRule.fields (r : ForwardRule) : List Bytes :=
  [ascii "F", decimal r.localPort.toNat, r.hostBytes, decimal r.remotePort.toNat]

/-- The first line of the message. -/
def Routes.fields (R : Routes) : List Bytes :=
  [ascii "APPLY", decimal R.http.toNat, decimal R.socks.toNat]

/-- A word of the message: neither a blank nor the end of the line. -/
def IsWord (w : Bytes) : Prop := w ≠ [] ∧ ∀ b ∈ w, b ≠ 32 ∧ b ≠ 10 ∧ b ≠ 0

theorem isWord_decimal (n : Nat) : IsWord (decimal n) := by
  refine ⟨decimal_ne_nil n, ?_⟩
  intro b hb
  have h := decimal_isdigit hb
  refine ⟨?_, ?_, ?_⟩
  all_goals
    rintro rfl
    exact absurd h (by decide)

theorem ForwardRule.isWord_fields (r : ForwardRule) : ∀ w ∈ r.fields, IsWord w := by
  have hhost : IsWord r.hostBytes := by
    refine ⟨r.hostBytes_ne_nil, ?_⟩
    intro b hb
    have h := r.hostBytes_safe b hb
    refine ⟨?_, ?_, ?_⟩
    all_goals
      rintro rfl
      exact absurd h (by decide)
  have hletter : IsWord (ascii "F") := ⟨by decide, List.all_iff_forall_prop.mp (by decide)⟩
  intro w hw
  simp only [ForwardRule.fields, List.mem_cons, List.not_mem_nil, or_false] at hw
  rcases hw with rfl | rfl | rfl | rfl
  · exact hletter
  · exact isWord_decimal _
  · exact hhost
  · exact isWord_decimal _

theorem Routes.isWord_fields (R : Routes) : ∀ w ∈ R.fields, IsWord w := by
  have hcommand : IsWord (ascii "APPLY") := ⟨by decide, List.all_iff_forall_prop.mp (by decide)⟩
  intro w hw
  simp only [Routes.fields, List.mem_cons, List.not_mem_nil, or_false] at hw
  rcases hw with rfl | rfl | rfl
  · exact hcommand
  · exact isWord_decimal _
  · exact isWord_decimal _

/-- `strtok_r` on blanks takes a line of words apart. -/
theorem strtokAll_words {ws : List Bytes} (hne : ws ≠ []) (h : ∀ w ∈ ws, IsWord w) :
    strtokAll 32 ([32].intercalate ws) = ws := by
  refine strtokAll_fields hne ?_
  intro w hw
  exact ⟨(h w hw).1, fun hb => ((h w hw).2 32 hb).1 rfl⟩

/-- A line of words has no line end, no NUL and is not empty. -/
theorem line_words {ws : List Bytes} (hne : ws ≠ []) (h : ∀ w ∈ ws, IsWord w) :
    [32].intercalate ws ≠ [] ∧ ∀ b ∈ ([32].intercalate ws : Bytes), b ≠ 10 ∧ b ≠ 0 := by
  induction ws with
  | nil => exact absurd rfl hne
  | cons w ws ih =>
    obtain ⟨hw, hbytes⟩ := h w List.mem_cons_self
    cases ws with
    | nil =>
      rw [List.intercalate_singleton]
      exact ⟨hw, fun b hb => (hbytes b hb).2⟩
    | cons v ws =>
      have ih' := ih (List.cons_ne_nil v ws) fun u hu => h u (List.mem_cons_of_mem w hu)
      rw [List.intercalate_cons_cons]
      refine ⟨by simp [hw], ?_⟩
      intro b hb
      rcases List.mem_append.mp hb with hb | hb
      · rcases List.mem_append.mp hb with hb | hb
        · exact (hbytes b hb).2
        · rw [List.mem_singleton.mp hb]
          decide
      · exact ih'.2 b hb

/-- The loop of `apply_request` reads the rules one by one. -/
theorem applyLines_rules {rules : List ForwardRule} {ls : List Listener} (h : Room ls rules) :
    applyLines (rules.map (fun r => [32].intercalate r.fields) ++ [ascii "END"]) ls =
      some (ls ++ rules.map ForwardRule.listener) := by
  induction rules generalizing ls with
  | nil =>
    rw [List.map_nil, List.map_nil, List.append_nil]
    rfl
  | cons r rules ih =>
    obtain ⟨hroom, hnew, hrest⟩ := h.step
    have hwords : strtokAll 32 ([32].intercalate r.fields) =
        [ascii "F", decimal r.localPort.toNat, r.hostBytes, decimal r.remotePort.toNat] :=
      strtokAll_words (List.cons_ne_nil _ _) r.isWord_fields
    rw [List.map_cons, List.cons_append, applyLines, hwords]
    dsimp only
    rw [if_neg (by decide), if_neg (by simp [hroom]), r.safeHost_hostBytes,
      parsePortNumber_port r.local_range, parsePortNumber_port r.remote_range]
    dsimp only
    rw [if_neg (by simp), hnew, if_neg (by simp)]
    refine (ih hrest).trans ?_
    rw [List.append_assoc]
    rfl

/-- The lines of the message, without their ends. -/
def Routes.lines (R : Routes) : List Bytes :=
  [32].intercalate R.fields :: (R.rules.map (fun r => [32].intercalate r.fields) ++ [ascii "END"])

theorem Routes.mem_lines {R : Routes} {line : Bytes} (h : line ∈ R.lines) :
    line ≠ [] ∧ ∀ b ∈ line, b ≠ 10 ∧ b ≠ 0 := by
  rcases List.mem_cons.mp h with rfl | h
  · exact line_words (List.cons_ne_nil _ _) R.isWord_fields
  · rcases List.mem_append.mp h with h | h
    · obtain ⟨r, -, rfl⟩ := List.mem_map.mp h
      exact line_words (List.cons_ne_nil _ _) r.isWord_fields
    · rw [List.mem_singleton.mp h]
      exact ⟨by decide, List.all_iff_forall_prop.mp (by decide)⟩

/-- The `F` line of a rule, as `applyProxySettings` writes it. -/
theorem applyLine_text {F : Foundation} (hF : F.AsciiCharacters) (r : ForwardRule) :
    ∃ t, applyLine F r.text = some t ∧ utf8 t = [32].intercalate r.fields ++ [10] := by
  refine ⟨"F ".toList ++ decimalText r.localPort ++ " ".toList ++ r.host ++ " ".toList ++
    decimalText r.remotePort ++ "\n".toList, ?_, ?_⟩
  · unfold applyLine
    rw [r.splitColonOmitting_text hF]
  · simp only [utf8_append, utf8_decimalText r.local_range, utf8_decimalText r.remote_range]
    rw [show utf8 "F ".toList = ascii "F" ++ [32] from rfl, show utf8 " ".toList = [32] from rfl,
      show utf8 "\n".toList = [10] from rfl, show utf8 r.host = r.hostBytes from rfl]
    simp [ForwardRule.fields, List.intercalate_cons_cons]

theorem mapM_applyLine {F : Foundation} (hF : F.AsciiCharacters) (rules : List ForwardRule) :
    ∃ ts, (rules.map ForwardRule.text).mapM (applyLine F) = some ts ∧
      utf8 ts.flatten = rules.flatMap fun r => [32].intercalate r.fields ++ [10] := by
  induction rules with
  | nil => exact ⟨[], rfl, rfl⟩
  | cons r rules ih =>
    obtain ⟨t, ht, hbytes⟩ := applyLine_text hF r
    obtain ⟨ts, hts, hrest⟩ := ih
    refine ⟨t :: ts, ?_, ?_⟩
    · rw [List.map_cons, List.mapM_cons, ht, hts]
      rfl
    · rw [List.flatten_cons, utf8_append, hbytes, hrest]
      rfl

/-- The message is its lines, each with its end. -/
theorem applyMessage_routes {F : Foundation} (hF : F.AsciiCharacters) (R : Routes) :
    ∃ message, applyMessage F R.config = some message ∧
      utf8 message = R.lines.flatMap (· ++ [10]) := by
  obtain ⟨ts, hts, hbytes⟩ := mapM_applyLine hF R.rules
  refine ⟨_, by rw [applyMessage, show R.config.forwards = R.rules.map ForwardRule.text from rfl,
    hts, Option.map_some], ?_⟩
  rw [show R.config.http = R.http from rfl, show R.config.socks = R.socks from rfl]
  simp only [utf8_append, utf8_decimalText R.http_range, utf8_decimalText R.socks_range, hbytes]
  rw [show utf8 "APPLY ".toList = ascii "APPLY" ++ [32] from rfl,
    show utf8 " ".toList = [32] from rfl, show utf8 "\n".toList = [10] from rfl,
    show utf8 "END\n".toList = ascii "END" ++ [10] from rfl]
  simp [Routes.lines, Routes.fields, List.intercalate_cons_cons, List.flatMap_map]

/-- A line is as long as its words and the blanks between them. -/
theorem Routes.lines_length (R : Routes) : (R.lines.flatMap (· ++ [10])).length ≤ 8662 := by
  have hrule : ∀ r : ForwardRule, ([32].intercalate r.fields ++ [10] : Bytes).length ≤ 270 := by
    intro r
    have h1 := decimal_port_length r.local_range
    have h2 := decimal_port_length r.remote_range
    have h3 : r.hostBytes.length < 256 := r.host_short
    have h4 : (ascii "F").length = 1 := rfl
    simp only [ForwardRule.fields, List.intercalate_cons_cons, List.intercalate_singleton,
      List.length_append, List.length_singleton]
    omega
  have hrules : ∀ rules : List ForwardRule,
      ((rules.map fun r => [32].intercalate r.fields : List Bytes).flatMap (· ++ [10])).length ≤
        270 * rules.length := by
    intro rules
    induction rules with
    | nil => exact Nat.le_refl 0
    | cons r rules ih =>
      have := hrule r
      rw [List.map_cons, List.flatMap_cons, List.length_append, List.length_cons]
      omega
  have h1 := decimal_port_length R.http_range
  have h2 := decimal_port_length R.socks_range
  have h3 : (ascii "APPLY").length = 5 := rfl
  have h4 : (ascii "END").length = 3 := rfl
  have h5 := hrules R.rules
  have h6 := R.few
  unfold Routes.lines
  rw [List.flatMap_cons, List.flatMap_append]
  simp only [Routes.fields, List.intercalate_cons_cons, List.intercalate_singleton,
    List.length_append, List.length_singleton, List.flatMap_cons, List.flatMap_nil, List.length_nil]
  omega

/-- `apply_request` reads the table of the routes. -/
theorem applyText_routes (R : Routes) :
    applyText (R.lines.flatMap (· ++ [10])) = some R.table := by
  have hlines : strtokAll 10 (R.lines.flatMap (· ++ [10])) = R.lines := by
    apply strtokAll_lines
    intro line hline
    obtain ⟨hne, hbytes⟩ := Routes.mem_lines hline
    exact ⟨hne, fun hb => (hbytes 10 hb).1 rfl⟩
  have hwords : strtokAll 32 ([32].intercalate R.fields) =
      [ascii "APPLY", decimal R.http.toNat, decimal R.socks.toNat] :=
    strtokAll_words (List.cons_ne_nil _ _) R.isWord_fields
  unfold applyText
  rw [hlines, Routes.lines]
  dsimp only
  rw [hwords]
  dsimp only
  rw [if_neg (by simp), parsePortNumber_port R.http_range, parsePortNumber_port R.socks_range]
  dsimp only
  rw [if_neg R.http_ne_socks]
  exact applyLines_rules R.room

/-! ## The two ways agree -/

/-- A forward of the table, written as a rule. -/
def Listener.ruleBytes (l : Listener) : Bytes :=
  decimal l.localPort.toNat ++ 58 :: (l.remoteHost ++ 58 :: decimal l.remotePort.toNat)

/-- A configuration the app accepts gives the same table through the arguments of `connect` and
    through the message of `applyProxySettings`, and that table has the configured ports and the
    rules, hosts in full. -/
theorem routes_agree {F : Foundation} (hF : F.AsciiCharacters)
    {httpPort socksPort forwardText : Text} {config : ProxyConfig}
    (h : validatedProxyConfig F httpPort socksPort forwardText = some config) (session : Session) :
    ∃ table message requested,
      mainListeners (connectArguments session config) = some table ∧
      applyMessage F config = some message ∧
      (utf8 message).length ≤ maxControlRequest - 1 ∧
      ascii "APPLY " <+: cstr (utf8 message) ∧
      applyText (cstr (utf8 message)) = some requested ∧
      table.map Listener.spec = requested.map Listener.spec ∧
      (table.take 2).map (fun l => (l.kind, l.localPort)) =
        [(.httpProxy, config.http), (.socksProxy, config.socks)] ∧
      (table.drop 2).map Listener.ruleBytes = config.forwards.map utf8 := by
  obtain ⟨R, rfl⟩ := validatedProxyConfig_routes hF h
  obtain ⟨message, hmessage, hbytes⟩ := applyMessage_routes hF R
  have hcstr : cstr (utf8 message) = utf8 message := by
    apply cstr_eq_self
    rw [hbytes]
    intro b hb
    obtain ⟨line, hline, hb⟩ := List.mem_flatMap.mp hb
    rcases List.mem_append.mp hb with hb | hb
    · exact ((Routes.mem_lines hline).2 b hb).2
    · rw [List.mem_singleton.mp hb]
      decide
  refine ⟨R.table, message, R.table, mainListeners_connect R session, hmessage, ?_, ?_, ?_,
    rfl, rfl, ?_⟩
  · rw [hbytes]
    exact R.lines_length.trans (by decide)
  · rw [hcstr, hbytes]
    unfold Routes.lines Routes.fields
    rw [List.flatMap_cons, List.intercalate_cons_cons]
    exact ⟨_, by simp only [List.append_assoc]; rfl⟩
  · rw [hcstr, hbytes]
    exact applyText_routes R
  · show (R.rules.map ForwardRule.listener).map Listener.ruleBytes =
      (R.rules.map ForwardRule.text).map utf8
    rw [List.map_map, List.map_map]
    exact List.map_congr_left fun r _ => r.utf8_text.symm

/-- The character sets and Characters of ASCII text. -/
def sampleFoundation : Foundation where
  characters t := t.map fun c => [c]
  newlines c := decide (10 ≤ c.toNat ∧ c.toNat ≤ 13)
  whitespacesAndNewlines c := decide (c.toNat = 32 ∨ (9 ≤ c.toNat ∧ c.toNat ≤ 13))

def sampleSession : Session where
  server := ascii "vpn.example"
  user := ascii "user"
  pptpPath := ascii "/pptp"
  passwordFifo := ascii "/password.fifo"
  controlSocket := ascii "/control.sock"
  server_ne_nil := by decide
  user_ne_nil := by decide

/-- Two rules, one of them with blanks around it and a signed port. -/
theorem routes_agree_two_rules :
    ∃ table message requested,
      mainListeners (connectArguments sampleSession
        ⟨18080, 11080, ["8000:10.0.0.1:80".toList, "8001:host:443".toList]⟩) = some table ∧
      applyMessage sampleFoundation
        ⟨18080, 11080, ["8000:10.0.0.1:80".toList, "8001:host:443".toList]⟩ = some message ∧
      (utf8 message).length ≤ maxControlRequest - 1 ∧
      ascii "APPLY " <+: cstr (utf8 message) ∧
      applyText (cstr (utf8 message)) = some requested ∧
      table.map Listener.spec = requested.map Listener.spec ∧
      (table.take 2).map (fun l => (l.kind, l.localPort)) =
        [(.httpProxy, 18080), (.socksProxy, 11080)] ∧
      (table.drop 2).map Listener.ruleBytes =
        [utf8 "8000:10.0.0.1:80".toList, utf8 "8001:host:443".toList] := by
  have hF : sampleFoundation.AsciiCharacters := fun t _ => rfl
  have h : validatedProxyConfig sampleFoundation "18080".toList "11080".toList
      "8000:10.0.0.1:80\n  +8001:host:443 ".toList =
      some ⟨18080, 11080, ["8000:10.0.0.1:80".toList, "8001:host:443".toList]⟩ := by decide
  exact routes_agree hF h sampleSession

end PptpProxy
