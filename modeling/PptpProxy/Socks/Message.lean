/-
  A SOCKS5 handshake as RFC 1928 lays it out on the wire, and what the proxy makes of it.

  `SocksMessage` is a COMPLETE greeting and request with arbitrary bytes in the fixed fields, so that
  a message may be one the proxy serves (`Served`) or one with a field it turns down (`TurnedDown`).
  Every offset the parser computes (the greeting's, behind the length byte of a name, of the port, of
  the payload) is read back from the encoding; what the parser says then settles what `feed_local`
  does (`feedLocal_feeds`).
-/
import PptpProxy.Socks.Segments

namespace PptpProxy

open CLib

/-! ## Messages -/

/-- The address field, with its type byte. -/
inductive SocksAddress
  | ipv4 (p q r s : UInt8)
  | domain (name : Bytes) (short : name.length ≤ 255)
  /-- An address of another type. -/
  | other (type : UInt8) (rest : Bytes) (unknown : type ≠ 1 ∧ type ≠ 3)

/-- A greeting, and a request behind it. -/
structure SocksMessage where
  version : UInt8
  methods : Bytes
  fewMethods : methods.length ≤ 255
  requestVersion : UInt8
  command : UInt8
  reserved : UInt8
  address : SocksAddress
  port : Nat
  portLt : port < 65536

/-- The address with its type byte, and for a name with its length byte. -/
def SocksAddress.encode : SocksAddress → Bytes
  | .ipv4 p q r s => [1, p, q, r, s]
  | .domain name _ => 3 :: UInt8.ofNat name.length :: name
  | .other type rest _ => type :: rest

/-- The host the address stands for, as a text. -/
def SocksAddress.host : SocksAddress → Bytes
  | .ipv4 p q r s => inetNtop [p, q, r, s]
  | .domain name _ => name
  | .other _ _ _ => []

/-- A port in network order. -/
def portBytes (port : Nat) : Bytes := [UInt8.ofNat (port / 256), UInt8.ofNat (port % 256)]

/-- The four bytes of an address, the first one on top. -/
def ipv4Address (p q r s : UInt8) : IpAddr :=
  p.toBitVec ++ q.toBitVec ++ r.toBitVec ++ s.toBitVec

namespace SocksMessage

variable (m : SocksMessage)

def greeting : Bytes := m.version :: UInt8.ofNat m.methods.length :: m.methods

def request : Bytes :=
  m.requestVersion :: m.command :: m.reserved :: (m.address.encode ++ portBytes m.port)

def encode : Bytes := m.greeting ++ m.request

/-- A message the proxy serves. -/
structure Served : Prop where
  version : m.version = 5
  method : 0 ∈ m.methods
  requestVersion : m.requestVersion = 5
  command : m.command = 1
  reserved : m.reserved = 0
  address : match m.address with
    | .ipv4 _ _ _ _ => True
    | .domain name _ => name ≠ [] ∧ ∀ b ∈ name, b ≠ 0
    | .other _ _ _ => False
  port : m.port ≠ 0

/-- A message with a field the proxy turns down. -/
inductive TurnedDown : Prop
  | version (h : m.version ≠ 5)
  | method (h : 0 ∉ m.methods)
  | requestVersion (h : m.requestVersion ≠ 5)
  | command (h : m.command ≠ 1)
  | reserved (h : m.reserved ≠ 0)
  | type {type : UInt8} {rest : Bytes} {unknown : type ≠ 1 ∧ type ≠ 3}
      (h : m.address = .other type rest unknown)
  | name {short : ([] : Bytes).length ≤ 255} (h : m.address = .domain [] short)
  | port (h : m.port = 0)

/-! ## What the parser reads -/

theorem greeting_length : m.greeting.length = 2 + m.methods.length := by
  unfold greeting
  rw [List.length_cons, List.length_cons]
  omega

/-- The method count fits its byte. -/
theorem greetingLength_greeting (t : Bytes) : greetingLength (m.greeting ++ t) = m.greeting.length := by
  have hcount : (UInt8.ofNat m.methods.length).toNat = m.methods.length := by
    rw [UInt8.toNat_ofNat', Nat.mod_eq_of_lt (by have := m.fewMethods; omega)]
  rw [greeting_length]
  show 2 + (UInt8.ofNat m.methods.length).toNat = _
  rw [hcount]

theorem greetingComplete_greeting (t : Bytes) : greetingComplete (m.greeting ++ t) = true := by
  rw [greetingComplete_iff, greetingLength_greeting, List.length_append, greeting_length]
  omega

theorem greetingOffers_greeting (t : Bytes) :
    greetingOffers (m.greeting ++ t) = true ↔ m.version = 5 ∧ 0 ∈ m.methods := by
  unfold greetingOffers
  rw [greetingLength_greeting, List.take_left]
  show (m.version == 5 && m.methods.contains 0) = true ↔ _
  rw [Bool.and_eq_true_iff, beq_iff_eq, List.contains_iff_mem]

/-- Behind the greeting the parser is at the request. -/
theorem handshake_encode (t : Bytes) :
    handshake (m.encode ++ t) =
      if greetingOffers (m.greeting ++ (m.request ++ t)) = false then .rejected
      else requestSays m.greeting.length (decodeSocksRequest (m.request ++ t)) := by
  unfold encode
  rw [List.append_assoc, handshake_complete (m.greetingComplete_greeting _),
    greetingLength_greeting, List.drop_left]

end SocksMessage

/-- A port is read back from its two bytes. -/
theorem portBytes_value {port : Nat} (h : port < 65536) :
    (UInt8.ofNat (port / 256)).toNat * 256 + (UInt8.ofNat (port % 256)).toNat = port := by
  rw [UInt8.toNat_ofNat', UInt8.toNat_ofNat', Nat.mod_eq_of_lt (by omega),
    Nat.mod_eq_of_lt (by omega)]
  omega

theorem decodeSocksRequest_ipv4 (p q r s hi lo : UInt8) (t : Bytes) :
    decodeSocksRequest (5 :: 1 :: 0 :: 1 :: p :: q :: r :: s :: hi :: lo :: t) =
      .target (inetNtop [p, q, r, s]) (hi.toNat * 256 + lo.toNat : Nat) 10 := rfl

/-- A name is as long as its length byte says, and the port is right behind it. -/
theorem decodeSocksRequest_domain {name : Bytes} (hne : name ≠ []) (hlen : name.length ≤ 255)
    (hi lo : UInt8) (t : Bytes) :
    decodeSocksRequest (5 :: 1 :: 0 :: 3 :: UInt8.ofNat name.length :: (name ++ hi :: lo :: t)) =
      .target (cstr name) (hi.toNat * 256 + lo.toNat : Nat) (5 + name.length + 2) := by
  have hn : (UInt8.ofNat name.length).toNat = name.length := by
    rw [UInt8.toNat_ofNat', Nat.mod_eq_of_lt (by omega)]
  have hpos : 0 < name.length := List.length_pos_iff.mpr hne
  have hzero : UInt8.ofNat name.length ≠ 0 := by
    intro h
    rw [h] at hn
    exact absurd hn (Nat.ne_of_lt hpos)
  have hhi : (name ++ hi :: lo :: t).getD name.length 0 = hi := by
    rw [List.getD_append_right _ _ _ _ (Nat.le_refl _), Nat.sub_self]
    rfl
  have hlo : (name ++ hi :: lo :: t).getD (name.length + 1) 0 = lo := by
    rw [List.getD_append_right _ _ _ _ (Nat.le_add_right _ 1), Nat.add_sub_cancel_left]
    rfl
  unfold decodeSocksRequest
  dsimp only
  rw [if_neg (by decide), if_neg (by decide), if_pos rfl, if_neg hzero, hn,
    if_neg (by simp), List.take_left, hhi, hlo]

/-- Dotted decimal has 7 to 15 characters; all that matters is that it fits `host`. -/
theorem inetNtop_length (p q r s : UInt8) :
    0 < (inetNtop [p, q, r, s]).length ∧ (inetNtop [p, q, r, s]).length < 256 := by
  have hdec : ∀ b : UInt8, 0 < (decimal b.toNat).length ∧ (decimal b.toNat).length ≤ 3 := fun b =>
    ⟨List.length_pos_iff.mpr (decimal_ne_nil _),
      decimal_length (by decide) (by have := b.toNat_lt; omega)⟩
  have htext : inetNtop [p, q, r, s] = decimal p.toNat ++ 46 :: (decimal q.toNat ++
      46 :: (decimal r.toNat ++ 46 :: decimal s.toNat)) := by
    simp [inetNtop, List.intercalate, List.intersperse]
  have hp := hdec p
  have hq := hdec q
  have hr := hdec r
  have hs := hdec s
  rw [htext]
  simp only [List.length_append, List.length_cons]
  omega

/-- A request with a wrong fixed byte is bad, whatever address it has. -/
theorem decodeSocksRequest_head {v c z : UInt8} (h : v ≠ 5 ∨ c ≠ 1 ∨ z ≠ 0) (x : UInt8) (t : Bytes) :
    decodeSocksRequest (v :: c :: z :: x :: t) = .bad := if_pos h

namespace SocksMessage

variable {m : SocksMessage}

/-- **The parser reads the target back**, and knows where the payload begins. -/
theorem handshake_served (h : m.Served) (t : Bytes) :
    handshake (m.encode ++ t) = .target m.address.host m.port m.encode.length := by
  have hoffer := (m.greetingOffers_greeting (m.request ++ t)).mpr ⟨h.version, h.method⟩
  have hport : validPort m.port = true := by
    have := h.port
    have := m.portLt
    unfold validPort
    rw [decide_eq_true_iff]
    omega
  have hencode : m.encode.length = m.greeting.length + m.request.length := List.length_append
  have haddr := h.address
  rw [handshake_encode, hoffer, if_neg (by decide), hencode]
  unfold request
  rw [h.requestVersion, h.command, h.reserved]
  cases hm : m.address with
  | ipv4 p q r s =>
    obtain ⟨hpos, hlt⟩ := inetNtop_length p q r s
    show requestSays _ (decodeSocksRequest (5 :: 1 :: 0 :: 1 :: p :: q :: r :: s ::
      UInt8.ofNat (m.port / 256) :: UInt8.ofNat (m.port % 256) :: t)) = _
    rw [decodeSocksRequest_ipv4, portBytes_value m.portLt]
    refine if_neg ?_
    rintro (h0 | h256 | hbad)
    · omega
    · omega
    · rw [hport] at hbad
      cases hbad
  | domain name short =>
    rw [hm] at haddr
    obtain ⟨hne, hnul⟩ := haddr
    show requestSays _ (decodeSocksRequest (5 :: 1 :: 0 :: 3 :: UInt8.ofNat name.length ::
      ((name ++ [UInt8.ofNat (m.port / 256), UInt8.ofNat (m.port % 256)]) ++ t))) = _
    rw [List.append_assoc]
    show requestSays _ (decodeSocksRequest (5 :: 1 :: 0 :: 3 :: UInt8.ofNat name.length ::
      (name ++ UInt8.ofNat (m.port / 256) :: UInt8.ofNat (m.port % 256) :: t))) = _
    rw [decodeSocksRequest_domain hne short, portBytes_value m.portLt, cstr_eq_self hnul]
    have hpos : 0 < name.length := List.length_pos_iff.mpr hne
    have hlen : (5 :: 1 :: 0 :: (SocksAddress.encode (.domain name short) ++ portBytes m.port)).length =
        5 + name.length + 2 := by
      simp only [SocksAddress.encode, portBytes, List.length_cons, List.length_append, List.length_nil]
      omega
    rw [hlen]
    refine if_neg ?_
    rintro (h0 | h256 | hbad)
    · omega
    · omega
    · rw [hport] at hbad
      cases hbad
  | other type rest unknown =>
    rw [hm] at haddr
    exact haddr.elim

/-- The parser is at the type byte behind the three fixed bytes. -/
theorem request_append (t : Bytes) : ∃ x rest, m.address.encode = x :: rest ∧ m.request ++ t =
    m.requestVersion :: m.command :: m.reserved :: x :: (rest ++ portBytes m.port ++ t) := by
  unfold request
  cases m.address with
  | ipv4 p q r s => exact ⟨1, [p, q, r, s], rfl, rfl⟩
  | domain name short => exact ⟨3, UInt8.ofNat name.length :: name, rfl, rfl⟩
  | other type rest unknown => exact ⟨type, rest, rfl, rfl⟩

/-- An address of another type is bad, and so is an empty name. -/
theorem decode_address (hv : m.requestVersion = 5) (hc : m.command = 1) (hz : m.reserved = 0)
    (h : m.address.host = []) (t : Bytes) : decodeSocksRequest (m.request ++ t) = .bad := by
  unfold request
  rw [hv, hc, hz]
  cases hm : m.address with
  | ipv4 p q r s =>
    rw [hm] at h
    obtain ⟨hpos, -⟩ := inetNtop_length p q r s
    rw [show inetNtop [p, q, r, s] = [] from h] at hpos
    cases hpos
  | domain name short =>
    rw [hm] at h
    obtain rfl : name = [] := h
    rfl
  | other type rest unknown =>
    show decodeSocksRequest (5 :: 1 :: 0 :: type :: (rest ++ portBytes m.port ++ t)) = .bad
    unfold decodeSocksRequest
    dsimp only
    rw [if_neg (by decide), if_neg unknown.1, if_neg unknown.2]

/-- A request to port 0 is not served, whoever it is for. -/
theorem requestSays_portZero (h : m.port = 0) (skipped : Nat) (t : Bytes) :
    requestSays skipped (decodeSocksRequest (m.request ++ t)) = .rejected := by
  by_cases hhead : m.requestVersion ≠ 5 ∨ m.command ≠ 1 ∨ m.reserved ≠ 0
  · obtain ⟨x, rest, -, hreq⟩ := m.request_append t
    rw [hreq, decodeSocksRequest_head hhead]
    rfl
  simp only [not_or, not_not] at hhead
  obtain ⟨hv, hc, hz⟩ := hhead
  by_cases hhost : m.address.host = []
  · rw [decode_address hv hc hz hhost]
    rfl
  unfold request
  rw [hv, hc, hz, h]
  cases hm : m.address with
  | ipv4 p q r s =>
    show requestSays _ (decodeSocksRequest (5 :: 1 :: 0 :: 1 :: p :: q :: r :: s :: 0 :: 0 :: t)) = _
    rw [decodeSocksRequest_ipv4]
    exact requestSays_bad _ _ (Or.inr (Or.inr (by decide)))
  | domain name short =>
    rw [hm] at hhost
    have hne : name ≠ [] := hhost
    show requestSays _ (decodeSocksRequest (5 :: 1 :: 0 :: 3 :: UInt8.ofNat name.length ::
      ((name ++ [0, 0]) ++ t))) = _
    rw [List.append_assoc, show [0, 0] ++ t = 0 :: 0 :: t from rfl,
      decodeSocksRequest_domain hne short]
    exact requestSays_bad _ _ (Or.inr (Or.inr (by decide)))
  | other type rest unknown =>
    rw [hm] at hhost
    exact absurd rfl hhost

/-- **Every field the proxy turns down makes the parser reject the message.** -/
theorem handshake_turnedDown (h : m.TurnedDown) (t : Bytes) :
    handshake (m.encode ++ t) = .rejected := by
  have hoffers := m.greetingOffers_greeting (m.request ++ t)
  rw [handshake_encode]
  split
  · rfl
  rename_i hoffer
  obtain ⟨hversion, hmethod⟩ := hoffers.mp (by simpa using hoffer)
  obtain ⟨x, rest, -, hreq⟩ := m.request_append t
  by_cases hhead : m.requestVersion ≠ 5 ∨ m.command ≠ 1 ∨ m.reserved ≠ 0
  · rw [hreq, decodeSocksRequest_head hhead]
    rfl
  simp only [not_or, not_not] at hhead
  obtain ⟨hv, hc, hz⟩ := hhead
  cases h with
  | version h => exact absurd hversion h
  | method h => exact absurd hmethod h
  | requestVersion h => exact absurd hv h
  | command h => exact absurd hc h
  | reserved h => exact absurd hz h
  | type h =>
    rw [decode_address hv hc hz (by rw [h]; rfl)]
    rfl
  | name h =>
    rw [decode_address hv hc hz (by rw [h]; rfl)]
    rfl
  | port h => exact requestSays_portZero h _ t

end SocksMessage

/-! ## What the proxy does -/

/-- **Decoding undoes encoding.**  A message the proxy serves, with any payload behind it that leaves
    the whole below MAX_HEADER, is accepted: `start_connection` gets the slot with the host, the port,
    the reply to the greeting and exactly the payload, and an IPv4 request gets to the very address it
    names as soon as `ipaddr_aton` reads back what `inet_ntop` wrote.  A message with a field that is
    turned down is rejected, and nothing is started. -/
theorem socks_decode {L : Lwip} {a : Answers} {fd : Int} (h0 : 0 ≤ fd) (m : SocksMessage)
    (early : Bytes) (hfit : (m.encode ++ early).length < maxHeader) :
    (m.Served →
      StartsAs L a (targetSlot fd m.address.host m.port early)
        (feedLocal L true a (Connection.accepted fd .socksProxy) (m.encode ++ early)) ∧
      ∀ p q r s, m.address = .ipv4 p q r s →
        L.ipaddrAton (inetNtop [p, q, r, s]) = some (ipv4Address p q r s) →
        startConnection L true a (targetSlot fd m.address.host m.port early) =
          connectIp a (ipv4Address p q r s) (targetSlot fd m.address.host m.port early)) ∧
    (m.TurnedDown →
      (feedLocal L true a (Connection.accepted fd .socksProxy) (m.encode ++ early)).2.2 = false ∧
      startsIn (feedLocal L true a (Connection.accepted fd .socksProxy)
        (m.encode ++ early)).2.1 = 0) := by
  have hfeeds : Feeds L a fd ([] ++ (m.encode ++ early)) _ :=
    feedLocal_feeds rfl (by show 0 + _ < _; omega)
  rw [List.nil_append] at hfeeds
  have hstart : waitingSlot fd [] = Connection.accepted fd .socksProxy := rfl
  rw [hstart] at hfeeds
  refine ⟨fun hserved => ⟨?_, fun p q r s hm haton => ?_⟩, fun hdown => ?_⟩
  · obtain ⟨io, hio, hfeed⟩ := hfeeds.target _ _ _ (SocksMessage.handshake_served hserved early)
    rw [List.drop_left] at hfeed
    refine ⟨?_, io, hio, hfeed⟩
    rw [hfeed]
    exact (hio.startsIn_left _).trans (startsIn_startConnection h0 fun h => by cases h)
  · refine startConnection_address ?_
    show L.ipaddrAton m.address.host = _
    rw [hm]
    exact haton
  · obtain ⟨c, io, hio, hfeed⟩ := hfeeds.rejected (SocksMessage.handshake_turnedDown hdown early)
    rw [hfeed]
    exact ⟨rfl, hio.startsIn_eq⟩

/-- A request for 10.0.0.1:80 of a client that also knows another method. -/
def sampleMessage : SocksMessage where
  version := 5
  methods := [2, 0]
  fewMethods := by decide
  requestVersion := 5
  command := 1
  reserved := 0
  address := .ipv4 10 0 0 1
  port := 80
  portLt := by decide

theorem socks_decode_sample :
    StartsAs sampleLwip (willing 0) (targetSlot 20 (ascii "10.0.0.1") 80 (ascii "GET"))
      (feedLocal sampleLwip true (willing 0) (Connection.accepted 20 .socksProxy)
        ([5, 2, 2, 0, 5, 1, 0, 1, 10, 0, 0, 1, 0, 80] ++ ascii "GET")) ∧
    startConnection sampleLwip true (willing 0)
        (targetSlot 20 (ascii "10.0.0.1") 80 (ascii "GET")) =
      connectIp (willing 0) 0x0a000001 (targetSlot 20 (ascii "10.0.0.1") 80 (ascii "GET")) := by
  obtain ⟨hserved, -⟩ := socks_decode (L := sampleLwip) (a := willing 0) (by decide : (0 : Int) ≤ 20)
    sampleMessage (ascii "GET") (by decide)
  obtain ⟨hstart, hconnect⟩ := hserved ⟨rfl, by decide, rfl, rfl, rfl, trivial, by decide⟩
  have hhost : sampleMessage.address.host = ascii "10.0.0.1" := by decide
  rw [hhost] at hstart hconnect
  exact ⟨hstart, hconnect 10 0 0 1 rfl (by decide)⟩

end PptpProxy
