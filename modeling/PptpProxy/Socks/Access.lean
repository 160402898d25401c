/-
  Every byte the SOCKS side of `feed_local` touches.

  `feedGreeting` and `decodeSocksRequest` take the header apart as a list, so they cannot read behind it;
  the source indexes an array.  Here both are written a second time, index by index and copy by copy in
  the order of the source, over the checked operations of `Lib.Checked`: the valid part of the array is
  `header[0..header_len)`.  `feedHeaderChecked_eq` is the safety statement and the refinement in one: for
  EVERY slot the checked run ends without a fault, and with what `feedHeader` computes.
-/
import PptpProxy.Socks.Message
import PptpProxy.Lib.Checked

namespace PptpProxy

open CLib

/-! ## The functions of the source, index by index -/

/-- The scan for method 0: `for (size_t i=2; i<greeting_len; ++i)`. -/
def scanMethods (header : Bytes) (i : Nat) (noAuth : Bool) : Checked Bool := do
  let method ← load header i
  pure (if method = 0 then true else noAuth)

/-- The greeting branch of `feed_local`, with its accesses. -/
def feedGreetingChecked (c : Connection) : Checked (Option (Connection × List Io × Bool)) :=
  if c.header.length < 2 then pure none
  else do
    let methods ← load c.header 1
    let greetingLen := 2 + methods.toNat
    if greetingLen > c.header.length then pure none
    else do
      let noAuth ← loop (scanMethods c.header) (greetingLen - 2) 2 false
      let version ← load c.header 0
      if version ≠ 5 ∨ noAuth = false then pure (some (c, [], false))
      else
        match localReply c greetingOk with
        | none => pure (some (c, [appendIo c.toLocal bufferSize greetingOk], false))
        | some c' => do
          let left ← subtract c.header.length greetingLen
          let header ← loadBlock c.header greetingLen left
          pure (some ({ c' with header := header, phase := .socksRequest },
            [appendIo c.toLocal bufferSize greetingOk], true))

/-- The port behind the address, and the length of the request. -/
def readPort (b : Bytes) (host : Bytes) (offset : Nat) : Checked SocksRequest := do
  let hi ← load b offset
  let lo ← load b (offset + 1)
  pure (.target host (hi.toNat * 256 + lo.toNat : Nat) (offset + 2))

/-- The address and the port of a request whose first three bytes are in order; `host` has 256 bytes. -/
def readAddress (b : Bytes) : Checked SocksRequest := do
  let kind ← load b 3
  if kind = 1 then
    if b.length < 4 + 4 + 2 then pure .wait
    else do
      let address ← loadBlock b 4 4
      let host ← storeString 256 (inetNtop address)
      readPort b host (4 + 4)
  else if kind = 3 then
    if b.length < 5 then pure .wait
    else do
      let hostLen ← load b 4
      if hostLen = 0 then pure .bad
      else if b.length < 5 + hostLen.toNat + 2 then pure .wait
      else do
        let name ← loadBlock b 5 hostLen.toNat
        let host ← storeString 256 name
        readPort b (cstr host) (5 + hostLen.toNat)
  else pure .bad

/-- The decoding part of `parse_socks_request`, with its accesses: `b[0] != 5 || b[1] != 1 || b[2] != 0`
    looks at a byte only when those in front of it are in order. -/
def decodeSocksRequestChecked (b : Bytes) : Checked SocksRequest :=
  if b.length < 4 then pure .wait
  else do
    let version ← load b 0
    if version ≠ 5 then pure .bad
    else do
      let command ← load b 1
      if command ≠ 1 then pure .bad
      else do
        let reserved ← load b 2
        if reserved ≠ 0 then pure .bad else readAddress b

/-- `parse_socks_request`, with its accesses. -/
def parseSocksRequestChecked (L : Lwip) (linkUp : Bool) (a : Answers) (c : Connection) :
    Checked (Connection × List Io × Bool) := do
  let request ← decodeSocksRequestChecked c.header
  match request with
  | .wait => pure (c, [], true)
  | .bad => pure (c, [], false)
  | .target host port length =>
    match setTarget c host port with
    | none => pure (c, [], false)
    | some c => do
      let remaining ← subtract c.header.length length
      if remaining = 0 then pure (thenStart L linkUp a ({ c with header := [] }, [], true))
      else do
        let early ← loadBlock c.header length remaining
        match appendBytes c.toRemote bufferSize early with
        | none => pure (c, [appendIo c.toRemote bufferSize early], false)
        | some r =>
          pure (thenStart L linkUp a
            ({ c with toRemote := r, header := [] }, [appendIo c.toRemote bufferSize early], true))

/-- `feed_local` behind the header capacity check, with the accesses of its SOCKS branches. -/
def feedHeaderChecked (L : Lwip) (linkUp : Bool) (a : Answers) (c : Connection) :
    Checked (Connection × List Io × Bool) :=
  match c.phase with
  | .socksGreeting => do
    let greeted ← feedGreetingChecked c
    match greeted with
    | none => pure (c, [], true)
    | some (c, io, false) => pure (c, io, false)
    | some (c, io, true) => do
      let (c, io', ok) ← parseSocksRequestChecked L linkUp a c
      pure (c, io ++ io', ok)
  | .socksRequest => parseSocksRequestChecked L linkUp a c
  | _ => pure (feedHeader L linkUp a c)

/-! ## The greeting -/

/-- One turn of the scan: the methods looked at so far are one more. -/
theorem scanMethods_ok {header : Bytes} {j : Nat} {noAuth : Bool} (hj : 2 ≤ j)
    (hlen : j < header.length) (h : noAuth = ((header.take j).drop 2).contains 0) :
    ∃ noAuth', scanMethods header j noAuth = .ok noAuth' ∧
      noAuth' = ((header.take (j + 1)).drop 2).contains 0 := by
  obtain ⟨method, hmethod⟩ : ∃ method, header[j]? = some method := ⟨_, List.getElem?_eq_getElem hlen⟩
  refine ⟨if method = 0 then true else noAuth, ?_, ?_⟩
  · unfold scanMethods
    rw [load_ok hmethod, ok_bind]
    rfl
  · have hmore : (header.take (j + 1)).drop 2 = (header.take j).drop 2 ++ [method] := by
      rw [List.take_add_one, hmethod, List.drop_append_of_le_length (by rw [List.length_take]; omega)]
      rfl
    rw [hmore, List.contains_eq_mem, h, List.contains_eq_mem]
    by_cases hzero : method = 0
    · simp [hzero]
    · simp [hzero, Ne.symm hzero]

/-- The loop of the greeting reads the methods, and nothing else. -/
theorem loop_scanMethods {header : Bytes} {n : Nat} (h : 2 + n ≤ header.length) :
    loop (scanMethods header) n 2 false = .ok (((header.take (2 + n)).drop 2).contains 0) := by
  have hinit : false = ((header.take 2).drop 2).contains 0 := by
    rw [List.drop_of_length_le (List.length_take_le 2 header)]
    rfl
  have hbody : ∀ j noAuth, 2 ≤ j → j < 2 + n → noAuth = ((header.take j).drop 2).contains 0 →
      ∃ noAuth', scanMethods header j noAuth = .ok noAuth' ∧
        noAuth' = ((header.take (j + 1)).drop 2).contains 0 :=
    fun j noAuth hj hn hnoAuth => scanMethods_ok hj (by omega) hnoAuth
  obtain ⟨noAuth, hrun, rfl⟩ := loop_ok hinit hbody
  exact hrun

/-- A load whose index is in range. -/
theorem load_getD {b : Bytes} {i : Nat} (h : i < b.length) : load b i = .ok (b.getD i 0) := by
  rw [load_ok (List.getElem?_eq_getElem h), List.getD_eq_getElem b 0 h]

/-- **The greeting.**  `2 + header[1]` methods are looked at only when they are all there, and what is
    moved to the front is what is behind them. -/
theorem feedGreetingChecked_eq (c : Connection) : feedGreetingChecked c = .ok (feedGreeting c) := by
  unfold feedGreetingChecked feedGreeting
  by_cases htwo : c.header.length < 2
  · rw [if_pos htwo, if_pos htwo]
    rfl
  · rw [if_neg htwo, if_neg htwo, load_getD (by omega), ok_bind]
    dsimp only
    by_cases hshort : 2 + (c.header.getD 1 0).toNat > c.header.length
    · rw [if_pos hshort, if_pos hshort]
      rfl
    · rw [if_neg hshort, if_neg hshort, Nat.add_sub_cancel_left, loop_scanMethods (by omega), ok_bind,
        load_getD (by omega), ok_bind]
      split
      · rfl
      · cases localReply c greetingOk with
        | none => rfl
        | some c' =>
          dsimp only
          rw [subtract_ok (by omega), ok_bind, loadBlock_rest (by omega), ok_bind]
          rfl

/-! ## The request -/

theorem readPort_ok {b host : Bytes} {offset : Nat} (h : offset + 2 ≤ b.length) :
    readPort b host offset = .ok (.target host
      ((b.getD offset 0).toNat * 256 + (b.getD (offset + 1) 0).toNat : Nat) (offset + 2)) := by
  unfold readPort
  rw [load_getD (by omega), ok_bind, load_getD (by omega), ok_bind]
  rfl

/-- An IPv4 address is read when all of it is there, and its text fits `host`. -/
theorem readAddress_ipv4 (rest : Bytes) :
    readAddress (5 :: 1 :: 0 :: 1 :: rest) = .ok (decodeSocksRequest (5 :: 1 :: 0 :: 1 :: rest)) := by
  unfold readAddress
  rw [load_ok (x := 1) rfl, ok_bind, if_pos rfl]
  rcases rest with _ | ⟨p, _ | ⟨q, _ | ⟨r, _ | ⟨s, _ | ⟨hi, _ | ⟨lo, t⟩⟩⟩⟩⟩⟩
  case cons.cons.cons.cons.cons.cons =>
    have haddress : ((5 :: 1 :: 0 :: 1 :: p :: q :: r :: s :: hi :: lo :: t : Bytes).drop 4).take 4 =
        [p, q, r, s] := rfl
    rw [if_neg (by simp), loadBlock_ok (by simp), ok_bind, haddress,
      storeString_ok (inetNtop_length p q r s).2, ok_bind, readPort_ok (by simp)]
    rfl
  -- fewer than six bytes behind the address type
  all_goals
    rw [if_pos (by simp)]
    rfl

/-- A domain name is read when all of it is there, and its length byte keeps it inside `host`. -/
theorem readAddress_domain (rest : Bytes) :
    readAddress (5 :: 1 :: 0 :: 3 :: rest) = .ok (decodeSocksRequest (5 :: 1 :: 0 :: 3 :: rest)) := by
  cases rest with
  | nil => rfl
  | cons n rest =>
    have hdecode : decodeSocksRequest (5 :: 1 :: 0 :: 3 :: n :: rest) =
        if n = 0 then .bad else if rest.length < n.toNat + 2 then .wait
        else .target (cstr (rest.take n.toNat))
          ((rest.getD n.toNat 0).toNat * 256 + (rest.getD (n.toNat + 1) 0).toNat : Nat)
          (5 + n.toNat + 2) := rfl
    have hkind : (3 : UInt8) ≠ 1 := by decide
    have hname : ((5 :: 1 :: 0 :: 3 :: n :: rest : Bytes).drop 5).take n.toNat =
        rest.take n.toNat := rfl
    have hport : ∀ k, (5 :: 1 :: 0 :: 3 :: n :: rest : Bytes).getD (5 + k) 0 = rest.getD k 0 := by
      intro k
      rw [Nat.add_comm 5 k]
      rfl
    have hfits : (rest.take n.toNat).length < 256 := by
      have := n.toNat_lt
      rw [List.length_take]
      omega
    unfold readAddress
    rw [hdecode, load_ok (x := 3) rfl, ok_bind, if_neg hkind, if_pos rfl, if_neg (by simp),
      load_ok (x := n) rfl, ok_bind]
    by_cases hzero : n = 0
    · rw [if_pos hzero, if_pos hzero]
      rfl
    · rw [if_neg hzero, if_neg hzero]
      by_cases hshort : rest.length < n.toNat + 2
      · rw [if_pos hshort, if_pos (by simp only [List.length_cons]; omega)]
        rfl
      · rw [if_neg hshort, if_neg (by simp only [List.length_cons]; omega),
          loadBlock_ok (by simp only [List.length_cons]; omega), ok_bind, hname, storeString_ok hfits,
          ok_bind, readPort_ok (by simp only [List.length_cons]; omega), hport n.toNat,
          Nat.add_assoc 5 n.toNat 1, hport (n.toNat + 1)]

/-- What the address says is decoded, and nothing behind it is looked at. -/
theorem readAddress_eq (kind : UInt8) (rest : Bytes) :
    readAddress (5 :: 1 :: 0 :: kind :: rest) =
      .ok (decodeSocksRequest (5 :: 1 :: 0 :: kind :: rest)) := by
  by_cases hipv4 : kind = 1
  · rw [hipv4]
    exact readAddress_ipv4 rest
  · by_cases hdomain : kind = 3
    · rw [hdomain]
      exact readAddress_domain rest
    · unfold readAddress decodeSocksRequest
      rw [load_ok (x := kind) rfl, ok_bind, if_neg hipv4, if_neg hdomain]
      dsimp only
      rw [if_neg (by decide), if_neg hipv4, if_neg hdomain]
      rfl

theorem decodeSocksRequestChecked_eq (b : Bytes) :
    decodeSocksRequestChecked b = .ok (decodeSocksRequest b) := by
  unfold decodeSocksRequestChecked
  rcases b with _ | ⟨version, _ | ⟨command, _ | ⟨reserved, _ | ⟨kind, rest⟩⟩⟩⟩
  case cons.cons.cons.cons =>
    rw [if_neg (by simp), load_ok (x := version) rfl, ok_bind]
    by_cases hversion : version ≠ 5
    · rw [if_pos hversion, decodeSocksRequest_head (Or.inl hversion)]
      rfl
    · rw [if_neg hversion, load_ok (x := command) rfl, ok_bind]
      by_cases hcommand : command ≠ 1
      · rw [if_pos hcommand, decodeSocksRequest_head (Or.inr (Or.inl hcommand))]
        rfl
      · rw [if_neg hcommand, load_ok (x := reserved) rfl, ok_bind]
        by_cases hreserved : reserved ≠ 0
        · rw [if_pos hreserved, decodeSocksRequest_head (Or.inr (Or.inr hreserved))]
          rfl
        · rw [if_neg hreserved, not_not.mp hversion, not_not.mp hcommand, not_not.mp hreserved]
          exact readAddress_eq kind rest
  -- fewer than four bytes
  all_goals
    rw [if_pos (by simp)]
    rfl

/-- **The request.** -/
theorem parseSocksRequestChecked_eq (L : Lwip) (linkUp : Bool) (a : Answers) (c : Connection) :
    parseSocksRequestChecked L linkUp a c = .ok (parseSocksRequest L linkUp a c) := by
  unfold parseSocksRequestChecked parseSocksRequest
  rw [decodeSocksRequestChecked_eq, ok_bind]
  cases hdecode : decodeSocksRequest c.header with
  | wait => rfl
  | bad => rfl
  | target host port length =>
    dsimp only
    cases htarget : setTarget c host port with
    | none => rfl
    | some c' =>
      -- the request ends inside the header, so what is left of it does not wrap around
      have hinside : length ≤ c'.header.length := by
        obtain rfl := setTarget_eq_some htarget
        exact (decodeSocksRequest_append hdecode []).1
      dsimp only
      rw [subtract_ok hinside, ok_bind]
      by_cases hnone : c'.header.length - length = 0
      · rw [if_pos hnone, if_pos (List.drop_eq_nil_iff.mpr (by omega))]
        rfl
      · have hsome : c'.header.drop length ≠ [] := fun h => hnone (by
          have := List.drop_eq_nil_iff.mp h
          omega)
        rw [if_neg hnone, if_neg hsome, loadBlock_rest hinside, ok_bind]
        cases appendBytes c'.toRemote bufferSize (c'.header.drop length) with
        | none => rfl
        | some r => rfl

/-- **No fault in the greeting or in the request**, and the checked run is the run. -/
theorem feedHeaderChecked_eq (L : Lwip) (linkUp : Bool) (a : Answers) (c : Connection) :
    feedHeaderChecked L linkUp a c = .ok (feedHeader L linkUp a c) := by
  unfold feedHeaderChecked
  cases hphase : c.phase with
  | socksGreeting =>
    dsimp only
    unfold feedHeader
    rw [hphase, feedGreetingChecked_eq, ok_bind]
    dsimp only
    cases feedGreeting c with
    | none => rfl
    | some t =>
      obtain ⟨c', io, ok⟩ := t
      cases ok with
      | false => rfl
      | true =>
        dsimp only
        rw [parseSocksRequestChecked_eq, ok_bind]
        rfl
  | socksRequest =>
    unfold feedHeader
    rw [hphase]
    exact parseSocksRequestChecked_eq L linkUp a c
  | _ => rfl

end PptpProxy
