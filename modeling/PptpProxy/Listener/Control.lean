/-
  The control socket of `proxy-engine/main.c`: the text of an APPLY request (`apply_request`,
  `parse_port_number`, `safe_host`) and the dispatch of `handle_control`.
-/
import PptpProxy.Listener.Table

namespace PptpProxy

open CLib

/-- `parse_port_number`; `text` is a C string. -/
def parsePortNumber (text : Bytes) : Option Int :=
  if text = [] ∨ text.any (! isdigit ·) then none
  else
    let (value, rest) := strtol text
    if strtolErange text = true ∨ rest ≠ [] ∨ value < 1 ∨ value > 65535 then none
    else some value

/-- A decimal port number. -/
def IsPort (ds : Bytes) : Prop :=
  ds ≠ [] ∧ (∀ b ∈ ds, isdigit b = true) ∧ 1 ≤ digitsVal ds ∧ digitsVal ds ≤ 65535

/-- `parse_port_number` accepts the decimal port numbers, with any number of leading zeros. -/
theorem parsePortNumber_eq_some {text : Bytes} {port : Int} :
    parsePortNumber text = some port ↔ IsPort text ∧ port = digitsVal text := by
  unfold parsePortNumber IsPort
  by_cases hbad : text = [] ∨ text.any (! isdigit ·) = true
  · rw [if_pos hbad]
    refine ⟨fun h => (by cases h), ?_⟩
    rintro ⟨⟨hne, hdigits, -, -⟩, -⟩
    rcases hbad with hbad | hbad
    · exact absurd hbad hne
    · obtain ⟨b, hb, hnot⟩ := List.any_eq_true.mp hbad
      rw [hdigits b hb] at hnot
      cases hnot
  · rw [if_neg hbad]
    simp only [not_or, List.any_eq_true, Bool.not_eq_true', not_exists, not_and,
      Bool.not_eq_false] at hbad
    obtain ⟨hne, hdigits⟩ := hbad
    have herange : strtolErange text = decide (longMax < (digitsVal text : Int)) := by
      unfold strtolErange
      rw [strtolExact_digits hne hdigits]
      have : ¬ (digitsVal text : Int) < longMin := by
        simp only [longMin]
        omega
      simp [this]
    rw [strtol_digits hne hdigits, herange]
    dsimp only
    split
    · rename_i hout
      refine ⟨fun h => (by cases h), ?_⟩
      rintro ⟨⟨-, -, hlow, hhigh⟩, -⟩
      rcases hout with hout | hout | hout | hout
      · have := of_decide_eq_true hout
        simp only [longMax] at this
        omega
      · exact absurd rfl hout
      · simp only [longMax] at hout
        omega
      · simp only [longMax] at hout
        omega
    · rename_i hin
      simp only [longMax, not_or, not_lt] at hin
      obtain ⟨-, -, hlow, hhigh⟩ := hin
      simp only [Option.some.injEq, longMax]
      constructor
      · rintro rfl
        exact ⟨⟨hne, hdigits, by omega, by omega⟩, by omega⟩
      · rintro ⟨-, rfl⟩
        omega

/-- One character `safe_host` lets through. -/
def safeHostByte (b : UInt8) : Bool :=
  (97 ≤ b && b ≤ 122) || (65 ≤ b && b ≤ 90) || (48 ≤ b && b ≤ 57) ||
    b == 46 || b == 45 || b == 95

/-- `safe_host`. -/
def safeHost (host : Bytes) : Bool :=
  decide (host.length ≠ 0 ∧ host.length < 256) && host.all safeHostByte

/-- The `F` and `END` lines of `apply_request`: the requested table, or `none` when the text is
    rejected (also when no END line comes). -/
def applyLines : List Bytes → List Listener → Option (List Listener)
  | [], _ => none
  | line :: lines, requested =>
    match strtokAll 32 line with
    | [] => none
    | kind :: fields =>
      if kind = ascii "END" then
        if fields ≠ [] ∨ lines ≠ [] then none else some requested
      else if kind ≠ ascii "F" ∨ requested.length = maxListeners then none
      else
        match fields with
        | [localText, host, remoteText] =>
          if safeHost host = false then none
          else
            match parsePortNumber localText, parsePortNumber remoteText with
            | some localPort, some remotePort =>
              if requested.any (·.localPort = localPort) then none
              else
                applyLines lines (requested ++
                  [{ fd := -1, kind := .forward, localPort := localPort,
                     remotePort := remotePort, remoteHost := host }])
            | _, _ => none
        | _ => none

/-- The textual part of `apply_request`: the table an APPLY message asks for. -/
def applyText (request : Bytes) : Option (List Listener) :=
  match strtokAll 10 request with
  | [] => none
  | line :: lines =>
    match strtokAll 32 line with
    | [command, httpText, socksText] =>
      if command ≠ ascii "APPLY" then none
      else
        match parsePortNumber httpText, parsePortNumber socksText with
        | some http, some socks =>
          if http = socks then none
          else
            applyLines lines
              [{ fd := -1, kind := .httpProxy, localPort := http, remotePort := 0,
                 remoteHost := [] },
               { fd := -1, kind := .socksProxy, localPort := socks, remotePort := 0,
                 remoteHost := [] }]
        | _, _ => none
    | _ => none

/-- `apply_request`: the new table, or the value of `failed_port` (0 for a rejected text). -/
def applyRequest (listeners : List Listener) (listen : Nat → Int) (request : Bytes) :
    Except Int (List Listener) × List ListenIo :=
  match applyText request with
  | none => (.error 0, [])
  | some requested => reconfigureListeners listeners listen requested

/-- `printf("%d")` of an `int`. -/
def decimalInt (v : Int) : Bytes := if v < 0 then 45 :: decimal v.natAbs else decimal v.toNat

/-- What `handle_control` answers and does. -/
structure ControlResult where
  reply : Bytes
  listeners : List Listener
  stop : Bool
  io : List ListenIo

/-- The engine's globals `handle_control` reports. -/
structure Status where
  linkUp : Bool
  sentBytes : UInt64
  receivedBytes : UInt64
  connectedSinceMs : UInt64
  /-- `monotonic_ms()`. -/
  now : UInt64

/-- The STATUS reply. -/
def statusReply (st : Status) (listeners : List Listener) : Bytes :=
  let elapsed : UInt64 :=
    if st.linkUp = true ∧ st.connectedSinceMs ≠ 0 then (st.now - st.connectedSinceMs) / 1000 else 0
  ascii "STATUS " ++ (if st.linkUp then ascii "1" else ascii "0") ++ [32] ++
    decimal st.sentBytes.toNat ++ [32] ++ decimal st.receivedBytes.toNat ++ [32] ++
    decimal elapsed.toNat ++ [32] ++
    decimalInt ((listeners.map (·.localPort)).getD 0 0) ++ [32] ++
    decimalInt ((listeners.map (·.localPort)).getD 1 0) ++ [10]

/-- `handle_control` on the bytes its read loop collected (at least one, at most
    `MAX_CONTROL_REQUEST - 1`); commands are compared as C strings. -/
def handleControl (st : Status) (listeners : List Listener) (listen : Nat → Int)
    (message : Bytes) : ControlResult :=
  let request := cstr message
  if request = ascii "STOP\n" then
    { reply := ascii "OK STOP\n", listeners := listeners, stop := true, io := [] }
  else if request = ascii "STATUS\n" then
    { reply := statusReply st listeners, listeners := listeners, stop := false, io := [] }
  else if ascii "APPLY " <+: request then
    match applyRequest listeners listen request with
    | (.ok table, io) =>
      { reply := ascii "OK APPLY\n", listeners := table, stop := false, io := io }
    | (.error failedPort, io) =>
      { reply := ascii "ERR APPLY " ++ decimalInt failedPort ++ [10], listeners := listeners,
        stop := false, io := io }
  else { reply := ascii "ERR COMMAND\n", listeners := listeners, stop := false, io := [] }

end PptpProxy
