/-
  The proxy settings of the app (`PPTPProxyClient.swift`): how `validatedProxyConfig` reads the two
  port fields and the forwarding rules, and the two forms in which a configuration leaves the app,
  the arguments `connect` starts the engine with and the APPLY message of `applyProxySettings`.

  A Swift string is the list of its Unicode scalars (`Text`).  Three things about strings come from
  the Swift libraries and are an input (`Foundation`): two character sets, and the cut of a text into
  Characters (grapheme clusters), which is what `split` compares with the colon.

  What is left out: the shell that hands the arguments to the engine, the log and the password.
-/
import PptpProxy.Listener.Control

namespace PptpProxy

open CLib

/-! ## Swift strings -/

abbrev Text := List Char

/-- What the Swift libraries say about texts. -/
structure Foundation where
  /-- The Characters of a text. -/
  characters : Text → List Text
  /-- `CharacterSet.newlines`. -/
  newlines : Char → Bool
  /-- `CharacterSet.whitespacesAndNewlines`. -/
  whitespacesAndNewlines : Char → Bool

/-- Every ASCII scalar but the carriage return is a Character of its own. -/
def Foundation.AsciiCharacters (F : Foundation) : Prop :=
  ∀ t : Text, (∀ c ∈ t, c.toNat ≤ 127 ∧ c ≠ '\r') → F.characters t = t.map fun c => [c]

/-- `utf8`. -/
def utf8 (t : Text) : Bytes := t.flatMap String.utf8EncodeChar

/-- `trimmingCharacters(in:)`. -/
def trimmingCharacters (set : Char → Bool) (t : Text) : Text :=
  ((t.dropWhile set).reverse.dropWhile set).reverse

/-- `split(separator: ":", omittingEmptySubsequences: false)`. -/
def Foundation.splitColon (F : Foundation) (t : Text) : List Text :=
  ((F.characters t).splitOn [':']).map List.flatten

/-- `split(separator: ":")`. -/
def Foundation.splitColonOmitting (F : Foundation) (t : Text) : List Text :=
  (F.splitColon t).filter fun part => ! part.isEmpty

/-- `Int(_:)`: an optional sign and decimal digits that fit 64 bits. -/
def swiftInt (t : Text) : Option Int :=
  let neg := t.head? == some '-'
  let ds := if t.head? == some '-' || t.head? == some '+' then t.drop 1 else t
  if ds = [] ∨ ds.any (! ·.isDigit) = true then none
  else
    let magnitude : Nat := ds.foldl (fun v c => 10 * v + (c.toNat - 48)) 0
    let value : Int := if neg then - (magnitude : Int) else magnitude
    if - 2 ^ 63 ≤ value ∧ value < 2 ^ 63 then some value else none

/-- The text of an `Int` in a string. -/
def decimalText (v : Int) : Text := (decimalInt v).map fun b => Char.ofNat b.toNat

/-! ## Reading the settings -/

/-- The characters a forwarding host may have. -/
def allowed (c : Char) : Bool :=
  ("abcdefghijklmnopqrstuvwxyzABCDEFGHIJKLMNOPQRSTUVWXYZ0123456789._-".toList).contains c

/-- `(1...65535).contains`. -/
def InPortRange (v : Int) : Prop := 1 ≤ v ∧ v ≤ 65535

instance (v : Int) : Decidable (InPortRange v) := inferInstanceAs (Decidable (1 ≤ v ∧ v ≤ 65535))

/-- A forwarding rule that passed the guard of `parsedForwards`. -/
structure ForwardRule where
  localPort : Int
  host : Text
  remotePort : Int
  local_range : InPortRange localPort
  remote_range : InPortRange remotePort
  host_ne_nil : host ≠ []
  host_short : (utf8 host).length < 256
  host_allowed : ∀ c ∈ host, allowed c = true

/-- The rule as `parsedForwards` writes it down again. -/
def ForwardRule.text (r : ForwardRule) : Text :=
  decimalText r.localPort ++ ':' :: (r.host ++ ':' :: decimalText r.remotePort)

/-- The guard of `parsedForwards` on one line, the set of local ports apart. -/
def parsedRule (F : Foundation) (line : Text) : Option ForwardRule :=
  match F.splitColon line with
  | [part0, part1, part2] =>
    match swiftInt part0, swiftInt part2 with
    | some localPort, some remotePort =>
      if h : InPortRange localPort ∧ InPortRange remotePort ∧ part1 ≠ [] ∧
          (utf8 part1).length < 256 ∧ part1.all allowed = true then
        some ⟨localPort, part1, remotePort, h.1, h.2.1, h.2.2.1, h.2.2.2.1,
          List.all_eq_true.mp h.2.2.2.2⟩
      else none
    | _, _ => none
  | _ => none

/-- The loop of `parsedForwards`; `localPorts` is its set. -/
def parsedLines (F : Foundation) : List Text → List Int → Option (List Text)
  | [], _ => some []
  | raw :: rest, localPorts =>
    let line := trimmingCharacters F.whitespacesAndNewlines raw
    if line = [] then parsedLines F rest localPorts
    else
      match parsedRule F line with
      | none => none
      | some rule =>
        if rule.localPort ∈ localPorts then none
        else (parsedLines F rest (rule.localPort :: localPorts)).map (rule.text :: ·)

/-- `parsedForwards`. -/
def parsedForwards (F : Foundation) (forwardText : Text) : Option (List Text) :=
  match parsedLines F (forwardText.splitOnP F.newlines) [] with
  | none => none
  | some result => if result.length ≤ 32 then some result else none

/-- What `validatedProxyConfig` returns. -/
structure ProxyConfig where
  http : Int
  socks : Int
  forwards : List Text
  deriving DecidableEq, Repr

/-- The test of `validatedProxyConfig` for a rule that takes one of the proxies' ports. -/
def takesProxyPort (F : Foundation) (http socks : Int) (rule : Text) : Bool :=
  match (F.splitColonOmitting rule).head?.bind swiftInt with
  | none => true
  | some localPort => decide (localPort = http ∨ localPort = socks)

/-- `validatedProxyConfig`. -/
def validatedProxyConfig (F : Foundation) (httpPort socksPort forwardText : Text) :
    Option ProxyConfig :=
  match swiftInt httpPort, swiftInt socksPort with
  | some http, some socks =>
    if ¬ InPortRange http ∨ ¬ InPortRange socks ∨ http = socks then none
    else
      match parsedForwards F forwardText with
      | none => none
      | some forwards =>
        if forwards.any (takesProxyPort F http socks) = true then none
        else some ⟨http, socks, forwards⟩
  | _, _ => none

/-! ## The two ways out -/

/-- The strings of a profile and the paths `connect` passes along; `saveProfile` lets no empty
    server or user through. -/
structure Session where
  server : Bytes
  user : Bytes
  pptpPath : Bytes
  passwordFifo : Bytes
  controlSocket : Bytes
  server_ne_nil : server ≠ []
  user_ne_nil : user ≠ []

/-- The argument vector of `connect`. -/
def connectArguments (session : Session) (config : ProxyConfig) : List Bytes :=
  [ascii "--server", session.server, ascii "--user", session.user,
    ascii "--pptp", session.pptpPath, ascii "--password-fifo", session.passwordFifo,
    ascii "--control-socket", session.controlSocket,
    ascii "--http", utf8 (decimalText config.http),
    ascii "--socks", utf8 (decimalText config.socks)] ++
  config.forwards.flatMap fun rule => [ascii "--forward", utf8 rule]

/-- The `F` line of a rule; `none` is the trap on a missing field. -/
def applyLine (F : Foundation) (rule : Text) : Option Text :=
  match F.splitColonOmitting rule with
  | field0 :: field1 :: field2 :: _ =>
    some ("F ".toList ++ field0 ++ " ".toList ++ field1 ++ " ".toList ++ field2 ++ "\n".toList)
  | _ => none

/-- The APPLY message of `applyProxySettings`. -/
def applyMessage (F : Foundation) (config : ProxyConfig) : Option Text :=
  (config.forwards.mapM (applyLine F)).map fun lines =>
    "APPLY ".toList ++ decimalText config.http ++ " ".toList ++ decimalText config.socks ++
      "\n".toList ++ lines.flatten ++ "END\n".toList

end PptpProxy
