/-
  `netif/ppp/ccp.c`: the negotiation of MPPE, as the callbacks that the state machine of CCP calls.

  MPPE is the only compression that `lwipopts.h` leaves on.  The bits of `ccp_options.mppe` are fields of
  their own.  Of the control block there is what these functions read and write; `closing` says that
  `lcp_close` has been called, whose way back into CCP is not followed here.
-/
import PptpProxy.Ppp.Link
import PptpProxy.Ppp.Coherency

namespace PptpProxy.Ppp

open CLib

/-! ## Options -/

/-- `ccp_options.mppe`: the options of `mppe_init`, and those that are unsupported or unknown. -/
structure MppeBits extends MppeOptions where
  opt56 : Bool
  mppc : Bool
  optD : Bool
  unknown : Bool
  deriving DecidableEq, Repr

def MppeBits.none : MppeBits := ⟨⟨false, false, false⟩, false, false, false, false⟩

/-- `MPPE_OPTS_TO_CI`. -/
def mppeOptsToCi (o : MppeBits) : Bytes :=
  [if o.stateful then 0 else 1, 0, 0,
    (if o.opt128 then 0x40 else 0) ||| (if o.opt40 then 0x20 else 0)]

/-- `MPPE_CI_TO_OPTS`. -/
def mppeCiToOpts (c0 c1 c2 c3 : UInt8) : MppeBits where
  stateful := c0 &&& 0x01 = 0
  opt128 := c3 &&& 0x40 ≠ 0
  opt40 := c3 &&& 0x20 ≠ 0
  opt56 := c3 &&& 0x80 ≠ 0
  optD := c3 &&& 0x10 ≠ 0
  mppc := c3 &&& 0x01 ≠ 0
  unknown := c0 &&& ~~~0x01 ≠ 0 ∨ c1 ≠ 0 ∨ c2 ≠ 0 ∨ c3 &&& ~~~0xf1 ≠ 0

/-- `(b & a) == a`. -/
def MppeBits.within (a b : MppeBits) : Bool :=
  (!a.opt40 || b.opt40) && (!a.opt128 || b.opt128) && (!a.stateful || b.stateful) &&
    (!a.opt56 || b.opt56) && (!a.mppc || b.mppc) && (!a.optD || b.optD) && (!a.unknown || b.unknown)

structure CcpOptions where
  mppe : MppeBits
  method : UInt8
  deriving DecidableEq, Repr

/-- The part of `ppp_settings` for MPPE. -/
structure MppeSettings where
  requireMppe : Bool
  refuseMppeStateful : Bool
  refuseMppe40 : Bool
  refuseMppe128 : Bool
  deriving DecidableEq, Repr

/-- `ppp_set_mppe`. -/
def pppSetMppe (s : MppeSettings) (flags : UInt8) : MppeSettings :=
  if flags = 0 then { s with requireMppe := false }
  else
    { requireMppe := true
      refuseMppeStateful := flags &&& 0x02 = 0
      refuseMppe40 := flags &&& 0x04 ≠ 0
      refuseMppe128 := flags &&& 0x08 ≠ 0 }

/-- The bits of `auth_done` from `CHAP_MS_SHIFT` on. -/
structure AuthDone where
  msWithpeer : Bool
  msPeer : Bool
  ms2Withpeer : Bool
  ms2Peer : Bool
  deriving DecidableEq, Repr

/-- `numbits`. -/
def AuthDone.numbits (a : AuthDone) : Nat :=
  a.msWithpeer.toNat + a.msPeer.toNat + a.ms2Withpeer.toNat + a.ms2Peer.toNat

/-- What the callbacks read and write. -/
structure Ccp where
  settings : MppeSettings
  authDone : AuthDone
  mppeKeysSet : Bool
  mtu : BitVec 16
  state : FsmState
  wantoptions : CcpOptions
  gotoptions : CcpOptions
  allowoptions : CcpOptions
  hisoptions : CcpOptions
  allRejected : Bool
  mppeComp : MppeState
  mppeDecomp : MppeState
  closing : Bool
  deriving DecidableEq, Repr

/-- `lcp_close`. -/
def Ccp.lcpClose (s : Ccp) : Ccp := { s with closing := true }

/-- `mppe_init`, with its way out. -/
def Ccp.initComp (sha1 : Bytes → Bytes) (s : Ccp) (options : MppeBits) : Ccp :=
  { s with
    mppeComp := (mppeInit sha1 s.mppeComp options.toMppeOptions).1
    closing := s.closing || (mppeInit sha1 s.mppeComp options.toMppeOptions).2 ≠ [] }

def Ccp.initDecomp (sha1 : Bytes → Bytes) (s : Ccp) (options : MppeBits) : Ccp :=
  { s with
    mppeDecomp := (mppeInit sha1 s.mppeDecomp options.toMppeOptions).1
    closing := s.closing || (mppeInit sha1 s.mppeDecomp options.toMppeOptions).2 ≠ [] }

/-! ## Our requests -/

/-- The key lengths that the settings leave. -/
def MppeSettings.bits (s : MppeSettings) : MppeBits :=
  { MppeBits.none with opt40 := !s.refuseMppe40, opt128 := !s.refuseMppe128 }

/-- LM authentication is not supported for 40-bit keys. -/
def Ccp.dropLm (s : Ccp) : Ccp :=
  if (s.authDone.msWithpeer || s.authDone.msPeer) && s.gotoptions.mppe.opt40 then
    { s with
      gotoptions := { s.gotoptions with mppe := { s.gotoptions.mppe with opt40 := false } }
      wantoptions := { s.wantoptions with mppe := { s.wantoptions.mppe with opt40 := false } } }
  else s

/-- `ccp_resetci`. -/
def ccpResetci (s : Ccp) : Ccp :=
  let s := if s.settings.requireMppe then
      { s with
        wantoptions := { s.wantoptions with mppe := s.settings.bits }
        allowoptions := { s.allowoptions with mppe := s.settings.bits } }
    else s
  let s := { s with gotoptions := s.wantoptions, allRejected := false }
  if s.gotoptions.mppe = MppeBits.none then s
  else if 1 < s.authDone.numbits then s.lcpClose
  else if s.authDone.numbits = 0 then s.lcpClose
  else if !s.mppeKeysSet then s.lcpClose
  else
    let s := s.dropLm
    if !(s.gotoptions.mppe.opt40 || s.gotoptions.mppe.opt128) then s.lcpClose
    else { s with allowoptions := { s.allowoptions with mppe := s.gotoptions.mppe } }

/-- The option as it is sent. -/
def mppeOption (o : MppeBits) : Bytes := [18, 6] ++ mppeOptsToCi o

/-- `ccp_cilen`. -/
def ccpCilen (s : Ccp) : Nat := if s.gotoptions.mppe ≠ MppeBits.none then 6 else 0

/-- `ccp_addci`. -/
def ccpAddci (sha1 : Bytes → Bytes) (s : Ccp) : Bytes × Ccp :=
  if s.gotoptions.mppe ≠ MppeBits.none then
    (mppeOption s.gotoptions.mppe,
      { s.initDecomp sha1 s.gotoptions.mppe with gotoptions := { s.gotoptions with method := 18 } })
  else ([], { s with gotoptions := { s.gotoptions with method := 0 } })

/-- `ccp_ackci`. -/
def ccpAckci (s : Ccp) (p : Bytes) : Bool :=
  if s.gotoptions.mppe ≠ MppeBits.none then
    if p.length < 6 ∨ p.take 6 ≠ mppeOption s.gotoptions.mppe then false
    else if p.length - 6 = 0 then true
    else decide (p.length - 6 = 0)
  else decide (p.length = 0)

/-- The `MPPE_CI_TO_OPTS` of an option, when it is one. -/
def mppeOf : Bytes → Option MppeBits
  | 18 :: 6 :: c0 :: c1 :: c2 :: c3 :: _ => some (mppeCiToOpts c0 c1 c2 c3)
  | _ => none

/-- What `ccp_nakci` takes over of the peer's suggestion. -/
def nakTry (s : Ccp) (suggested : MppeBits) : MppeBits :=
  if suggested.stateful && s.settings.refuseMppeStateful then MppeBits.none
  else if !suggested.within { s.gotoptions.mppe with stateful := true } then MppeBits.none
  else suggested

/-- `ccp_nakci`. -/
def ccpNakci (s : Ccp) (p : Bytes) : Int × Ccp :=
  let (s, wanted) :=
    if s.gotoptions.mppe ≠ MppeBits.none then
      match mppeOf p with
      | some suggested =>
        let wanted := nakTry s suggested
        (if wanted = MppeBits.none then s.lcpClose else s, wanted)
      | none => (s, s.gotoptions.mppe)
    else (s, s.gotoptions.mppe)
  (1, if s.state ≠ .opened then { s with gotoptions := { s.gotoptions with mppe := wanted } } else s)

/-- `ccp_rejci`. -/
def ccpRejci (s : Ccp) (p : Bytes) : Int × Ccp :=
  if p.length = 0 ∧ s.allRejected then (-1, s)
  else
    let (s, p) :=
      if s.gotoptions.mppe ≠ MppeBits.none ∧ (mppeOf p).isSome then (s.lcpClose, p.drop 6) else (s, p)
    if p.length ≠ 0 then (0, s) else (1, s)

/-! ## The peer's requests -/

/-- `CONFACK`, `CONFNAK` and `CONFREJ`. -/
inductive Conf
  | ack | nak | rej
  deriving DecidableEq, Repr

/-- "Find out which of {S,L} are set." -/
def chooseKey (ao ho : MppeBits) (newret : Conf) : Conf × MppeBits :=
  if ho.opt128 && ho.opt40 then
    if ao.opt128 then (.nak, { ho with opt40 := false })
    else if ao.opt40 then (.nak, { ho with opt128 := false })
    else (.rej, ho)
  else if ho.opt128 then (if !ao.opt128 then .rej else newret, ho)
  else if ho.opt40 then (if !ao.opt40 then .rej else newret, ho)
  else (.nak, ao)

/-- The options that `case CI_MPPE` settles on; `CONFREJ` here is its `break`. -/
def chooseMppe (s : Ccp) (ho : MppeBits) : Conf × MppeBits :=
  let (newret, ho) : Conf × MppeBits :=
    if ho.opt56 || ho.mppc || ho.optD then
      (.nak, { ho with opt56 := false, mppc := false, optD := false })
    else (.ack, ho)
  let (newret, ho) : Conf × MppeBits :=
    if ho.unknown then (.nak, { ho with unknown := false }) else (newret, ho)
  if ho.stateful && s.settings.refuseMppeStateful then (.rej, ho)
  else chooseKey s.allowoptions.mppe ho newret

def Ccp.setHis (s : Ccp) (ho : MppeBits) : Ccp :=
  { s with hisoptions := { s.hisoptions with mppe := ho } }

/-- The end of `case CI_MPPE` for an option that is acknowledged. -/
def Ccp.acknowledge (sha1 : Bytes → Bytes) (s : Ccp) (ho : MppeBits) : Conf × Ccp :=
  let s := s.initComp sha1 ho
  -- MPPE frames grow
  if s.mtu ≠ 0 then (.ack, { s with mtu := s.mtu - 4 }) else (.rej, s)

/-- One option: the answer, the option as it stands in the buffer behind it, and whether
    `rej_for_ci_mppe` is cleared. -/
def reqOption (sha1 : Bytes → Bytes) (s : Ccp) (option : Bytes) : Conf × Bytes × Ccp × Bool :=
  if option.head? ≠ some 18 then (.rej, option, s, false)
  else if s.allowoptions.mppe = MppeBits.none ∨ option.length ≠ 6 then (.rej, option, s, false)
  else
    match mppeOf option with
    | none => (.rej, option, s, false)
    | some ho =>
      match chooseMppe s ho with
      | (.rej, ho) => (.rej, option, s.setHis ho, false)
      | (.nak, ho) => (.nak, mppeOption ho, s.setHis ho, true)
      | (.ack, ho) =>
        match (s.setHis ho).acknowledge sha1 ho with
        | (newret, s) => (newret, mppeOption ho, s, true)

/-- The variables of the loop of `ccp_reqci`: `kept` are the options behind `p`, `returned` those behind
    `retp`. -/
structure ReqLoop where
  ccp : Ccp
  ret : Conf
  kept : Bytes
  returned : Bytes
  rejForCiMppe : Bool

/-- The answer to an option, when the peer is not to be asked again. -/
def Conf.settle (newret : Conf) (dontNak : Bool) : Conf :=
  if newret = .nak ∧ dontNak then .rej else newret

/-- Whether the option is returned. -/
def ReqLoop.put (r : ReqLoop) (newret : Conf) (option : Bytes) : ReqLoop :=
  if newret = .ack ∨ (newret = .nak ∧ r.ret = .rej) then { r with kept := r.kept ++ option }
  else
    { r with
      ret := newret
      kept := r.kept ++ option
      returned := (if newret = .rej ∧ r.ret = .nak then [] else r.returned) ++ option }

/-- The end of a turn. -/
def ReqLoop.turn (r : ReqLoop) (dontNak : Bool) : Conf × Bytes × Ccp × Bool → ReqLoop
  | (newret, option, ccp, clear) =>
    { r with ccp := ccp, rejForCiMppe := r.rejForCiMppe && !clear }.put (newret.settle dontNak) option

/-- The length of the next option, when it is sound. -/
def optionLength (p : Bytes) : Option Nat :=
  match p with
  | _ :: l :: _ => if l.toNat < 2 ∨ p.length < l.toNat then none else some l.toNat
  | _ => none

/-- The loop of `ccp_reqci`; every turn takes at least one byte. -/
def reqLoop (sha1 : Bytes → Bytes) (dontNak : Bool) : Nat → ReqLoop → Bytes → ReqLoop
  | 0, r, _ => r
  | fuel + 1, r, p =>
    if p = [] then r
    else
      match optionLength p with
      | none => r.turn dontNak (.rej, p, r.ccp, false)
      | some clen =>
        reqLoop sha1 dontNak fuel (r.turn dontNak (reqOption sha1 r.ccp (p.take clen))) (p.drop clen)

/-- `ccp_reqci`. -/
def ccpReqci (sha1 : Bytes → Bytes) (s : Ccp) (p : Bytes) (dontNak : Bool) : Conf × Bytes × Ccp :=
  let s := { s with hisoptions := ⟨MppeBits.none, p.headD 0⟩ }
  let r := reqLoop sha1 dontNak p.length ⟨s, .ack, [], [], true⟩ p
  match r.ret with
  | .ack => (.ack, r.kept, r.ccp)
  | .nak => (.nak, r.returned, r.ccp)
  | .rej =>
    let s := if p.length = r.returned.length then { r.ccp with allRejected := true } else r.ccp
    (.rej, r.returned,
      if s.allowoptions.mppe ≠ MppeBits.none ∧ r.rejForCiMppe then s.lcpClose else s)

/-! ## Up -/

/-- `ccp_up`, up to the networks: the methods of `ccp_set`. -/
def ccpUp (s : Ccp) : UInt8 × UInt8 := (s.gotoptions.method, s.hisoptions.method)

end PptpProxy.Ppp
