/-
  `netif/ppp/ppp.c`: the packets of the network on their way to the link and back, and the control
  packets beside them.

  `VJ_SUPPORT`, `PPP_IPV6_SUPPORT` and the authentication protocols other than CHAP are off in
  `lwipopts.h`.  A chain of pbufs is the list of its bytes: `pppos_input` starts a second pbuf only when
  the first one is full, so a header is missing in the first pbuf exactly when it is missing.

  What `ppp_input` calls may change the control block and the link, and may send packets of its own; it
  is a `Stack`, over a state of its own.
-/
import PptpProxy.Ppp.Wire
import PptpProxy.Ppp.Mppe

namespace PptpProxy.Ppp

open CLib

universe u

/-! ## The control block -/

def pppIp : BitVec 16 := 0x21
def pppComp : BitVec 16 := 0xfd
def pppIpcp : BitVec 16 := 0x8021
def pppCcp : BitVec 16 := 0x80fd
def pppLcp : BitVec 16 := 0xc021
def pppChap : BitVec 16 := 0xc223

/-- The protocol numbers of `protocols[]`. -/
def protocols : List (BitVec 16) := [pppLcp, pppChap, pppIpcp, pppCcp]

def ciMppe : BitVec 8 := 18

/-- `PPP_PHASE_*`, in their order. -/
inductive Phase
  | dead | master | holdoff | initializing | serialconn | dormant | establish | authenticate
  | callback | network | running | terminate | disconnect
  deriving DecidableEq, Repr

/-- `PPP_FSM_*`. -/
inductive FsmState
  | initial | starting | closed | stopped | closing | stopping | reqsent | ackrcvd | acksent | opened
  deriving DecidableEq, Repr

/-- The fields of `ppp_pcb` that the functions here look at. -/
structure PppPcb where
  requireMppe : Bool
  phase : Phase
  lcpState : FsmState
  if4Up : Bool
  ccpReceiveMethod : BitVec 8
  ccpTransmitMethod : BitVec 8
  mppeComp : MppeState
  mppeDecomp : MppeState
  deriving DecidableEq, Repr

/-! ## Transmission -/

/-- What `ppp_netif_output` hands to the link; `alloc` says whether `mppe_compress` gets its memory. -/
def pppNetifPacket (sha1 : Bytes → Bytes) (alloc : Bool) (c : PppPcb) (pb : Bytes)
    (protocol : BitVec 16) : Except Err (Bytes × BitVec 16) × PppPcb :=
  if protocol = pppIp ∧ c.if4Up = false then (.error .rte, c)
  else if c.requireMppe ∧ c.ccpTransmitMethod ≠ ciMppe then (.error .rte, c)
  else if c.ccpTransmitMethod = 0 then (.ok (pb, protocol), c)
  else if c.ccpTransmitMethod = ciMppe then
    match mppeCompress sha1 alloc c.mppeComp protocol pb with
    | (none, comp) => (.error .mem, { c with mppeComp := comp })
    | (some np, comp) => (.ok (np, pppComp), { c with mppeComp := comp })
  else (.error .rte, c)

section

variable {σ : Type u}

/-- `ppp_netif_output`. -/
def pppNetifOutput (sha1 : Bytes → Bytes) (cb : σ → Bytes → Nat × σ) (now : BitVec 32)
    (alloc linkAlloc : Bool) (c : PppPcb) (p : Pppos) (ctx : σ) (pb : Bytes) (protocol : BitVec 16) :
    Err × PppPcb × Pppos × σ :=
  match pppNetifPacket sha1 alloc c pb protocol with
  | (.error err, c) => (err, c, p, ctx)
  | (.ok (pb, protocol), c) =>
    match ppposNetifOutput cb now linkAlloc p ctx [pb] protocol with
    | (err, p, ctx) => (err, c, p, ctx)

/-- `ppp_netif_output_ip4`. -/
def pppNetifOutputIp4 (sha1 : Bytes → Bytes) (cb : σ → Bytes → Nat × σ) (now : BitVec 32)
    (alloc linkAlloc : Bool) (c : PppPcb) (p : Pppos) (ctx : σ) (pb : Bytes) :
    Err × PppPcb × Pppos × σ :=
  pppNetifOutput sha1 cb now alloc linkAlloc c p ctx pb pppIp

/-! ## Reception -/

/-- The control block, its link, and all that is around them. -/
structure Core (σ : Type u) where
  pcb : PppPcb
  pppos : Pppos
  around : σ

/-- What `ppp_input` calls, and the pool. -/
structure Stack (σ : Type u) where
  ip4Input : Core σ → Bytes → Core σ
  /-- The `input` of the entry of `protocols[]` with that number. -/
  protocolInput : Core σ → BitVec 16 → Bytes → Core σ
  lcpSprotrej : Core σ → Bytes → Core σ
  /-- What `mppe_decompress` asks of LCP and CCP. -/
  mppeCall : Core σ → MppeCall → Core σ
  /-- Whether `pbuf_coalesce` leaves one pbuf. -/
  pbufCoalesce : σ → Bool × σ
  pbufAlloc : σ → Bool × σ
  pbufFree : σ → Nat → σ

variable (e : Stack σ)

/-- The `switch` at the end of `ppp_input`; `before` are the two bytes in front of the data. -/
def demux (c : Core σ) (protocol : BitVec 16) (before data : Bytes) : Core σ :=
  if protocol = pppIp then e.ip4Input c data
  else if protocol ∈ protocols then
    match e.pbufCoalesce c.around with
    | (true, around) => e.protocolInput { c with around := around } protocol data
    | (false, around) => { c with around := around }
  else e.lcpSprotrej c (before ++ data)

/-- The part of `ppp_input` for `PPP_COMP`. -/
def inputComp (sha1 : Bytes → Bytes) (c : Core σ) (pb : Bytes) : Core σ :=
  if c.pcb.ccpReceiveMethod ≠ ciMppe then c
  else
    match mppeDecompress sha1 c.pcb.mppeDecomp pb with
    | (decomp, calls, plain) =>
      let c := calls.foldl e.mppeCall { c with pcb := { c.pcb with mppeDecomp := decomp } }
      match plain with
      | some (p0 :: p1 :: data) =>
        -- a compressed protocol field leaves a byte of the MPPE header where the first one would be
        if p0 &&& 1 ≠ 0 then demux e c (p0.toBitVec.setWidth 16) [pb.getD 1 0, p0] (p1 :: data)
        else demux e c (join p0 p1) [p0, p1] data
      | _ => c

/-- `ppp_input`. -/
def pppInput (sha1 : Bytes → Bytes) (c : Core σ) (pb : Bytes) : Core σ :=
  match pb with
  | b0 :: b1 :: data =>
    let protocol := join b0 b1
    if protocol ≠ pppLcp ∧ c.pcb.lcpState ≠ .opened then c
    else if c.pcb.phase.ctorIdx ≤ Phase.authenticate.ctorIdx ∧
        ¬ (protocol = pppLcp ∨ protocol = pppChap) then c
    else if c.pcb.requireMppe ∧ protocol ≠ pppComp ∧ protocol < 0x8000 then c
    else if protocol = pppComp then inputComp e sha1 c data
    else demux e c protocol [b0, b1] data
  | _ => c

/-- The stack as the link sees it. -/
def Stack.upper (sha1 : Bytes → Bytes) : Upper (PppPcb × σ) where
  pbufAlloc s := ((e.pbufAlloc s.2).1, s.1, (e.pbufAlloc s.2).2)
  pbufFree s n := (s.1, e.pbufFree s.2 n)
  vjUncompressErr s := s
  pppInput s p inp :=
    let c := pppInput e sha1 ⟨s.1, p, s.2⟩ inp.flatten
    ((c.pcb, c.around), c.pppos)

end

end PptpProxy.Ppp
