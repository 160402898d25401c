/-
  `netif/ppp/pppos.c`: PPP frames on the serial side of the link, which here is the terminal of the
  `pptp` process.

  `in_head` and `in_tail` are one value, `InPacket`: the chained pbufs of the packet that is coming in
  and the one that is being filled.  What the code around it does (the pbuf pool, the VJ decompressor,
  `ppp_input`) is an `Upper`, over a state of its own; `ppp_input` may change the control block, since it
  may close or reconfigure the link.  `u16_t` lengths are natural numbers: no chain grows beyond two
  pbufs.
-/
import PptpProxy.Ppp.Frame

namespace PptpProxy.Ppp

open CLib

universe u

/-- `PBUF_POOL_BUFSIZE`: `TCP_MSS` and the headers of IP, TCP and the link. -/
def pbufPoolBufsize : Nat := 1360 + 20 + 20 + 14

def pppMru : Nat := 1500
def pppMaxidleflag : BitVec 32 := 100

/-- The packet parser states. -/
inductive InState
  | pdIdle | pdAddress | pdControl | pdProtocol1 | pdProtocol2 | pdData
  deriving DecidableEq, Repr

/-- `in_head` and `in_tail`. -/
inductive InPacket
  | empty
  /-- `in_tail == in_head`. -/
  | single (tail : Bytes)
  /-- `in_tail` is not chained to `in_head` yet. -/
  | chain (head : List Bytes) (tail : Bytes)
  deriving DecidableEq, Repr

/-- `pppos_pcb`. -/
structure Pppos where
  lastXmit : BitVec 32
  outAccm : ExtAccm
  isOpen : Bool
  pcomp : Bool
  accomp : Bool
  inAccm : ExtAccm
  inPacket : InPacket
  inProtocol : BitVec 16
  inFcs : BitVec 16
  inState : InState
  inEscaped : Bool

/-- What the receiving side calls. -/
structure Upper (σ : Type u) where
  /-- `pbuf_alloc` from the pool. -/
  pbufAlloc : σ → Bool × σ
  /-- `pbuf_free`, of that many pbufs. -/
  pbufFree : σ → Nat → σ
  vjUncompressErr : σ → σ
  pppInput : σ → Pppos → List Bytes → σ × Pppos

section

variable {σ : Type u} (e : Upper σ)

/-! ## Reception -/

/-- The pbufs of the packet, chained. -/
def InPacket.chained : InPacket → List Bytes
  | .empty => []
  | .single tail => [tail]
  | .chain head tail => head ++ [tail]

/-- `pbuf_realloc`. -/
def pbufRealloc : List Bytes → Nat → List Bytes
  | [], _ => []
  | q :: rest, n => if q.length < n then q :: pbufRealloc rest (n - q.length) else [q.take n]

/-- The chained packet without its check sequence: a shorter tail, or a shorter chain. -/
def InPacket.trimmed : InPacket → List Bytes
  | .empty => []
  | .single tail =>
    if 2 < tail.length then [tail.take (tail.length - 2)]
    else pbufRealloc [tail] (tail.length - 2)
  | .chain head tail =>
    if 2 < tail.length then head ++ [tail.take (tail.length - 2)]
    else pbufRealloc (head ++ [tail]) ((head ++ [tail]).flatten.length - 2)

/-- `pppos_input_free_current_packet`. -/
def ppposInputFreeCurrentPacket (s : σ) (p : Pppos) : σ × Pppos :=
  (e.pbufFree s p.inPacket.chained.length, { p with inPacket := .empty })

/-- `pppos_input_drop`. -/
def ppposInputDrop (s : σ) (p : Pppos) : σ × Pppos :=
  let (s, p) := ppposInputFreeCurrentPacket e s p
  (e.vjUncompressErr s, p)

/-- "Prepare for a new packet." -/
def Pppos.prepare (p : Pppos) : Pppos :=
  { p with inFcs := pppInitFcs, inState := .pdAddress, inEscaped := false }

/-- A good packet goes to `ppp_input`. -/
def dispatch (s : σ) (p : Pppos) : σ × Pppos :=
  let inp := p.inPacket.trimmed
  e.pppInput (e.pbufFree s (p.inPacket.chained.length - inp.length))
    { p with inPacket := .empty } inp

/-- The flag character.  The third part says that the loop is left, the link having been closed. -/
def inputFlag (s : σ) (p : Pppos) : σ × Pppos × Bool :=
  match p.inState with
  | .pdIdle | .pdAddress => (s, p.prepare, false)
  | .pdControl | .pdProtocol1 | .pdProtocol2 =>
    let (s, p) := ppposInputDrop e s p
    (s, p.prepare, false)
  | .pdData =>
    if p.inFcs ≠ pppGoodFcs ∨ p.inPacket = .empty then
      let (s, p) := ppposInputDrop e s p
      (s, p.prepare, false)
    else
      let (s, p) := dispatch e s p
      if p.isOpen then (s, p.prepare, false) else (s, p, true)

/-- `case PDPROTOCOL1`. -/
def inputProtocol1 (p : Pppos) (c : UInt8) : Pppos :=
  if c &&& 1 ≠ 0 then { p with inProtocol := c.toBitVec.setWidth 16, inState := .pdData }
  else { p with inProtocol := c.toBitVec.setWidth 16 <<< 8, inState := .pdProtocol2 }

/-- `case PDCONTROL`. -/
def inputControl (p : Pppos) (c : UInt8) : Pppos :=
  if c = pppUi then { p with inState := .pdProtocol1 } else inputProtocol1 p c

/-- `case PDADDRESS`. -/
def inputAddress (p : Pppos) (c : UInt8) : Pppos :=
  if c = pppAllstations then { p with inState := .pdControl } else inputControl p c

/-- A byte for a new pbuf. -/
def inputNewPbuf (s : σ) (p : Pppos) (c : UInt8) : σ × Pppos :=
  let head := p.inPacket.chained
  if head ≠ [] ∧ pppMru + pppMru / 10 + 2 < head.flatten.length then
    let (s, p) := ppposInputDrop e s p
    (s, { p with inState := .pdIdle })
  else
    match e.pbufAlloc s with
    | (false, s) =>
      let (s, p) := ppposInputDrop e s p
      (s, { p with inState := .pdIdle })
    | (true, s) =>
      if head = [] then
        (s, { p with inPacket := .single [hiByte p.inProtocol, loByte p.inProtocol, c] })
      else (s, { p with inPacket := .chain head [c] })

/-- `case PDDATA`. -/
def inputData (s : σ) (p : Pppos) (c : UInt8) : σ × Pppos :=
  match p.inPacket with
  | .empty => inputNewPbuf e s p c
  | .single tail =>
    if tail.length = pbufPoolBufsize then inputNewPbuf e s p c
    else (s, { p with inPacket := .single (tail ++ [c]) })
  | .chain head tail =>
    if tail.length = pbufPoolBufsize then inputNewPbuf e s p c
    else (s, { p with inPacket := .chain head (tail ++ [c]) })

/-- "Process character relative to current state." -/
def inputOther (s : σ) (p : Pppos) (c : UInt8) : σ × Pppos :=
  match p.inState with
  | .pdIdle => (s, p)
  | .pdAddress => (s, inputAddress p c)
  | .pdControl => (s, inputControl p c)
  | .pdProtocol1 => (s, inputProtocol1 p c)
  | .pdProtocol2 =>
    (s, { p with inProtocol := p.inProtocol ||| c.toBitVec.setWidth 16, inState := .pdData })
  | .pdData => inputData e s p c

/-- One turn of the loop of `pppos_input`. -/
def inputChar (s : σ) (p : Pppos) (c : UInt8) : σ × Pppos × Bool :=
  if escapeP p.inAccm c then
    if c = pppEscape then (s, { p with inEscaped := true }, false)
    else if c = pppFlag then inputFlag e s p
    else (s, p, false)
  else
    let cur := if p.inEscaped then c ^^^ pppTrans else c
    let (s, p) := inputOther e s { p with inEscaped := false } cur
    (s, { p with inFcs := pppFcs p.inFcs cur }, false)

/-- The loop of `pppos_input`. -/
def inputLoop (s : σ) (p : Pppos) : Bytes → σ × Pppos
  | [] => (s, p)
  | c :: rest =>
    match inputChar e s p c with
    | (s, p, true) => (s, p)
    | (s, p, false) => inputLoop s p rest

/-- `pppos_input`. -/
def ppposInput (s : σ) (p : Pppos) (bytes : Bytes) : σ × Pppos :=
  if p.isOpen then inputLoop e s p bytes else (s, p)

/-! ## Transmission -/

/-- `err_t`, as far as it occurs here. -/
inductive Err
  | ok
  | mem
  | rte
  | interface
  deriving DecidableEq, Repr

/-- `err`, the buffer `nb` and `fcs_out` of a frame on its way, and the state of `output_cb`. -/
structure Output (σ : Type u) where
  ctx : σ
  err : Err
  nb : Bytes
  fcs : BitVec 16

variable (outputCb : σ → Bytes → Nat × σ)

/-- Send the buffer and reuse it. -/
def outputFlush (o : Output σ) : Output σ :=
  match outputCb o.ctx o.nb with
  | (l, ctx) =>
    if l ≠ o.nb.length then { o with ctx := ctx, err := .interface }
    else { o with ctx := ctx, nb := [] }

/-- `pppos_output_append`; `fcs` says that the pointer is not `NULL`. -/
def ppposOutputAppend (p : Pppos) (o : Output σ) (c : UInt8) (accm fcs : Bool) : Output σ :=
  if o.err ≠ .ok then o
  else
    let o := if pbufPoolBufsize - o.nb.length < 2 then outputFlush outputCb o else o
    if o.err ≠ .ok then o
    else
      { o with
        fcs := if fcs then pppFcs o.fcs c else o.fcs
        nb := o.nb ++ if accm && escapeP p.outAccm c then [pppEscape, c ^^^ pppTrans] else [c] }

/-- The end of `pppos_output_last`: "Send remaining buffer if not empty". -/
def outputRemaining (now : BitVec 32) (p : Pppos) (o : Output σ) : Err × Pppos × σ :=
  let o := if o.err = .ok ∧ 0 < o.nb.length then outputFlush outputCb o else o
  if o.err = .ok then (.ok, { p with lastXmit := now }, o.ctx)
  else (o.err, { p with lastXmit := 0 }, o.ctx)

/-- `pppos_output_last`. -/
def ppposOutputLast (now : BitVec 32) (p : Pppos) (o : Output σ) : Err × Pppos × σ :=
  let fcs := o.fcs
  let o := ppposOutputAppend outputCb p o ⟨(~~~fcs).setWidth 8⟩ true false
  let o := ppposOutputAppend outputCb p o ⟨(~~~fcs >>> 8).setWidth 8⟩ true false
  let o := ppposOutputAppend outputCb p o pppFlag false false
  outputRemaining outputCb now p o

/-- The frame of `pppos_write` and of `pppos_netif_output`, whose contents are `body`.  `alloc` says
    whether there is memory for `nb`. -/
def outputFrame (now : BitVec 32) (alloc : Bool) (p : Pppos) (ctx : σ) (body : Bytes) :
    Err × Pppos × σ :=
  if !alloc then (.mem, p, ctx)
  else
    let o : Output σ := { ctx := ctx, err := .ok, nb := [], fcs := pppInitFcs }
    -- a fresh flag character after an idle time, to flush any noise
    let o := if pppMaxidleflag ≤ now - p.lastXmit then
        ppposOutputAppend outputCb p o pppFlag false false
      else o
    let o := body.foldl (fun o c => ppposOutputAppend outputCb p o c true true) o
    ppposOutputLast outputCb now p o

/-- `pppos_write`. -/
def ppposWrite (now : BitVec 32) (alloc : Bool) (p : Pppos) (ctx : σ) (payload : Bytes) :
    Err × Pppos × σ :=
  outputFrame outputCb now alloc p ctx payload

/-- `pppos_netif_output`. -/
def ppposNetifOutput (now : BitVec 32) (alloc : Bool) (p : Pppos) (ctx : σ) (pb : List Bytes)
    (protocol : BitVec 16) : Err × Pppos × σ :=
  outputFrame outputCb now alloc p ctx (fields p.accomp p.pcomp protocol ++ pb.flatten)

/-! ## Set-up -/

/-- `pppos_connect`, up to `ppp_start`: everything from `last_xmit` on is cleared. -/
def ppposConnect : Pppos where
  lastXmit := 0
  outAccm := connectAccm
  isOpen := true
  pcomp := false
  accomp := false
  inAccm := connectAccm
  inPacket := .empty
  inProtocol := 0
  inFcs := 0
  inState := .pdIdle
  inEscaped := false

/-- `pppos_disconnect`, up to `ppp_link_end`. -/
def ppposDisconnect (s : σ) (p : Pppos) : σ × Pppos :=
  ppposInputFreeCurrentPacket e s { p with isOpen := false }

/-- `pppos_send_config`. -/
def ppposSendConfig (p : Pppos) (accm : BitVec 32) (pcomp accomp : Bool) : Pppos :=
  { p with pcomp := pcomp, accomp := accomp, outAccm := loadAccm accm p.outAccm }

/-- `pppos_recv_config`. -/
def ppposRecvConfig (p : Pppos) (accm : BitVec 32) : Pppos :=
  { p with inAccm := loadAccm accm p.inAccm }

end

end PptpProxy.Ppp
