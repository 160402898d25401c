/-
  `netif/ppp/fsm.c`: the state machine that LCP, IPCP and CCP share, over callbacks of any kind.

  The callbacks are a record of functions on what they work on, `pbuf_alloc` among them, so that nothing
  here depends on a protocol.  Packets and calls of other layers are collected, the last one first.
-/
import PptpProxy.Ppp.Ccp

namespace PptpProxy.Ppp

open CLib

universe u

variable {σ : Type u}

/-! ## The machine -/

/-- What the machine does: packets with code, identifier and data, and calls of the layers around it. -/
inductive FsmCall
  | send (code id : UInt8) (data : Bytes)
  | up | down | starting | finished
  deriving DecidableEq, Repr

/-- `fsm_callbacks`, over what they work on, with `pbuf_alloc` and the settings.  For a callback that is
    `NULL` there is one that does what the machine then does by itself. -/
structure FsmCallbacks (σ : Type u) where
  resetci : σ → σ
  cilen : σ → Nat
  addci : σ → Nat → Bytes × σ
  ackci : σ → Bytes → Bool
  nakci : σ → FsmState → Bytes → Bool → Int × σ
  rejci : σ → FsmState → Bytes → Int × σ
  reqci : σ → Bytes → Bool → Conf × Bytes × σ
  up : σ → σ
  down : σ → σ
  starting : σ → σ
  finished : σ → σ
  retransmit : σ → σ
  extcode : σ → FsmState → UInt8 → UInt8 → UInt8 → Bytes → Bool × List (UInt8 × UInt8 × Bytes) × σ
  alloc : σ → Bool × σ
  peerMru : σ → Nat
  maxConfReqTransmits : UInt8
  maxTermTransmits : UInt8
  maxNakLoops : UInt8

/-- `fsm`; `timer` says that `fsm_timeout` is pending, and `calls` is what has been done, last first. -/
structure Fsm (σ : Type u) where
  state : FsmState
  passive : Bool
  restart : Bool
  silent : Bool
  seenAck : Bool
  id : UInt8
  reqid : UInt8
  retransmits : UInt8
  nakloops : UInt8
  rnakloops : UInt8
  termReason : Bytes
  timer : Bool
  calls : List FsmCall
  env : σ

/-- The states between two requests. -/
def FsmState.negotiating : FsmState → Bool
  | .reqsent | .ackrcvd | .acksent => true
  | _ => false

/-- The states in which a timeout is waited for. -/
def FsmState.waits : FsmState → Bool
  | .closing | .stopping | .reqsent | .ackrcvd | .acksent => true
  | _ => false

def Conf.code : Conf → UInt8
  | .ack => 2
  | .nak => 3
  | .rej => 4

/-- `UNTIMEOUT`. -/
def Fsm.untimeout (f : Fsm σ) : Fsm σ := { f with timer := false }

def Fsm.goto (f : Fsm σ) (state : FsmState) : Fsm σ := { f with state := state }

def Fsm.up (c : FsmCallbacks σ) (f : Fsm σ) : Fsm σ :=
  { f with env := c.up f.env, calls := .up :: f.calls }

def Fsm.down (c : FsmCallbacks σ) (f : Fsm σ) : Fsm σ :=
  { f with env := c.down f.env, calls := .down :: f.calls }

def Fsm.start (c : FsmCallbacks σ) (f : Fsm σ) : Fsm σ :=
  { f with env := c.starting f.env, calls := .starting :: f.calls }

def Fsm.finish (c : FsmCallbacks σ) (f : Fsm σ) : Fsm σ :=
  { f with env := c.finished f.env, calls := .finished :: f.calls }

/-- `fsm_sdata`. -/
def Fsm.sdata (c : FsmCallbacks σ) (f : Fsm σ) (code id : UInt8) (data : Bytes) : Fsm σ :=
  if (c.alloc f.env).1 then
    { f with
      env := (c.alloc f.env).2
      calls := .send code id (data.take (c.peerMru f.env - 4)) :: f.calls }
  else { f with env := (c.alloc f.env).2 }

/-- What a callback sends by `fsm_sdata`. -/
def Fsm.sendAll (c : FsmCallbacks σ) (f : Fsm σ) (packets : List (UInt8 × UInt8 × Bytes)) : Fsm σ :=
  packets.foldl (fun f packet => f.sdata c packet.1 packet.2.1 packet.2.2) f

/-- The options in a request. -/
def FsmCallbacks.request (c : FsmCallbacks σ) (env : σ) : Bytes × σ :=
  if min (c.cilen env) (c.peerMru env - 4) = 0 then ([], env)
  else c.addci env (min (c.cilen env) (c.peerMru env - 4))

/-- `fsm_sconfreq` in front of the packet. -/
def Fsm.prepare (c : FsmCallbacks σ) (f : Fsm σ) (retransmit : Bool) : Fsm σ :=
  let f := if f.state.negotiating then f
    else { f with env := c.resetci f.env, nakloops := 0, rnakloops := 0 }
  let f := if retransmit then f
    else { f with retransmits := c.maxConfReqTransmits, id := f.id + 1, reqid := f.id + 1 }
  { f with seenAck := false }

/-- The packet of `fsm_sconfreq`, and its timeout. -/
def Fsm.request (c : FsmCallbacks σ) (f : Fsm σ) : Fsm σ :=
  if (c.alloc f.env).1 then
    { f with
      env := (c.request (c.alloc f.env).2).2
      calls := .send 1 f.reqid (c.request (c.alloc f.env).2).1 :: f.calls
      retransmits := f.retransmits - 1
      timer := true }
  else { f with env := (c.alloc f.env).2 }

/-- `fsm_sconfreq`. -/
def Fsm.sconfreq (c : FsmCallbacks σ) (f : Fsm σ) (retransmit : Bool) : Fsm σ :=
  (f.prepare c retransmit).request c

/-- `fsm_init`. -/
def fsmInit (f : Fsm σ) : Fsm σ :=
  { f with
    state := .initial
    passive := false
    restart := false
    silent := false
    id := 0
    termReason := [] }

/-- The first request, unless the peer is to speak first. -/
def Fsm.begin (c : FsmCallbacks σ) (f : Fsm σ) : Fsm σ :=
  if f.silent then f.goto .stopped else (f.sconfreq c false).goto .reqsent

/-- `fsm_lowerup`. -/
def fsmLowerup (c : FsmCallbacks σ) (f : Fsm σ) : Fsm σ :=
  match f.state with
  | .initial => f.goto .closed
  | .starting => f.begin c
  | _ => f

/-- `fsm_lowerdown`. -/
def fsmLowerdown (c : FsmCallbacks σ) (f : Fsm σ) : Fsm σ :=
  match f.state with
  | .closed => f.goto .initial
  | .stopped => (f.goto .starting).start c
  | .closing => (f.goto .initial).untimeout
  | .stopping | .reqsent | .ackrcvd | .acksent => (f.goto .starting).untimeout
  | .opened => (f.down c).goto .starting
  | _ => f

def Fsm.restarted (c : FsmCallbacks σ) (f : Fsm σ) : Fsm σ :=
  if f.restart then fsmLowerup c (fsmLowerdown c f) else f

/-- `fsm_open`. -/
def fsmOpen (c : FsmCallbacks σ) (f : Fsm σ) : Fsm σ :=
  match f.state with
  | .initial => (f.goto .starting).start c
  | .closed => f.begin c
  | .closing => (f.goto .stopping).restarted c
  | .stopped | .opened => f.restarted c
  | _ => f

/-- The `Terminate-Request` of `terminate_layer` and `fsm_timeout`. -/
def Fsm.termreq (c : FsmCallbacks σ) (f : Fsm σ) : Fsm σ :=
  { f with id := f.id + 1, reqid := f.id + 1 }.sdata c 5 (f.id + 1) f.termReason

/-- The state behind the last `Terminate-Request`. -/
def FsmState.done : FsmState → FsmState
  | .closing => .closed
  | _ => .stopped

/-- `terminate_layer`. -/
def terminateLayer (c : FsmCallbacks σ) (f : Fsm σ) (nextstate : FsmState) : Fsm σ :=
  let f := if f.state ≠ .opened then f.untimeout else f.down c
  let f := { f with retransmits := c.maxTermTransmits }.termreq c
  if f.retransmits = 0 then (f.goto nextstate.done).finish c
  else { f with timer := true, retransmits := f.retransmits - 1 }.goto nextstate

/-- `fsm_close`. -/
def fsmClose (c : FsmCallbacks σ) (f : Fsm σ) (reason : Bytes) : Fsm σ :=
  let f := { f with termReason := reason.take 255 }
  match f.state with
  | .starting => f.goto .initial
  | .stopped => f.goto .closed
  | .stopping => f.goto .closing
  | .reqsent | .ackrcvd | .acksent | .opened => terminateLayer c f .closing
  | _ => f

/-- `fsm_timeout`, behind the timer. -/
def fsmTimeout (c : FsmCallbacks σ) (f : Fsm σ) : Fsm σ :=
  match f.state with
  | .closing | .stopping =>
    if f.retransmits = 0 then (f.goto f.state.done).finish c
    else
      let f := f.termreq c
      { f with timer := true, retransmits := f.retransmits - 1 }
  | .reqsent | .ackrcvd | .acksent =>
    if f.retransmits = 0 then
      if f.passive then f.goto .stopped else (f.goto .stopped).finish c
    else
      let f := { f with env := c.retransmit f.env }.sconfreq c true
      if f.state = .ackrcvd then f.goto .reqsent else f
  | _ => f

/-- "Go down and restart negotiation." -/
def Fsm.renegotiate (c : FsmCallbacks σ) (f : Fsm σ) : Fsm σ :=
  ((f.down c).sconfreq c false).goto .reqsent

/-- The end of `fsm_rconfreq`, behind the answer. -/
def Fsm.answered (c : FsmCallbacks σ) (f : Fsm σ) (code : Conf) : Fsm σ :=
  if code = .ack then
    let f := if f.state = .ackrcvd then (f.untimeout.goto .opened).up c else f.goto .acksent
    { f with nakloops := 0 }
  else
    let f := if f.state ≠ .ackrcvd then f.goto .reqsent else f
    if code = .nak then { f with nakloops := f.nakloops + 1 } else f

/-- `fsm_rconfreq`, behind its first `switch`. -/
def Fsm.answer (c : FsmCallbacks σ) (f : Fsm σ) (id : UInt8) (data : Bytes) : Fsm σ :=
  let r := c.reqci f.env data (c.maxNakLoops ≤ f.nakloops)
  ({ f with env := r.2.2 }.sdata c r.1.code id r.2.1).answered c r.1

/-- `fsm_rconfreq`. -/
def fsmRconfreq (c : FsmCallbacks σ) (f : Fsm σ) (id : UInt8) (data : Bytes) : Fsm σ :=
  match f.state with
  | .closed => f.sdata c 6 id []
  | .closing | .stopping => f
  | .opened => (f.renegotiate c).answer c id data
  | .stopped => ((f.sconfreq c false).goto .reqsent).answer c id data
  | _ => f.answer c id data

/-- `fsm_rconfack`. -/
def fsmRconfack (c : FsmCallbacks σ) (f : Fsm σ) (id : UInt8) (data : Bytes) : Fsm σ :=
  if id ≠ f.reqid ∨ f.seenAck then f
  else if !c.ackci f.env data then f
  else
    let f := { f with seenAck := true, rnakloops := 0 }
    match f.state with
    | .closed | .stopped => f.sdata c 6 id []
    | .reqsent => { f.goto .ackrcvd with retransmits := c.maxConfReqTransmits }
    | .ackrcvd => (f.untimeout.sconfreq c false).goto .reqsent
    | .acksent => { f.untimeout.goto .opened with retransmits := c.maxConfReqTransmits }.up c
    | .opened => f.renegotiate c
    | _ => f

/-- The end of `fsm_rconfnakrej`; `ret` is what the callback has returned. -/
def Fsm.refused (c : FsmCallbacks σ) (f : Fsm σ) (id : UInt8) (ret : Int) : Fsm σ :=
  let f := { f with seenAck := true }
  match f.state with
  | .closed | .stopped => f.sdata c 6 id []
  | .reqsent | .acksent =>
    if ret < 0 then f.untimeout.goto .stopped else f.untimeout.sconfreq c false
  | .ackrcvd => (f.untimeout.sconfreq c false).goto .reqsent
  | .opened => f.renegotiate c
  | _ => f

/-- `fsm_rconfnakrej`. -/
def fsmRconfnakrej (c : FsmCallbacks σ) (f : Fsm σ) (nak : Bool) (id : UInt8) (data : Bytes) :
    Fsm σ :=
  if id ≠ f.reqid ∨ f.seenAck then f
  else if nak then
    let rnakloops := f.rnakloops + 1
    let r := c.nakci f.env f.state data (c.maxNakLoops ≤ rnakloops)
    let f := { f with rnakloops := rnakloops, env := r.2 }
    if r.1 = 0 then f else f.refused c id r.1
  else
    let r := c.rejci f.env f.state data
    let f := { f with rnakloops := 0, env := r.2 }
    if r.1 = 0 then f else f.refused c id r.1

/-- The `switch` of `fsm_rtermreq`. -/
def Fsm.terminated (c : FsmCallbacks σ) (f : Fsm σ) : Fsm σ :=
  match f.state with
  | .ackrcvd | .acksent => f.goto .reqsent
  | .opened => { ({ f with retransmits := 0 }.goto .stopping).down c with timer := true }
  | _ => f

/-- `fsm_rtermreq`. -/
def fsmRtermreq (c : FsmCallbacks σ) (f : Fsm σ) (id : UInt8) : Fsm σ :=
  (f.terminated c).sdata c 6 id []

/-- `fsm_rtermack`. -/
def fsmRtermack (c : FsmCallbacks σ) (f : Fsm σ) : Fsm σ :=
  match f.state with
  | .closing => (f.untimeout.goto .closed).finish c
  | .stopping => (f.untimeout.goto .stopped).finish c
  | .ackrcvd => f.goto .reqsent
  | .opened => f.renegotiate c
  | _ => f

/-- `fsm_rcoderej`. -/
def fsmRcoderej (f : Fsm σ) (data : Bytes) : Fsm σ :=
  if data.length < 4 then f
  else if f.state = .ackrcvd then f.goto .reqsent
  else f

/-- `fsm_protreject`. -/
def fsmProtreject (c : FsmCallbacks σ) (f : Fsm σ) : Fsm σ :=
  match f.state with
  | .closing => (f.untimeout.goto .closed).finish c
  | .closed => f.finish c
  | .stopping | .reqsent | .ackrcvd | .acksent => (f.untimeout.goto .stopped).finish c
  | .stopped => f.finish c
  | .opened => terminateLayer c f .stopping
  | _ => f

/-- The `switch` of `fsm_input`. -/
def fsmCode (c : FsmCallbacks σ) (f : Fsm σ) (packet : Bytes) (code id : UInt8) (data : Bytes) :
    Fsm σ :=
  if code = 1 then fsmRconfreq c f id data
  else if code = 2 then fsmRconfack c f id data
  else if code = 3 then fsmRconfnakrej c f true id data
  else if code = 4 then fsmRconfnakrej c f false id data
  else if code = 5 then fsmRtermreq c f id
  else if code = 6 then fsmRtermack c f
  else if code = 7 then fsmRcoderej f data
  else
    let r := c.extcode f.env f.state f.reqid code id data
    let f := { f with env := r.2.2 }.sendAll c r.2.1
    if r.1 then f else { f with id := f.id + 1 }.sdata c 7 (f.id + 1) packet

/-- `fsm_input`. -/
def fsmInput (c : FsmCallbacks σ) (f : Fsm σ) : Bytes → Fsm σ
  | code :: id :: hi :: lo :: rest =>
    let len := (join hi lo).toNat
    if len < 4 then f
    else if rest.length + 4 < len then f
    else if f.state = .initial ∨ f.state = .starting then f
    else fsmCode c f (code :: id :: hi :: lo :: rest.take (len - 4)) code id (rest.take (len - 4))
  | _ => f

/-! ## Runs -/

/-- What happens to a machine; `flags` are those that a protocol sets, and `become` is anything that
    happens to what the callbacks work on. -/
inductive FsmEvent (σ : Type u)
  | lowerup | lowerdown | open | protreject | timeout
  | flags (passive restart silent : Bool)
  | close (reason : Bytes)
  | input (packet : Bytes)
  | become (env : σ)

def FsmEvent.run (c : FsmCallbacks σ) (f : Fsm σ) : FsmEvent σ → Fsm σ
  | .lowerup => fsmLowerup c f
  | .lowerdown => fsmLowerdown c f
  | .open => fsmOpen c f
  | .protreject => fsmProtreject c f
  | .timeout => if f.timer then fsmTimeout c f.untimeout else f
  | .flags passive restart silent =>
    { f with passive := passive, restart := restart, silent := silent }
  | .close reason => fsmClose c f reason
  | .input packet => fsmInput c f packet
  | .become env => { f with env := env }

def fsmRun (c : FsmCallbacks σ) (f : Fsm σ) (events : List (FsmEvent σ)) : Fsm σ :=
  events.foldl (FsmEvent.run c) f

end PptpProxy.Ppp
