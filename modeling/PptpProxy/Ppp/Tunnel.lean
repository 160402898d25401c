/-
  The whole way of an IP packet, from `ppp_netif_output_ip4` on one side of the tunnel to `ip4_input` on
  the other: MPPE, the frames on the serial line, and the demultiplexer.

  What the sender hands to its link does not depend on what becomes of it there, so the run of the upper
  half (`coreLink`) comes first and that of the lower half (`linkRun`) runs on what it gives.
-/
import PptpProxy.Ppp.Link
import PptpProxy.Ppp.Coherency

namespace PptpProxy.Ppp

open CLib

universe u

/-! ## The sender -/

/-- What goes on at a sender: a packet of the network, a control packet, options for the link, a
    Reset-Request, and whatever else becomes of the control block. -/
inductive CoreOp
  | ip4 (now : BitVec 32) (alloc linkAlloc : Bool) (pb : Bytes)
  | control (now : BitVec 32) (alloc : Bool) (protocol : BitVec 16) (payload : Bytes)
  | sendConfig (accm : BitVec 32) (pcomp accomp : Bool)
  | reset
  | become (c : PppPcb)

def netifOp (now : BitVec 32) (linkAlloc : Bool) :
    Except Err (Bytes × BitVec 16) × PppPcb → Option LinkOp × PppPcb
  | (.error _, c) => (none, c)
  | (.ok (pb, protocol), c) => (some (.netifOutput now linkAlloc protocol [pb]), c)

/-- What an operation hands to the link. -/
def CoreOp.link (sha1 : Bytes → Bytes) (c : PppPcb) : CoreOp → Option LinkOp × PppPcb
  | .ip4 now alloc linkAlloc pb => netifOp now linkAlloc (pppNetifPacket sha1 alloc c pb pppIp)
  | .control now alloc protocol payload => (some (.write now alloc protocol payload), c)
  | .sendConfig accm pcomp accomp => (some (.sendConfig accm pcomp accomp), c)
  | .reset => (none, { c with mppeComp := mppeCompReset c.mppeComp })
  | .become c => (none, c)

def coreLink (sha1 : Bytes → Bytes) (c : PppPcb) : List CoreOp → List LinkOp
  | [] => []
  | op :: ops =>
    match op.link sha1 c with
    | (l, c) => l.toList ++ coreLink sha1 c ops

section

variable {sha1 : Bytes → Bytes}

/-- An operation at both layers. -/
def CoreOp.run {σ : Type u} (sha1 : Bytes → Bytes) (cb : σ → Bytes → Nat × σ) (c : PppPcb) (p : Pppos)
    (ctx : σ) : CoreOp → Err × PppPcb × Pppos × σ
  | .ip4 now alloc linkAlloc pb => pppNetifOutputIp4 sha1 cb now alloc linkAlloc c p ctx pb
  | .control now alloc protocol payload =>
    match ppposWrite cb now alloc p ctx
      ([pppAllstations, pppUi, hiByte protocol, loByte protocol] ++ payload) with
    | (err, p, ctx) => (err, c, p, ctx)
  | .sendConfig accm pcomp accomp => (.ok, c, ppposSendConfig p accm pcomp accomp, ctx)
  | .reset => (.ok, { c with mppeComp := mppeCompReset c.mppeComp }, p, ctx)
  | .become c => (.ok, c, p, ctx)

/-- Operations one after the other, with what each of them returns. -/
def coreRun {σ : Type u} (sha1 : Bytes → Bytes) (cb : σ → Bytes → Nat × σ) (c : PppPcb) (p : Pppos)
    (ctx : σ) : List CoreOp → List Err × PppPcb × Pppos × σ
  | [] => ([], c, p, ctx)
  | op :: ops =>
    match op.run sha1 cb c p ctx with
    | (err, c, p, ctx) =>
      match coreRun sha1 cb c p ctx ops with
      | (errs, r) => (err :: errs, r)

/-- The lower half, on what the upper half gives. -/
def lowerHalf {σ : Type u} (cb : σ → Bytes → Nat × σ) (p : Pppos) (ctx : σ) :
    Option LinkOp → Pppos × σ
  | none => (p, ctx)
  | some op => (op.run cb p ctx).2

theorem CoreOp.run_eq {σ : Type u} (cb : σ → Bytes → Nat × σ) (c : PppPcb) (p : Pppos) (ctx : σ)
    (op : CoreOp) :
    (op.run sha1 cb c p ctx).2 = ((op.link sha1 c).2, lowerHalf cb p ctx (op.link sha1 c).1) ∧
      ∀ l ∈ (op.link sha1 c).1, (op.run sha1 cb c p ctx).1 = (l.run cb p ctx).1 := by
  cases op with
  | ip4 now alloc linkAlloc pb =>
    show (pppNetifOutput sha1 cb now alloc linkAlloc c p ctx pb pppIp).2 =
        ((netifOp now linkAlloc (pppNetifPacket sha1 alloc c pb pppIp)).2,
          lowerHalf cb p ctx (netifOp now linkAlloc (pppNetifPacket sha1 alloc c pb pppIp)).1) ∧
      ∀ l ∈ (netifOp now linkAlloc (pppNetifPacket sha1 alloc c pb pppIp)).1,
        (pppNetifOutput sha1 cb now alloc linkAlloc c p ctx pb pppIp).1 = (l.run cb p ctx).1
    unfold pppNetifOutput
    rcases pppNetifPacket sha1 alloc c pb pppIp with ⟨_ | ⟨np, protocol⟩, c'⟩
    · exact ⟨rfl, fun l hl => by cases hl⟩
    · refine ⟨rfl, fun l hl => ?_⟩
      cases hl
      rfl
  | control now alloc protocol payload =>
    refine ⟨rfl, fun l hl => ?_⟩
    cases hl
    rfl
  | sendConfig accm pcomp accomp =>
    refine ⟨rfl, fun l hl => ?_⟩
    cases hl
    rfl
  | reset => exact ⟨rfl, fun l hl => by cases hl⟩
  | become c' => exact ⟨rfl, fun l hl => by cases hl⟩

theorem framed_toList (x : Option LinkOp) (ops : List LinkOp) :
    (x.toList ++ ops).filterMap LinkOp.framed =
      (x.bind LinkOp.framed).toList ++ ops.filterMap LinkOp.framed := by
  rw [List.filterMap_append]
  cases x with
  | none => rfl
  | some op =>
    rw [Option.toList_some, List.filterMap_cons, Option.bind_some]
    cases op.framed with
    | none => rfl
    | some packet => rfl

theorem coreRun_cons {σ : Type u} (cb : σ → Bytes → Nat × σ) (c : PppPcb) (p : Pppos) (ctx : σ)
    (op : CoreOp) (ops : List CoreOp) :
    coreRun sha1 cb c p ctx (op :: ops) =
      ((op.run sha1 cb c p ctx).1 :: (coreRun sha1 cb (op.link sha1 c).2
        (lowerHalf cb p ctx (op.link sha1 c).1).1 (lowerHalf cb p ctx (op.link sha1 c).1).2 ops).1,
      (coreRun sha1 cb (op.link sha1 c).2 (lowerHalf cb p ctx (op.link sha1 c).1).1
        (lowerHalf cb p ctx (op.link sha1 c).1).2 ops).2) := by
  have hstate := (@CoreOp.run_eq sha1 σ cb c p ctx op).1
  rw [coreRun]
  generalize op.run sha1 cb c p ctx = r at hstate
  generalize lowerHalf cb p ctx (op.link sha1 c).1 = low at hstate
  obtain ⟨err, c', p', ctx'⟩ := r
  cases hstate
  rfl

/-- A run of both layers is a run of the lower one on what the upper one gives; when no call fails at
    the terminal, everything that there is memory for is sent. -/
theorem coreRun_eq {σ : Type u} {cb : σ → Bytes → Nat × σ} {wire : σ → Bytes} (hw : Writes cb wire)
    (c : PppPcb) (p : Pppos) (ctx : σ) (ops : List CoreOp)
    (h : .interface ∉ (coreRun sha1 cb c p ctx ops).1) :
    linkRun cb p ctx (coreLink sha1 c ops) =
      ((coreLink sha1 c ops).filterMap LinkOp.framed, (coreRun sha1 cb c p ctx ops).2.2) := by
  induction ops generalizing c p ctx with
  | nil => rfl
  | cons op ops ih =>
    have herr := (@CoreOp.run_eq sha1 σ cb c p ctx op).2
    rw [coreRun_cons] at h ⊢
    obtain ⟨hhead, htail⟩ := not_or.mp fun h' => h (List.mem_cons.mpr h')
    have hnext := ih _ _ _ htail
    show linkRun cb p ctx ((op.link sha1 c).1.toList ++ coreLink sha1 (op.link sha1 c).2 ops) =
      (((op.link sha1 c).1.toList ++ coreLink sha1 (op.link sha1 c).2 ops).filterMap LinkOp.framed, _)
    rw [framed_toList]
    cases hlink : (op.link sha1 c).1 with
    | none =>
      rw [hlink] at hnext
      exact hnext
    | some l =>
      have hsent := l.run_sent hw p ctx (by rw [← herr l hlink]; exact Ne.symm hhead)
      rw [hlink] at hnext
      have hrest : linkRun cb (l.run cb p ctx).2.1 (l.run cb p ctx).2.2
          (coreLink sha1 (op.link sha1 c).2 ops) = _ := hnext
      show ((if (l.run cb p ctx).1 = .ok then l.packet.toList else []) ++
        (linkRun cb (l.run cb p ctx).2.1 (l.run cb p ctx).2.2
          (coreLink sha1 (op.link sha1 c).2 ops)).1,
        (linkRun cb (l.run cb p ctx).2.1 (l.run cb p ctx).2.2
          (coreLink sha1 (op.link sha1 c).2 ops)).2) = _
      rw [hsent, hrest]
      rfl

/-! ## What MPPE keeps off the line -/

/-- A packet that may be seen. -/
def Veiled (protocol : BitVec 16) : Prop := protocol = pppComp ∨ 0x8000 ≤ protocol

def LinkOp.Veiled : LinkOp → Prop
  | .write _ _ protocol _ => Ppp.Veiled protocol
  | .netifOutput _ _ protocol _ => Ppp.Veiled protocol
  | .sendConfig .. => True

theorem mem_protocols {protocol : BitVec 16} (h : protocol ∈ protocols) :
    protocol = pppLcp ∨ protocol = pppChap ∨ protocol = pppIpcp ∨ protocol = pppCcp := by
  simpa only [protocols, List.mem_cons, List.not_mem_nil, or_false] using h

theorem protocols_high : ∀ protocol ∈ protocols, 0x8000 ≤ protocol := by
  intro protocol h
  rcases mem_protocols h with rfl | rfl | rfl | rfl
  · decide
  · decide
  · decide
  · decide

/-- A control block with MPPE up, and 128-bit keys. -/
def upPcb : PppPcb where
  requireMppe := true
  phase := .running
  lcpState := .opened
  if4Up := true
  ccpReceiveMethod := ciMppe
  ccpTransmitMethod := ciMppe
  mppeComp := (mppeInit Ppp.sha1 clearedState ⟨true, false, false⟩).1
  mppeDecomp := (mppeInit Ppp.sha1 clearedState ⟨true, false, false⟩).1

end

/-! ## A receiver that keeps a list -/

/-- What `ppp_input` has handed on. -/
inductive Delivery
  | ip4 (data : Bytes)
  | control (protocol : BitVec 16) (data : Bytes)
  | rejected (data : Bytes)
  | call (call : MppeCall)
  deriving DecidableEq, Repr

def Core.note (c : Core (List Delivery)) (d : Delivery) : Core (List Delivery) :=
  { c with around := c.around ++ [d] }

def logger : Stack (List Delivery) where
  ip4Input c data := c.note (.ip4 data)
  protocolInput c protocol data := c.note (.control protocol data)
  lcpSprotrej c data := c.note (.rejected data)
  mppeCall c call := c.note (.call call)
  pbufCoalesce s := (true, s)
  pbufAlloc s := (true, s)
  pbufFree s _ := s

/-! ## What MPPE keeps out -/

section

variable {σ : Type u} {e : Stack σ} {log : σ → List Bytes} {sha1 : Bytes → Bytes}

/-- MPPE is required, and CCP has not come up. -/
structure Locked (c : PppPcb) : Prop where
  required : c.requireMppe = true
  method : c.ccpReceiveMethod ≠ ciMppe

/-- A core that is locked and on whose list of received packets nothing has been put. -/
structure Shut (log : σ → List Bytes) (l : List Bytes) (c : PppPcb) (around : σ) : Prop where
  locked : Locked c
  log : log around = l

/-- The stack keeps a list of what reaches `ip4_input`, on which nothing else puts anything; and CCP does
    not come up. -/
structure Stack.Quiet (e : Stack σ) (log : σ → List Bytes) : Prop where
  protocolInput : ∀ c protocol data l, Shut log l c.pcb c.around →
    Shut log l (e.protocolInput c protocol data).pcb (e.protocolInput c protocol data).around
  lcpSprotrej : ∀ c data l, Shut log l c.pcb c.around →
    Shut log l (e.lcpSprotrej c data).pcb (e.lcpSprotrej c data).around
  pbufCoalesce : ∀ s, log (e.pbufCoalesce s).2 = log s
  pbufAlloc : ∀ s, log (e.pbufAlloc s).2 = log s
  pbufFree : ∀ s n, log (e.pbufFree s n) = log s

theorem Shut.around {l : List Bytes} {c : PppPcb} {s s' : σ} (h : Shut log l c s)
    (hs : log s' = log s) : Shut log l c s' :=
  ⟨h.locked, hs.trans h.log⟩

theorem Stack.Quiet.demux (hq : e.Quiet log) {l : List Bytes} {c : Core σ}
    (h : Shut log l c.pcb c.around) {protocol : BitVec 16} (hip : protocol ≠ pppIp)
    (before data : Bytes) :
    Shut log l (Ppp.demux e c protocol before data).pcb
      (Ppp.demux e c protocol before data).around := by
  unfold Ppp.demux
  rw [if_neg hip]
  by_cases hproto : protocol ∈ protocols
  · rw [if_pos hproto]
    have hcoalesce := hq.pbufCoalesce c.around
    generalize e.pbufCoalesce c.around = r at hcoalesce
    obtain ⟨_ | _, around⟩ := r
    · exact h.around hcoalesce
    · exact hq.protocolInput _ _ _ _ (h.around hcoalesce)
  · rw [if_neg hproto]
    exact hq.lcpSprotrej _ _ _ h

/-- A packet at a locked core: `ip4_input` is not reached. -/
theorem Stack.Quiet.packet (hq : e.Quiet log) {l : List Bytes} {c : Core σ}
    (h : Shut log l c.pcb c.around) (pb : Bytes) :
    Shut log l (pppInput e sha1 c pb).pcb (pppInput e sha1 c pb).around := by
  match pb with
  | [] => exact h
  | [_] => exact h
  | b0 :: b1 :: data =>
    unfold pppInput
    simp only
    by_cases hlcp : join b0 b1 ≠ pppLcp ∧ c.pcb.lcpState ≠ .opened
    · rw [if_pos hlcp]
      exact h
    rw [if_neg hlcp]
    by_cases hphase : c.pcb.phase.ctorIdx ≤ Phase.authenticate.ctorIdx ∧
        ¬ (join b0 b1 = pppLcp ∨ join b0 b1 = pppChap)
    · rw [if_pos hphase]
      exact h
    rw [if_neg hphase]
    by_cases hclear : c.pcb.requireMppe ∧ join b0 b1 ≠ pppComp ∧ join b0 b1 < 0x8000
    · rw [if_pos hclear]
      exact h
    rw [if_neg hclear]
    by_cases hcomp : join b0 b1 = pppComp
    · rw [if_pos hcomp]
      unfold inputComp
      rw [if_pos h.locked.method]
      exact h
    · rw [if_neg hcomp]
      apply hq.demux h
      intro hip
      apply hclear
      refine ⟨h.locked.required, hcomp, ?_⟩
      rw [hip]
      decide

theorem Stack.Quiet.keeps (hq : e.Quiet log) (l : List Bytes) :
    (e.upper sha1).Keeps fun s => Shut log l s.1 s.2 where
  pbufAlloc s h := h.around (hq.pbufAlloc s.2)
  pbufFree s n h := h.around (hq.pbufFree s.2 n)
  vjUncompressErr _ h := h
  pppInput s p inp h := hq.packet (c := ⟨s.1, p, s.2⟩) h inp.flatten

/-- Until CCP has come up no packet reaches `ip4_input`, whatever is on the line and however it is cut
    into reads. -/
theorem locked_silent (sha1 : Bytes → Bytes) (hq : e.Quiet log) {c : PppPcb} (hc : Locked c) (s : σ)
    (p : Pppos) (reads : List Bytes) :
    log (reads.foldl (fun r bytes => ppposInput (e.upper sha1) r.1 r.2 bytes) ((c, s), p)).1.2 =
      log s := by
  rw [ppposInput_reads]
  exact ((hq.keeps (log s)).input reads.flatten ⟨hc, rfl⟩ p).log

/-- The packets for the network in a list. -/
def Delivery.network : Delivery → Option Bytes
  | .ip4 data => some data
  | _ => none

theorem logger_quiet : logger.Quiet (List.filterMap Delivery.network) where
  protocolInput c protocol data l h :=
    h.around (by
      show List.filterMap Delivery.network (c.around ++ [.control protocol data]) = _
      rw [List.filterMap_append]
      exact List.append_nil _)
  lcpSprotrej c data l h :=
    h.around (by
      show List.filterMap Delivery.network (c.around ++ [.rejected data]) = _
      rw [List.filterMap_append]
      exact List.append_nil _)
  pbufCoalesce _ := rfl
  pbufAlloc _ := rfl
  pbufFree _ _ := rfl

/-- An IP packet in the clear. -/
theorem locked_silent_cleartext :
    (([hdlc.stuff (escapeP connectAccm) (sealed [0xff, 0x03, 0x00, 0x21, 0x45]), [pppFlag]].foldl
      (fun r bytes => ppposInput (logger.upper Ppp.sha1) r.1 r.2 bytes)
      (({ upPcb with ccpReceiveMethod := 0 }, []), ppposConnect)).1.2).filterMap Delivery.network = [] :=
  locked_silent Ppp.sha1 logger_quiet (c := { upPcb with ccpReceiveMethod := 0 }) ⟨rfl, by decide⟩ []
    ppposConnect [hdlc.stuff (escapeP connectAccm) (sealed [0xff, 0x03, 0x00, 0x21, 0x45]), [pppFlag]]

end

/-! ## The logging receiver -/

section

variable {sha1 : Bytes → Bytes}

theorem logger_calls (calls : List MppeCall) (c : Core (List Delivery)) :
    calls.foldl logger.mppeCall c = { c with around := c.around ++ calls.map Delivery.call } := by
  induction calls generalizing c with
  | nil =>
    rw [List.map_nil, List.append_nil]
    rfl
  | cons call calls ih =>
    rw [List.foldl_cons, ih]
    show (⟨c.pcb, c.pppos, c.around ++ [_] ++ _⟩ : Core (List Delivery)) = _
    rw [List.append_assoc]
    rfl

theorem demux_logger (c : Core (List Delivery)) (protocol : BitVec 16) (before data : Bytes) :
    demux logger c protocol before data =
      c.note (if protocol = pppIp then .ip4 data
        else if protocol ∈ protocols then .control protocol data else .rejected (before ++ data)) := by
  unfold demux
  by_cases hip : protocol = pppIp
  · rw [if_pos hip, if_pos hip]
    rfl
  · rw [if_neg hip, if_neg hip]
    by_cases hproto : protocol ∈ protocols
    · rw [if_pos hproto, if_pos hproto]
      rfl
    · rw [if_neg hproto, if_neg hproto]
      rfl

/-- What a packet does to the control block and to the list. -/
def logged (sha1 : Bytes → Bytes) (r : PppPcb × List Delivery) (pb : Bytes) :
    PppPcb × List Delivery :=
  ((pppInput logger sha1 ⟨r.1, ppposConnect, r.2⟩ pb).pcb,
    (pppInput logger sha1 ⟨r.1, ppposConnect, r.2⟩ pb).around)

/-- The link is left alone. -/
theorem pppInput_logger (c : PppPcb) (p : Pppos) (l : List Delivery) (pb : Bytes) :
    pppInput logger sha1 ⟨c, p, l⟩ pb =
      ⟨(logged sha1 (c, l) pb).1, p, (logged sha1 (c, l) pb).2⟩ := by
  have hcomp : ∀ q data, inputComp logger sha1 ⟨c, q, l⟩ data =
      ⟨(inputComp logger sha1 ⟨c, ppposConnect, l⟩ data).pcb, q,
        (inputComp logger sha1 ⟨c, ppposConnect, l⟩ data).around⟩ := by
    intro q data
    unfold inputComp
    by_cases hmethod : c.ccpReceiveMethod ≠ ciMppe
    · simp only [if_pos hmethod]
    · simp only [if_neg hmethod, logger_calls, demux_logger]
      split
      · split
        · rfl
        · rfl
      · rfl
  unfold logged pppInput
  split
  · simp only [demux_logger]
    split
    · rfl
    · split
      · rfl
      · split
        · rfl
        · split
          · exact hcomp p _
          · rfl
  · rfl

theorem logger_upper : logger.upper sha1 = steady (logged sha1) := by
  unfold Stack.upper steady
  congr 1
  funext s p inp
  simp only [pppInput_logger]

/-! ## From end to end -/

/-- A receiver past authentication, with MPPE up. -/
structure Ready (d : PppPcb) : Prop where
  lcp : d.lcpState = .opened
  phase : ¬ d.phase.ctorIdx ≤ Phase.authenticate.ctorIdx
  method : d.ccpReceiveMethod = ciMppe

/-- Both ends of a tunnel whose receiver is `g` packets behind. -/
structure Talking (sha1 : Bytes → Bytes) (g : Nat) (c d : PppPcb) : Prop where
  keys : Behind sha1 g c.mppeComp d.mppeDecomp
  up : c.if4Up = true
  method : c.ccpTransmitMethod = ciMppe
  ready : Ready d

theorem pppInput_ready {σ : Type u} {e : Stack σ} {c : Core σ} (h : Ready c.pcb) (b0 b1 : UInt8)
    (data : Bytes) (hveiled : Veiled (join b0 b1)) :
    pppInput e sha1 c (b0 :: b1 :: data) =
      if join b0 b1 = pppComp then inputComp e sha1 c data
      else demux e c (join b0 b1) [b0, b1] data := by
  have hlcp : ¬ (join b0 b1 ≠ pppLcp ∧ c.pcb.lcpState ≠ .opened) := fun h' => h'.2 h.lcp
  have hphase : ¬ (c.pcb.phase.ctorIdx ≤ Phase.authenticate.ctorIdx ∧
      ¬ (join b0 b1 = pppLcp ∨ join b0 b1 = pppChap)) := fun h' => h.phase h'.1
  have hclear : ¬ (c.pcb.requireMppe ∧ join b0 b1 ≠ pppComp ∧ join b0 b1 < 0x8000) := by
    rintro ⟨-, hcomp, hlow⟩
    rcases hveiled with hc | hhigh
    · exact hcomp hc
    · exact absurd hlow (BitVec.not_lt.mpr hhigh)
  unfold pppInput
  simp only [if_neg hlcp, if_neg hphase, if_neg hclear]

/-- A packet of the network that can be decrypted. -/
theorem Ready.ip4 {d : PppPcb} (h : Ready d) (l : List Delivery) {np pb : Bytes} {decomp : MppeState}
    (hdec : mppeDecompress sha1 d.mppeDecomp np =
      (decomp, [], some (hiByte pppIp :: loByte pppIp :: pb))) :
    logged sha1 (d, l) (hiByte pppComp :: loByte pppComp :: np) =
      ({ d with mppeDecomp := decomp }, l ++ [.ip4 pb]) := by
  have hjoin : join (hiByte pppComp) (loByte pppComp) = pppComp := join_bytes pppComp
  have heven : ¬ hiByte pppIp &&& 1 ≠ 0 := by decide
  have hmethod : ¬ d.ccpReceiveMethod ≠ ciMppe := not_not_intro h.method
  unfold logged
  rw [pppInput_ready (c := ⟨d, ppposConnect, l⟩) h _ _ np (Or.inl hjoin), if_pos hjoin]
  unfold inputComp
  simp only [if_neg hmethod, hdec, if_neg heven, demux_logger, join_bytes, if_true, List.foldl_nil]
  rfl

theorem protocols_control : ∀ protocol ∈ protocols,
    protocol ≠ pppComp ∧ protocol ≠ pppIp ∧ Plain true true protocol := by
  intro protocol h
  rcases mem_protocols h with rfl | rfl | rfl | rfl
  · decide
  · decide
  · decide
  · decide

theorem Ready.control {d : PppPcb} (h : Ready d) (l : List Delivery) {protocol : BitVec 16}
    (hp : protocol ∈ protocols) (payload : Bytes) :
    logged sha1 (d, l) (hiByte protocol :: loByte protocol :: payload) =
      (d, l ++ [.control protocol payload]) := by
  obtain ⟨hcomp, hip, -⟩ := protocols_control protocol hp
  have hjoin : join (hiByte protocol) (loByte protocol) = protocol := join_bytes protocol
  have hveiled : Veiled (join (hiByte protocol) (loByte protocol)) := by
    rw [hjoin]
    exact Or.inr (protocols_high protocol hp)
  unfold logged
  rw [pppInput_ready (c := ⟨d, ppposConnect, l⟩) h _ _ payload hveiled, hjoin, if_neg hcomp,
    demux_logger, if_neg hip, if_pos hp]
  rfl

/-- What becomes of an operation for which there is memory. -/
def CoreOp.delivery : CoreOp → Option Delivery
  | .ip4 _ true true pb => some (.ip4 pb)
  | .control _ true protocol payload => some (.control protocol payload)
  | _ => none

/-- What MPPE sees of it: a packet gets lost when there is no memory for its frame. -/
def CoreOp.tunnelEvent : CoreOp → Option TunnelEvent
  | .ip4 _ alloc linkAlloc pb => some (.packet pppIp pb alloc linkAlloc)
  | .reset => some .reset
  | _ => none

/-- Packets that fit into a frame, options that the receiver has asked for, and a control block that
    stays as it is. -/
def CoreOp.Fit (m : ExtAccm) : CoreOp → Prop
  | .ip4 now _ _ pb => pppMaxidleflag ≤ now ∧ pb.length + 6 ≤ maxData
  | .control now _ protocol payload =>
    pppMaxidleflag ≤ now ∧ protocol ∈ protocols ∧ payload.length + 2 ≤ maxData
  | .sendConfig accm _ _ => ∀ c, escapeP m c = true → escapeP (loadAccm accm connectAccm) c = true
  | .reset => True
  | .become _ => False

theorem mppeCompress_length {c : MppeState} {protocol : BitVec 16} {pb np : Bytes}
    (h : (mppeCompress sha1 true c protocol pb).1 = some np) : np.length = pb.length + 4 := by
  rw [mppeCompress_eq] at h
  cases h
  rw [List.length_append]
  unfold arc4Crypt
  rw [Keystream.crypt_length]
  show 2 + (pb.length + 2) = pb.length + 4
  omega

/-- A packet of the network, without memory and with. -/
theorem pppNetifPacket_noMemory {c : PppPcb} (hup : c.if4Up = true)
    (hmethod : c.ccpTransmitMethod = ciMppe) (pb : Bytes) :
    pppNetifPacket sha1 false c pb pppIp = (.error .mem, c) := by
  have hdown : ¬ (pppIp = pppIp ∧ c.if4Up = false) := fun h => absurd (hup.symm.trans h.2) (by decide)
  have hsome : ¬ c.ccpTransmitMethod = 0 := by
    rw [hmethod]
    decide
  unfold pppNetifPacket
  rw [if_neg hdown, if_neg fun h => h.2 hmethod, if_neg hsome, if_pos hmethod, mppeCompress_noMemory]

theorem pppNetifPacket_mppe {c : PppPcb} (hup : c.if4Up = true)
    (hmethod : c.ccpTransmitMethod = ciMppe) {pb np : Bytes}
    (hnp : (mppeCompress sha1 true c.mppeComp pppIp pb).1 = some np) :
    pppNetifPacket sha1 true c pb pppIp = (.ok (np, pppComp),
      { c with mppeComp := (mppeCompress sha1 true c.mppeComp pppIp pb).2 }) := by
  have hdown : ¬ (pppIp = pppIp ∧ c.if4Up = false) := fun h => absurd (hup.symm.trans h.2) (by decide)
  have hsome : ¬ c.ccpTransmitMethod = 0 := by
    rw [hmethod]
    decide
  unfold pppNetifPacket
  rw [if_neg hdown, if_neg fun h => h.2 hmethod, if_neg hsome, if_pos hmethod]
  generalize mppeCompress sha1 true c.mppeComp pppIp pb = r at hnp
  obtain ⟨sent, comp⟩ := r
  cases hnp
  rfl

/-- One operation: what it hands to the link, its packet for a receiver, and both ends behind it. -/
theorem Talking.op {m : ExtAccm} {g : Nat} {c d : PppPcb} (h : Talking sha1 g c d) {op : CoreOp}
    (hop : op.Fit m) {events : List TunnelEvent}
    (hlost : FewLost g (op.tunnelEvent.toList ++ events)) (l : List Delivery) :
    (∀ x ∈ (op.link sha1 c).1, x.Fit m) ∧
      ∃ g' d', Talking sha1 g' (op.link sha1 c).2 d' ∧ FewLost g' events ∧
        ((op.link sha1 c).1.bind LinkOp.framed).toList.foldl (logged sha1) (d, l) =
          (d', l ++ op.delivery.toList) := by
  cases op with
  | ip4 now alloc linkAlloc pb =>
    cases alloc with
    | false =>
      have hlink : (CoreOp.ip4 now false linkAlloc pb).link sha1 c = (none, c) :=
        congrArg (netifOp now linkAlloc) (pppNetifPacket_noMemory h.up h.method pb)
      rw [hlink]
      refine ⟨(fun x hx => by cases hx), g, d, h, hlost, ?_⟩
      show (d, l) = (d, l ++ [])
      rw [List.append_nil]
    | true =>
      obtain ⟨np, hnp⟩ : ∃ np, (mppeCompress sha1 true c.mppeComp pppIp pb).1 = some np :=
        ⟨_, congrArg Prod.fst (mppeCompress_eq c.mppeComp pppIp pb)⟩
      have hlink : (CoreOp.ip4 now true linkAlloc pb).link sha1 c =
          (some (.netifOutput now linkAlloc pppComp [np]),
            { c with mppeComp := (mppeCompress sha1 true c.mppeComp pppIp pb).2 }) :=
        congrArg (netifOp now linkAlloc) (pppNetifPacket_mppe h.up h.method hnp)
      have hfit : ∀ x ∈ some (LinkOp.netifOutput now linkAlloc pppComp [np]), x.Fit m := by
        intro x hx
        cases hx
        refine ⟨hop.1, by decide, ?_⟩
        rw [List.flatten_singleton, mppeCompress_length hnp]
        exact hop.2
      rw [hlink]
      refine ⟨hfit, ?_⟩
      cases linkAlloc with
      | false =>
        refine ⟨g + 1, d, ⟨h.keys.sent pppIp pb, h.up, h.method, h.ready⟩, hlost, ?_⟩
        show (d, l) = (d, l ++ [])
        rw [List.append_nil]
      | true =>
        obtain ⟨np', decomp, hnp', hdec, hkeys⟩ := h.keys.arrived hlost.1 pppIp pb
        obtain rfl : np' = np := Option.some.inj (hnp'.symm.trans hnp)
        refine ⟨0, { d with mppeDecomp := decomp }, ⟨hkeys, h.up, h.method, ?_⟩, hlost.2, ?_⟩
        · exact ⟨h.ready.lcp, h.ready.phase, h.ready.method⟩
        · show logged sha1 (d, l) (hiByte pppComp :: loByte pppComp :: [np'].flatten) = _
          rw [List.flatten_singleton, h.ready.ip4 l hdec]
          rfl
  | control now alloc protocol payload =>
    have hfit : ∀ x ∈ some (LinkOp.write now alloc protocol payload), x.Fit m := by
      intro x hx
      cases hx
      exact ⟨hop.1, (protocols_control protocol hop.2.1).2.2, hop.2.2⟩
    refine ⟨hfit, g, d, h, hlost, ?_⟩
    cases alloc with
    | false =>
      show (d, l) = (d, l ++ [])
      rw [List.append_nil]
    | true => exact h.ready.control l hop.2.1 payload
  | sendConfig accm pcomp accomp =>
    have hfit : ∀ x ∈ some (LinkOp.sendConfig accm pcomp accomp), x.Fit m := by
      intro x hx
      cases hx
      exact hop
    refine ⟨hfit, g, d, h, hlost, ?_⟩
    show (d, l) = (d, l ++ [])
    rw [List.append_nil]
  | reset =>
    refine ⟨(fun x hx => by cases hx), g, d, ⟨h.keys.reset, h.up, h.method, h.ready⟩, hlost, ?_⟩
    show (d, l) = (d, l ++ [])
    rw [List.append_nil]
  | become c' => exact hop.elim

theorem Talking.run {m : ExtAccm} {g : Nat} {c d : PppPcb} (h : Talking sha1 g c d)
    (ops : List CoreOp) (hops : ∀ op ∈ ops, op.Fit m)
    (hlost : FewLost g (ops.filterMap CoreOp.tunnelEvent)) (l : List Delivery) :
    (∀ x ∈ coreLink sha1 c ops, x.Fit m) ∧
      (((coreLink sha1 c ops).filterMap LinkOp.framed).foldl (logged sha1) (d, l)).2 =
        l ++ ops.filterMap CoreOp.delivery := by
  induction ops generalizing g c d l with
  | nil => exact ⟨(fun x hx => by cases hx), (List.append_nil l).symm⟩
  | cons op ops ih =>
    have hevents : (op :: ops).filterMap CoreOp.tunnelEvent =
        op.tunnelEvent.toList ++ ops.filterMap CoreOp.tunnelEvent := by
      rw [List.filterMap_cons]
      cases op.tunnelEvent with
      | none => rfl
      | some event => rfl
    have hdelivery : (op :: ops).filterMap CoreOp.delivery =
        op.delivery.toList ++ ops.filterMap CoreOp.delivery := by
      rw [List.filterMap_cons]
      cases op.delivery with
      | none => rfl
      | some delivery => rfl
    rw [hevents] at hlost
    obtain ⟨hfit, g', d', hnext, hlost', hreceived⟩ := h.op (hops op List.mem_cons_self) hlost l
    obtain ⟨hfits, hrest⟩ := ih hnext (fun x hx => hops x (List.mem_cons_of_mem op hx)) hlost'
      (l ++ op.delivery.toList)
    constructor
    · intro x hx
      rcases List.mem_append.mp hx with hx | hx
      · exact hfit x (Option.mem_toList.mp hx)
      · exact hfits x hx
    · show (((op.link sha1 c).1.toList ++ coreLink sha1 (op.link sha1 c).2 ops).filterMap
        LinkOp.framed |>.foldl (logged sha1) (d, l)).2 = _
      rw [framed_toList, List.foldl_append, hreceived, hrest, hdelivery, List.append_assoc]

/-- Both ends of a tunnel, nothing being lost on the line: what arrives is what there was memory for. -/
theorem Talking.delivers {m : ExtAccm} (hm : SessionAccm m) {c d : PppPcb} (h : Talking sha1 0 c d)
    (ops : List CoreOp) (hops : ∀ op ∈ ops, op.Fit m)
    (hlost : FewLost 0 (ops.filterMap CoreOp.tunnelEvent)) {p : Pppos} (hp : SessionAccm p.outAccm)
    (hcover : ∀ c, escapeP m c = true → escapeP p.outAccm c = true) (hlast : p.lastXmit = 0)
    (results : List WriteResult)
    (hwritten : .interface ∉ (coreRun sha1 pppOutput c p ⟨[], results⟩ ops).1)
    {q : Pppos} (hq : Waiting m q) (reads : List Bytes)
    (hreads : reads.flatten = (coreRun sha1 pppOutput c p ⟨[], results⟩ ops).2.2.2.written) :
    (reads.foldl (fun r bytes => ppposInput (logger.upper sha1) r.1 r.2 bytes) ((d, []), q)).1.2 =
      ops.filterMap CoreOp.delivery := by
  obtain ⟨hfits, hreceived⟩ := h.run ops hops hlost []
  have hstart : Linked m (Tty.written ⟨[], results⟩) p [] 0 :=
    ⟨hp, hcover, Or.inr hlast, List.nil_sublist _, Nat.le_refl _⟩
  have hrun := hstart.run pppOutput_writes hm (coreLink sha1 c ops) hfits
  have hlayers := coreRun_eq pppOutput_writes c p ⟨[], results⟩ ops hwritten
  -- as many packets are delivered as were sent, so they are the same
  have hsame : delivered m (coreRun sha1 pppOutput c p ⟨[], results⟩ ops).2.2.2.written =
      (coreLink sha1 c ops).filterMap LinkOp.framed := by
    have hsub := hrun.sublist
    have hcount := hrun.count
    rw [List.nil_append, hlayers] at hsub
    rw [Nat.zero_add, hlayers] at hcount
    exact (hsub.eq_of_length_le ((Nat.le_add_right _ _).trans hcount)).symm
  rw [logger_upper, hq.reads _ hm, hreads, hsame, hreceived, List.nil_append]

/-- From `ppp_netif_output_ip4` on one side to `ip4_input` on the other, with control packets in between:
    when no write to the terminal fails, what arrives is exactly what there was memory for, in order,
    and nothing else happens there, as long as no 2048 packets in a row are lost for want of memory. -/
theorem tunnel_delivers (sha1 : Bytes → Bytes) {m : ExtAccm} (hm : SessionAccm m) (s : MppeState)
    (options : MppeOptions) (hs : s.discard = false) (hkey : (options.opt128 || options.opt40) = true)
    (hmode : (s.stateful || options.stateful) = false) {c d : PppPcb} (hup : c.if4Up = true)
    (hmethod : c.ccpTransmitMethod = ciMppe) (hcomp : c.mppeComp = (mppeInit sha1 s options).1)
    (hready : Ready d) (hdecomp : d.mppeDecomp = (mppeInit sha1 s options).1) (ops : List CoreOp)
    (hops : ∀ op ∈ ops, op.Fit m) (hlost : FewLost 0 (ops.filterMap CoreOp.tunnelEvent))
    {p : Pppos} (hp : SessionAccm p.outAccm)
    (hcover : ∀ c, escapeP m c = true → escapeP p.outAccm c = true) (hlast : p.lastXmit = 0)
    (results : List WriteResult)
    (hwritten : .interface ∉ (coreRun sha1 pppOutput c p ⟨[], results⟩ ops).1)
    {q : Pppos} (hq : Waiting m q) (reads : List Bytes)
    (hreads : reads.flatten = (coreRun sha1 pppOutput c p ⟨[], results⟩ ops).2.2.2.written) :
    (reads.foldl (fun r bytes => ppposInput (logger.upper sha1) r.1 r.2 bytes) ((d, []), q)).1.2 =
      ops.filterMap CoreOp.delivery := by
  have hkeys : Behind sha1 0 c.mppeComp d.mppeDecomp := by
    rw [hcomp, hdecomp]
    exact (mppeInit_inStep s hs hkey).behind ((mppeInit_known s hkey).2.1.trans hmode)
  have htalking : Talking sha1 0 c d := ⟨hkeys, hup, hmethod, hready⟩
  exact htalking.delivers hm ops hops hlost hp hcover hlast results hwritten hq reads hreads

/-- Bytes and flags of an operation, all in all. -/
def CoreOp.cost : CoreOp → Nat
  | .ip4 _ _ _ pb => pb.length + 13
  | .control _ _ _ payload => payload.length + 9
  | _ => 0

theorem pppNetifPacket_length {c : PppPcb} {alloc : Bool} {pb np : Bytes} {protocol protocol' : BitVec 16}
    (h : (pppNetifPacket sha1 alloc c pb protocol).1 = .ok (np, protocol')) :
    np.length ≤ pb.length + 4 := by
  unfold pppNetifPacket at h
  split at h
  · cases h
  · split at h
    · cases h
    · split at h
      · cases h
        omega
      · split at h
        · cases alloc with
          | false => cases h
          | true =>
            rw [mppeCompress_eq] at h
            cases h
            have hlen := mppeCompress_length
              (congrArg Prod.fst (@mppeCompress_eq sha1 c.mppeComp protocol pb))
            omega
        · cases h

theorem CoreOp.link_cost (c : PppPcb) (op : CoreOp) :
    ∀ l ∈ (op.link sha1 c).1, l.cost ≤ op.cost := by
  cases op with
  | ip4 now alloc linkAlloc pb =>
    show ∀ l ∈ (netifOp now linkAlloc (pppNetifPacket sha1 alloc c pb pppIp)).1,
      l.cost ≤ pb.length + 13
    have hlen : ∀ np protocol, (pppNetifPacket sha1 alloc c pb pppIp).1 = .ok (np, protocol) →
        np.length ≤ pb.length + 4 := fun np protocol => pppNetifPacket_length
    generalize pppNetifPacket sha1 alloc c pb pppIp = r at hlen
    obtain ⟨_ | ⟨np, protocol⟩, c'⟩ := r
    · exact fun l hl => by cases hl
    · intro l hl
      cases hl
      have := hlen np protocol rfl
      rw [LinkOp.cost, List.flatten_singleton]
      omega
  | control now alloc protocol payload =>
    intro l hl
    cases hl
    exact Nat.le_refl _
  | sendConfig accm pcomp accomp =>
    intro l hl
    cases hl
    exact Nat.le_refl _
  | reset => exact fun l hl => by cases hl
  | become c' => exact fun l hl => by cases hl

theorem pppNetifPacket_error {c : PppPcb} {alloc : Bool} {pb : Bytes} {protocol : BitVec 16} {err : Err}
    (h : (pppNetifPacket sha1 alloc c pb protocol).1 = .error err) : err ≠ .interface := by
  unfold pppNetifPacket at h
  split at h
  · cases h
    decide
  · split at h
    · cases h
      decide
    · split at h
      · cases h
      · split at h
        · cases alloc with
          | false =>
            cases h
            decide
          | true =>
            rw [mppeCompress_eq] at h
            cases h
        · cases h
          decide

theorem CoreOp.run_quiet {σ : Type u} (cb : σ → Bytes → Nat × σ) (c : PppPcb) (p : Pppos) (ctx : σ)
    (op : CoreOp) (h : (op.link sha1 c).1 = none) : (op.run sha1 cb c p ctx).1 ≠ .interface := by
  cases op with
  | ip4 now alloc linkAlloc pb =>
    have herr : ∀ err, (pppNetifPacket sha1 alloc c pb pppIp).1 = .error err → err ≠ .interface :=
      fun err => pppNetifPacket_error
    have hnone : (netifOp now linkAlloc (pppNetifPacket sha1 alloc c pb pppIp)).1 = none := h
    show (pppNetifOutput sha1 cb now alloc linkAlloc c p ctx pb pppIp).1 ≠ .interface
    unfold pppNetifOutput
    generalize pppNetifPacket sha1 alloc c pb pppIp = r at herr hnone
    obtain ⟨err | ⟨np, protocol⟩, c'⟩ := r
    · exact herr err rfl
    · cases hnone
  | control now alloc protocol payload => cases h
  | sendConfig accm pcomp accomp => cases h
  | reset =>
    show (Err.ok : Err) ≠ .interface
    decide
  | become c' =>
    show (Err.ok : Err) ≠ .interface
    decide

/-- A terminal that takes whole buffers lets no call fail. -/
theorem coreRun_ample (c : PppPcb) (p : Pppos) (tty : Tty) (ops : List CoreOp)
    (h : tty.Ample (ops.map CoreOp.cost).sum) :
    .interface ∉ (coreRun sha1 pppOutput c p tty ops).1 := by
  induction ops generalizing c p tty with
  | nil => exact List.not_mem_nil
  | cons op ops ih =>
    rw [List.map_cons, List.sum_cons] at h
    rw [coreRun_cons]
    have hhead : (op.run sha1 pppOutput c p tty).1 ≠ .interface ∧
        (lowerHalf pppOutput p tty (op.link sha1 c).1).2.Ample (ops.map CoreOp.cost).sum := by
      have herr := (@CoreOp.run_eq sha1 Tty pppOutput c p tty op).2
      have hcost := @CoreOp.link_cost sha1 c op
      cases hlink : (op.link sha1 c).1 with
      | none =>
        refine ⟨CoreOp.run_quiet pppOutput c p tty op hlink, Tty.Ample.lessBy op.cost ?_⟩
        rwa [Nat.add_comm]
      | some l =>
        have hl := hcost l hlink
        have hample : tty.Ample (l.cost + (ops.map CoreOp.cost).sum) := by
          apply Tty.Ample.lessBy (op.cost - l.cost)
          have hsum : l.cost + (ops.map CoreOp.cost).sum + (op.cost - l.cost) =
              op.cost + (ops.map CoreOp.cost).sum := by omega
          rwa [hsum]
        obtain ⟨hne, hrest⟩ := hample.op l p
        rw [herr l hlink]
        exact ⟨hne, hrest⟩
    intro hmem
    rcases List.mem_cons.mp hmem with hfirst | hlater
    · exact hhead.1 hfirst.symm
    · exact ih _ _ _ hhead.2 hlater

/-- Two packets of the network, an echo request of LCP, and a packet that there is no memory for. -/
def tunnelOps : List CoreOp :=
  [.ip4 200 true true [0x45, 0x7e], .control 210 true pppLcp [9, 1, 0, 4],
    .ip4 220 true false [0x45, 1], .ip4 230 true true [0x45, 2]]

def tunnelResults : List WriteResult := List.replicate 100 (.wrote pbufPoolBufsize)

theorem tunnelOps_fit : ∀ op ∈ tunnelOps, op.Fit connectAccm := by
  intro op hop
  simp only [tunnelOps, List.mem_cons, List.not_mem_nil, or_false] at hop
  rcases hop with rfl | rfl | rfl | rfl
  · exact ⟨by decide, by decide⟩
  · exact ⟨by decide, by decide, by decide⟩
  · exact ⟨by decide, by decide⟩
  · exact ⟨by decide, by decide⟩

theorem tunnelOps_written (c : PppPcb) :
    .interface ∉ (coreRun Ppp.sha1 pppOutput c ppposConnect ⟨[], tunnelResults⟩ tunnelOps).1 := by
  have hample : Tty.Ample 100 ⟨[], tunnelResults⟩ := ⟨[], (List.append_nil _).symm⟩
  have hsum : (tunnelOps.map CoreOp.cost).sum + 42 = 100 := rfl
  apply coreRun_ample
  apply Tty.Ample.lessBy 42
  rwa [hsum]

/-- The packets for which there is memory, and the echo request between them. -/
theorem tunnel_delivers_two :
    ∃ reads : List Bytes,
      (reads.foldl (fun r bytes => ppposInput (logger.upper Ppp.sha1) r.1 r.2 bytes)
        ((upPcb, []), ppposConnect)).1.2 =
      [.ip4 [0x45, 0x7e], .control pppLcp [9, 1, 0, 4], .ip4 [0x45, 2]] :=
  ⟨_, tunnel_delivers Ppp.sha1 connectAccm_session clearedState ⟨true, false, false⟩ rfl rfl rfl
    (c := upPcb) (d := upPcb) rfl rfl rfl ⟨rfl, by decide, rfl⟩ rfl tunnelOps tunnelOps_fit
    ⟨by decide, by decide, trivial⟩ (p := ppposConnect) connectAccm_session (fun _ h => h) rfl
    tunnelResults (tunnelOps_written upPcb) connect_waiting
    [(coreRun Ppp.sha1 pppOutput upPcb ppposConnect ⟨[], tunnelResults⟩ tunnelOps).2.2.2.written]
    (List.append_nil _)⟩

end

end PptpProxy.Ppp
