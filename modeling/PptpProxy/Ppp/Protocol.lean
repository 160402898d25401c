/-
  CCP as a whole: the state machine with the callbacks of `ccp.c`.  Over every run, whatever packets
  arrive, the options of every `Configure-Request` and of every `Configure-Ack` that is sent are allowed;
  with the settings of the engine they are those of stateless 128-bit keys.

  The crux is `reqLoop_options`: a request that is acknowledged is a list of options that are agreed on.
-/
import PptpProxy.Ppp.Guards
import PptpProxy.Ppp.Negotiation

namespace PptpProxy.Ppp

open CLib

/-! ## The callbacks of CCP -/

/-- `ccp_down`; `lcpOpened` says that LCP is not already going down. -/
def ccpDown (lcpOpened : Bool) (s : Ccp) : Ccp :=
  if s.gotoptions.mppe ≠ MppeBits.none then
    { s with
      gotoptions := { s.gotoptions with mppe := MppeBits.none }
      closing := s.closing || lcpOpened }
  else s

/-- `ccp_extcode`; `mppe_decomp_reset` does nothing. -/
def ccpExtcode (s : Ccp) (state : FsmState) (code id : UInt8) :
    Bool × List (UInt8 × UInt8 × Bytes) × Ccp :=
  if code = 14 then
    if state ≠ .opened then (true, [], s)
    else
      (true, [(15, id, [])],
        if s.hisoptions.method = 18 then { s with mppeComp := mppeCompReset s.mppeComp } else s)
  else if code = 15 then (true, [], s)
  else (false, [], s)

/-- `ccp_callbacks`, with the answers of `pbuf_alloc` to come; when they are used up, there is memory. -/
def ccpCallbacks (sha1 : Bytes → Bytes) (lcpOpened : Bool) (peerMru : Nat) :
    FsmCallbacks (Ccp × List Bool) where
  resetci := fun s => (ccpResetci s.1, s.2)
  cilen := fun s => ccpCilen s.1
  addci := fun s _ => ((ccpAddci sha1 s.1).1, (ccpAddci sha1 s.1).2, s.2)
  ackci := fun s data => ccpAckci s.1 data
  nakci := fun s state data _ =>
    ((ccpNakci { s.1 with state := state } data).1, (ccpNakci { s.1 with state := state } data).2, s.2)
  rejci := fun s state data =>
    ((ccpRejci { s.1 with state := state } data).1, (ccpRejci { s.1 with state := state } data).2, s.2)
  reqci := fun s data dontNak =>
    ((ccpReqci sha1 s.1 data dontNak).1, (ccpReqci sha1 s.1 data dontNak).2.1,
      (ccpReqci sha1 s.1 data dontNak).2.2, s.2)
  up := id
  down := fun s => (ccpDown lcpOpened s.1, s.2)
  starting := id
  finished := id
  retransmit := id
  extcode := fun s state _ code id _ =>
    ((ccpExtcode s.1 state code id).1, (ccpExtcode s.1 state code id).2.1,
      (ccpExtcode s.1 state code id).2.2, s.2)
  alloc := fun s => (s.2.headD true, s.1, s.2.tail)
  peerMru := fun _ => peerMru
  maxConfReqTransmits := 10
  maxTermTransmits := 2
  maxNakLoops := 5

/-! ## What CCP sends -/

/-- The options of a request are allowed, as far as they go; those of an acknowledgement have one key
    length each. -/
def Permitted (t : MppeSettings) (code : UInt8) (data : Bytes) : Prop :=
  code = 1 ∨ code = 2 →
    ∃ os : List MppeBits,
      (∀ o ∈ os, Allowed t o ∧ o ≠ MppeBits.none ∧ (code = 2 → o.opt128 = !o.opt40)) ∧
      data <+: (os.map mppeOption).flatten

variable {sha1 : Bytes → Bytes}

/-- A request that is acknowledged holds nothing but options that are agreed on. -/
theorem reqLoop_options (dontNak : Bool) (fuel : Nat) (r : ReqLoop) (p : Bytes)
    (hfuel : p.length ≤ fuel) (h : (reqLoop sha1 dontNak fuel r p).ret = .ack) :
    ∃ os : List MppeBits, (∀ o ∈ os, Agreed r.ccp.settings r.ccp.allowoptions.mppe o) ∧
      p = (os.map mppeOption).flatten := by
  induction fuel generalizing r p with
  | zero => exact ⟨[], (fun o ho => by cases ho), List.length_eq_zero_iff.mp (by omega)⟩
  | succ fuel ih =>
    by_cases hp : p = []
    · exact ⟨[], (fun o ho => by cases ho), hp⟩
    · cases hlen : optionLength p with
      | none =>
        rw [reqLoop_bad hp hlen] at h
        cases (ReqLoop.turn_ack h).2
      | some clen =>
        rw [reqLoop_option hp hlen] at h
        obtain ⟨htwo, hle⟩ := optionLength_le hlen
        have hrest : (p.drop clen).length ≤ fuel := by
          rw [List.length_drop]
          omega
        have hack := (ReqLoop.turn_ack (reqLoop_ret dontNak fuel _ _ h)).2
        have hccp := (r.turn_kept dontNak (reqOption sha1 r.ccp (p.take clen))).2
        have hframe := (@reqOption_frame sha1 r.ccp (p.take clen)).2
        obtain ⟨os, hos, hflat⟩ := ih _ _ hrest h
        rw [hccp, hframe.settings, hframe.allow] at hos
        generalize hoption : reqOption sha1 r.ccp (p.take clen) = x at hack
        obtain ⟨newret, option, ccp, clear⟩ := x
        obtain rfl : newret = .ack := hack
        obtain ⟨ho, -, hsent, -, hagreed, -⟩ := reqOption_ack hoption
        refine ⟨ho :: os, ?_, ?_⟩
        · intro o hmem
          rcases List.mem_cons.mp hmem with rfl | hmem
          · exact hagreed
          · exact hos o hmem
        · rw [List.map_cons, List.flatten_cons, ← hflat, ← hsent, List.take_append_drop]

theorem Tame.down {t : MppeSettings} {s : Ccp} (h : Tame t s) (lcpOpened : Bool) :
    Tame t (ccpDown lcpOpened s) := by
  unfold ccpDown
  split
  · exact ⟨h.settings, h.want, allowed_none t, h.allow⟩
  · exact h

theorem Tame.extcode {t : MppeSettings} {s : Ccp} (h : Tame t s) (state : FsmState)
    (code id : UInt8) :
    Tame t (ccpExtcode s state code id).2.2 ∧
      ∀ packet ∈ (ccpExtcode s state code id).2.1, packet.1 = 15 := by
  unfold ccpExtcode
  split
  · split
    · exact ⟨h, fun packet hpacket => by cases hpacket⟩
    · refine ⟨?_, fun packet hpacket => ?_⟩
      · show Tame t (if s.hisoptions.method = 18 then _ else s)
        split
        · exact ⟨h.settings, h.want, h.got, h.allow⟩
        · exact h
      · obtain rfl := List.mem_singleton.mp hpacket
        rfl
  · split
    · exact ⟨h, fun packet hpacket => by cases hpacket⟩
    · exact ⟨h, fun packet hpacket => by cases hpacket⟩

theorem permitted_other (t : MppeSettings) {code : UInt8} {data : Bytes} (h1 : code ≠ 1)
    (h2 : code ≠ 2) : Permitted t code data := by
  rintro (h | h)
  · exact absurd h h1
  · exact absurd h h2

/-- What `ccp_addci` writes. -/
theorem permitted_addci {t : MppeSettings} {s : Ccp} (h : Tame t s) :
    Permitted t 1 (ccpAddci sha1 s).1 := by
  intro _
  unfold ccpAddci
  split
  · rename_i hne
    refine ⟨[s.gotoptions.mppe], ?_, ?_⟩
    · intro o ho
      obtain rfl := List.mem_singleton.mp ho
      exact ⟨h.got, hne, fun h' => by cases h'⟩
    · rw [List.map_singleton, List.flatten_singleton]
  · exact ⟨[], (fun o ho => by cases ho), List.nil_prefix⟩

/-- What `ccp_reqci` acknowledges. -/
theorem permitted_reqci {t : MppeSettings} {s : Ccp} (h : Tame t s) (data : Bytes) (dontNak : Bool)
    (hack : (ccpReqci sha1 s data dontNak).1 = .ack) :
    Permitted t 2 (ccpReqci sha1 s data dontNak).2.1 := by
  intro _
  obtain ⟨hret, heq⟩ := ccpReqci_ack hack
  have hkept := (reqLoop_ack dontNak data.length (reqStart s data) data (Nat.le_refl _) (Or.inl rfl)
    hret).1
  obtain ⟨os, hos, hflat⟩ := reqLoop_options dontNak data.length (reqStart s data) data
    (Nat.le_refl _) hret
  refine ⟨os, ?_, ?_⟩
  · intro o ho
    have hagreed : Agreed s.settings s.allowoptions.mppe o := hos o ho
    rw [h.settings] at hagreed
    refine ⟨hagreed.allowed h.allow, ?_, fun _ => hagreed.oneKey⟩
    rintro rfl
    cases hagreed.oneKey
  · rw [heq]
    show (reqLoop sha1 dontNak data.length (reqStart s data) data).kept <+: _
    rw [hkept, ← hflat]
    exact List.prefix_refl _

theorem ccp_guards (t : MppeSettings) (lcpOpened : Bool) (peerMru : Nat) :
    (ccpCallbacks sha1 lcpOpened peerMru).Guards (fun s => Tame t s.1) (Permitted t) where
  cut := by
    intro code data n h hcode
    obtain ⟨os, hos, hprefix⟩ := h hcode
    exact ⟨os, hos, (List.take_prefix n data).trans hprefix⟩
  empty := fun _ _ => ⟨[], (fun o ho => by cases ho), List.nil_prefix⟩
  others := fun _ _ h1 h2 => permitted_other t h1 h2
  resetci := fun _ h => h.resetci
  addci := fun _ _ h => ⟨h.addci, permitted_addci h⟩
  nakci := fun s state data _ h =>
    @Tame.nakci t { s.1 with state := state } ⟨h.settings, h.want, h.got, h.allow⟩ data
  rejci := fun s state data h =>
    @Tame.rejci t { s.1 with state := state } ⟨h.settings, h.want, h.got, h.allow⟩ data
  reqci := fun s data dontNak h =>
    ⟨h.same (ccpReqci_same s.1 data dontNak), permitted_reqci h data dontNak⟩
  up := fun _ h => h
  down := fun _ h => h.down lcpOpened
  starting := fun _ h => h
  finished := fun _ h => h
  retransmit := fun _ h => h
  alloc := fun _ h => h
  extcode := by
    intro s state reqid code id data h
    obtain ⟨hkept, hpackets⟩ := h.extcode state code id
    refine ⟨hkept, fun packet hpacket => ?_⟩
    have hcode := hpackets packet hpacket
    exact permitted_other t (by rw [hcode]; decide) (by rw [hcode]; decide)

/-- Every run of CCP, from a control block without options. -/
theorem ccp_guarded (lcpOpened : Bool) (peerMru : Nat) {f : Fsm (Ccp × List Bool)}
    (hcalls : f.calls = []) (hwant : f.env.1.wantoptions.mppe = MppeBits.none)
    (hgot : f.env.1.gotoptions.mppe = MppeBits.none)
    (hallow : f.env.1.allowoptions.mppe = MppeBits.none) (events : List (FsmEvent (Ccp × List Bool)))
    (hevents : ∀ env, FsmEvent.become env ∈ events → Tame f.env.1.settings env.1) :
    Guarded (fun s => Tame f.env.1.settings s.1) (Permitted f.env.1.settings)
      (fsmRun (ccpCallbacks sha1 lcpOpened peerMru) (fsmInit f) events) := by
  have htame : Tame f.env.1.settings f.env.1 := by
    refine ⟨rfl, ?_, ?_, ?_⟩
    · rw [hwant]
      exact allowed_none _
    · rw [hgot]
      exact allowed_none _
    · rw [hallow]
      exact allowed_none _
  have hstart : Guarded (fun s : Ccp × List Bool => Tame f.env.1.settings s.1)
      (Permitted f.env.1.settings) (fsmInit f) := by
    refine ⟨htame, fun code id data hmem => ?_⟩
    have hmem' : FsmCall.send code id data ∈ f.calls := hmem
    rw [hcalls] at hmem'
    cases hmem'
  exact hstart.run (ccp_guards f.env.1.settings lcpOpened peerMru) events hevents

/-- Over every run of CCP, whatever packets arrive and wherever memory runs out: the options of every
    `Configure-Request` and every `Configure-Ack` that is sent are allowed by the settings, and those
    of an acknowledgement have one key length. -/
theorem ccp_permitted (sha1 : Bytes → Bytes) (lcpOpened : Bool) (peerMru : Nat)
    (f : Fsm (Ccp × List Bool)) (hcalls : f.calls = [])
    (hwant : f.env.1.wantoptions.mppe = MppeBits.none)
    (hgot : f.env.1.gotoptions.mppe = MppeBits.none)
    (hallow : f.env.1.allowoptions.mppe = MppeBits.none) (events : List (FsmEvent (Ccp × List Bool)))
    (hevents : ∀ env, FsmEvent.become env ∈ events → Tame f.env.1.settings env.1)
    (code id : UInt8) (data : Bytes)
    (hsent : FsmCall.send code id data ∈
      (fsmRun (ccpCallbacks sha1 lcpOpened peerMru) (fsmInit f) events).calls) :
    Permitted f.env.1.settings code data :=
  (ccp_guarded lcpOpened peerMru hcalls hwant hgot hallow events hevents).sent code id data hsent

/-- CCP as `ccp_init` leaves it, behind MS-CHAPv2. -/
def startingFsm : Fsm (Ccp × List Bool) where
  state := .initial
  passive := false
  restart := false
  silent := false
  seenAck := false
  id := 0
  reqid := 0
  retransmits := 0
  nakloops := 0
  rnakloops := 0
  termReason := []
  timer := false
  calls := []
  env := (startingCcp false, [])

/-- CCP comes up as far as its request, and a peer asks for 128-bit keys. -/
def startingEvents : List (FsmEvent (Ccp × List Bool)) :=
  [.open, .lowerup, .input [1, 9, 0, 10, 18, 6, 1, 0, 0, 0x40]]

theorem startingEvents_sent :
    (fsmRun (ccpCallbacks Ppp.sha1 true 1500) (fsmInit startingFsm) startingEvents).calls =
      [.send 2 9 [18, 6, 1, 0, 0, 0x40], .send 1 1 [18, 6, 1, 0, 0, 0x60], .starting] := rfl

theorem ccp_permitted_128 :
    Permitted (startingCcp false).settings 2 [18, 6, 1, 0, 0, 0x40] :=
  have hbecome : ∀ env, FsmEvent.become env ∈ startingEvents →
      Tame (startingCcp false).settings env.1 := by
    intro env henv
    simp [startingEvents] at henv
  ccp_permitted Ppp.sha1 true 1500 startingFsm rfl rfl rfl rfl startingEvents hbecome 2 9
    [18, 6, 1, 0, 0, 0x40] (startingEvents_sent ▸ List.mem_cons_self)

/-! ## The settings of the engine -/

/-- `ppp_set_mppe(ppp, PPP_MPPE_ENABLE | PPP_MPPE_REFUSE_40)`, on settings that `ppp_new` has cleared. -/
def engineSettings : MppeSettings := pppSetMppe ⟨false, false, false, false⟩ (0x01 ||| 0x04)

theorem allowed_engine {o : MppeBits} (h : Allowed engineSettings o) (hne : o ≠ MppeBits.none) :
    o = bits128 := by
  obtain ⟨⟨h56, hmppc, hD, hunknown⟩, -, h40, hstateful⟩ := h
  obtain ⟨⟨opt128, opt40, stateful⟩, opt56, mppc, optD, unknown⟩ := o
  obtain rfl : opt56 = false := h56
  obtain rfl : mppc = false := hmppc
  obtain rfl : optD = false := hD
  obtain rfl : unknown = false := hunknown
  cases opt40 with
  | true => cases h40 rfl
  | false =>
    cases stateful with
    | true => cases hstateful rfl
    | false =>
      cases opt128 with
      | true => rfl
      | false => exact absurd rfl hne

/-- The engine asks for stateless 128-bit keys or for nothing, and acknowledges nothing else. -/
theorem engine_mppe (sha1 : Bytes → Bytes) (lcpOpened : Bool) (peerMru : Nat)
    (f : Fsm (Ccp × List Bool)) (hsettings : f.env.1.settings = engineSettings) (hcalls : f.calls = [])
    (hwant : f.env.1.wantoptions.mppe = MppeBits.none)
    (hgot : f.env.1.gotoptions.mppe = MppeBits.none)
    (hallow : f.env.1.allowoptions.mppe = MppeBits.none) (events : List (FsmEvent (Ccp × List Bool)))
    (hevents : ∀ env, FsmEvent.become env ∈ events → Tame f.env.1.settings env.1)
    (code id : UInt8) (hcode : code = 1 ∨ code = 2) (data : Bytes)
    (hsent : FsmCall.send code id data ∈
      (fsmRun (ccpCallbacks sha1 lcpOpened peerMru) (fsmInit f) events).calls) :
    ∃ n, data <+: (List.replicate n (mppeOption bits128)).flatten := by
  have hguarded := @ccp_guarded sha1 lcpOpened peerMru f hcalls hwant hgot hallow events hevents
  obtain ⟨os, hos, hprefix⟩ := hguarded.sent code id data hsent hcode
  have hsame : os.map mppeOption = List.replicate os.length (mppeOption bits128) := by
    refine List.eq_replicate_iff.mpr ⟨List.length_map _, fun option hoption => ?_⟩
    obtain ⟨o, ho, rfl⟩ := List.mem_map.mp hoption
    obtain ⟨hallowed, hne, -⟩ := hos o ho
    rw [hsettings] at hallowed
    rw [allowed_engine hallowed hne]
  rw [hsame] at hprefix
  exact ⟨os.length, hprefix⟩

/-- The engine's CCP in front of its first request. -/
def engineFsm : Fsm (Ccp × List Bool) :=
  { startingFsm with env := ({ startingCcp false with settings := engineSettings }, []) }

theorem engine_mppe_request :
    ∃ n, [18, 6, 1, 0, 0, 0x40] <+: (List.replicate n (mppeOption bits128)).flatten :=
  have hbecome : ∀ env, FsmEvent.become env ∈ startingEvents → Tame engineSettings env.1 := by
    intro env henv
    simp [startingEvents] at henv
  have hsent : (fsmRun (ccpCallbacks Ppp.sha1 true 1500) (fsmInit engineFsm) startingEvents).calls =
      [.send 2 9 [18, 6, 1, 0, 0, 0x40], .send 1 1 [18, 6, 1, 0, 0, 0x40], .starting] := rfl
  engine_mppe Ppp.sha1 true 1500 engineFsm rfl rfl rfl rfl rfl startingEvents hbecome 1 1 (Or.inl rfl)
    [18, 6, 1, 0, 0, 0x40] (hsent ▸ List.mem_cons_of_mem _ List.mem_cons_self)

end PptpProxy.Ppp
