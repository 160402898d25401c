/-
  A rule for the state machine: a property that the callbacks keep, of what they work on and of the packets
  they give out, holds over every run.

  No case looks at a state: every function of the machine is a chain of packets, calls and callbacks.
-/
import PptpProxy.Ppp.Automaton

namespace PptpProxy.Ppp

open CLib

universe u

variable {σ : Type u}

/-! ## What a machine passes on -/

/-- A property `P` of what the callbacks work on and one `Q` of packets, which the callbacks keep. -/
structure FsmCallbacks.Guards (c : FsmCallbacks σ) (P : σ → Prop) (Q : UInt8 → Bytes → Prop) : Prop where
  cut : ∀ code data n, Q code data → Q code (data.take n)
  empty : ∀ code, Q code []
  others : ∀ code data, code ≠ 1 → code ≠ 2 → Q code data
  resetci : ∀ s, P s → P (c.resetci s)
  addci : ∀ s n, P s → P (c.addci s n).2 ∧ Q 1 (c.addci s n).1
  nakci : ∀ s state data loops, P s → P (c.nakci s state data loops).2
  rejci : ∀ s state data, P s → P (c.rejci s state data).2
  reqci : ∀ s data dontNak, P s → P (c.reqci s data dontNak).2.2 ∧
    ((c.reqci s data dontNak).1 = .ack → Q 2 (c.reqci s data dontNak).2.1)
  up : ∀ s, P s → P (c.up s)
  down : ∀ s, P s → P (c.down s)
  starting : ∀ s, P s → P (c.starting s)
  finished : ∀ s, P s → P (c.finished s)
  retransmit : ∀ s, P s → P (c.retransmit s)
  alloc : ∀ s, P s → P (c.alloc s).2
  extcode : ∀ s state reqid code id data, P s → P (c.extcode s state reqid code id data).2.2 ∧
    ∀ packet ∈ (c.extcode s state reqid code id data).2.1, Q packet.1 packet.2.2

/-- The property holds, and all packets so far have theirs. -/
structure Guarded (P : σ → Prop) (Q : UInt8 → Bytes → Prop) (f : Fsm σ) : Prop where
  env : P f.env
  sent : ∀ code id data, FsmCall.send code id data ∈ f.calls → Q code data

section

variable {c : FsmCallbacks σ} {P : σ → Prop} {Q : UInt8 → Bytes → Prop} {f : Fsm σ}

theorem Guarded.goto (h : Guarded P Q f) (state : FsmState) : Guarded P Q (f.goto state) :=
  ⟨h.env, h.sent⟩

theorem Guarded.untimeout (h : Guarded P Q f) : Guarded P Q f.untimeout := ⟨h.env, h.sent⟩

/-- A call that is no packet. -/
theorem sent_cons {l : List FsmCall} {x : FsmCall} (hx : ∀ code id data, x ≠ .send code id data)
    (h : ∀ code id data, FsmCall.send code id data ∈ l → Q code data) :
    ∀ code id data, FsmCall.send code id data ∈ x :: l → Q code data := by
  intro code id data hmem
  rcases List.mem_cons.mp hmem with heq | hmem
  · exact absurd heq.symm (hx code id data)
  · exact h code id data hmem

/-- A packet. -/
theorem sent_send {l : List FsmCall} {code id : UInt8} {data : Bytes} (hdata : Q code data)
    (h : ∀ code id data, FsmCall.send code id data ∈ l → Q code data) :
    ∀ code' id' data', FsmCall.send code' id' data' ∈ FsmCall.send code id data :: l →
      Q code' data' := by
  intro code' id' data' hmem
  rcases List.mem_cons.mp hmem with heq | hmem
  · cases heq
    exact hdata
  · exact h code' id' data' hmem

variable (hc : c.Guards P Q)
include hc

theorem Guarded.up (h : Guarded P Q f) : Guarded P Q (f.up c) :=
  ⟨hc.up _ h.env, sent_cons (fun _ _ _ h' => by cases h') h.sent⟩

theorem Guarded.down (h : Guarded P Q f) : Guarded P Q (f.down c) :=
  ⟨hc.down _ h.env, sent_cons (fun _ _ _ h' => by cases h') h.sent⟩

theorem Guarded.start (h : Guarded P Q f) : Guarded P Q (f.start c) :=
  ⟨hc.starting _ h.env, sent_cons (fun _ _ _ h' => by cases h') h.sent⟩

theorem Guarded.finish (h : Guarded P Q f) : Guarded P Q (f.finish c) :=
  ⟨hc.finished _ h.env, sent_cons (fun _ _ _ h' => by cases h') h.sent⟩

theorem Guarded.sdata (h : Guarded P Q f) {code : UInt8} (id : UInt8) {data : Bytes}
    (hdata : Q code data) : Guarded P Q (f.sdata c code id data) := by
  unfold Fsm.sdata
  split
  · exact ⟨hc.alloc _ h.env, sent_send (hc.cut _ _ _ hdata) h.sent⟩
  · exact ⟨hc.alloc _ h.env, h.sent⟩

theorem Guarded.sendAll (h : Guarded P Q f) {packets : List (UInt8 × UInt8 × Bytes)}
    (hpackets : ∀ packet ∈ packets, Q packet.1 packet.2.2) : Guarded P Q (f.sendAll c packets) := by
  induction packets generalizing f with
  | nil => exact h
  | cons packet packets ih =>
    exact ih (h.sdata hc packet.2.1 (hpackets packet List.mem_cons_self))
      (fun x hx => hpackets x (List.mem_cons_of_mem packet hx))

theorem Guarded.sconfreq (h : Guarded P Q f) (retransmit : Bool) :
    Guarded P Q (f.sconfreq c retransmit) := by
  have hprepared : Guarded P Q (f.prepare c retransmit) := by
    unfold Fsm.prepare
    cases f.state.negotiating with
    | true =>
      cases retransmit with
      | true => exact ⟨h.env, h.sent⟩
      | false => exact ⟨h.env, h.sent⟩
    | false =>
      cases retransmit with
      | true => exact ⟨hc.resetci _ h.env, h.sent⟩
      | false => exact ⟨hc.resetci _ h.env, h.sent⟩
  have hrequest : ∀ s, P s → P (c.request s).2 ∧ Q 1 (c.request s).1 := by
    intro s hs
    unfold FsmCallbacks.request
    split
    · exact ⟨hs, hc.empty 1⟩
    · exact hc.addci s _ hs
  have hasked := hrequest _ (hc.alloc _ hprepared.env)
  unfold Fsm.sconfreq Fsm.request
  split
  · exact ⟨hasked.1, sent_send hasked.2 hprepared.sent⟩
  · exact ⟨hc.alloc _ hprepared.env, hprepared.sent⟩

theorem Guarded.begin (h : Guarded P Q f) : Guarded P Q (f.begin c) := by
  unfold Fsm.begin
  split
  · exact h.goto _
  · exact (h.sconfreq hc false).goto _

theorem Guarded.lowerup (h : Guarded P Q f) : Guarded P Q (fsmLowerup c f) := by
  unfold fsmLowerup
  split
  · exact h.goto _
  · exact h.begin hc
  · exact h

theorem Guarded.lowerdown (h : Guarded P Q f) : Guarded P Q (fsmLowerdown c f) := by
  unfold fsmLowerdown
  split
  · exact h.goto _
  · exact (h.goto _).start hc
  · exact (h.goto _).untimeout
  · exact (h.goto _).untimeout
  · exact (h.goto _).untimeout
  · exact (h.goto _).untimeout
  · exact (h.goto _).untimeout
  · exact (h.down hc).goto _
  · exact h

theorem Guarded.restarted (h : Guarded P Q f) : Guarded P Q (f.restarted c) := by
  unfold Fsm.restarted
  split
  · exact (h.lowerdown hc).lowerup hc
  · exact h

theorem Guarded.opens (h : Guarded P Q f) : Guarded P Q (fsmOpen c f) := by
  unfold fsmOpen
  split
  · exact (h.goto _).start hc
  · exact h.begin hc
  · exact (h.goto _).restarted hc
  · exact h.restarted hc
  · exact h.restarted hc
  · exact h

theorem Guarded.termreq (h : Guarded P Q f) : Guarded P Q (f.termreq c) := by
  have hnext : Guarded P Q { f with id := f.id + 1, reqid := f.id + 1 } := ⟨h.env, h.sent⟩
  exact hnext.sdata hc _ (hc.others 5 _ (by decide) (by decide))

theorem Guarded.terminate (h : Guarded P Q f) (nextstate : FsmState) :
    Guarded P Q (terminateLayer c f nextstate) := by
  unfold terminateLayer
  extract_lets left f'
  have hleft : Guarded P Q left := by
    show Guarded P Q (if f.state ≠ .opened then f.untimeout else f.down c)
    split
    · exact h.untimeout
    · exact h.down hc
  have hcount : Guarded P Q { left with retransmits := c.maxTermTransmits } :=
    ⟨hleft.env, hleft.sent⟩
  have hf' : Guarded P Q f' := hcount.termreq hc
  split
  · exact (hf'.goto _).finish hc
  · exact ⟨hf'.env, hf'.sent⟩

theorem Guarded.close (h : Guarded P Q f) (reason : Bytes) : Guarded P Q (fsmClose c f reason) := by
  unfold fsmClose
  extract_lets f'
  have hf' : Guarded P Q f' := ⟨h.env, h.sent⟩
  split
  · exact hf'.goto _
  · exact hf'.goto _
  · exact hf'.goto _
  · exact hf'.terminate hc _
  · exact hf'.terminate hc _
  · exact hf'.terminate hc _
  · exact hf'.terminate hc _
  · exact hf'

theorem Guarded.timeout (h : Guarded P Q f) : Guarded P Q (fsmTimeout c f) := by
  have hterm := h.termreq hc
  have hagain : Guarded P Q { f with env := c.retransmit f.env } := ⟨hc.retransmit _ h.env, h.sent⟩
  have hsent := hagain.sconfreq hc true
  rcases fsmTimeout_cases c f with ⟨-, heq⟩ | ⟨-, heq⟩ | ⟨-, heq⟩
  · rw [heq]
    unfold Fsm.terminateAgain
    split
    · exact (h.goto _).finish hc
    · exact ⟨hterm.env, hterm.sent⟩
  · rw [heq]
    unfold Fsm.requestAgain
    split
    · split
      · exact h.goto _
      · exact (h.goto _).finish hc
    · split
      · exact hsent.goto _
      · exact hsent
  · rw [heq]
    exact h

theorem Guarded.renegotiate (h : Guarded P Q f) : Guarded P Q (f.renegotiate c) :=
  ((h.down hc).sconfreq hc false).goto _

theorem Guarded.answered (h : Guarded P Q f) (code : Conf) : Guarded P Q (f.answered c code) := by
  unfold Fsm.answered
  split
  · extract_lets f'
    have hf' : Guarded P Q f' := by
      show Guarded P Q (if f.state = .ackrcvd then (f.untimeout.goto .opened).up c
        else f.goto .acksent)
      split
      · exact (h.untimeout.goto _).up hc
      · exact h.goto _
    exact ⟨hf'.env, hf'.sent⟩
  · extract_lets f'
    have hf' : Guarded P Q f' := by
      show Guarded P Q (if f.state ≠ .ackrcvd then f.goto .reqsent else f)
      split
      · exact h.goto _
      · exact h
    split
    · exact ⟨hf'.env, hf'.sent⟩
    · exact hf'

theorem Guarded.answer (h : Guarded P Q f) (id : UInt8) (data : Bytes) :
    Guarded P Q (f.answer c id data) := by
  unfold Fsm.answer
  extract_lets r
  obtain ⟨hkept, hack⟩ := hc.reqci f.env data (c.maxNakLoops ≤ f.nakloops) h.env
  have henv : Guarded P Q { f with env := r.2.2 } := ⟨hkept, h.sent⟩
  have hdata : Q r.1.code r.2.1 := by
    cases hcode : r.1 with
    | ack => exact hack hcode
    | nak => exact hc.others 3 _ (by decide) (by decide)
    | rej => exact hc.others 4 _ (by decide) (by decide)
  exact (henv.sdata hc id hdata).answered hc r.1

theorem Guarded.rconfreq (h : Guarded P Q f) (id : UInt8) (data : Bytes) :
    Guarded P Q (fsmRconfreq c f id data) := by
  unfold fsmRconfreq
  split
  · exact h.sdata hc id (hc.empty 6)
  · exact h
  · exact h
  · exact (h.renegotiate hc).answer hc id data
  · exact ((h.sconfreq hc false).goto _).answer hc id data
  · exact h.answer hc id data

theorem Guarded.rconfack (h : Guarded P Q f) (id : UInt8) (data : Bytes) :
    Guarded P Q (fsmRconfack c f id data) := by
  unfold fsmRconfack
  split
  · exact h
  · split
    · exact h
    · extract_lets f'
      have hf' : Guarded P Q f' := ⟨h.env, h.sent⟩
      split
      · exact hf'.sdata hc id (hc.empty 6)
      · exact hf'.sdata hc id (hc.empty 6)
      · exact ⟨hf'.env, hf'.sent⟩
      · exact (hf'.untimeout.sconfreq hc false).goto _
      · have hopened : Guarded P Q
            { f'.untimeout.goto .opened with retransmits := c.maxConfReqTransmits } :=
          ⟨hf'.env, hf'.sent⟩
        exact hopened.up hc
      · exact hf'.renegotiate hc
      · exact hf'

theorem Guarded.refused (h : Guarded P Q f) (id : UInt8) (ret : Int) :
    Guarded P Q (f.refused c id ret) := by
  unfold Fsm.refused
  extract_lets f'
  have hf' : Guarded P Q f' := ⟨h.env, h.sent⟩
  have hagain : Guarded P Q (if ret < 0 then f'.untimeout.goto .stopped
      else f'.untimeout.sconfreq c false) := by
    split
    · exact hf'.untimeout.goto _
    · exact hf'.untimeout.sconfreq hc false
  split
  · exact hf'.sdata hc id (hc.empty 6)
  · exact hf'.sdata hc id (hc.empty 6)
  · exact hagain
  · exact hagain
  · exact (hf'.untimeout.sconfreq hc false).goto _
  · exact hf'.renegotiate hc
  · exact hf'

theorem Guarded.rconfnakrej (h : Guarded P Q f) (nak : Bool) (id : UInt8) (data : Bytes) :
    Guarded P Q (fsmRconfnakrej c f nak id data) := by
  unfold fsmRconfnakrej
  split
  · exact h
  · split
    · extract_lets rnakloops r f'
      have hf' : Guarded P Q f' := ⟨hc.nakci _ _ _ _ h.env, h.sent⟩
      split
      · exact hf'
      · exact hf'.refused hc id r.1
    · extract_lets r f'
      have hf' : Guarded P Q f' := ⟨hc.rejci _ _ _ h.env, h.sent⟩
      split
      · exact hf'
      · exact hf'.refused hc id r.1

theorem Guarded.rtermreq (h : Guarded P Q f) (id : UInt8) : Guarded P Q (fsmRtermreq c f id) := by
  have hterminated : Guarded P Q (f.terminated c) := by
    unfold Fsm.terminated
    split
    · exact h.goto _
    · exact h.goto _
    · have hstopping : Guarded P Q ({ f with retransmits := 0 }.goto .stopping) := ⟨h.env, h.sent⟩
      have hdown := hstopping.down hc
      exact ⟨hdown.env, hdown.sent⟩
    · exact h
  exact hterminated.sdata hc id (hc.empty 6)

theorem Guarded.rtermack (h : Guarded P Q f) : Guarded P Q (fsmRtermack c f) := by
  unfold fsmRtermack
  split
  · exact (h.untimeout.goto _).finish hc
  · exact (h.untimeout.goto _).finish hc
  · exact h.goto _
  · exact h.renegotiate hc
  · exact h

omit hc in
theorem Guarded.rcoderej (h : Guarded P Q f) (data : Bytes) : Guarded P Q (fsmRcoderej f data) := by
  unfold fsmRcoderej
  split
  · exact h
  · split
    · exact h.goto _
    · exact h

theorem Guarded.protreject (h : Guarded P Q f) : Guarded P Q (fsmProtreject c f) := by
  unfold fsmProtreject
  split
  · exact (h.untimeout.goto _).finish hc
  · exact h.finish hc
  · exact (h.untimeout.goto _).finish hc
  · exact (h.untimeout.goto _).finish hc
  · exact (h.untimeout.goto _).finish hc
  · exact (h.untimeout.goto _).finish hc
  · exact h.finish hc
  · exact h.terminate hc _
  · exact h

theorem Guarded.code (h : Guarded P Q f) (packet : Bytes) (code id : UInt8) (data : Bytes) :
    Guarded P Q (fsmCode c f packet code id data) := by
  unfold fsmCode
  split
  · exact h.rconfreq hc id data
  · split
    · exact h.rconfack hc id data
    · split
      · exact h.rconfnakrej hc true id data
      · split
        · exact h.rconfnakrej hc false id data
        · split
          · exact h.rtermreq hc id
          · split
            · exact h.rtermack hc
            · split
              · exact h.rcoderej data
              · extract_lets r f'
                obtain ⟨hkept, hpackets⟩ := hc.extcode f.env f.state f.reqid code id data h.env
                have henv : Guarded P Q { f with env := r.2.2 } := ⟨hkept, h.sent⟩
                have hf' : Guarded P Q f' := henv.sendAll hc hpackets
                split
                · exact hf'
                · have hnext : Guarded P Q { f' with id := f'.id + 1 } := ⟨hf'.env, hf'.sent⟩
                  exact hnext.sdata hc _ (hc.others 7 packet (by decide) (by decide))

theorem Guarded.input (h : Guarded P Q f) (packet : Bytes) : Guarded P Q (fsmInput c f packet) := by
  unfold fsmInput
  split
  · extract_lets len
    split
    · exact h
    · split
      · exact h
      · split
        · exact h
        · exact h.code hc _ _ _ _
  · exact h

/-- One event; what others do to what the callbacks work on has to keep the property. -/
theorem Guarded.step (h : Guarded P Q f) (event : FsmEvent σ)
    (hevent : ∀ env, event = .become env → P env) : Guarded P Q (event.run c f) := by
  cases event with
  | lowerup => exact h.lowerup hc
  | lowerdown => exact h.lowerdown hc
  | «open» => exact h.opens hc
  | protreject => exact h.protreject hc
  | timeout =>
    show Guarded P Q (if f.timer = true then fsmTimeout c f.untimeout else f)
    split
    · exact h.untimeout.timeout hc
    · exact h
  | flags passive restart silent => exact ⟨h.env, h.sent⟩
  | close reason => exact h.close hc reason
  | input packet => exact h.input hc packet
  | become env => exact ⟨hevent env rfl, h.sent⟩

theorem Guarded.run (h : Guarded P Q f) (events : List (FsmEvent σ))
    (hevents : ∀ env, FsmEvent.become env ∈ events → P env) : Guarded P Q (fsmRun c f events) := by
  induction events generalizing f with
  | nil => exact h
  | cons event events ih =>
    refine ih (h.step hc event ?_) (fun env henv => hevents env (List.mem_cons_of_mem event henv))
    rintro env rfl
    exact hevents env List.mem_cons_self

end

end PptpProxy.Ppp
