/-
  The state machine over whole runs: every order of events, any packets, any callbacks.

  The crux is `Fsm.Sound.step`: the layer above is up exactly in the state `opened`, a timeout is pending
  only where one is waited for, and an acknowledged request has been noted as such.
-/
import PptpProxy.Ppp.Fsm

namespace PptpProxy.Ppp

open CLib

universe u

variable {σ : Type u}

/-! ## What holds between events -/

/-- The calls of `up` and `down` take turns; whether the layer above is up behind them. -/
inductive Layer : Bool → List FsmCall → Prop
  | start : Layer false []
  | up {l : List FsmCall} : Layer false l → Layer true (.up :: l)
  | down {l : List FsmCall} : Layer true l → Layer false (.down :: l)
  | other {b : Bool} {l : List FsmCall} {x : FsmCall} (hup : x ≠ .up) (hdown : x ≠ .down) :
    Layer b l → Layer b (x :: l)

/-- Memory for every packet. -/
def FsmCallbacks.Ample (c : FsmCallbacks σ) : Prop := ∀ env, (c.alloc env).1 = true

/-- What holds between two events. -/
structure Fsm.Sound (c : FsmCallbacks σ) (f : Fsm σ) : Prop where
  layer : Layer (decide (f.state = .opened)) f.calls
  timer : f.timer = true → f.state.waits = true
  pending : c.Ample → f.state.waits = true → f.timer = true
  seen : f.state = .ackrcvd ∨ f.state = .opened → f.seenAck = true

variable {c : FsmCallbacks σ} {f : Fsm σ}

theorem Fsm.Sound.isDown (h : f.Sound c) (hs : f.state ≠ .opened) : Layer false f.calls := by
  have hlayer := h.layer
  rwa [decide_eq_false hs] at hlayer

theorem Fsm.Sound.isUp (h : f.Sound c) (hs : f.state = .opened) : Layer true f.calls := by
  have hlayer := h.layer
  rwa [decide_eq_true hs] at hlayer

theorem Fsm.Sound.idle (h : f.Sound c) (hs : f.state.waits = false) : f.timer = false := by
  cases htimer : f.timer with
  | false => rfl
  | true => cases hs.symm.trans (h.timer htimer)

theorem Fsm.Sound.downAt (h : f.Sound c) {s : FsmState} (hs : f.state = s)
    (hopened : decide (s = .opened) = false) : Layer false f.calls := by
  apply h.isDown
  rw [hs]
  exact of_decide_eq_false hopened

theorem Fsm.Sound.idleAt (h : f.Sound c) {s : FsmState} (hs : f.state = s) (hwaits : s.waits = false) :
    f.timer = false := by
  apply h.idle
  rw [hs]
  exact hwaits

theorem Fsm.Sound.pendingAt (h : f.Sound c) {s : FsmState} (hs : f.state = s)
    (hwaits : s.waits = true) (hample : c.Ample) : f.timer = true := by
  apply h.pending hample
  rw [hs]
  exact hwaits

/-- A state in which nothing is waited for. -/
theorem sound_rest (hlayer : Layer false f.calls) (htimer : f.timer = false)
    (hwaits : f.state.waits = false) (hopened : decide (f.state = .opened) = false) : f.Sound c := by
  refine ⟨?_, ?_, ?_, ?_⟩
  · rwa [hopened]
  · intro h
    cases htimer.symm.trans h
  · intro _ h
    cases hwaits.symm.trans h
  · rintro (h | h)
    · rw [h] at hwaits
      cases hwaits
    · exact absurd h (of_decide_eq_false hopened)

/-- A state in which a timeout is waited for. -/
theorem sound_waits (hlayer : Layer false f.calls) (htimer : c.Ample → f.timer = true)
    (hwaits : f.state.waits = true) (hseen : decide (f.state = .ackrcvd) = false) : f.Sound c := by
  have hopened : f.state ≠ .opened := by
    intro h
    rw [h] at hwaits
    cases hwaits
  refine ⟨?_, fun _ => hwaits, fun hample _ => htimer hample, ?_⟩
  · rwa [decide_eq_false hopened]
  · rintro (h | h)
    · exact absurd h (of_decide_eq_false hseen)
    · exact absurd h hopened

theorem Fsm.Sound.finish (h : f.Sound c) : (f.finish c).Sound c :=
  ⟨.other (by decide) (by decide) h.layer, h.timer, h.pending, h.seen⟩

theorem Fsm.Sound.start (h : f.Sound c) : (f.start c).Sound c :=
  ⟨.other (by decide) (by decide) h.layer, h.timer, h.pending, h.seen⟩

/-- `fsm_sdata` sends, and does nothing else. -/
theorem sdata_frame (f : Fsm σ) (code id : UInt8) (data : Bytes) :
    (f.sdata c code id data).state = f.state ∧ (f.sdata c code id data).timer = f.timer ∧
      (f.sdata c code id data).seenAck = f.seenAck ∧
      (f.sdata c code id data).retransmits = f.retransmits ∧
      ∀ b, Layer b f.calls → Layer b (f.sdata c code id data).calls := by
  unfold Fsm.sdata
  split
  · exact ⟨rfl, rfl, rfl, rfl, fun b h => .other (fun h' => by cases h') (fun h' => by cases h') h⟩
  · exact ⟨rfl, rfl, rfl, rfl, fun b h => h⟩

theorem Fsm.Sound.sdata (h : f.Sound c) (code id : UInt8) (data : Bytes) :
    (f.sdata c code id data).Sound c := by
  obtain ⟨hstate, htimer, hseen, -, hlayer⟩ := @sdata_frame σ c f code id data
  refine ⟨?_, ?_, ?_, ?_⟩
  · rw [hstate]
    exact hlayer _ h.layer
  · rw [hstate, htimer]
    exact h.timer
  · rw [hstate, htimer]
    exact h.pending
  · rw [hstate, hseen]
    exact h.seen

theorem Fsm.Sound.sendAll (h : f.Sound c) (packets : List (UInt8 × UInt8 × Bytes)) :
    (f.sendAll c packets).Sound c := by
  induction packets generalizing f with
  | nil => exact h
  | cons packet packets ih => exact ih (h.sdata packet.1 packet.2.1 packet.2.2)

theorem prepare_frame (f : Fsm σ) (retransmit : Bool) :
    (f.prepare c retransmit).state = f.state ∧ (f.prepare c retransmit).calls = f.calls := by
  unfold Fsm.prepare
  cases f.state.negotiating with
  | true =>
    cases retransmit with
    | true => exact ⟨rfl, rfl⟩
    | false => exact ⟨rfl, rfl⟩
  | false =>
    cases retransmit with
    | true => exact ⟨rfl, rfl⟩
    | false => exact ⟨rfl, rfl⟩

/-- `fsm_sconfreq` sends, and starts the timer when there is memory. -/
theorem sconfreq_frame (f : Fsm σ) (retransmit : Bool) :
    (f.sconfreq c retransmit).state = f.state ∧
      (c.Ample → (f.sconfreq c retransmit).timer = true) ∧
      ∀ b, Layer b f.calls → Layer b (f.sconfreq c retransmit).calls := by
  obtain ⟨hstate, hcalls⟩ := @prepare_frame σ c f retransmit
  unfold Fsm.sconfreq Fsm.request
  split
  · refine ⟨hstate, fun _ => rfl, fun b h => ?_⟩
    rw [← hcalls] at h
    exact .other (fun h' => by cases h') (fun h' => by cases h') h
  · rename_i halloc
    refine ⟨hstate, fun hample => absurd (hample _) halloc, fun b h => ?_⟩
    rw [← hcalls] at h
    exact h

/-- A request, and the wait for its answer. -/
theorem sound_sconfreq (hlayer : Layer false f.calls) {s : FsmState} (hwaits : s.waits = true)
    (hseen : decide (s = .ackrcvd) = false) (retransmit : Bool) : ((f.sconfreq c retransmit).goto s).Sound c := by
  obtain ⟨-, htimer, hsent⟩ := @sconfreq_frame σ c f retransmit
  exact sound_waits (hsent _ hlayer) htimer hwaits hseen

theorem sound_begin (hlayer : Layer false f.calls) (htimer : f.timer = false) :
    (f.begin c).Sound c := by
  unfold Fsm.begin
  split
  · exact sound_rest hlayer htimer rfl rfl
  · exact sound_sconfreq hlayer rfl rfl false

theorem Fsm.Sound.lowerup (h : f.Sound c) : (fsmLowerup c f).Sound c := by
  unfold fsmLowerup
  split
  · rename_i hs
    exact sound_rest (h.downAt hs rfl) (h.idleAt hs rfl) rfl rfl
  · rename_i hs
    exact sound_begin (h.downAt hs rfl) (h.idleAt hs rfl)
  · exact h

theorem Fsm.Sound.lowerdown (h : f.Sound c) : (fsmLowerdown c f).Sound c := by
  unfold fsmLowerdown
  split
  · rename_i hs
    exact sound_rest (h.downAt hs rfl) (h.idleAt hs rfl) rfl rfl
  · rename_i hs
    apply Fsm.Sound.start
    exact sound_rest (h.downAt hs rfl) (h.idleAt hs rfl) rfl rfl
  · rename_i hs
    exact sound_rest (h.downAt hs rfl) rfl rfl rfl
  · rename_i hs
    exact sound_rest (h.downAt hs rfl) rfl rfl rfl
  · rename_i hs
    exact sound_rest (h.downAt hs rfl) rfl rfl rfl
  · rename_i hs
    exact sound_rest (h.downAt hs rfl) rfl rfl rfl
  · rename_i hs
    exact sound_rest (h.downAt hs rfl) rfl rfl rfl
  · rename_i hs
    exact sound_rest (.down (h.isUp hs)) (h.idleAt hs rfl) rfl rfl
  · exact h

theorem Fsm.Sound.restarted (h : f.Sound c) : (f.restarted c).Sound c := by
  unfold Fsm.restarted
  split
  · exact h.lowerdown.lowerup
  · exact h

theorem Fsm.Sound.open (h : f.Sound c) : (fsmOpen c f).Sound c := by
  unfold fsmOpen
  split
  · rename_i hs
    apply Fsm.Sound.start
    exact sound_rest (h.downAt hs rfl) (h.idleAt hs rfl) rfl rfl
  · rename_i hs
    exact sound_begin (h.downAt hs rfl) (h.idleAt hs rfl)
  · rename_i hs
    apply Fsm.Sound.restarted
    exact sound_waits (h.downAt hs rfl) (h.pendingAt hs rfl) rfl rfl
  · exact h.restarted
  · exact h.restarted
  · exact h

theorem termreq_frame (f : Fsm σ) :
    (f.termreq c).state = f.state ∧ (f.termreq c).timer = f.timer ∧
      ∀ b, Layer b f.calls → Layer b (f.termreq c).calls := by
  obtain ⟨hstate, htimer, -, -, hlayer⟩ :=
    @sdata_frame σ c { f with id := f.id + 1, reqid := f.id + 1 } 5 (f.id + 1) f.termReason
  exact ⟨hstate, htimer, hlayer⟩

theorem done_rests {s : FsmState} (hs : s = .closing ∨ s = .stopping) :
    s.done.waits = false ∧ decide (s.done = .opened) = false := by
  rcases hs with rfl | rfl
  · exact ⟨rfl, rfl⟩
  · exact ⟨rfl, rfl⟩

theorem terminating_waits {s : FsmState} (hs : s = .closing ∨ s = .stopping) :
    s.waits = true ∧ decide (s = .ackrcvd) = false := by
  rcases hs with rfl | rfl
  · exact ⟨rfl, rfl⟩
  · exact ⟨rfl, rfl⟩

/-- `terminate_layer`, from a state in which there is something to terminate. -/
theorem Fsm.Sound.terminate (h : f.Sound c) {s : FsmState} (hs : s = .closing ∨ s = .stopping) :
    (terminateLayer c f s).Sound c := by
  unfold terminateLayer
  extract_lets left f'
  have hleft : Layer false left.calls ∧ left.timer = false := by
    show Layer false (if f.state ≠ .opened then f.untimeout else f.down c).calls ∧
      (if f.state ≠ .opened then f.untimeout else f.down c).timer = false
    split
    · rename_i hstate
      exact ⟨h.isDown hstate, rfl⟩
    · rename_i hstate
      have hopened := not_not.mp hstate
      exact ⟨.down (h.isUp hopened), h.idle (by rw [hopened]; rfl)⟩
  obtain ⟨-, htimer, hsent⟩ := @termreq_frame σ c { left with retransmits := c.maxTermTransmits }
  split
  · apply Fsm.Sound.finish
    exact sound_rest (hsent _ hleft.1) (htimer.trans hleft.2) (done_rests hs).1 (done_rests hs).2
  · exact sound_waits (hsent _ hleft.1) (fun _ => rfl) (terminating_waits hs).1 (terminating_waits hs).2

theorem Fsm.Sound.close (h : f.Sound c) (reason : Bytes) : (fsmClose c f reason).Sound c := by
  have hreason : { f with termReason := reason.take 255 }.Sound c :=
    ⟨h.layer, h.timer, h.pending, h.seen⟩
  unfold fsmClose
  extract_lets f'
  split
  · rename_i hs
    exact sound_rest (hreason.downAt hs rfl) (hreason.idleAt hs rfl) rfl rfl
  · rename_i hs
    exact sound_rest (hreason.downAt hs rfl) (hreason.idleAt hs rfl) rfl rfl
  · rename_i hs
    exact sound_waits (hreason.downAt hs rfl) (hreason.pendingAt hs rfl) rfl rfl
  · exact hreason.terminate (Or.inl rfl)
  · exact hreason.terminate (Or.inl rfl)
  · exact hreason.terminate (Or.inl rfl)
  · exact hreason.terminate (Or.inl rfl)
  · exact hreason

/-- A timeout while the machine terminates. -/
def Fsm.terminateAgain (c : FsmCallbacks σ) (f : Fsm σ) : Fsm σ :=
  if f.retransmits = 0 then (f.goto f.state.done).finish c
  else { f.termreq c with timer := true, retransmits := (f.termreq c).retransmits - 1 }

/-- A timeout while it negotiates. -/
def Fsm.requestAgain (c : FsmCallbacks σ) (f : Fsm σ) : Fsm σ :=
  if f.retransmits = 0 then if f.passive then f.goto .stopped else (f.goto .stopped).finish c
  else if ({ f with env := c.retransmit f.env }.sconfreq c true).state = .ackrcvd then
    ({ f with env := c.retransmit f.env }.sconfreq c true).goto .reqsent
  else { f with env := c.retransmit f.env }.sconfreq c true

theorem fsmTimeout_cases (c : FsmCallbacks σ) (f : Fsm σ) :
    (f.state = .closing ∨ f.state = .stopping) ∧ fsmTimeout c f = f.terminateAgain c ∨
      f.state.negotiating = true ∧ fsmTimeout c f = f.requestAgain c ∨
      f.state.waits = false ∧ fsmTimeout c f = f := by
  unfold fsmTimeout
  split
  · rename_i hs
    exact Or.inl ⟨Or.inl hs, rfl⟩
  · rename_i hs
    exact Or.inl ⟨Or.inr hs, rfl⟩
  · rename_i hs
    exact Or.inr (Or.inl ⟨by rw [hs]; rfl, rfl⟩)
  · rename_i hs
    exact Or.inr (Or.inl ⟨by rw [hs]; rfl, rfl⟩)
  · rename_i hs
    exact Or.inr (Or.inl ⟨by rw [hs]; rfl, rfl⟩)
  · rename_i hclosing hstopping hreqsent hackrcvd hacksent
    refine Or.inr (Or.inr ⟨?_, rfl⟩)
    cases hs : f.state with
    | closing => exact absurd hs hclosing
    | stopping => exact absurd hs hstopping
    | reqsent => exact absurd hs hreqsent
    | ackrcvd => exact absurd hs hackrcvd
    | acksent => exact absurd hs hacksent
    | initial => rfl
    | starting => rfl
    | closed => rfl
    | stopped => rfl
    | opened => rfl

/-- A timeout that is due; the state is still the one it was set in. -/
theorem Fsm.Sound.timeout (h : f.Sound c) (hdue : f.timer = true) :
    (fsmTimeout c f.untimeout).Sound c := by
  have hwaits : f.state.waits = true := h.timer hdue
  have hlayer : Layer false f.calls := by
    apply h.isDown
    intro hs
    rw [hs] at hwaits
    cases hwaits
  rcases fsmTimeout_cases c f.untimeout with ⟨hs, heq⟩ | ⟨-, heq⟩ | ⟨hs, -⟩
  · obtain ⟨hstate, -, hsent⟩ := @termreq_frame σ c f.untimeout
    rw [heq]
    unfold Fsm.terminateAgain
    split
    · apply Fsm.Sound.finish
      exact sound_rest hlayer rfl (done_rests hs).1 (done_rests hs).2
    · rw [← hstate] at hs
      exact sound_waits (hsent _ hlayer) (fun _ => rfl) (terminating_waits hs).1
        (terminating_waits hs).2
  · have hstopped : (f.untimeout.goto .stopped).Sound c := sound_rest hlayer rfl rfl rfl
    obtain ⟨hstate, htimer, hsent⟩ :=
      @sconfreq_frame σ c { f.untimeout with env := c.retransmit f.untimeout.env } true
    rw [heq]
    unfold Fsm.requestAgain
    split
    · split
      · exact hstopped
      · exact hstopped.finish
    · split
      · exact sound_waits (hsent _ hlayer) htimer rfl rfl
      · rename_i hnot
        refine sound_waits (hsent _ hlayer) htimer ?_ (decide_eq_false hnot)
        rw [hstate]
        exact hwaits
  · cases hs.symm.trans hwaits

/-! ## Packets -/

theorem Fsm.Sound.renegotiate (h : f.Sound c) (hs : f.state = .opened) :
    (f.renegotiate c).Sound c :=
  sound_sconfreq (.down (h.isUp hs)) rfl rfl false

/-- The end of `fsm_rconfreq`, in a state in which requests are answered. -/
theorem Fsm.Sound.answered (h : f.Sound c) (hs : f.state.negotiating = true) (code : Conf) :
    (f.answered c code).Sound c := by
  have hwaits : f.state.waits = true := by
    revert hs
    cases f.state <;> decide
  have hdown : Layer false f.calls := by
    apply h.isDown
    intro h'
    rw [h'] at hs
    cases hs
  have hpending : c.Ample → f.timer = true := fun hample => h.pending hample hwaits
  unfold Fsm.answered
  split
  · by_cases hack : f.state = .ackrcvd
    · rw [if_pos hack]
      have hseen := h.seen (Or.inl hack)
      exact ⟨.up hdown, (fun h' => by cases h'), (fun _ h' => by cases h'), fun _ => hseen⟩
    · rw [if_neg hack]
      exact sound_waits hdown hpending rfl rfl
  · by_cases hack : f.state = .ackrcvd
    · rw [if_neg (not_not.mpr hack)]
      split
      · exact ⟨h.layer, h.timer, h.pending, h.seen⟩
      · exact h
    · rw [if_pos hack]
      split
      · exact sound_waits hdown hpending rfl rfl
      · exact sound_waits hdown hpending rfl rfl

theorem Fsm.Sound.answer (h : f.Sound c) (hs : f.state.negotiating = true) (id : UInt8)
    (data : Bytes) : (f.answer c id data).Sound c := by
  unfold Fsm.answer
  extract_lets r
  have henv : { f with env := r.2.2 }.Sound c := ⟨h.layer, h.timer, h.pending, h.seen⟩
  refine Fsm.Sound.answered (henv.sdata r.1.code id r.2.1) ?_ r.1
  rw [(@sdata_frame σ c { f with env := r.2.2 } r.1.code id r.2.1).1]
  exact hs

theorem Fsm.Sound.rconfreq (h : f.Sound c) (hinput : f.state ≠ .initial ∧ f.state ≠ .starting)
    (id : UInt8) (data : Bytes) : (fsmRconfreq c f id data).Sound c := by
  unfold fsmRconfreq
  split
  · exact h.sdata 6 id []
  · exact h
  · exact h
  · rename_i hs
    exact (h.renegotiate hs).answer rfl id data
  · rename_i hs
    have hdown : Layer false f.calls := h.downAt hs rfl
    exact (@sound_sconfreq σ c f hdown .reqsent rfl rfl false).answer rfl id data
  · rename_i hclosed hclosing hstopping hopened hstopped
    refine h.answer ?_ id data
    cases hs : f.state with
    | initial => exact absurd hs hinput.1
    | starting => exact absurd hs hinput.2
    | closed => exact absurd hs hclosed
    | stopped => exact absurd hs hstopped
    | closing => exact absurd hs hclosing
    | stopping => exact absurd hs hstopping
    | reqsent => rfl
    | ackrcvd => rfl
    | acksent => rfl
    | opened => exact absurd hs hopened

/-- An answer to a request that has been answered is tossed. -/
theorem rconfack_tossed (h : f.seenAck = true) (id : UInt8) (data : Bytes) :
    fsmRconfack c f id data = f :=
  if_pos (Or.inr h)

theorem rconfnakrej_tossed (h : f.seenAck = true) (nak : Bool) (id : UInt8) (data : Bytes) :
    fsmRconfnakrej c f nak id data = f :=
  if_pos (Or.inr h)

theorem Fsm.Sound.rconfack (h : f.Sound c) (id : UInt8) (data : Bytes) :
    (fsmRconfack c f id data).Sound c := by
  by_cases hseen : f.seenAck = true
  · rw [rconfack_tossed hseen]
    exact h
  · -- the states with an acknowledged request are out
    have hnot : f.state ≠ .ackrcvd ∧ f.state ≠ .opened :=
      ⟨fun hs => hseen (h.seen (Or.inl hs)), fun hs => hseen (h.seen (Or.inr hs))⟩
    have hdown : Layer false f.calls := h.isDown hnot.2
    have hnoted : { f with seenAck := true, rnakloops := 0 }.Sound c :=
      ⟨h.layer, h.timer, h.pending, fun _ => rfl⟩
    unfold fsmRconfack
    split
    · exact h
    · split
      · exact h
      · extract_lets f'
        split
        · exact hnoted.sdata 6 id []
        · exact hnoted.sdata 6 id []
        · rename_i hs
          have hwaits : f.state.waits = true := by
            rw [show f.state = .reqsent from hs]
            rfl
          refine ⟨hdown, fun _ => rfl, fun hample _ => h.pending hample hwaits, fun _ => rfl⟩
        · rename_i hs
          exact absurd hs hnot.1
        · exact ⟨.up hdown, (fun h' => by cases h'), (fun _ h' => by cases h'), fun _ => rfl⟩
        · rename_i hs
          exact absurd hs hnot.2
        · exact hnoted

theorem Fsm.Sound.refused (h : f.Sound c) (hnot : f.state ≠ .ackrcvd ∧ f.state ≠ .opened)
    (id : UInt8) (ret : Int) : (f.refused c id ret).Sound c := by
  have hdown : Layer false f.calls := h.isDown hnot.2
  have hnoted : { f with seenAck := true }.Sound c := ⟨h.layer, h.timer, h.pending, fun _ => rfl⟩
  have hagain : f.state.waits = true →
      (if ret < 0 then { f with seenAck := true }.untimeout.goto .stopped
        else { f with seenAck := true }.untimeout.sconfreq c false).Sound c := by
    intro hwaits
    obtain ⟨hstate, htimer, hsent⟩ :=
      @sconfreq_frame σ c { f with seenAck := true }.untimeout false
    split
    · exact sound_rest hdown rfl rfl rfl
    · refine sound_waits (hsent _ hdown) htimer ?_ ?_
      · rw [hstate]
        exact hwaits
      · rw [hstate]
        exact decide_eq_false hnot.1
  unfold Fsm.refused
  extract_lets f'
  split
  · exact hnoted.sdata 6 id []
  · exact hnoted.sdata 6 id []
  · rename_i hs
    exact hagain (by rw [show f.state = .reqsent from hs]; rfl)
  · rename_i hs
    exact hagain (by rw [show f.state = .acksent from hs]; rfl)
  · rename_i hs
    exact absurd hs hnot.1
  · rename_i hs
    exact absurd hs hnot.2
  · exact hnoted

theorem Fsm.Sound.rconfnakrej (h : f.Sound c) (nak : Bool) (id : UInt8) (data : Bytes) :
    (fsmRconfnakrej c f nak id data).Sound c := by
  by_cases hseen : f.seenAck = true
  · rw [rconfnakrej_tossed hseen]
    exact h
  · have hnot : f.state ≠ .ackrcvd ∧ f.state ≠ .opened :=
      ⟨fun hs => hseen (h.seen (Or.inl hs)), fun hs => hseen (h.seen (Or.inr hs))⟩
    have hkept : ∀ (rnakloops : UInt8) (env : σ),
        { f with rnakloops := rnakloops, env := env }.Sound c :=
      fun _ _ => ⟨h.layer, h.timer, h.pending, h.seen⟩
    unfold fsmRconfnakrej
    split
    · exact h
    · split
      · extract_lets rnakloops r f'
        split
        · exact hkept rnakloops r.2
        · exact (hkept rnakloops r.2).refused hnot id r.1
      · extract_lets r f'
        split
        · exact hkept 0 r.2
        · exact (hkept 0 r.2).refused hnot id r.1

theorem Fsm.Sound.terminated (h : f.Sound c) : (f.terminated c).Sound c := by
  unfold Fsm.terminated
  split
  · rename_i hs
    exact sound_waits (h.downAt hs rfl) (h.pendingAt hs rfl) rfl rfl
  · rename_i hs
    exact sound_waits (h.downAt hs rfl) (h.pendingAt hs rfl) rfl rfl
  · rename_i hs
    exact sound_waits (.down (h.isUp hs)) (fun _ => rfl) rfl rfl
  · exact h

theorem Fsm.Sound.rtermack (h : f.Sound c) : (fsmRtermack c f).Sound c := by
  unfold fsmRtermack
  split
  · rename_i hs
    apply Fsm.Sound.finish
    exact sound_rest (h.downAt hs rfl) rfl rfl rfl
  · rename_i hs
    apply Fsm.Sound.finish
    exact sound_rest (h.downAt hs rfl) rfl rfl rfl
  · rename_i hs
    exact sound_waits (h.downAt hs rfl) (h.pendingAt hs rfl) rfl rfl
  · rename_i hs
    exact h.renegotiate hs
  · exact h

theorem Fsm.Sound.rcoderej (h : f.Sound c) (data : Bytes) : (fsmRcoderej f data).Sound c := by
  unfold fsmRcoderej
  split
  · exact h
  · split
    · rename_i hs
      exact sound_waits (h.downAt hs rfl) (h.pendingAt hs rfl) rfl rfl
    · exact h

theorem Fsm.Sound.protreject (h : f.Sound c) : (fsmProtreject c f).Sound c := by
  have hstopped : f.state ≠ .opened → ((f.untimeout.goto .stopped).finish c).Sound c := by
    intro hs
    apply Fsm.Sound.finish
    exact sound_rest (h.isDown hs) rfl rfl rfl
  unfold fsmProtreject
  split
  · rename_i hs
    apply Fsm.Sound.finish
    exact sound_rest (h.downAt hs rfl) rfl rfl rfl
  · exact h.finish
  · rename_i hs
    exact hstopped (by rw [hs]; decide)
  · rename_i hs
    exact hstopped (by rw [hs]; decide)
  · rename_i hs
    exact hstopped (by rw [hs]; decide)
  · rename_i hs
    exact hstopped (by rw [hs]; decide)
  · exact h.finish
  · exact h.terminate (Or.inr rfl)
  · exact h

theorem Fsm.Sound.code (h : f.Sound c) (hinput : f.state ≠ .initial ∧ f.state ≠ .starting)
    (packet : Bytes) (code id : UInt8) (data : Bytes) :
    (fsmCode c f packet code id data).Sound c := by
  unfold fsmCode
  split
  · exact h.rconfreq hinput id data
  · split
    · exact h.rconfack id data
    · split
      · exact h.rconfnakrej true id data
      · split
        · exact h.rconfnakrej false id data
        · split
          · exact h.terminated.sdata 6 id []
          · split
            · exact h.rtermack
            · split
              · exact h.rcoderej data
              · extract_lets r f'
                have henv : { f with env := r.2.2 }.Sound c :=
                  ⟨h.layer, h.timer, h.pending, h.seen⟩
                have hf' : f'.Sound c := henv.sendAll r.2.1
                split
                · exact hf'
                · have hnext : { f' with id := f'.id + 1 }.Sound c :=
                    ⟨hf'.layer, hf'.timer, hf'.pending, hf'.seen⟩
                  exact hnext.sdata 7 (f'.id + 1) packet

theorem Fsm.Sound.input (h : f.Sound c) (packet : Bytes) : (fsmInput c f packet).Sound c := by
  unfold fsmInput
  split
  · extract_lets len
    split
    · exact h
    · split
      · exact h
      · split
        · exact h
        · rename_i hinput
          exact h.code (not_or.mp hinput) _ _ _ _
  · exact h

/-! ## Every run -/

theorem Fsm.Sound.step (h : f.Sound c) (event : FsmEvent σ) : (event.run c f).Sound c := by
  cases event with
  | lowerup => exact h.lowerup
  | lowerdown => exact h.lowerdown
  | «open» => exact h.open
  | protreject => exact h.protreject
  | timeout =>
    show (if f.timer = true then fsmTimeout c f.untimeout else f).Sound c
    split
    · rename_i hdue
      exact h.timeout hdue
    · exact h
  | flags passive restart silent => exact ⟨h.layer, h.timer, h.pending, h.seen⟩
  | close reason => exact h.close reason
  | input packet => exact h.input packet
  | become env => exact ⟨h.layer, h.timer, h.pending, h.seen⟩

theorem Fsm.Sound.run (h : f.Sound c) (events : List (FsmEvent σ)) : (fsmRun c f events).Sound c := by
  induction events generalizing f with
  | nil => exact h
  | cons event events ih => exact ih (h.step event)

theorem fsmInit_sound (f : Fsm σ) (hcalls : f.calls = []) (htimer : f.timer = false) :
    (fsmInit f).Sound c := by
  refine sound_rest ?_ htimer rfl rfl
  show Layer false f.calls
  rw [hcalls]
  exact .start

/-- A request that has been acknowledged stays so: no `Configure-Ack`, `-Nak` or `-Reject` takes the
    machine out of `ackrcvd` or `opened`, or does anything else there. -/
theorem fsmRun_tossed (c : FsmCallbacks σ) (f : Fsm σ) (hcalls : f.calls = [])
    (htimer : f.timer = false) (events : List (FsmEvent σ))
    (hs : (fsmRun c (fsmInit f) events).state = .ackrcvd ∨
      (fsmRun c (fsmInit f) events).state = .opened) {code : UInt8}
    (hcode : code = 2 ∨ code = 3 ∨ code = 4) (rest : Bytes) :
    fsmInput c (fsmRun c (fsmInit f) events) (code :: rest) = fsmRun c (fsmInit f) events := by
  have hseen := ((@fsmInit_sound σ c f hcalls htimer).run events).seen hs
  generalize fsmRun c (fsmInit f) events = g at hseen
  have htossed : ∀ packet id data, fsmCode c g packet code id data = g := by
    intro packet id data
    rcases hcode with rfl | rfl | rfl
    · exact rconfack_tossed hseen id data
    · exact rconfnakrej_tossed hseen true id data
    · exact rconfnakrej_tossed hseen false id data
  unfold fsmInput
  split
  · rename_i heq
    cases heq
    extract_lets len
    split
    · rfl
    · split
      · rfl
      · split
        · rfl
        · exact htossed _ _ _
  · rfl

/-! ## Nobody answers -/

/-- All callbacks are `NULL`, and there is always memory. -/
def plainCallbacks : FsmCallbacks Unit where
  resetci := id
  cilen := fun _ => 0
  addci := fun _ _ => ([], ())
  ackci := fun _ data => data.length = 0
  nakci := fun _ _ _ _ => (0, ())
  rejci := fun _ _ _ => (0, ())
  reqci := fun _ data _ => (if data.length = 0 then .ack else .rej, data, ())
  up := id
  down := id
  starting := id
  finished := id
  retransmit := id
  extcode := fun _ _ _ _ _ _ => (false, [], ())
  alloc := fun _ => (true, ())
  peerMru := fun _ => 1500
  maxConfReqTransmits := 10
  maxTermTransmits := 2
  maxNakLoops := 5

def plainFsm : Fsm Unit where
  state := .initial
  passive := false
  restart := false
  silent := false
  seenAck := false
  id := 0
  reqid := 0
  retransmits := 0
  nakloops := 0
  rnakloops := 0
  termReason := []
  timer := false
  calls := []
  env := ()

/-- A request in either direction, each of them acknowledged. -/
def openingEvents : List (FsmEvent Unit) :=
  [.open, .lowerup, .input [1, 7, 0, 4], .input [2, 1, 0, 4]]

/-- A refusal of the acknowledged request. -/
theorem fsmRun_tossed_nak :
    (fsmInput plainCallbacks (fsmRun plainCallbacks (fsmInit plainFsm) openingEvents)
      [3, 1, 0, 4]).state = .opened :=
  congrArg Fsm.state (fsmRun_tossed plainCallbacks plainFsm rfl rfl openingEvents (Or.inr rfl)
    (Or.inr (Or.inl rfl)) [1, 0, 4])

end PptpProxy.Ppp
