/-
  The tunnel state the app shows against the link state the engine reports.

  Two sources drive `tunnelReady`: a STATUS reply says whether the link is up NOW, and the tick looks for
  the line "PPP/MPPE 연결됨" in the session's log, which keeps that line once the link has been up.  So a
  reply that says the link is down is overruled by the next tick.  `tunnel_follows_iff` says exactly when
  it is not.
-/
import PptpProxy.App.Isolation

namespace PptpProxy

open CLib Sys

/-! ## Replies and lines -/

/-- What may happen within a session that nobody ends: ticks, STATUS replies, and what the engine does on
    its own. -/
def AppEvent.withinSession : AppEvent → Bool
  | .tick => true
  | .statusReply _ _ => true
  | .process _ _ => true
  | .logged _ _ => true
  | .socket _ _ => true
  | _ => false

/-- The link field of a STATUS reply that is processed: the reply is this session's, it can be read, and
    the session is not being ended. -/
def linkProcessed (F : Foundation) (s : Desktop) : AppEvent → Option Text
  | .statusReply d reply =>
    if s.app.connected = true ∧ s.app.sessionDirectory = some d ∧ s.app.disconnecting = false then
      (reply.bind (decodeStatus F)).map StatusReport.link
    else none
  | _ => none

/-- The event is a tick that finds the process running and the line in its log. -/
def FindsLine (s : Desktop) (e : AppEvent) : Prop :=
  e = .tick ∧ (∃ pid, s.app.processID = some pid ∧ s.mac.running pid = true) ∧
    (s.app.logURL.bind s.mac.log).any (containsText · connectedLine) = true

/-! ## One event -/

section

variable {F : Foundation} {s : Desktop}

/-- A tick shows the tunnel exactly when it finds the line. -/
theorem tick_tunnelReady (hready : s.app.tunnelReady = false) :
    s.tick.app.tunnelReady = true ↔ FindsLine s .tick := by
  have hsame : s.tick.app.tunnelReady = (s.app.refreshConnectionState s.mac).tunnelReady := by
    unfold Desktop.tick
    dsimp only
    split
    · exact congrArg SessionFields.tunnelReady App.refreshBackendStatus_fields
    · rfl
  rw [hsame]
  unfold App.refreshConnectionState FindsLine
  cases hpid : s.app.processID with
  | none => simp [hready]
  | some pid =>
    dsimp only
    by_cases hrunning : s.mac.running pid = true
    · rw [if_pos hrunning]
      by_cases hline : (s.app.logURL.bind s.mac.log).any (containsText · connectedLine) = true
      · rw [if_pos ⟨hready, hline⟩]
        exact ⟨fun _ => ⟨rfl, ⟨pid, rfl, hrunning⟩, hline⟩, fun _ => rfl⟩
      · rw [if_neg fun h => hline h.2, hready]
        exact ⟨fun h => (by cases h), fun h => absurd h.2.2 hline⟩
    · rw [if_neg hrunning]
      refine ⟨fun h => (by cases h), ?_⟩
      rintro ⟨-, ⟨pid', hpid', hrunning'⟩, -⟩
      obtain rfl := Option.some.inj hpid'
      exact absurd hrunning' hrunning

/-- A STATUS reply shows the tunnel only when it says that the link is up. -/
theorem statusReply_tunnelReady {d : Directory} {reply : Option Text}
    (hready : s.app.tunnelReady = false)
    (hone : linkProcessed F s (.statusReply d reply) ≠ some "1".toList) :
    (s.app.statusReplied F s.mac d reply).tunnelReady = false := by
  unfold App.statusReplied
  dsimp only
  split
  · exact hready
  · rename_i hguard
    obtain ⟨hconnected, hdirectory⟩ := not_or.mp hguard
    cases hdecode : reply.bind (decodeStatus F) with
    | none =>
      dsimp only
      unfold App.statusFailed App.statusMissing
      dsimp only
      split
      · split
        · rfl
        · exact hready
      · exact hready
    | some r =>
      dsimp only
      unfold App.statusRead
      dsimp only
      split
      · exact hready
      · rename_i hbusy
        have hlink : linkProcessed F s (.statusReply d reply) = some r.link := by
          show (if _ then _ else _) = _
          rw [if_pos ⟨by simpa using hconnected, by simpa using hdirectory, by simpa using hbusy⟩,
            hdecode]
          rfl
        rw [hlink] at hone
        rw [if_neg fun h => hone (congrArg some h.1),
          if_neg fun h => Bool.false_ne_true (hready.symm.trans h.2)]
        exact hready

/-- **One event within a session.**  The tunnel appears exactly when the tick finds the line. -/
theorem step_tunnelReady {e : AppEvent} (hready : s.app.tunnelReady = false)
    (hwithin : e.withinSession = true) (hone : linkProcessed F s e ≠ some "1".toList) :
    (s.step F e).app.tunnelReady = true ↔ FindsLine s e := by
  have hother : ∀ {e' : AppEvent}, e' ≠ .tick → (s.step F e').app.tunnelReady = false →
      ((s.step F e').app.tunnelReady = true ↔ FindsLine s e') := by
    intro e' hne hfalse
    rw [hfalse]
    exact ⟨fun h => (by cases h), fun h => absurd h.1 hne⟩
  cases e with
  | tick => exact tick_tunnelReady hready
  | statusReply d reply =>
    exact hother (fun h => (by cases h)) (statusReply_tunnelReady hready hone)
  | process pid running => exact hother (fun h => (by cases h)) hready
  | logged d text => exact hother (fun h => (by cases h)) hready
  | socket d present => exact hother (fun h => (by cases h)) hready
  | _ => cases hwithin

/-- A reply that says that the link is down hides the tunnel. -/
theorem tunnelReady_of_down {e : AppEvent} (hdown : linkProcessed F s e = some "0".toList) :
    (s.step F e).app.tunnelReady = false := by
  cases e with
  | statusReply d reply =>
    change (if _ then _ else _) = _ at hdown
    split at hdown
    · rename_i hguard
      obtain ⟨hconnected, hdirectory, hbusy⟩ := hguard
      obtain ⟨r, hdecode, hlink⟩ := Option.map_eq_some_iff.mp hdown
      show (s.app.statusReplied F s.mac d reply).tunnelReady = false
      unfold App.statusReplied
      dsimp only
      rw [if_neg (by simp [hconnected, hdirectory]), hdecode]
      dsimp only
      unfold App.statusRead
      dsimp only
      rw [if_neg (by simp [hbusy]), if_neg (by rw [hlink]; simp)]
      split
      · rfl
      · rename_i hno
        have : ¬ s.app.tunnelReady = true := fun h => hno ⟨hlink, h⟩
        simpa using this
    · cases hdown
  | _ => cases hdown

end

/-! ## Whole sessions -/

/-- `tunnelReady` is false in every state of the run. -/
def StaysDown (F : Foundation) (s : Desktop) (es : List AppEvent) : Prop :=
  ∀ pre post, es = pre ++ post → ((appSystem F).run s pre).app.tunnelReady = false

/-- **The displayed state follows the engine** after a reply with link field 0, until the next one with
    link field 1, if and only if no tick finds the line of an earlier connection in the log. -/
theorem tunnel_follows_iff {F : Foundation} {s : Desktop} {e₀ : AppEvent} {es : List AppEvent}
    (hdown : linkProcessed F s e₀ = some "0".toList) (hwithin : ∀ e ∈ es, e.withinSession = true)
    (hone : (appSystem F).Along (s.step F e₀) es fun t e => linkProcessed F t e ≠ some "1".toList) :
    StaysDown F (s.step F e₀) es ↔
      (appSystem F).Along (s.step F e₀) es fun t e => ¬ FindsLine t e := by
  have hstart := tunnelReady_of_down hdown
  clear hdown
  generalize s.step F e₀ = t at hstart hone
  constructor
  · intro hstays pre e post hes hfinds
    have hbefore := hstays pre (e :: post) hes
    have hafter := hstays (pre ++ [e]) post (by rw [hes]; simp)
    rw [System.run_append] at hafter
    have hmem : e ∈ es := by
      rw [hes]
      simp
    have hshown := (step_tunnelReady (F := F) hbefore (hwithin e hmem) (hone pre e post hes)).mpr hfinds
    rw [show ((appSystem F).run ((appSystem F).run t pre) [e]) =
      ((appSystem F).run t pre).step F e from rfl, hshown] at hafter
    cases hafter
  · intro hnone
    induction es generalizing t with
    | nil =>
      intro pre post hes
      obtain ⟨rfl, -⟩ := List.append_eq_nil_iff.mp hes.symm
      exact hstart
    | cons e es ih =>
      have hnext : (t.step F e).app.tunnelReady = false := by
        have hiff := step_tunnelReady (F := F) hstart (hwithin e List.mem_cons_self) hone.head
        cases hshown : (t.step F e).app.tunnelReady with
        | false => rfl
        | true => exact absurd (hiff.mp hshown) hnone.head
      have hrest := ih (fun e' he' => hwithin e' (List.mem_cons_of_mem e he')) _ hnext hone.tail
        hnone.tail
      intro pre post hes
      cases pre with
      | nil => exact hstart
      | cons e' pre =>
        obtain ⟨rfl, htail⟩ := List.cons.inj hes
        exact hrest pre post htail

/-! ## A link that drops -/

/-- A system on which the engine keeps running. -/
def sampleRunning : Desktop :=
  ⟨App.initial none, ⟨fun _ => true, fun _ => none, fun _ => true⟩, [], [], [], [], none⟩

def sampleDown : AppEvent := .statusReply 1 (some "STATUS 0 0 0 0 18080 11080\n".toList)

/-- While the link has not been up yet, the tick finds nothing. -/
theorem tunnel_follows_negotiating :
    StaysDown sampleFoundation
      (((appSystem sampleFoundation).run sampleRunning
        [.connect (.ready 1), .started 1 100, .tick]).step sampleFoundation sampleDown) [.tick] := by
  refine (tunnel_follows_iff (by decide) (fun e he => ?_) (.cons (by decide) .nil)).mpr
    (.cons ?_ .nil)
  · obtain rfl := List.mem_singleton.mp he
    rfl
  · intro h
    exact absurd h.2.2 (by decide)

/-- The link was up and drops: the reply hides the tunnel, and the next tick shows it again. -/
theorem tunnel_follows_fails : ¬ ∀ (F : Foundation) (s₀ : Desktop) (es₀ : List AppEvent)
    (e₀ : AppEvent) (es : List AppEvent), s₀.Opened → (appSystem F).Run s₀ (es₀ ++ e₀ :: es) →
    linkProcessed F ((appSystem F).run s₀ es₀) e₀ = some "0".toList →
    (∀ e ∈ es, e.withinSession = true) →
    (appSystem F).Along s₀ (es₀ ++ e₀ :: es) (fun t _ => t.app.processGone t.mac = false) →
    (appSystem F).Along (((appSystem F).run s₀ es₀).step F e₀) es
      (fun t e => linkProcessed F t e ≠ some "1".toList) →
    StaysDown F (((appSystem F).run s₀ es₀).step F e₀) es := by
  intro hall
  have hrun : (appSystem sampleFoundation).Run sampleRunning
      [.connect (.ready 1), .started 1 100, .logged 1 "PPP/MPPE 연결됨: 10.0.0.2 → 10.0.0.1\n".toList,
        .tick, sampleDown, .tick] :=
    ⟨⟨rfl, rfl, fun d _ => List.not_mem_nil⟩, ⟨List.mem_cons_self, by decide⟩, trivial, trivial,
      List.mem_cons_self, trivial, trivial⟩
  have hstays := hall sampleFoundation sampleRunning
    [.connect (.ready 1), .started 1 100, .logged 1 "PPP/MPPE 연결됨: 10.0.0.2 → 10.0.0.1\n".toList,
      .tick] sampleDown [.tick] ⟨none, _, rfl⟩ hrun (by decide) (fun e he => by
        obtain rfl := List.mem_singleton.mp he
        rfl)
    (.cons rfl (.cons rfl (.cons rfl (.cons rfl (.cons rfl (.cons rfl .nil))))))
    (.cons (by decide) .nil) [.tick] [] rfl
  exact absurd hstays (by decide)

end PptpProxy
