/-
  Sessions of the app do not disturb each other, as long as they do not overlap.

  Four kinds of blocks come from jobs of a session, and a tick or a failed request can find a process
  gone.  What is wanted is `Isolated`: none of it changes the connection state once a LATER session has
  been started.  The blocks of `disconnect` and of `refreshBackendStatus` compare `sessionDirectory` with
  their own directory; the two blocks of `connect` do not, and the failure block leaves `processID` behind
  for the next session to trip over.  `session_isolation` says that these two are all that is missing.
-/
import PptpProxy.App.Sessions

namespace PptpProxy

open Sys

/-! ## What is wanted -/

/-- The fields that say what is going on. -/
structure SessionFields where
  connecting : Bool
  connected : Bool
  disconnecting : Bool
  tunnelReady : Bool
  processID : Option Pid
  sessionDirectory : Option Directory
  isActive : Bool
  controlSocketPath : Option Directory
  deriving DecidableEq, Repr

def App.fields (a : App) : SessionFields :=
  ⟨a.connecting, a.connected, a.disconnecting, a.tunnelReady, a.processID, a.sessionDirectory,
    a.isActive, a.controlSocketPath⟩

/-- The events in which the app looks at the process. -/
def AppEvent.looks : AppEvent → Bool
  | .tick => true
  | .stopReply _ _ => true
  | .statusReply _ _ => true
  | _ => false

/-- The event belongs to session `d`: a block of one of its jobs, or a look at its process that finds
    it gone. -/
inductive BelongsTo (s : Desktop) : AppEvent → Directory → Prop
  | started {d : Directory} {pid : Pid} : BelongsTo s (.started d pid) d
  | failed {d : Directory} {error : Text} : BelongsTo s (.failed d error) d
  | stopReply {d : Directory} {result : Except Text Text} : BelongsTo s (.stopReply d result) d
  | statusReply {d : Directory} {reply : Option Text} : BelongsTo s (.statusReply d reply) d
  | gone {e : AppEvent} {d : Directory} (hlooks : e.looks = true)
      (hgone : s.app.processGone s.mac = true) (howner : s.owner = some d) : BelongsTo s e d

/-- What belongs to an earlier session changes nothing. -/
def Isolated (F : Foundation) (s : Desktop) (e : AppEvent) : Prop :=
  ∀ d, BelongsTo s e d → s.sessions.head? ≠ some d → (s.step F e).app.fields = s.app.fields

/-- A connection can be reached by Disconnect and by the quit guard. -/
def WithinReach (s : Desktop) : Prop :=
  s.app.connected = true → s.app.sessionDirectory ≠ none ∧ s.app.isActive = true

/-- What the code needs for it: a session is started only when `processID` is clear, and the blocks of
    `connect` come before the next session is started. -/
def InTurn (s : Desktop) : AppEvent → Prop
  | .connect (.ready _) => s.app.processID = none
  | .started d _ => s.sessions.head? = some d
  | .failed d _ => s.sessions.head? = some d
  | _ => True

/-! ## What the clicks, ticks and replies can do -/

/-- The engine of the session at hand is being started. -/
def App.starting (a : App) : Prop :=
  a.connecting = true ∧ a.connected = false ∧ a.processID = none ∧ a.sessionDirectory ≠ none

/-- What everything but `connect` and its blocks does: it keeps the session, or it drops one that is not
    being started. -/
inductive Upkeep (a a' : App) : Prop
  | kept (hconnected : a'.connected = a.connected) (hprocess : a'.processID = a.processID)
      (hdirectory : a'.sessionDirectory = a.sessionDirectory) (hactive : a'.isActive = a.isActive)
      (hconnecting : a.starting → a'.connecting = true)
  | dropped (hidle : ¬ a.starting) (hconnected : a'.connected = false)
      (hprocess : a'.processID = none) (hdirectory : a'.sessionDirectory = none)

section

variable {a a' : App}

theorem Upkeep.fields {a'' : App} (h : Upkeep a a') (hsame : a''.fields = a'.fields) :
    Upkeep a a'' := by
  obtain ⟨h1, h2, -, -, h5, h6, h7, -⟩ := SessionFields.mk.inj hsame
  cases h with
  | kept k1 k2 k3 k4 k5 =>
    exact .kept (h2.trans k1) (h5.trans k2) (h6.trans k3) (h7.trans k4) fun hs => h1.trans (k5 hs)
  | dropped k1 k2 k3 k4 => exact .dropped k1 (h2.trans k2) (h5.trans k3) (h6.trans k4)

theorem Upkeep.refl : Upkeep a a := .kept rfl rfl rfl rfl fun hs => hs.1

end

namespace App

variable {F : Foundation} {m : Mac} {a : App}

theorem not_starting_of_process {pid : Pid} (h : a.processID = some pid) : ¬ a.starting := by
  rintro ⟨-, -, hnone, -⟩
  rw [h] at hnone
  cases hnone

theorem refreshConnectionState_upkeep : Upkeep a (a.refreshConnectionState m) := by
  unfold refreshConnectionState
  split
  · exact .refl
  · rename_i pid hpid
    dsimp only
    split
    · split
      · exact .kept rfl rfl rfl rfl fun hs => absurd hs (not_starting_of_process hpid)
      · exact .refl
    · exact .dropped (not_starting_of_process hpid) rfl rfl rfl

theorem refreshBackendStatus_fields : a.refreshBackendStatus.1.fields = a.fields := by
  unfold refreshBackendStatus
  split
  · rfl
  · split <;> rfl

theorem disconnect_upkeep : Upkeep a a.disconnect.1 := by
  unfold disconnect
  split
  · exact .refl
  · split
    · rename_i hnone
      exact .dropped (fun hs => hs.2.2.2 hnone) rfl rfl rfl
    · exact .kept rfl rfl rfl rfl fun hs => hs.1

theorem stopReplied_upkeep {d : Directory} {result : Except Text Text} :
    Upkeep a (a.stopReplied F m d result) := by
  unfold stopReplied
  split
  · exact .refl
  · cases result with
    | ok reply =>
      dsimp only
      split
      · exact .kept rfl rfl rfl rfl fun hs => hs.1
      · exact .kept rfl rfl rfl rfl fun hs => hs.1
    | error error =>
      dsimp only
      split
      · exact .kept rfl rfl rfl rfl fun hs => hs.1
      · rename_i hbusy
        split
        · exact .dropped (fun hs => hbusy ⟨hs.1, hs.2.2.1⟩) rfl rfl rfl
        · exact .kept rfl rfl rfl rfl fun hs => hs.1

theorem not_starting_of_connected (h : a.connected = true) : ¬ a.starting := by
  rintro ⟨-, hno, -, -⟩
  rw [h] at hno
  cases hno

theorem statusFailed_upkeep {d : Directory} (h : a.connected = true) :
    Upkeep a (a.statusFailed m d) := by
  unfold statusFailed statusMissing
  dsimp only
  split
  · split
    · exact .dropped (not_starting_of_connected h) rfl rfl rfl
    · exact .kept rfl rfl rfl rfl fun hs => hs.1
  · exact .kept rfl rfl rfl rfl fun hs => hs.1

theorem statusRead_upkeep {r : StatusReport} (h : a.connected = true) :
    Upkeep a (a.statusRead r) := by
  have hidle := not_starting_of_connected h
  unfold statusRead
  dsimp only
  split
  · exact .kept rfl rfl rfl rfl fun hs => hs.1
  · split
    · exact .kept rfl rfl rfl rfl fun hs => absurd hs hidle
    · split
      · exact .kept rfl rfl rfl rfl fun hs => hs.1
      · exact .kept rfl rfl rfl rfl fun hs => hs.1

theorem statusReplied_upkeep {d : Directory} {reply : Option Text} :
    Upkeep a (a.statusReplied F m d reply) := by
  unfold statusReplied
  dsimp only
  split
  · exact Upkeep.refl.fields rfl
  · rename_i hguard
    have hconnected : a.connected = true := by
      have := (not_or.mp hguard).1
      simpa using this
    -- the flag of the request is none of the fields that count
    have hflag : ∀ {a' : App}, Upkeep { a with statusRequestInFlight := false } a' → Upkeep a a' := by
      intro a' h
      cases h with
      | kept k1 k2 k3 k4 k5 => exact .kept k1 k2 k3 k4 k5
      | dropped k1 k2 k3 k4 => exact .dropped k1 k2 k3 k4
    split
    · exact hflag (statusFailed_upkeep hconnected)
    · exact hflag (statusRead_upkeep hconnected)

end App

/-- A tick of the timer. -/
theorem tick_upkeep (s : Desktop) : Upkeep s.app s.tick.app := by
  have h := App.refreshConnectionState_upkeep (a := s.app) (m := s.mac)
  unfold Desktop.tick
  dsimp only
  split
  · exact h.fields App.refreshBackendStatus_fields
  · exact h

/-! ## The invariant -/

/-- The connection state is the newest session's. -/
structure Current (s : Desktop) : Prop where
  directory : ∀ d, s.app.sessionDirectory = some d → s.sessions.head? = some d
  process : s.app.processID ≠ none → s.owner = s.sessions.head?
  reachable : WithinReach s
  /-- The newest session waits for the password prompt. -/
  asking : ∀ d, (d, .asking) ∈ s.connectJobs → s.sessions.head? = some d →
    s.app.starting ∧ s.app.sessionDirectory = some d ∧ s.app.isActive = true

theorem Current.upkeep {s s' : Desktop} (h : Current s) (hu : Upkeep s.app s'.app)
    (hsessions : s'.sessions = s.sessions) (howner : s'.owner = s.owner)
    (hjobs : s'.connectJobs = s.connectJobs) : Current s' := by
  cases hu with
  | kept hconnected hprocess hdirectory hactive hconnecting =>
    refine ⟨?_, ?_, ?_, ?_⟩
    · intro d hd
      rw [hsessions]
      exact h.directory d (hdirectory ▸ hd)
    · intro hp
      rw [howner, hsessions]
      exact h.process (hprocess ▸ hp)
    · intro hc
      rw [hdirectory, hactive]
      exact h.reachable (hconnected ▸ hc)
    · intro d hd hhead
      rw [hjobs] at hd
      rw [hsessions] at hhead
      obtain ⟨hs, hdir, hact⟩ := h.asking d hd hhead
      have hdir' := hdirectory.trans hdir
      refine ⟨⟨hconnecting hs, hconnected.trans hs.2.1, hprocess.trans hs.2.2.1, ?_⟩, hdir',
        hactive.trans hact⟩
      rw [hdir']
      exact Option.some_ne_none d
  | dropped hidle hconnected hprocess hdirectory =>
    refine ⟨?_, fun hp => absurd hprocess hp, ?_, ?_⟩
    · intro d hd
      rw [hdirectory] at hd
      cases hd
    · intro hc
      rw [hconnected] at hc
      cases hc
    · intro d hd hhead
      rw [hjobs] at hd
      rw [hsessions] at hhead
      exact absurd (h.asking d hd hhead).1 hidle

/-- A click on Connect, with `processID` clear. -/
theorem Current.connect {F : Foundation} {s : Desktop} {p : Preparation} (h : Current s)
    (he : s.enabled (.connect p)) (hturn : InTurn s (.connect p)) :
    Current (s.step F (.connect p)) := by
  obtain ⟨hconnecting, hconnected, -⟩ := he
  have hidle : ¬ s.app.starting := by
    rintro ⟨hc, -⟩
    rw [hconnecting] at hc
    cases hc
  cases p with
  | refused message => exact h.upkeep (.kept rfl rfl rfl rfl fun hs => hs.1) rfl rfl rfl
  | failed error =>
    refine ⟨h.directory, h.process, ?_, ?_⟩
    · intro hc
      exact absurd hc (by show ¬ s.app.connected = true; rw [hconnected]; decide)
    · intro d hd hhead
      exact absurd (h.asking d hd hhead).1 hidle
  | ready d =>
    refine ⟨?_, fun hp => absurd hturn hp, ?_, ?_⟩
    · intro d' hd'
      exact hd'
    · intro hc
      exact absurd hc (by show ¬ s.app.connected = true; rw [hconnected]; decide)
    · intro d' _ hhead
      obtain rfl : d = d' := Option.some.inj hhead
      exact ⟨⟨rfl, hconnected, hturn, Option.some_ne_none d⟩, rfl, rfl⟩

/-- **An event in its turn keeps the invariant.** -/
theorem Current.step {F : Foundation} {s : Desktop} {e : AppEvent} (h : Current s)
    (he : s.enabled e) (hturn : InTurn s e) : Current (s.step F e) := by
  cases e with
  | connect p => exact h.connect he hturn
  | started d pid =>
    obtain ⟨⟨-, -, -, hdir⟩, -, hactive⟩ := h.asking d he.1 hturn
    refine ⟨h.directory, fun _ => hturn.symm, fun _ => ⟨hdir, hactive⟩, ?_⟩
    -- its job does not ask any more
    intro d' hd' hhead
    obtain rfl : d = d' := Option.some.inj (hturn.symm.trans hhead)
    simp [Desktop.step] at hd'
  | delivered d =>
    refine ⟨h.directory, h.process, h.reachable, ?_⟩
    intro d' hd' hhead
    exact h.asking d' (List.mem_of_mem_filter hd') hhead
  | failed d error =>
    refine ⟨h.directory, h.process, fun hc => (by cases hc), ?_⟩
    intro d' hd' hhead
    obtain rfl : d = d' := Option.some.inj (hturn.symm.trans hhead)
    simp [Desktop.step] at hd'
  | disconnect => exact h.upkeep App.disconnect_upkeep rfl rfl rfl
  | stopReply d result => exact h.upkeep App.stopReplied_upkeep rfl rfl rfl
  | tick =>
    refine h.upkeep (tick_upkeep s) ?_ ?_ ?_
    all_goals
      show _ = _
      unfold Desktop.step Desktop.tick
      dsimp only
      split <;> rfl
  | statusReply d reply => exact h.upkeep App.statusReplied_upkeep rfl rfl rfl
  | process pid running => exact ⟨h.directory, h.process, h.reachable, h.asking⟩
  | logged d text => exact ⟨h.directory, h.process, h.reachable, h.asking⟩
  | socket d present => exact ⟨h.directory, h.process, h.reachable, h.asking⟩

/-- **What belongs to an earlier session changes nothing**, in turn. -/
theorem Current.isolated {F : Foundation} {s : Desktop} {e : AppEvent} (h : Current s)
    (hturn : InTurn s e) : Isolated F s e := by
  intro d hbelongs hlater
  have hguard : s.app.sessionDirectory ≠ some d := fun hd => hlater (h.directory d hd)
  cases hbelongs with
  | started => exact absurd hturn hlater
  | failed => exact absurd hturn hlater
  | stopReply =>
    show (s.app.stopReplied F s.mac d _).fields = _
    unfold App.stopReplied
    rw [if_pos hguard]
  | statusReply =>
    show (s.app.statusReplied F s.mac d _).fields = _
    unfold App.statusReplied
    dsimp only
    rw [if_pos (Or.inr hguard)]
    rfl
  | gone hlooks hgone howner =>
    have hprocess : s.app.processID ≠ none := by
      intro hnone
      unfold App.processGone at hgone
      rw [hnone] at hgone
      cases hgone
    exact absurd ((h.process hprocess).symm.trans howner) hlater

theorem current_opened {s : Desktop} (h : s.Opened) : Current s := by
  obtain ⟨latest, mac, rfl⟩ := h
  exact ⟨fun d hd => (by cases hd), fun hp => absurd rfl hp, fun hc => (by cases hc),
    fun d hd => (by cases hd)⟩

/-- **Session isolation.**  In every run in which a session is started only while `processID` is clear
    and both blocks of `connect` come before the next session is started, what belongs to an earlier
    session never changes the connection state, and a connection is always within reach. -/
theorem session_isolation {F : Foundation} {s₀ : Desktop} (h₀ : s₀.Opened) {es : List AppEvent}
    (hrun : (appSystem F).Run s₀ es) (hturn : (appSystem F).Along s₀ es InTurn) :
    (appSystem F).Along s₀ es (Isolated F) ∧
      ∀ pre post, es = pre ++ post → WithinReach ((appSystem F).run s₀ pre) := by
  have hcurrent : ∀ pre post, es = pre ++ post → Current ((appSystem F).run s₀ pre) :=
    fun pre post hes => System.Along.invariant (current_opened h₀) hrun hturn
      (fun s e h he ht => h.step he ht) hes
  refine ⟨?_, fun pre post hes => (hcurrent pre post hes).reachable⟩
  intro pre e post hes
  exact (hcurrent pre (e :: post) hes).isolated (hturn pre e post hes)

/-! ## Two sessions -/

/-- The app is opened on a system on which no process runs for long. -/
def sampleDesktop : Desktop :=
  ⟨App.initial none, ⟨fun _ => false, fun _ => none, fun _ => true⟩, [], [], [], [], none⟩

/-- One session whose engine exits at once, while the password is still being delivered. -/
def sampleShortSession : List AppEvent := [.connect (.ready 1), .started 1 100, .tick]

theorem sampleShortSession_run : (appSystem sampleFoundation).Run sampleDesktop sampleShortSession :=
  ⟨⟨rfl, rfl, fun d _ => List.not_mem_nil⟩, ⟨List.mem_cons_self, by decide⟩, trivial, trivial⟩

/-- A session alone is in turn. -/
theorem session_isolation_short :
    WithinReach ((appSystem sampleFoundation).run sampleDesktop [.connect (.ready 1), .started 1 100]) ∧
      ((appSystem sampleFoundation).run sampleDesktop
        [.connect (.ready 1), .started 1 100]).app.connected = true := by
  have hturn : (appSystem sampleFoundation).Along sampleDesktop sampleShortSession InTurn :=
    .cons rfl (.cons rfl (.cons trivial .nil))
  exact ⟨(session_isolation ⟨none, _, rfl⟩ sampleShortSession_run hturn).2 _ [.tick] rfl, rfl⟩

/-- The delivery of the first session's password fails after the second session has connected: the
    second is shown as gone while its engine runs. -/
theorem session_isolation_fails : ¬ ∀ (F : Foundation) (s₀ : Desktop) (es : List AppEvent),
    s₀.Opened → (appSystem F).Run s₀ es →
    (appSystem F).Along s₀ es (Isolated F) ∧
      ∀ pre post, es = pre ++ post → WithinReach ((appSystem F).run s₀ pre) := by
  intro hall
  have hrun : (appSystem sampleFoundation).Run sampleDesktop
      (sampleShortSession ++ [.connect (.ready 2), .started 2 200, .failed 1 []]) :=
    ⟨⟨rfl, rfl, fun d _ => List.not_mem_nil⟩, ⟨List.mem_cons_self, by decide⟩, trivial,
      ⟨rfl, rfl, fun d hd => by cases hd; decide⟩, ⟨List.mem_cons_self, by decide⟩,
      ⟨.started, by decide⟩, trivial⟩
  have hiso := (hall sampleFoundation sampleDesktop _ ⟨none, _, rfl⟩ hrun).1
    (sampleShortSession ++ [.connect (.ready 2), .started 2 200]) (.failed 1 []) [] rfl 1 .failed
    (by decide)
  exact absurd hiso (by decide)

end PptpProxy
