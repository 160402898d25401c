/-
  The connection state of the app (`PPTPProxyClient.swift`) over its sessions: `connect`, `disconnect`,
  the one-second tick (`refreshConnectionState`, `refreshBackendStatus`), and the blocks their
  background jobs put on the main queue.

  Every block runs to completion on the main thread, so an event is one block, one click or one tick;
  between them the engine's processes come and go, append to their logs and open and remove their
  control sockets.  A session is named by its directory, which `createDirectory` only makes if there is
  none.  `Desktop.owner` is not in the source: it says whose process `processID` names.

  What is left out: the profile form, the Keychain, the log view, and the jobs of `applyProxySettings` and
  `cleanupOrphanBackend`, which touch none of the fields here.
-/
import PptpProxy.App.Replies
import PptpProxy.Lib.System

namespace PptpProxy

open CLib Sys

/-- The directory `s-…` of a session, with its `control.sock`, `connection.log` and
    `password.fifo`. -/
abbrev Directory := Nat

/-- `Int32` of a process. -/
abbrev Pid := Int

inductive AppPage
  | profile | proxy
  deriving DecidableEq, Repr

/-- The part of `ContentView` and of `ConnectionActivity.shared` that follows a session. -/
structure App where
  connecting : Bool
  connected : Bool
  tunnelReady : Bool
  disconnecting : Bool
  processID : Option Pid
  sessionDirectory : Option Directory
  /-- `ConnectionActivity.shared.isActive`. -/
  isActive : Bool
  /-- `ConnectionActivity.shared.controlSocketPath`, by its directory. -/
  controlSocketPath : Option Directory
  /-- `logURL`, by its directory. -/
  logURL : Option Directory
  page : AppPage
  sentBytes : UInt64
  receivedBytes : UInt64
  connectedSeconds : UInt64
  statusRequestInFlight : Bool
  statusFailures : Nat
  message : Text
  deriving DecidableEq, Repr

/-- The app after it has opened its window; `loadLatestLog` may have found an old log. -/
def App.initial (latest : Option Directory) : App where
  connecting := false
  connected := false
  tunnelReady := false
  disconnecting := false
  processID := none
  sessionDirectory := none
  isActive := false
  controlSocketPath := none
  logURL := latest
  page := .profile
  sentBytes := 0
  receivedBytes := 0
  connectedSeconds := 0
  statusRequestInFlight := false
  statusFailures := 0
  message := "프로필을 선택하거나 새로 등록하세요.".toList

/-- What the app asks the system. -/
structure Mac where
  /-- `processIsRunning`. -/
  running : Pid → Bool
  /-- The text of a session's log, if it can be read. -/
  log : Directory → Option Text
  /-- `fileExists` on a session's control socket. -/
  socket : Directory → Bool

/-! ## The functions of `ContentView` -/

/-- `contains` of a text, scalar by scalar. -/
def containsText (t pattern : Text) : Bool := (findSub pattern t).isSome

/-- The line the engine logs when the tunnel is up. -/
def connectedLine : Text := "PPP/MPPE 연결됨".toList

/-- The message both sources of `tunnelReady` show. -/
def tunnelMessage : Text := "PPP/MPPE 연결됨. 프락시에서 원격 접속을 시도할 수 있습니다.".toList

namespace App

/-- `connect` once the session's directory is made. -/
def startSession (d : Directory) (a : App) : App :=
  { a with
    sessionDirectory := some d
    logURL := some d
    controlSocketPath := some d
    connecting := true
    message := "관리자 권한을 확인한 뒤 PPTP 연결을 시작합니다.".toList
    isActive := true
    sentBytes := 0
    receivedBytes := 0
    connectedSeconds := 0 }

/-- The `catch` block of `connect` itself. -/
def prepareFailed (error : Text) (a : App) : App :=
  { a with
    connecting := false
    isActive := false
    controlSocketPath := none
    message := "실패: 연결 준비 오류: ".toList ++ error }

/-- The block of `connect`'s job once the engine runs. -/
def connectStarted (pid : Pid) (a : App) : App :=
  { a with processID := some pid, connected := true, message := "PPP/MPPE 협상 중입니다.".toList }

/-- The block of `connect`'s job when the start or the delivery of the password failed. -/
def connectFailed (error : Text) (a : App) : App :=
  { a with
    connecting := false
    connected := false
    isActive := false
    controlSocketPath := none
    message := "실패: 연결 시작 오류: ".toList ++ error }

/-- `clearConnection`. -/
def clearConnection (a : App) : App :=
  { a with
    connecting := false
    connected := false
    tunnelReady := false
    disconnecting := false
    processID := none
    sentBytes := 0
    receivedBytes := 0
    connectedSeconds := 0
    statusRequestInFlight := false
    statusFailures := 0
    isActive := false
    controlSocketPath := none
    page := .profile
    sessionDirectory := none }

/-- The tunnel is up. -/
def showTunnel (a : App) : App :=
  { a with tunnelReady := true, connecting := false, page := .proxy, message := tunnelMessage }

/-- `processID.map { !processIsRunning($0) } ?? false`. -/
def processGone (m : Mac) (a : App) : Bool :=
  match a.processID with
  | some pid => ! m.running pid
  | none => false

/-- What `refreshConnectionState` says when it finds the process gone. -/
def goneMessage (wasDisconnecting : Bool) (log : Text) : Text :=
  if wasDisconnecting then "연결을 해제했습니다.".toList
  else if containsText log "PPTP 프로세스 종료".toList && ! containsText log connectedLine then
    "실패: PPTP 데이터 채널이 열리지 않았습니다. GRE 경로와 로그를 확인하세요.".toList
  else if containsText log "PPP 연결 종료/실패".toList then
    "실패: PPP 협상 또는 인증이 종료됐습니다. 로그를 확인하세요.".toList
  else "연결이 종료됐습니다.".toList

/-- `refreshConnectionState`. -/
def refreshConnectionState (m : Mac) (a : App) : App :=
  match a.processID with
  | none => a
  | some pid =>
    let log := a.logURL.bind m.log
    if m.running pid then
      if a.tunnelReady = false ∧ log.any (containsText · connectedLine) = true then a.showTunnel
      else a
    else { a.clearConnection with message := goneMessage a.disconnecting (log.getD []) }

/-- `disconnect` up to its job; the directory is the one the job asks to stop. -/
def disconnect (a : App) : App × Option Directory :=
  if a.disconnecting then (a, none)
  else
    match a.sessionDirectory with
    | none => ({ a.clearConnection with message := "연결이 이미 종료됐습니다.".toList }, none)
    | some d =>
      ({ a with disconnecting := true, message := "연결 해제를 요청하는 중입니다.".toList }, some d)

/-- The block of `disconnect`'s job; an error carries its description. -/
def stopReplied (F : Foundation) (m : Mac) (d : Directory) (result : Except Text Text) (a : App) : App :=
  if a.sessionDirectory ≠ some d then a
  else
    match result with
    | .ok reply =>
      if reply = "OK STOP\n".toList then
        { a with message := "연결 해제 요청을 보냈습니다. 종료를 기다리는 중입니다.".toList }
      else
        { a with
          disconnecting := false
          message := "실패: 연결 해제 응답이 올바르지 않습니다: ".toList ++
            trimmingCharacters F.whitespacesAndNewlines reply }
    | .error error =>
      if a.connecting = true ∧ a.processID = none then
        { a with
          disconnecting := false
          message := "관리자 권한 확인 창을 먼저 취소하거나 완료한 뒤 연결을 해제하세요.".toList }
      else if m.socket d = false ∨ a.processGone m = true then
        { a.clearConnection with
          message := "연결 프로세스가 이미 종료돼 화면 상태를 정리했습니다.".toList }
      else
        { a with
          disconnecting := false
          message := "실패: 연결 해제 요청을 보낼 수 없습니다: ".toList ++ error }

/-- `refreshBackendStatus` up to its job. -/
def refreshBackendStatus (a : App) : App × Option Directory :=
  if a.statusRequestInFlight then (a, none)
  else
    match a.sessionDirectory with
    | none => (a, none)
    | some d => ({ a with statusRequestInFlight := true }, some d)

/-- What `refreshBackendStatus` makes of its failures so far. -/
def statusMissing (m : Mac) (d : Directory) (a : App) : App :=
  if 2 ≤ a.statusFailures then
    if a.disconnecting = true ∨ m.socket d = false ∨ a.processGone m = true then
      { a.clearConnection with
        message := if a.disconnecting then "연결을 해제했습니다.".toList
          else "연결 프로세스가 종료돼 화면 상태를 정리했습니다.".toList }
    else
      { a with message := "실패: 연결 상태를 확인할 수 없습니다. 다시 시도하거나 로그를 확인하세요.".toList }
  else a

/-- A STATUS request without a usable reply. -/
def statusFailed (m : Mac) (d : Directory) (a : App) : App :=
  statusMissing m d { a with statusFailures := a.statusFailures + 1 }

/-- A STATUS reply that could be read. -/
def statusRead (r : StatusReport) (a : App) : App :=
  let a := { a with statusFailures := 0, sentBytes := r.sent, receivedBytes := r.received,
                    connectedSeconds := r.elapsed }
  if a.disconnecting then a
  else if r.link = "1".toList ∧ a.tunnelReady = false then a.showTunnel
  else if r.link = "0".toList ∧ a.tunnelReady = true then
    { a with tunnelReady := false, page := .profile,
             message := "실패: PPP 연결이 끊어졌습니다. 로그를 확인하세요.".toList }
  else a

/-- The block of `refreshBackendStatus`'s job. -/
def statusReplied (F : Foundation) (m : Mac) (d : Directory) (reply : Option Text) (a : App) : App :=
  let a := { a with statusRequestInFlight := false }
  if a.connected = false ∨ a.sessionDirectory ≠ some d then a
  else
    match reply.bind (decodeStatus F) with
    | none => a.statusFailed m d
    | some r => a.statusRead r

end App

/-! ## Events -/

/-- How far a click on Connect gets. -/
inductive Preparation
  /-- The settings, the profile or the Keychain stop it with a message. -/
  | refused (message : Text)
  /-- The directory or the FIFO cannot be made. -/
  | failed (error : Text)
  | ready (d : Directory)

/-- What a job of `connect` has done: asked for the password prompt, or started the engine. -/
inductive Stage
  | asking | started
  deriving DecidableEq, Repr

structure Desktop where
  app : App
  mac : Mac
  /-- The sessions that were started, newest first. -/
  sessions : List Directory
  connectJobs : List (Directory × Stage)
  stopJobs : List Directory
  statusJobs : List Directory
  /-- The session whose process `processID` names. -/
  owner : Option Directory

inductive AppEvent
  | connect (p : Preparation)
  /-- `privileged` has returned a process number. -/
  | started (d : Directory) (pid : Pid)
  /-- The password is delivered, and the job ends. -/
  | delivered (d : Directory)
  | failed (d : Directory) (error : Text)
  | disconnect
  | stopReply (d : Directory) (result : Except Text Text)
  | tick
  | statusReply (d : Directory) (reply : Option Text)
  /-- A process starts or exits. -/
  | process (pid : Pid) (running : Bool)
  /-- The engine appends to the log of its session. -/
  | logged (d : Directory) (text : Text)
  /-- The engine makes or removes its control socket. -/
  | socket (d : Directory) (present : Bool)

namespace Desktop

/-- The timer's block. -/
def tick (s : Desktop) : Desktop :=
  let a := s.app.refreshConnectionState s.mac
  if a.connected then
    { s with app := a.refreshBackendStatus.1
             statusJobs := a.refreshBackendStatus.2.toList ++ s.statusJobs }
  else { s with app := a }

/-- A click on Connect. -/
def connect (p : Preparation) (s : Desktop) : Desktop :=
  match p with
  | .refused message => { s with app := { s.app with message := message } }
  | .failed error => { s with app := s.app.prepareFailed error }
  | .ready d =>
    { s with app := s.app.startSession d
             sessions := d :: s.sessions
             connectJobs := (d, .asking) :: s.connectJobs }

/-- What happens on an event. -/
def step (F : Foundation) (s : Desktop) : AppEvent → Desktop
  | .connect p => s.connect p
  | .started d pid =>
    { s with app := s.app.connectStarted pid
             owner := some d
             connectJobs := (d, .started) :: s.connectJobs.filter (· ≠ (d, .asking)) }
  | .delivered d => { s with connectJobs := s.connectJobs.filter (· ≠ (d, .started)) }
  | .failed d error =>
    { s with app := s.app.connectFailed error
             connectJobs := s.connectJobs.filter (·.1 ≠ d) }
  | .disconnect =>
    { s with app := s.app.disconnect.1
             stopJobs := s.app.disconnect.2.toList ++ s.stopJobs }
  | .stopReply d result =>
    { s with app := s.app.stopReplied F s.mac d result
             stopJobs := s.stopJobs.erase d }
  | .tick => s.tick
  | .statusReply d reply =>
    { s with app := s.app.statusReplied F s.mac d reply
             statusJobs := s.statusJobs.erase d }
  | .process pid running =>
    { s with mac := { s.mac with running := Function.update s.mac.running pid running } }
  | .logged d text =>
    { s with mac := { s.mac with
        log := Function.update s.mac.log d (some ((s.mac.log d).getD [] ++ text)) } }
  | .socket d present =>
    { s with mac := { s.mac with socket := Function.update s.mac.socket d present } }

/-- When an event may happen: the buttons are only there, or only enabled, in some states, and a block
    comes from a job under way. -/
def enabled (s : Desktop) : AppEvent → Prop
  | .connect p =>
    s.app.connecting = false ∧ s.app.connected = false ∧ ∀ d, p = .ready d → d ∉ s.sessions
  | .started d pid => (d, .asking) ∈ s.connectJobs ∧ 0 < pid
  | .delivered d => (d, .started) ∈ s.connectJobs
  | .failed d _ => ∃ stage, (d, stage) ∈ s.connectJobs
  | .disconnect => (s.app.connecting = true ∨ s.app.connected = true) ∧ s.app.disconnecting = false
  | .stopReply d _ => d ∈ s.stopJobs
  | .statusReply d _ => d ∈ s.statusJobs
  | _ => True

/-- The app has been opened; nothing of an earlier run of it is under way. -/
def Opened (s : Desktop) : Prop :=
  ∃ latest mac, s = ⟨App.initial latest, mac, [], [], [], [], none⟩

end Desktop

/-- The app. -/
def appSystem (F : Foundation) : System Desktop AppEvent where
  init := Desktop.Opened
  enabled := Desktop.enabled
  step := Desktop.step F

end PptpProxy
