import SimVision.App.SerialService
import SimVision.Api.CommandInterleaving
import SimVision.Foundation.Isolation

/-! # Clients do not see each other's commands

A client sees its own session, its own subscriptions and the responses to its own
commands. Commands of other clients change none of these, so the counters that
all clients share cannot tell two orders of the same commands apart.
-/

namespace SimVision

open Foundation CommandHandler

def CaptureCommand.clientId : CaptureCommand → Bytes
  | .connect clientId => clientId
  | .disconnect clientId => clientId
  | .startCapture _ clientId => clientId
  | .stopCapture _ clientId => clientId

/-- What the stores hold about one client. -/
structure ClientView where
  connected : Bool := false
  subscriptions : Finset DataType := ∅

def Service.clientView (clientId : Bytes) (s : Service) : ClientView where
  connected := s.sessions.isConnected clientId
  subscriptions := s.channels.subscriptions clientId

/-- The protocol of a single client. -/
def ClientView.move (v : ClientView) : CaptureCommand → ClientView × Response
  | .connect _ =>
      if v.connected then (v, { code := .alreadyInit, message := lit "Already connected" })
      else ({ v with connected := true }, { code := .success, message := lit "Connected" })
  | .disconnect _ =>
      if v.connected then ({}, { code := .success, message := lit "Disconnected" })
      else (v, .fromError .notReady (lit "Not connected"))
  | .startCapture body _ =>
      let types := expandTypes body
      if v.connected then
        if types = [] then (v, .fromError .invalidParam (lit "no valid data_types"))
        else ({ v with subscriptions := v.subscriptions ∪ types.toFinset },
          { code := .success, message := lit "Capture started", detail := typesDetail types })
      else (v, .fromError .notReady (lit "not connected — call connect first"))
  | .stopCapture body _ =>
      let types := expandTypes body
      if types = [] then (v, .fromError .invalidParam (lit "no valid data_types"))
      else ({ v with subscriptions := v.subscriptions \ types.toFinset },
        { code := .success, message := lit "Capture stopped", detail := typesDetail types })

/-- The flush of a departing command leaves sessions and channels alone. -/
theorem clientView_flushed (s : Service) (flush : Bool) (clientId : Bytes) :
    (if flush then s else drainAll s).clientView clientId = s.clientView clientId := by
  cases flush with
  | true => rfl
  | false => rfl

theorem CaptureCommand.serial_own (s : Service) (command : CaptureCommand) :
    ((command.serial s).1.clientView command.clientId, (command.serial s).2) =
      (s.clientView command.clientId).move command := by
  have hview : (s.clientView command.clientId).connected =
      s.sessions.isConnected command.clientId := rfl
  cases command with
  | connect clientId =>
      rw [serial, cmdConnect, ClientView.move, hview, CaptureCommand.clientId]
      by_cases hconnected : s.sessions.isConnected clientId = true
      · rw [if_pos hconnected, if_pos hconnected]
      · rw [if_neg hconnected, if_neg hconnected]
        simp [Service.clientView, SessionManager.connect, SessionManager.isConnected]
  | disconnect clientId =>
      rw [serial, cmdDisconnect, ClientView.move, hview, CaptureCommand.clientId]
      by_cases hconnected : s.sessions.isConnected clientId = true
      · rw [if_pos hconnected, if_pos hconnected]
        dsimp only
        rw [clientView_flushed]
        simp [Service.clientView, SessionManager.disconnect, SessionManager.isConnected,
          ChannelManager.subscriptions_disconnectClient]
      · rw [if_neg hconnected, if_neg hconnected]
  | startCapture body clientId =>
      rw [serial, cmdStartCapture, ClientView.move, hview, CaptureCommand.clientId]
      by_cases hconnected : s.sessions.isConnected clientId = true
      · rw [if_pos hconnected, if_pos hconnected]
        by_cases hempty : expandTypes body = []
        · simp only [if_pos hempty]
        · simp only [if_neg hempty, Service.clientView]
          rw [ChannelManager.subscriptions_startCapture, if_pos rfl]
      · rw [if_neg hconnected, if_neg hconnected]
  | stopCapture body clientId =>
      simp only [serial, cmdStopCapture, ClientView.move, CaptureCommand.clientId]
      by_cases hempty : expandTypes body = []
      · simp only [if_pos hempty]
      · simp only [if_neg hempty]
        rw [clientView_flushed]
        simp only [Service.clientView]
        rw [ChannelManager.subscriptions_stopCapture, if_pos rfl]

theorem CaptureCommand.serial_other (s : Service) (command : CaptureCommand) (clientId : Bytes)
    (hother : clientId ≠ command.clientId) :
    (command.serial s).1.clientView clientId = s.clientView clientId := by
  cases command with
  | connect owner =>
      simp only [serial, cmdConnect]
      split
      next => rfl
      next =>
        have hne : clientId ≠ owner := hother
        simp [Service.clientView, SessionManager.connect, SessionManager.isConnected, hne]
  | disconnect owner =>
      have hne : clientId ≠ owner := hother
      simp only [serial, cmdDisconnect]
      split
      next =>
        dsimp only
        rw [clientView_flushed]
        simp [Service.clientView, SessionManager.disconnect, SessionManager.isConnected,
          ChannelManager.subscriptions_disconnectClient, hne]
      next => rfl
  | startCapture body owner =>
      simp only [serial, cmdStartCapture]
      have hne : clientId ≠ owner := hother
      split
      next =>
        split
        next => rfl
        next =>
          simp only [Service.clientView]
          rw [ChannelManager.subscriptions_startCapture, if_neg hne]
      next => rfl
  | stopCapture body owner =>
      simp only [serial, cmdStopCapture]
      split
      next => rfl
      next =>
        dsimp only
        have hne : clientId ≠ owner := hother
        rw [clientView_flushed]
        simp only [Service.clientView]
        rw [ChannelManager.subscriptions_stopCapture, if_neg hne]

/-- The four commands keep the clients apart. -/
def clientIsolation : Isolation (fun s command => CaptureCommand.serial s command) Bytes
    ClientView where
  owner := CaptureCommand.clientId
  view := Service.clientView
  move := ClientView.move
  own := CaptureCommand.serial_own
  other := CaptureCommand.serial_other

theorem CaptureCommand.serial_exact (s : Service) (command : CaptureCommand)
    (hexact : s.channels.Exact) : (command.serial s).1.channels.Exact := by
  have hflush : ∀ (left : Service) (flush : Bool), left.channels.Exact →
      (if flush then left else drainAll left).channels.Exact := by
    intro left flush hleft
    cases flush with
    | true => exact hleft
    | false => exact hleft
  cases command with
  | connect clientId =>
      simp only [serial, cmdConnect]
      split
      next => exact hexact
      next => exact hexact
  | disconnect clientId =>
      simp only [serial, cmdDisconnect]
      split
      next => exact hflush _ _ (hexact.disconnectClient clientId).2
      next => exact hexact
  | startCapture body clientId =>
      simp only [serial, cmdStartCapture]
      split
      next =>
        split
        next => exact hexact
        next => exact hexact.startCapture clientId _
      next => exact hexact
  | stopCapture body clientId =>
      simp only [serial, cmdStopCapture]
      split
      next => exact hexact
      next => exact hflush _ _ (hexact.stopCapture clientId _).2

section Sequences

variable (lib : JsonLibrary) (cfg : Config) (cameraFile : Option Bytes) (source : SimDataSource)

/-- The service after a sequence of commands, with the responses. -/
def serveCommands (commands : List CaptureCommand) :
    Service × List (CaptureCommand × Response) :=
  serveAll (fun s command => CaptureCommand.serial s command)
    (mainService lib cfg cameraFile source) commands

/-- The commands of one client. -/
def commandsOf (clientId : Bytes) (commands : List CaptureCommand) : List CaptureCommand :=
  commands.filter fun command => command.clientId = clientId

/-- The commands of one client with their responses. -/
def answersTo (clientId : Bytes) (answers : List (CaptureCommand × Response)) :
    List (CaptureCommand × Response) :=
  answers.filter fun answer => answer.1.clientId = clientId

theorem serveCommands_exact (commands : List CaptureCommand) :
    (serveCommands lib cfg cameraFile source commands).1.channels.Exact :=
  serveAll_invariant CaptureCommand.serial_exact _ commands (ChannelManager.run_exact []).2

/-- A client's session, subscriptions and responses depend on its own commands
only. Sequences that agree on the commands of every client end with the same
sessions, subscriptions and counters. -/
theorem clients_isolated (first second : List CaptureCommand) :
    (∀ clientId, commandsOf clientId first = commandsOf clientId second →
      (serveCommands lib cfg cameraFile source first).1.clientView clientId =
          (serveCommands lib cfg cameraFile source second).1.clientView clientId ∧
        answersTo clientId (serveCommands lib cfg cameraFile source first).2 =
          answersTo clientId (serveCommands lib cfg cameraFile source second).2) ∧
    ((∀ clientId, commandsOf clientId first = commandsOf clientId second) →
      (serveCommands lib cfg cameraFile source first).1.sessions =
          (serveCommands lib cfg cameraFile source second).1.sessions ∧
        (∀ clientId,
          (serveCommands lib cfg cameraFile source first).1.channels.subscriptions clientId =
            (serveCommands lib cfg cameraFile source second).1.channels.subscriptions clientId) ∧
        ∀ t, (serveCommands lib cfg cameraFile source first).1.channels.subscriberCount t =
          (serveCommands lib cfg cameraFile source second).1.channels.subscriberCount t) := by
  have hclient : ∀ clientId, commandsOf clientId first = commandsOf clientId second →
      (serveCommands lib cfg cameraFile source first).1.clientView clientId =
          (serveCommands lib cfg cameraFile source second).1.clientView clientId ∧
        answersTo clientId (serveCommands lib cfg cameraFile source first).2 =
          answersTo clientId (serveCommands lib cfg cameraFile source second).2 :=
    fun clientId hsame =>
      clientIsolation.serveAll_congr (mainService lib cfg cameraFile source) hsame
  refine ⟨hclient, fun hsame => ?_⟩
  have hview := fun clientId => (hclient clientId (hsame clientId)).1
  have hsubscriptions : ∀ clientId,
      (serveCommands lib cfg cameraFile source first).1.channels.subscriptions clientId =
        (serveCommands lib cfg cameraFile source second).1.channels.subscriptions clientId :=
    fun clientId => congrArg ClientView.subscriptions (hview clientId)
  refine ⟨?_, hsubscriptions, fun t => ?_⟩
  · ext clientId
    have hconnected := congrArg ClientView.connected (hview clientId)
    exact decide_eq_decide.mp hconnected
  · have hsubscribers : (serveCommands lib cfg cameraFile source first).1.channels.subscribers t =
        (serveCommands lib cfg cameraFile source second).1.channels.subscribers t := by
      ext clientId
      rw [ChannelManager.mem_subscribers, ChannelManager.mem_subscribers, hsubscriptions clientId]
    rw [ChannelManager.subscriberCount_eq, ChannelManager.subscriberCount_eq,
      serveCommands_exact lib cfg cameraFile source first t,
      serveCommands_exact lib cfg cameraFile source second t, hsubscribers]

end Sequences

/-- Client `A` connects and captures before client `B` connects. -/
def firstAThenB : List CaptureCommand :=
  [.connect (lit "A"), .startCapture (typeBody "imu") (lit "A"), .connect (lit "B")]

/-- `B` comes between the two commands of `A`. -/
def firstAroundB : List CaptureCommand :=
  [.connect (lit "A"), .connect (lit "B"), .startCapture (typeBody "imu") (lit "A")]

theorem firstAroundB_isolated :
    (serveCommands .plain {} none {} firstAThenB).1.sessions =
        (serveCommands .plain {} none {} firstAroundB).1.sessions ∧
      ∀ t, (serveCommands .plain {} none {} firstAThenB).1.channels.subscriberCount t =
        (serveCommands .plain {} none {} firstAroundB).1.channels.subscriberCount t := by
  have hsame : ∀ clientId, commandsOf clientId firstAThenB = commandsOf clientId firstAroundB := by
    intro clientId
    have hdistinct : lit "A" ≠ lit "B" := by decide
    simp only [commandsOf, firstAThenB, firstAroundB, List.filter_cons, CaptureCommand.clientId,
      List.filter_nil]
    by_cases ha : lit "A" = clientId
    · have hb : lit "B" ≠ clientId := by
        rintro rfl
        exact hdistinct ha
      simp [ha, hb]
    · simp [ha]
  obtain ⟨hsessions, _, hcounts⟩ := (clients_isolated .plain {} none {} _ _).2 hsame
  exact ⟨hsessions, hcounts⟩

end SimVision
