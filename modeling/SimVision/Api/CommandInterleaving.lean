import SimVision.Api.CommandHandler
import SimVision.Foundation.Machine

/-! # Commands on several workers

Every worker of the admin server runs one command at a time, and the calls into
the session and channel stores are its steps. Between the check of a command and
its action other workers move, so a session may be gone when its client is
subscribed.
-/

namespace SimVision

open Foundation CommandHandler

/-- A request for one of the four commands that touch sessions or subscriptions. -/
inductive CaptureCommand where
  | connect (clientId : Bytes)
  | disconnect (clientId : Bytes)
  | startCapture (body : Json) (clientId : Bytes)
  | stopCapture (body : Json) (clientId : Bytes)

/-- The next call a worker makes. -/
inductive CommandPhase where
  | idle
  | connectChecks (clientId : Bytes)
  | connectInserts (clientId : Bytes)
  | disconnectChecks (clientId : Bytes)
  | disconnectUnsubscribes (clientId : Bytes)
  | disconnectErases (clientId : Bytes)
  | disconnectPolls
  | disconnectDrains
  | startChecks (body : Json) (clientId : Bytes)
  | startSubscribes (types : List DataType) (clientId : Bytes)
  | stopExpands (body : Json) (clientId : Bytes)
  | stopUnsubscribes (types : List DataType) (clientId : Bytes)
  | stopPolls (types : List DataType)
  | stopDrains (types : List DataType)

def CaptureCommand.begin : CaptureCommand → CommandPhase
  | .connect clientId => .connectChecks clientId
  | .disconnect clientId => .disconnectChecks clientId
  | .startCapture body clientId => .startChecks body clientId
  | .stopCapture body clientId => .stopExpands body clientId

namespace CommandPhase

def isIdle : CommandPhase → Bool
  | idle => true
  | _ => false

theorem isIdle_iff {p : CommandPhase} : p.isIdle = true ↔ p = .idle := by
  cases p <;> simp [isIdle]

/-- One call of a command: the stores after it, what the worker does next, and
the response once the command returns. -/
def advance (s : Service) : CommandPhase → Option (Service × CommandPhase × Option Response)
  | idle => none
  | connectChecks clientId =>
      if s.sessions.isConnected clientId then
        some (s, idle, some { code := .alreadyInit, message := lit "Already connected" })
      else some (s, connectInserts clientId, none)
  | connectInserts clientId =>
      some ({ s with sessions := (s.sessions.connect clientId).1 }, idle,
        some { code := .success, message := lit "Connected" })
  | disconnectChecks clientId =>
      if s.sessions.isConnected clientId then some (s, disconnectUnsubscribes clientId, none)
      else some (s, idle, some (.fromError .notReady (lit "Not connected")))
  | disconnectUnsubscribes clientId =>
      some ({ s with channels := (s.channels.disconnectClient clientId).1 },
        disconnectErases clientId, none)
  | disconnectErases clientId =>
      some ({ s with sessions := (s.sessions.disconnect clientId).1 }, disconnectPolls, none)
  | disconnectPolls =>
      if s.channels.anySubscriber then
        some (s, idle, some { code := .success, message := lit "Disconnected" })
      else some (s, disconnectDrains, none)
  | disconnectDrains =>
      some (drainAll s, idle, some { code := .success, message := lit "Disconnected" })
  | startChecks body clientId =>
      if s.sessions.isConnected clientId then
        let types := expandTypes body
        if types = [] then
          some (s, idle, some (.fromError .invalidParam (lit "no valid data_types")))
        else some (s, startSubscribes types clientId, none)
      else some (s, idle, some (.fromError .notReady (lit "not connected — call connect first")))
  | startSubscribes types clientId =>
      some ({ s with channels := s.channels.startCapture clientId types }, idle,
        some { code := .success, message := lit "Capture started", detail := typesDetail types })
  | stopExpands body clientId =>
      let types := expandTypes body
      if types = [] then some (s, idle, some (.fromError .invalidParam (lit "no valid data_types")))
      else some (s, stopUnsubscribes types clientId, none)
  | stopUnsubscribes types clientId =>
      some ({ s with channels := s.channels.stopCapture clientId types }, stopPolls types, none)
  | stopPolls types =>
      if s.channels.anySubscriber then
        some (s, idle,
          some { code := .success, message := lit "Capture stopped", detail := typesDetail types })
      else some (s, stopDrains types, none)
  | stopDrains types =>
      some (drainAll s, idle,
        some { code := .success, message := lit "Capture stopped", detail := typesDetail types })

end CommandPhase

/-! ## The machine -/

structure CommandState where
  service : Service
  workers : List CommandPhase

inductive CommandAction where
  /-- An idle worker takes a request from the queue. -/
  | handle (worker : Nat) (command : CaptureCommand)
  /-- A worker makes its next call. -/
  | advance (worker : Nat)

/-- A response, with the worker that returns it. -/
structure Answer where
  worker : Nat
  response : Response

def commandStep (state : CommandState) :
    CommandAction → Option (CommandState × List Answer)
  | .handle worker command =>
      match state.workers[worker]? with
      | some .idle => some ({ state with workers := state.workers.set worker command.begin }, [])
      | _ => none
  | .advance worker =>
      match state.workers[worker]? with
      | none => none
      | some phase =>
          (phase.advance state.service).map fun result =>
            ({ service := result.1, workers := state.workers.set worker result.2.1 },
              result.2.2.toList.map (Answer.mk worker))

/-- The admin server with `threads` workers over the given stores. -/
def commandMachine (threads : Nat) (service : Service) :
    Machine CommandState CommandAction Answer where
  init := { service := service, workers := List.replicate threads .idle }
  step := commandStep

/-! ## A command on its own -/

/-- What the handler does with a command that no other one interrupts. -/
def CaptureCommand.serial (s : Service) : CaptureCommand → Service × Response
  | .connect clientId => cmdConnect s clientId
  | .disconnect clientId => cmdDisconnect s clientId
  | .startCapture body clientId => cmdStartCapture s body clientId
  | .stopCapture body clientId => cmdStopCapture s body clientId

/-- The calls from one point of a command to its response. -/
inductive CommandPhase.Finishes : Service → CommandPhase → Service × Response → Prop where
  | last {s next : Service} {p : CommandPhase} {r : Response}
      (hstep : p.advance s = some (next, .idle, some r)) : Finishes s p (next, r)
  | call {s middle : Service} {p q : CommandPhase} {result : Service × Response}
      (hstep : p.advance s = some (middle, q, none)) (hrest : Finishes middle q result) :
      Finishes s p result

/-- The calls of a command compose to its handler. -/
theorem CaptureCommand.finishes (s : Service) (command : CaptureCommand) :
    command.begin.Finishes s (command.serial s) := by
  cases command with
  | connect clientId =>
      change CommandPhase.Finishes s (.connectChecks clientId) (cmdConnect s clientId)
      unfold cmdConnect
      split
      next hconnected => exact .last (by simp [CommandPhase.advance, hconnected])
      next hconnected =>
        have hcheck : (CommandPhase.connectChecks clientId).advance s =
            some (s, .connectInserts clientId, none) := by
          simp [CommandPhase.advance, hconnected]
        exact .call hcheck (.last rfl)
  | disconnect clientId =>
      change CommandPhase.Finishes s (.disconnectChecks clientId) (cmdDisconnect s clientId)
      unfold cmdDisconnect
      split
      next hconnected =>
        have hcheck : (CommandPhase.disconnectChecks clientId).advance s =
            some (s, .disconnectUnsubscribes clientId, none) := by
          simp [CommandPhase.advance, hconnected]
        refine .call hcheck (.call rfl (.call rfl ?_))
        dsimp only
        split
        next hany => exact .last (by simp [CommandPhase.advance, hany])
        next hany => exact .call (q := .disconnectDrains) (if_neg hany) (.last rfl)
      next hconnected => exact .last (by simp [CommandPhase.advance, hconnected])
  | startCapture body clientId =>
      change CommandPhase.Finishes s (.startChecks body clientId) (cmdStartCapture s body clientId)
      unfold cmdStartCapture
      split
      next hconnected =>
        dsimp only
        split
        next hempty => exact .last (by simp [CommandPhase.advance, hconnected, hempty])
        next hempty =>
          have hcheck : (CommandPhase.startChecks body clientId).advance s =
              some (s, .startSubscribes (expandTypes body) clientId, none) := by
            simp [CommandPhase.advance, hconnected, hempty]
          exact .call hcheck (.last rfl)
      next hconnected => exact .last (by simp [CommandPhase.advance, hconnected])
  | stopCapture body clientId =>
      change CommandPhase.Finishes s (.stopExpands body clientId) (cmdStopCapture s body clientId)
      unfold cmdStopCapture
      dsimp only
      split
      next hempty => exact .last (by simp [CommandPhase.advance, hempty])
      next hempty =>
        have hexpand : (CommandPhase.stopExpands body clientId).advance s =
            some (s, .stopUnsubscribes (expandTypes body) clientId, none) := by
          simp [CommandPhase.advance, hempty]
        refine .call hexpand (.call rfl ?_)
        split
        next hany => exact .last (by simp [CommandPhase.advance, hany])
        next hany => exact .call (q := .stopDrains (expandTypes body)) (if_neg hany) (.last rfl)

/-- A worker that finishes its command undisturbed leaves the stores and the
answer of the handler, and is idle again. -/
theorem commandMachine_serial (threads : Nat) (start : Service) {state : CommandState}
    {worker : Nat} (hidle : state.workers[worker]? = some .idle) (command : CaptureCommand) :
    ∃ calls, (commandMachine threads start).runFrom state
      (.handle worker command :: List.replicate calls (.advance worker)) =
        some ({ state with service := (command.serial state.service).1 },
          [⟨worker, (command.serial state.service).2⟩]) := by
  have hrun : ∀ {s : Service} {p : CommandPhase} {result : Service × Response},
      p.Finishes s result → ∀ workers : List CommandPhase, workers[worker]? = some p →
      ∃ calls, (commandMachine threads start).runFrom { service := s, workers := workers }
        (List.replicate calls (.advance worker)) =
          some ({ service := result.1, workers := workers.set worker .idle },
            [⟨worker, result.2⟩]) := by
    intro s p result hfinishes
    induction hfinishes with
    | last hstep =>
        intro workers hworker
        refine ⟨1, ?_⟩
        simp [Machine.runFrom, commandMachine, commandStep, hworker, hstep]
    | call hstep _ ih =>
        intro workers hworker
        have hlt : worker < workers.length := (List.getElem?_eq_some_iff.mp hworker).1
        obtain ⟨calls, hcalls⟩ := ih (workers.set worker _) (List.getElem?_set_self hlt)
        refine ⟨calls + 1, ?_⟩
        rw [List.set_set] at hcalls
        rw [List.replicate_succ, Machine.runFrom]
        simp only [commandMachine, commandStep, hworker, hstep, Option.map_some, Option.toList_none,
          List.map_nil, List.nil_append] at hcalls ⊢
        rw [hcalls]
  obtain ⟨hlt, hworker⟩ := List.getElem?_eq_some_iff.mp hidle
  obtain ⟨calls, hcalls⟩ := hrun (command.finishes state.service)
    (state.workers.set worker command.begin) (List.getElem?_set_self hlt)
  refine ⟨calls, ?_⟩
  have hworkers : state.workers.set worker .idle = state.workers := by
    rw [← hworker, List.set_getElem_self]
  rw [List.set_set, hworkers] at hcalls
  rw [Machine.runFrom]
  simp only [commandMachine, commandStep, hidle, List.nil_append] at hcalls ⊢
  rw [hcalls]

/-! ## Ghost subscriptions -/

/-- Every client that holds a subscription is connected. -/
def NoGhosts (s : Service) : Prop :=
  ∀ clientId, (s.channels.subscriptions clientId).Nonempty →
    s.sessions.isConnected clientId = true

/-- A client is subscribed only while it is connected and no other worker has
removed its subscriptions without having erased its session yet. -/
def SubscribesConnected (state : CommandState) : CommandAction → Prop
  | .handle _ _ => True
  | .advance worker =>
      match state.workers[worker]? with
      | some (.startSubscribes _ clientId) =>
          state.service.sessions.isConnected clientId = true ∧
            CommandPhase.disconnectErases clientId ∉ state.workers
      | _ => True

/-- A subscribed client is connected and stays so until its subscriptions go. -/
def CommandState.Sound (state : CommandState) : Prop :=
  ∀ clientId, (state.service.channels.subscriptions clientId).Nonempty →
    state.service.sessions.isConnected clientId = true ∧
      CommandPhase.disconnectErases clientId ∉ state.workers

namespace CommandState.Sound

variable {s next : Service} {workers : List CommandPhase} {worker : Nat} {q : CommandPhase}

/-- A call that adds no subscription and erases no session. -/
theorem keep (hsound : Sound ⟨s, workers⟩)
    (hsubscriptions : ∀ clientId,
      next.channels.subscriptions clientId ⊆ s.channels.subscriptions clientId)
    (hsessions : ∀ clientId, s.sessions.isConnected clientId = true →
      next.sessions.isConnected clientId = true)
    (hq : ∀ clientId, q ≠ .disconnectErases clientId) :
    Sound ⟨next, workers.set worker q⟩ := by
  intro clientId hheld
  obtain ⟨hconnected, herases⟩ := hsound clientId (hheld.mono (hsubscriptions clientId))
  refine ⟨hsessions clientId hconnected, fun hmem => ?_⟩
  rcases List.mem_or_eq_of_mem_set hmem with hmem | heq
  · exact herases hmem
  · exact hq clientId heq.symm

theorem unsubscribes {gone : Bytes} (hsound : Sound ⟨s, workers⟩) :
    Sound ⟨{ s with channels := (s.channels.disconnectClient gone).1 },
      workers.set worker (.disconnectErases gone)⟩ := by
  intro clientId hheld
  dsimp only at hheld ⊢
  rw [ChannelManager.subscriptions_disconnectClient] at hheld
  split at hheld
  next => exact absurd hheld Finset.not_nonempty_empty
  next hne =>
    obtain ⟨hconnected, herases⟩ := hsound clientId hheld
    refine ⟨hconnected, fun hmem => ?_⟩
    rcases List.mem_or_eq_of_mem_set hmem with hmem | heq
    · exact herases hmem
    · exact hne (CommandPhase.disconnectErases.inj heq)

theorem erases {gone : Bytes} (hsound : Sound ⟨s, workers⟩)
    (hworker : workers[worker]? = some (.disconnectErases gone)) :
    Sound ⟨{ s with sessions := (s.sessions.disconnect gone).1 },
      workers.set worker .disconnectPolls⟩ := by
  intro clientId hheld
  obtain ⟨hconnected, herases⟩ := hsound clientId hheld
  -- the worker that erases `gone` is a witness that `gone` holds nothing
  have hne : clientId ≠ gone := by
    rintro rfl
    exact herases (List.mem_of_getElem? hworker)
  constructor
  · simpa [SessionManager.isConnected, SessionManager.disconnect, hne] using hconnected
  · intro hmem
    rcases List.mem_or_eq_of_mem_set hmem with hmem | heq
    · exact herases hmem
    · contradiction

theorem subscribes {types : List DataType} {subscriber : Bytes} (hsound : Sound ⟨s, workers⟩)
    (hconnected : s.sessions.isConnected subscriber = true)
    (hstays : CommandPhase.disconnectErases subscriber ∉ workers) :
    Sound ⟨{ s with channels := s.channels.startCapture subscriber types },
      workers.set worker .idle⟩ := by
  intro clientId hheld
  dsimp only at hheld ⊢
  have hbefore : s.sessions.isConnected clientId = true ∧
      CommandPhase.disconnectErases clientId ∉ workers := by
    rw [ChannelManager.subscriptions_startCapture] at hheld
    split at hheld
    next heq =>
      subst heq
      exact ⟨hconnected, hstays⟩
    next => exact hsound clientId hheld
  refine ⟨hbefore.1, fun hmem => ?_⟩
  rcases List.mem_or_eq_of_mem_set hmem with hmem | heq
  · exact hbefore.2 hmem
  · contradiction

/-- Every call keeps a sound state sound, subscriptions under their condition. -/
theorem advance {p : CommandPhase} {r : Option Response} (hsound : Sound ⟨s, workers⟩)
    (hworker : workers[worker]? = some p) (hadvance : p.advance s = some (next, q, r))
    (hguard : SubscribesConnected ⟨s, workers⟩ (.advance worker)) :
    Sound ⟨next, workers.set worker q⟩ := by
  have hquiet : ∀ {q : CommandPhase}, (∀ clientId, q ≠ .disconnectErases clientId) →
      Sound ⟨s, workers.set worker q⟩ := by
    intro q hq
    exact hsound.keep (fun _ => Finset.Subset.refl _) (fun _ hconnected => hconnected) hq
  have hdrained : Sound ⟨drainAll s, workers.set worker .idle⟩ :=
    hsound.keep (fun _ => Finset.Subset.refl _) (fun _ hconnected => hconnected) (by simp)
  cases p with
  | idle => contradiction
  | connectChecks clientId =>
      rw [CommandPhase.advance] at hadvance
      split at hadvance <;> cases hadvance <;> exact hquiet (by simp)
  | connectInserts clientId =>
      cases hadvance
      apply hsound.keep
      · exact fun _ => Finset.Subset.refl _
      · intro other hconnected
        exact decide_eq_true (Finset.mem_insert_of_mem (of_decide_eq_true hconnected))
      · simp
  | disconnectChecks clientId =>
      rw [CommandPhase.advance] at hadvance
      split at hadvance <;> cases hadvance <;> exact hquiet (by simp)
  | disconnectUnsubscribes clientId =>
      cases hadvance
      exact hsound.unsubscribes
  | disconnectErases clientId =>
      cases hadvance
      exact hsound.erases hworker
  | disconnectPolls =>
      rw [CommandPhase.advance] at hadvance
      split at hadvance <;> cases hadvance <;> exact hquiet (by simp)
  | disconnectDrains =>
      cases hadvance
      exact hdrained
  | startChecks body clientId =>
      simp only [CommandPhase.advance] at hadvance
      split_ifs at hadvance <;> cases hadvance <;> exact hquiet (by simp)
  | startSubscribes types clientId =>
      cases hadvance
      simp only [SubscribesConnected, hworker] at hguard
      exact hsound.subscribes hguard.1 hguard.2
  | stopExpands body clientId =>
      simp only [CommandPhase.advance] at hadvance
      split_ifs at hadvance <;> cases hadvance <;> exact hquiet (by simp)
  | stopUnsubscribes types clientId =>
      cases hadvance
      exact hsound.keep
        (fun other => s.channels.subscriptions_stopCapture_subset clientId other types)
        (fun _ hconnected => hconnected) (by simp)
  | stopPolls types =>
      rw [CommandPhase.advance] at hadvance
      split at hadvance <;> cases hadvance <;> exact hquiet (by simp)
  | stopDrains types =>
      cases hadvance
      exact hdrained

end CommandState.Sound

/-- A guarded step keeps a sound state sound. -/
theorem commandStep_sound {state next : CommandState} {action : CommandAction}
    {answers : List Answer} (hsound : state.Sound) (hguard : SubscribesConnected state action)
    (hstep : commandStep state action = some (next, answers)) : next.Sound := by
  cases action with
  | handle worker command =>
      simp only [commandStep] at hstep
      split at hstep
      next =>
        cases hstep
        apply hsound.keep
        · exact fun _ => Finset.Subset.refl _
        · exact fun _ hconnected => hconnected
        · cases command <;> simp [CaptureCommand.begin]
      next => contradiction
  | advance worker =>
      simp only [commandStep] at hstep
      split at hstep
      next => contradiction
      next p hworker =>
        obtain ⟨⟨service, q, r⟩, hadvance, heq⟩ := Option.map_eq_some_iff.mp hstep
        cases heq
        exact hsound.advance hworker hadvance hguard

/-- The condition on subscriptions is the weakest that keeps a state sound. -/
theorem subscribe_sound_iff {state : CommandState} (hsound : state.Sound) {worker : Nat}
    {types : List DataType} {clientId : Bytes}
    (hworker : state.workers[worker]? = some (.startSubscribes types clientId))
    (htypes : types ≠ []) :
    (∀ next answers, commandStep state (.advance worker) = some (next, answers) → next.Sound) ↔
      SubscribesConnected state (.advance worker) := by
  constructor
  · intro hkept
    have hstep : ∃ answers, commandStep state (.advance worker) = some
        ({ service :=
            { state.service with
              channels := state.service.channels.startCapture clientId types }
           workers := state.workers.set worker .idle }, answers) := by
      simp [commandStep, hworker, CommandPhase.advance]
    obtain ⟨answers, hstep⟩ := hstep
    obtain ⟨t, ht⟩ := List.exists_mem_of_ne_nil types htypes
    have hheld : ((state.service.channels.startCapture clientId types).subscriptions
        clientId).Nonempty := by
      refine ⟨t, ?_⟩
      rw [ChannelManager.subscriptions_startCapture, if_pos rfl]
      exact Finset.mem_union_right _ (List.mem_toFinset.mpr ht)
    obtain ⟨hconnected, hstays⟩ := hkept _ answers hstep clientId hheld
    simp only [SubscribesConnected, hworker]
    refine ⟨hconnected, fun hmem => hstays ?_⟩
    obtain ⟨other, hother⟩ := List.mem_iff_getElem?.mp hmem
    -- the subscriber has moved on, so the worker about to erase is another one
    have hne : worker ≠ other := by
      rintro rfl
      rw [hworker] at hother
      cases hother
    exact List.mem_of_getElem? ((List.getElem?_set_ne hne).trans hother)
  · intro hguard next answers hstep
    exact commandStep_sound hsound hguard hstep

/-- When every subscription is made while its client is connected and not half
disconnected, every client with a subscription is connected in every state that
any interleaving reaches. -/
theorem subscriptions_connected (threads : Nat) {service : Service} (hstart : NoGhosts service)
    {history : List Answer} {state : CommandState}
    (hreach : (commandMachine threads service).Reaches SubscribesConnected history state) :
    NoGhosts state.service := by
  have hsound : state.Sound := by
    apply hreach.invariant fun _ state => state.Sound
    · intro clientId hheld
      refine ⟨hstart clientId hheld, fun hmem => ?_⟩
      have hidle := List.eq_of_mem_replicate hmem
      contradiction
    · intro _ before action after answers _ hbefore hguard hstep
      exact commandStep_sound hbefore hguard hstep
  intro clientId hheld
  exact (hsound clientId hheld).1

/-- The stores before any client has come. -/
def emptyStores : Service := { pipeline := .create 8 }

def imuBody : Json := .object [(lit "data_type", .string (lit "imu"))]

/-- Client `A` connects, then subscribes after the check of its own disconnect
and before the disconnect removes its subscriptions. -/
def subscribeFirst : List CommandAction :=
  [.handle 0 (.connect (lit "A")), .advance 0, .advance 0,
    .handle 0 (.disconnect (lit "A")), .advance 0,
    .handle 1 (.startCapture imuBody (lit "A")), .advance 1, .advance 1,
    .advance 0, .advance 0, .advance 0, .advance 0]

theorem emptyStores_noGhosts : NoGhosts emptyStores := fun _ hheld =>
  absurd hheld Finset.not_nonempty_empty

theorem subscribeFirst_connected :
    ∃ state history, (commandMachine 2 emptyStores).runFrom (commandMachine 2 emptyStores).init
      subscribeFirst = some (state, history) ∧ NoGhosts state.service := by
  have hruns : ((commandMachine 2 emptyStores).runFrom (commandMachine 2 emptyStores).init
      subscribeFirst).isSome = true := by decide
  obtain ⟨⟨state, history⟩, hrun⟩ := Option.isSome_iff_exists.mp hruns
  have hguarded : (commandMachine 2 emptyStores).Guarded SubscribesConnected
      (commandMachine 2 emptyStores).init subscribeFirst := by
    refine ⟨trivial, trivial, trivial, trivial, trivial, trivial, trivial, ⟨rfl, ?_⟩, ?_⟩
    · change CommandPhase.disconnectErases (lit "A") ∉
        [.disconnectUnsubscribes (lit "A"), .startSubscribes [.imu] (lit "A")]
      simp
    · exact ⟨trivial, trivial, trivial, trivial, trivial⟩
  exact ⟨state, history, hrun, subscriptions_connected 2 emptyStores_noGhosts
    (Machine.Reaches.init.runGuarded hguarded hrun)⟩

/-- The same requests with the check of `start_capture` before the disconnect
and its subscription after. -/
def subscribeLast : List CommandAction :=
  [.handle 0 (.connect (lit "A")), .advance 0, .advance 0,
    .handle 1 (.startCapture imuBody (lit "A")), .advance 1,
    .handle 0 (.disconnect (lit "A")), .advance 0, .advance 0, .advance 0, .advance 0, .advance 0,
    .advance 1]

/-- A client that disconnects between the check and the subscription of its
`start_capture` is left with a subscription and no session. -/
theorem subscribeLast_ghost :
    ¬ ∀ (threads : Nat) (service : Service), NoGhosts service →
      ∀ (history : List Answer) (state : CommandState),
        (commandMachine threads service).Reachable history state →
        (∀ phase ∈ state.workers, phase = .idle) → NoGhosts state.service := by
  intro hclaim
  have hrun : ((commandMachine 2 emptyStores).runFrom (commandMachine 2 emptyStores).init
      subscribeLast).map (fun result =>
        (result.1.workers.all CommandPhase.isIdle,
          result.1.service.channels.subscriptions (lit "A"),
          result.1.service.sessions.isConnected (lit "A"))) =
      some (true, {.imu}, false) := by decide
  obtain ⟨⟨state, history⟩, hresult, hview⟩ := Option.map_eq_some_iff.mp hrun
  simp only [Prod.mk.injEq, List.all_eq_true] at hview
  obtain ⟨hidle, hheld, hgone⟩ := hview
  have hconnected := hclaim 2 emptyStores emptyStores_noGhosts history state
    (Machine.reachable_of_runFrom hresult)
    (fun phase hphase => CommandPhase.isIdle_iff.mp (hidle phase hphase)) (lit "A")
    (by rw [hheld]; exact Finset.singleton_nonempty _)
  rw [hgone] at hconnected
  contradiction

end SimVision
