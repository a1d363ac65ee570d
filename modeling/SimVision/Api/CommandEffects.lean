import SimVision.Api.ReplyEncoding
import SimVision.Foundation.Effect

/-! # What a command leaves behind

The commands again, as the calls they make in the order they make them. A call
that has been made stays made when a later one throws, so what a failed command
leaves is a question about that order.
-/

namespace SimVision

open Foundation

namespace CommandHandler

/-- Calls on the stores, left early by the text of an exception. -/
abbrev HandlerM := Effect Bytes Service

/-! ## The commands by calls -/

/-- `set_value` by statements; the exit is the text it leaves in `err`. -/
def setValueSteps (name : Bytes) (value : ParamValue) :
    Effect Bytes ParameterManager Unit := do
  let m ← get
  match m.params.lookup name with
  | none => throw (lit "unknown parameter: " ++ name)
  | some p =>
      if p.isReadonly then throw (lit "parameter is read-only: " ++ name)
      else if !sameType p.value value then throw (lit "type mismatch for parameter: " ++ name)
      else
        match value with
        | .integer v =>
            if inRange ParamValue.integer? (fun a b => decide (a ≤ b)) v p.min p.max then
              modify fun m => m.store name p value
            else throw (lit "value out of range for parameter: " ++ name)
        | .float v =>
            if inRange ParamValue.float? Double.le v p.min p.max then
              modify fun m => m.store name p value
            else throw (lit "value out of range for parameter: " ++ name)
        | .enum v =>
            if enumAllowed p.enumOptions v then modify fun m => m.store name p value
            else throw (lit "invalid enum value for parameter: " ++ name)

def connectSteps (clientId : Bytes) : HandlerM Response := do
  let s ← get
  if s.sessions.isConnected clientId then
    pure { code := .alreadyInit, message := lit "Already connected" }
  else do
    modify fun s => { s with sessions := (s.sessions.connect clientId).1 }
    pure { code := .success, message := lit "Connected" }

/-- The drains of a command after which nobody is subscribed. -/
def flushSteps : HandlerM Unit := do
  let s ← get
  if s.channels.anySubscriber then pure ()
  else do
    modify fun s => { s with pipeline := s.pipeline.drain }
    modify fun s => { s with pipeline := s.pipeline.drain }

def disconnectSteps (clientId : Bytes) : HandlerM Response := do
  let s ← get
  if s.sessions.isConnected clientId then do
    modify fun s => { s with channels := (s.channels.disconnectClient clientId).1 }
    modify fun s => { s with sessions := (s.sessions.disconnect clientId).1 }
    flushSteps
    pure { code := .success, message := lit "Disconnected" }
  else pure (.fromError .notReady (lit "Not connected"))

def startCaptureSteps (body : Json) (clientId : Bytes) : HandlerM Response := do
  let s ← get
  if s.sessions.isConnected clientId then
    if expandTypes body = [] then pure (.fromError .invalidParam (lit "no valid data_types"))
    else do
      modify fun s => { s with channels := s.channels.startCapture clientId (expandTypes body) }
      pure { code := .success, message := lit "Capture started",
             detail := typesDetail (expandTypes body) }
  else pure (.fromError .notReady (lit "not connected — call connect first"))

def stopCaptureSteps (body : Json) (clientId : Bytes) : HandlerM Response :=
  if expandTypes body = [] then pure (.fromError .invalidParam (lit "no valid data_types"))
  else do
    modify fun s => { s with channels := s.channels.stopCapture clientId (expandTypes body) }
    flushSteps
    pure { code := .success, message := lit "Capture stopped",
           detail := typesDetail (expandTypes body) }

variable (lib : JsonLibrary)

def activateChannelSteps (body : Json) : HandlerM Response := do
  match ← Effect.ofExcept id (channelOf lib body) with
  | none => pure (.fromError .invalidParam (lit "invalid data_type"))
  | some t => do
      let s ← get
      modify fun s => { s with channels := (s.channels.activateChannel t).1 }
      pure
        { code := .success
          message := if (s.channels.activateChannel t).2 then lit "Channel activated"
            else lit "Channel already active"
          detail := (Json.emptyObject.set (lit "data_type") (.string (dataTypeToString t))).set
            (lit "restart_required") (.boolean false) }

def deactivateChannelSteps (body : Json) : HandlerM Response := do
  match ← Effect.ofExcept id (channelOf lib body) with
  | none => pure (.fromError .invalidParam (lit "invalid data_type"))
  | some t => do
      modify fun s => { s with channels := (s.channels.deactivateChannel t).1 }
      let s ← get
      if s.channels.groupActive (dataTypeToGroup t) then pure ()
      else modify fun s => { s with pipeline := s.pipeline.drainGroup (dataTypeToGroup t) }
      pure
        { code := .success
          message := lit "Channel deactivated"
          detail := (Json.emptyObject.set (lit "data_type") (.string (dataTypeToString t))).set
            (lit "restart_required") (.boolean true) }

/-- The call of `set_value` on the handler's store: `true`, or `false` and the text. -/
def callSetValue (name : Bytes) (value : ParamValue) : HandlerM (Except Bytes Unit) := do
  let s ← get
  modify fun s => { s with params := ((setValueSteps name value).execute s.params).2 }
  pure ((setValueSteps name value).execute s.params).1

/-- The answer to what the call returned. -/
def setParameterAnswer (name : Bytes) (v : ParamValue) (p : Parameter) :
    Except Bytes Unit → Response
  | .error err => .fromError .invalidParam err
  | .ok _ =>
      { code := .success
        message := lit "Parameter set"
        detail := ((Json.emptyObject.set (lit "name") (.string name)).set
          (lit "value") (valueToJson v)).set
          (lit "needs_reopen") (.boolean p.needsReopen) }

def setParameterSteps (body : Json) : HandlerM Response :=
  match body.lookup (lit "name"), body.lookup (lit "value") with
  | some nameJson, some value => do
      let name ← Effect.ofExcept id (lib.getString nameJson)
      let s ← get
      match s.params.get name with
      | none => pure (.fromError .invalidParam (lit "unknown parameter"))
      | some p => do
          let v ← Effect.ofExcept id (convertValue lib p.value value)
          let outcome ← callSetValue name v
          pure (setParameterAnswer name v p outcome)
  | _, _ => pure (.fromError .invalidParam (lit "missing 'name' or 'value'"))

/-- A command that only reads the stores. -/
def querySteps (answer : Service → Except Bytes Response) : HandlerM Response := do
  let s ← get
  Effect.ofExcept id (answer s)

def handleSteps (command : Bytes) (body : Json) (clientId : Bytes) : HandlerM Response :=
  if command = lit "connect" then connectSteps clientId
  else if command = lit "disconnect" then disconnectSteps clientId
  else if command = lit "start_capture" then startCaptureSteps body clientId
  else if command = lit "stop_capture" then stopCaptureSteps body clientId
  else if command = lit "activate_channel" then activateChannelSteps lib body
  else if command = lit "deactivate_channel" then deactivateChannelSteps lib body
  else if command = lit "check_status" then querySteps fun s => .ok (cmdCheckStatus s)
  else if command = lit "list_channels" then querySteps fun s => .ok (cmdListChannels s)
  else if command = lit "list_parameters" then querySteps fun s => .ok (cmdListParameters s)
  else if command = lit "get_parameter" then querySteps fun s => cmdGetParameter lib s body
  else if command = lit "set_parameter" then setParameterSteps lib body
  else if command = lit "init" then
    pure (.fromError .alreadyInit (lit "Already initialized"))
  else if command = lit "dispose" then pure (.fromError .error (lit "Not permitted via API"))
  else pure (.fromError .invalidParam (lit "unknown command: " ++ command))

/-! ## The calls compose to the handler -/

/-- The outcome and the service that a result of the handler stands for. -/
def settle {α β : Type} (start : α) : Except Bytes (α × β) → Except Bytes β × α
  | .ok (next, answer) => (.ok answer, next)
  | .error what => (.error what, start)

/-- The calls end as the handler does. -/
def Settles (s : Service) (steps : HandlerM Response)
    (result : Except Bytes (Service × Response)) : Prop :=
  steps.execute s = settle s result

private theorem settles_ite {s : Service} {condition : Prop} [Decidable condition]
    {first second : HandlerM Response} {result other : Except Bytes (Service × Response)}
    (hfirst : Settles s first result) (hsecond : Settles s second other) :
    Settles s (if condition then first else second) (if condition then result else other) := by
  split
  next => exact hfirst
  next => exact hsecond

theorem execute_setValueSteps (m : ParameterManager) (name : Bytes) (value : ParamValue) :
    (setValueSteps name value).execute m =
      settle m ((m.setValue name value).map fun next => (next, ())) := by
  unfold setValueSteps ParameterManager.setValue
  rw [Effect.execute_bind, Effect.execute_get]
  dsimp only
  cases m.params.lookup name with
  | none => rfl
  | some p =>
      dsimp only
      split
      next => rfl
      next =>
        split
        next => rfl
        next =>
          cases value with
          | integer v =>
              dsimp only
              split <;> rfl
          | float v =>
              dsimp only
              split <;> rfl
          | enum v =>
              dsimp only
              split <;> rfl

private theorem flushSteps_execute (s : Service) :
    flushSteps.execute s = (.ok (), if s.channels.anySubscriber then s else drainAll s) := by
  unfold flushSteps
  rw [Effect.execute_bind, Effect.execute_get]
  dsimp only
  split <;> rfl

private theorem connectSteps_settles (s : Service) (clientId : Bytes) :
    Settles s (connectSteps clientId) (.ok (cmdConnect s clientId)) := by
  unfold Settles connectSteps cmdConnect
  rw [Effect.execute_bind, Effect.execute_get]
  dsimp only
  split <;> rfl

private theorem disconnectSteps_settles (s : Service) (clientId : Bytes) :
    Settles s (disconnectSteps clientId) (.ok (cmdDisconnect s clientId)) := by
  unfold Settles disconnectSteps cmdDisconnect
  rw [Effect.execute_bind, Effect.execute_get]
  dsimp only
  split
  next => simp only [Effect.execute_bind, Effect.execute_modify, flushSteps_execute,
      Effect.execute_pure, settle]
  next => rfl

private theorem startCaptureSteps_settles (s : Service) (body : Json) (clientId : Bytes) :
    Settles s (startCaptureSteps body clientId) (.ok (cmdStartCapture s body clientId)) := by
  unfold Settles startCaptureSteps cmdStartCapture
  rw [Effect.execute_bind, Effect.execute_get]
  dsimp only
  split
  next => split <;> rfl
  next => rfl

private theorem stopCaptureSteps_settles (s : Service) (body : Json) (clientId : Bytes) :
    Settles s (stopCaptureSteps body clientId) (.ok (cmdStopCapture s body clientId)) := by
  unfold Settles stopCaptureSteps cmdStopCapture
  dsimp only
  split
  next => rfl
  next => simp only [Effect.execute_bind, Effect.execute_modify, flushSteps_execute,
      Effect.execute_pure, settle]

private theorem querySteps_settles (s : Service) (answer : Service → Except Bytes Response) :
    Settles s (querySteps answer) ((answer s).map fun r => (s, r)) := by
  unfold Settles querySteps
  rw [Effect.execute_bind, Effect.execute_get]
  dsimp only
  cases answer s <;> rfl

variable {lib : JsonLibrary}

private theorem activateChannelSteps_settles (s : Service) (body : Json) :
    Settles s (activateChannelSteps lib body) (cmdActivateChannel lib s body) := by
  unfold Settles activateChannelSteps cmdActivateChannel
  rw [Effect.execute_bind]
  cases channelOf lib body with
  | error what => rfl
  | ok t => cases t <;> rfl

private theorem deactivateChannelSteps_settles (s : Service) (body : Json) :
    Settles s (deactivateChannelSteps lib body) (cmdDeactivateChannel lib s body) := by
  unfold Settles deactivateChannelSteps cmdDeactivateChannel
  rw [Effect.execute_bind]
  cases channelOf lib body with
  | error what => rfl
  | ok t =>
      cases t with
      | none => rfl
      | some t =>
          simp only [Effect.ofExcept, Effect.execute_bind, Effect.execute_pure,
            Effect.execute_modify, Effect.execute_get]
          split <;> rfl

private theorem setParameterSteps_settles (s : Service) (body : Json) :
    Settles s (setParameterSteps lib body) (cmdSetParameter lib s body) := by
  unfold Settles setParameterSteps cmdSetParameter
  cases body.lookup (lit "name") with
  | none => rfl
  | some nameJson =>
      cases body.lookup (lit "value") with
      | none => rfl
      | some value =>
          dsimp only
          rw [Effect.execute_bind]
          cases lib.getString nameJson with
          | error what => rfl
          | ok name =>
              simp only [Effect.ofExcept, Effect.execute_bind, Effect.execute_pure,
                Effect.execute_get]
              cases s.params.get name with
              | none => rfl
              | some p =>
                  dsimp only
                  cases convertValue lib p.value value with
                  | error what => rfl
                  | ok v =>
                      simp only [callSetValue, Effect.execute_bind, Effect.execute_pure,
                        Effect.execute_get, Effect.execute_modify, execute_setValueSteps,
                        Except.map]
                      cases s.params.setValue name v <;> rfl

/-- The calls a command makes leave what the handler returns, and nothing when
the handler throws. -/
theorem handleSteps_settles (command : Bytes) (body : Json) (clientId : Bytes) (s : Service) :
    Settles s (handleSteps lib command body clientId) (handle lib command body clientId s) := by
  unfold handleSteps handle
  refine settles_ite (connectSteps_settles s clientId) ?_
  refine settles_ite (disconnectSteps_settles s clientId) ?_
  refine settles_ite (startCaptureSteps_settles s body clientId) ?_
  refine settles_ite (stopCaptureSteps_settles s body clientId) ?_
  refine settles_ite (activateChannelSteps_settles s body) ?_
  refine settles_ite (deactivateChannelSteps_settles s body) ?_
  iterate 3 refine settles_ite (querySteps_settles s _) ?_
  refine settles_ite (querySteps_settles s fun s => cmdGetParameter lib s body) ?_
  refine settles_ite (setParameterSteps_settles s body) ?_
  exact settles_ite rfl (settles_ite rfl rfl)

/-! ## Commands without a trace -/

/-- The commands that only answer. -/
def readOnlyCommands : List Bytes :=
  [lit "check_status", lit "list_channels", lit "list_parameters", lit "get_parameter"]

/-- The commands that write a parameter or a force flag. -/
def tuningCommands : List Bytes :=
  [lit "set_parameter", lit "activate_channel", lit "deactivate_channel"]

variable {command : Bytes} {body : Json} {clientId : Bytes} {s next : Service} {r : Response}

/-- A command that refuses has changed nothing. -/
theorem Handled.eq_of_refused (hhandled : Handled lib body clientId s command next r)
    (hrefused : r.code ≠ .success) : next = s := by
  cases hhandled with
  | connect hcmd =>
      unfold cmdConnect at hcmd
      split at hcmd
      next => exact (Prod.mk.inj hcmd).1.symm
      next =>
        rw [← (Prod.mk.inj hcmd).2] at hrefused
        exact absurd rfl hrefused
  | disconnect hcmd =>
      unfold cmdDisconnect at hcmd
      split at hcmd
      next =>
        rw [← (Prod.mk.inj hcmd).2] at hrefused
        exact absurd rfl hrefused
      next => exact (Prod.mk.inj hcmd).1.symm
  | startCapture hcmd =>
      unfold cmdStartCapture at hcmd
      dsimp only at hcmd
      split at hcmd
      next =>
        split at hcmd
        next => exact (Prod.mk.inj hcmd).1.symm
        next =>
          rw [← (Prod.mk.inj hcmd).2] at hrefused
          exact absurd rfl hrefused
      next => exact (Prod.mk.inj hcmd).1.symm
  | stopCapture hcmd =>
      unfold cmdStopCapture at hcmd
      dsimp only at hcmd
      split at hcmd
      next => exact (Prod.mk.inj hcmd).1.symm
      next =>
        rw [← (Prod.mk.inj hcmd).2] at hrefused
        exact absurd rfl hrefused
  | activateChannel hcmd =>
      unfold cmdActivateChannel at hcmd
      split at hcmd
      next => contradiction
      next => exact (Prod.mk.inj (Except.ok.inj hcmd)).1.symm
      next =>
        rw [← (Prod.mk.inj (Except.ok.inj hcmd)).2] at hrefused
        exact absurd rfl hrefused
  | deactivateChannel hcmd =>
      unfold cmdDeactivateChannel at hcmd
      split at hcmd
      next => contradiction
      next => exact (Prod.mk.inj (Except.ok.inj hcmd)).1.symm
      next =>
        rw [← (Prod.mk.inj (Except.ok.inj hcmd)).2] at hrefused
        exact absurd rfl hrefused
  | setParameter hcmd =>
      cases cmdSetParameter_returns hcmd with
      | stored => exact absurd rfl hrefused
      | _ => rfl
  | _ => rfl

/-- A command that only answers has changed nothing. -/
theorem Handled.eq_of_readOnly (hhandled : Handled lib body clientId s command next r)
    (hreadOnly : command ∈ readOnlyCommands) : next = s := by
  cases hhandled with
  | connect => exact absurd hreadOnly (by decide)
  | disconnect => exact absurd hreadOnly (by decide)
  | startCapture => exact absurd hreadOnly (by decide)
  | stopCapture => exact absurd hreadOnly (by decide)
  | activateChannel => exact absurd hreadOnly (by decide)
  | deactivateChannel => exact absurd hreadOnly (by decide)
  | setParameter => exact absurd hreadOnly (by decide)
  | _ => rfl

/-- A command that writes a parameter or a force flag leaves the sessions and
every subscription alone. -/
theorem Handled.keeps_clients (hhandled : Handled lib body clientId s command next r)
    (htuning : command ∈ tuningCommands) :
    next.sessions = s.sessions ∧ next.channels.clients = s.channels.clients := by
  cases hhandled with
  | activateChannel hcmd =>
      unfold cmdActivateChannel at hcmd
      split at hcmd
      next => contradiction
      next =>
        obtain ⟨rfl, _⟩ := Prod.mk.inj (Except.ok.inj hcmd)
        exact ⟨rfl, rfl⟩
      next =>
        obtain ⟨rfl, _⟩ := Prod.mk.inj (Except.ok.inj hcmd)
        exact ⟨rfl, rfl⟩
  | deactivateChannel hcmd =>
      unfold cmdDeactivateChannel at hcmd
      split at hcmd
      next => contradiction
      next =>
        obtain ⟨rfl, _⟩ := Prod.mk.inj (Except.ok.inj hcmd)
        exact ⟨rfl, rfl⟩
      next =>
        obtain ⟨rfl, _⟩ := Prod.mk.inj (Except.ok.inj hcmd)
        split <;> exact ⟨rfl, rfl⟩
  | setParameter hcmd =>
      cases cmdSetParameter_returns hcmd with
      | _ => exact ⟨rfl, rfl⟩
  | connect => exact absurd htuning (by decide)
  | disconnect => exact absurd htuning (by decide)
  | startCapture => exact absurd htuning (by decide)
  | stopCapture => exact absurd htuning (by decide)
  | _ => exact ⟨rfl, rfl⟩

/-- A request as the dispatcher receives it. -/
structure Request where
  command : Bytes
  body : Json
  clientId : Bytes

namespace Request

variable (lib : JsonLibrary) (q : Request) (s : Service)

/-- The outcome of a request: its response, or the text of an exception. -/
def outcome : Except Bytes Response :=
  ((handleSteps lib q.command q.body q.clientId).execute s).1

/-- The service a request leaves, whatever its outcome. -/
def after : Service := ((handleSteps lib q.command q.body q.clientId).execute s).2

def Succeeds : Prop := ∃ r, q.outcome lib s = .ok r ∧ r.code = .success

theorem handle_of_outcome {lib : JsonLibrary} {q : Request} {s : Service} {r : Response}
    (houtcome : q.outcome lib s = .ok r) :
    handle lib q.command q.body q.clientId s = .ok (q.after lib s, r) := by
  have hsettles : Settles s (handleSteps lib q.command q.body q.clientId)
      (handle lib q.command q.body q.clientId s) := handleSteps_settles _ _ _ _
  unfold outcome at houtcome
  unfold after
  rw [hsettles] at houtcome ⊢
  cases hhandle : handle lib q.command q.body q.clientId s with
  | error what =>
      rw [hhandle] at houtcome
      contradiction
  | ok result =>
      rw [hhandle] at houtcome
      rw [← Except.ok.inj houtcome]
      rfl

/-- A request that is answered went through the handler. -/
theorem handled_of_outcome {lib : JsonLibrary} {q : Request} {s : Service} {r : Response}
    (houtcome : q.outcome lib s = .ok r) :
    Handled lib q.body q.clientId s q.command (q.after lib s) r :=
  handle_handled (handle_of_outcome houtcome)

/-- What the handler returns is the outcome and what is left. -/
theorem outcome_of_handle {lib : JsonLibrary} {q : Request} {s next : Service} {r : Response}
    (hhandle : handle lib q.command q.body q.clientId s = .ok (next, r)) :
    q.outcome lib s = .ok r ∧ q.after lib s = next := by
  have hsettles : Settles s (handleSteps lib q.command q.body q.clientId)
      (handle lib q.command q.body q.clientId s) := handleSteps_settles _ _ _ _
  unfold outcome after
  rw [hsettles, hhandle]
  exact ⟨rfl, rfl⟩

/-- A request that throws has changed nothing. -/
theorem after_of_thrown {lib : JsonLibrary} {q : Request} {s : Service} {what : Bytes}
    (hthrown : q.outcome lib s = .error what) : q.after lib s = s := by
  have hsettles : Settles s (handleSteps lib q.command q.body q.clientId)
      (handle lib q.command q.body q.clientId s) := handleSteps_settles _ _ _ _
  unfold outcome at hthrown
  unfold after
  rw [hsettles] at hthrown ⊢
  cases hhandle : handle lib q.command q.body q.clientId s with
  | error => rfl
  | ok result =>
      rw [hhandle] at hthrown
      contradiction

/-- A request that throws, is refused or only reads leaves the service as it
was; one that writes a parameter or a force flag leaves every client's session
and subscriptions as they were. -/
theorem after_eq_or_keeps_clients :
    (¬ q.Succeeds lib s ∨ q.command ∈ readOnlyCommands → q.after lib s = s) ∧
      (q.Succeeds lib s → q.command ∈ tuningCommands →
        (q.after lib s).sessions = s.sessions ∧
          ∀ clientId, (q.after lib s).channels.subscriptions clientId =
            s.channels.subscriptions clientId) := by
  cases houtcome : q.outcome lib s with
  | error what =>
      refine ⟨fun _ => after_of_thrown houtcome, ?_⟩
      rintro ⟨r, hr, _⟩
      rw [houtcome] at hr
      contradiction
  | ok r =>
      have hhandled := handled_of_outcome houtcome
      constructor
      · rintro (hrefused | hreadOnly)
        · exact hhandled.eq_of_refused fun hcode => hrefused ⟨r, houtcome, hcode⟩
        · exact hhandled.eq_of_readOnly hreadOnly
      · intro _ htuning
        obtain ⟨hsessions, hclients⟩ := hhandled.keeps_clients htuning
        refine ⟨hsessions, fun clientId => ?_⟩
        unfold ChannelManager.subscriptions
        rw [hclients]

end Request

/-! ## Commands of clients without a session -/

/-- The commands documented with the prerequisite `connect`. -/
def connectPrerequisite : List Bytes :=
  [lit "start_capture", lit "stop_capture", lit "disconnect", lit "check_status",
    lit "list_channels", lit "list_parameters", lit "get_parameter", lit "set_parameter",
    lit "activate_channel", lit "deactivate_channel"]

/-- Only two commands answer `NotReady`. -/
theorem Handled.eq_of_notReady (hhandled : Handled lib body clientId s command next r)
    (hnotReady : r.code = .notReady) :
    command = lit "start_capture" ∨ command = lit "disconnect" := by
  cases hhandled with
  | startCapture => exact .inl rfl
  | disconnect => exact .inr rfl
  | connect hcmd =>
      unfold cmdConnect at hcmd
      split at hcmd <;> (rw [← (Prod.mk.inj hcmd).2] at hnotReady; contradiction)
  | stopCapture hcmd =>
      unfold cmdStopCapture at hcmd
      dsimp only at hcmd
      split at hcmd <;> (rw [← (Prod.mk.inj hcmd).2] at hnotReady; contradiction)
  | activateChannel hcmd =>
      unfold cmdActivateChannel at hcmd
      split at hcmd
      next => contradiction
      next => rw [← (Prod.mk.inj (Except.ok.inj hcmd)).2] at hnotReady; contradiction
      next => rw [← (Prod.mk.inj (Except.ok.inj hcmd)).2] at hnotReady; contradiction
  | deactivateChannel hcmd =>
      unfold cmdDeactivateChannel at hcmd
      split at hcmd
      next => contradiction
      next => rw [← (Prod.mk.inj (Except.ok.inj hcmd)).2] at hnotReady; contradiction
      next => rw [← (Prod.mk.inj (Except.ok.inj hcmd)).2] at hnotReady; contradiction
  | getParameter hcmd =>
      unfold cmdGetParameter at hcmd
      split at hcmd
      next =>
        rw [← Except.ok.inj hcmd] at hnotReady
        contradiction
      next nameJson _ =>
        cases hname : lib.getString nameJson with
        | error what =>
            rw [hname] at hcmd
            contradiction
        | ok name =>
            rw [hname] at hcmd
            simp only [Except.map, Except.ok.injEq] at hcmd
            rw [← hcmd] at hnotReady
            split at hnotReady <;> contradiction
  | setParameter hcmd =>
      cases cmdSetParameter_returns hcmd with
      | _ => contradiction
  | _ => contradiction

/-- A request is refused as `NotReady`, with no effect. -/
def Request.Barred (lib : JsonLibrary) (q : Request) (s : Service) : Prop :=
  (∃ r, q.outcome lib s = .ok r ∧ r.code = .notReady) ∧ q.after lib s = s

/-- A client without a session is barred from `start_capture` and `disconnect`,
and from no other command. -/
theorem unconnected_barred_iff (lib : JsonLibrary) (s : Service) (q : Request)
    (hunconnected : s.sessions.isConnected q.clientId = false) :
    q.Barred lib s ↔ q.command = lit "start_capture" ∨ q.command = lit "disconnect" := by
  constructor
  · rintro ⟨⟨r, houtcome, hnotReady⟩, _⟩
    exact (Request.handled_of_outcome houtcome).eq_of_notReady hnotReady
  · intro hchecked
    have hsettles : Settles s (handleSteps lib q.command q.body q.clientId)
        (handle lib q.command q.body q.clientId s) := handleSteps_settles _ _ _ _
    have hrefused : ∃ message, handle lib q.command q.body q.clientId s =
        .ok (s, .fromError .notReady message) := by
      rcases hchecked with hstart | hdisconnect
      · rw [hstart]
        refine ⟨lit "not connected — call connect first", ?_⟩
        change Except.ok (cmdStartCapture s q.body q.clientId) = _
        simp [cmdStartCapture, hunconnected]
      · rw [hdisconnect]
        refine ⟨lit "Not connected", ?_⟩
        change Except.ok (cmdDisconnect s q.clientId) = _
        simp [cmdDisconnect, hunconnected]
    obtain ⟨message, hhandle⟩ := hrefused
    rw [hhandle] at hsettles
    unfold Request.Barred Request.outcome Request.after
    rw [hsettles]
    exact ⟨⟨_, rfl, rfl⟩, rfl⟩

/-- The service after requests that are handled one after the other. -/
def serve (lib : JsonLibrary) (s : Service) (requests : List Request) : Service :=
  requests.foldl (fun s q => q.after lib s) s

/-- A write to the gain, from a client that has not connected. -/
def setGain : Request where
  command := lit "set_parameter"
  body := .object [(lit "name", .string (lit "gain")), (lit "value", .integer 60)]
  clientId := lit "B"

theorem startCapture_of_stranger_barred :
    Request.Barred .plain ⟨lit "start_capture", .emptyObject, lit "B"⟩
      (mainService .plain {} none {}) :=
  (unconnected_barred_iff .plain (mainService .plain {} none {})
    ⟨lit "start_capture", .emptyObject, lit "B"⟩ (by decide)).mpr (.inl rfl)

/-- A client that never connected sets a parameter. -/
theorem setGain_of_stranger_succeeds :
    ¬ ∀ (lib : JsonLibrary), lib.ConvertsStrings →
      ∀ (cfg : Config) (requests : List Request) (q : Request),
        q.command ∈ connectPrerequisite →
        (serve lib (mainService lib cfg none {}) requests).sessions.isConnected q.clientId = false →
        q.Barred lib (serve lib (mainService lib cfg none {}) requests) := by
  intro hbarred
  obtain ⟨⟨r, houtcome, hnotReady⟩, _⟩ := hbarred .plain JsonLibrary.plain_convertsStrings {} []
    setGain (by decide) (by decide)
  have hcode : (setGain.outcome .plain (mainService .plain {} none {})).toOption.map Response.code =
      some .success := by decide
  rw [serve, List.foldl_nil] at houtcome
  rw [houtcome] at hcode
  rw [Except.toOption, Option.map_some, hnotReady] at hcode
  contradiction

end CommandHandler

end SimVision
