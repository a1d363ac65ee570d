import Mathlib.Data.Finset.Card
import SimVision.Common.Config
import SimVision.Common.Parameter
import SimVision.Common.Response
import SimVision.Data.ChannelManager
import SimVision.Data.DataPipeline
import SimVision.Data.DataPublisher

/-! # The command dispatcher

A command reads and changes the service: sessions, channels, parameters and the
queues it drains. Conversions of the request body may throw, and nothing between
the dispatcher and the worker thread catches.
-/

namespace SimVision

open Foundation

/-- `SessionManager` is its set of connected clients. -/
abbrev SessionManager := Finset Bytes

namespace SessionManager

def connect (m : SessionManager) (clientId : Bytes) : SessionManager × Bool :=
  (insert clientId m, clientId ∉ m)

def disconnect (m : SessionManager) (clientId : Bytes) : SessionManager × Bool :=
  (m.erase clientId, clientId ∈ m)

def isConnected (m : SessionManager) (clientId : Bytes) : Bool := clientId ∈ m

def sessionCount (m : SessionManager) : Nat := m.card

end SessionManager

/-- What the handler's references reach, with every optional pointer set as in
`main`. The publisher shares the pipeline. -/
structure Service where
  sessions : SessionManager := ∅
  channels : ChannelManager := {}
  params : ParameterManager := {}
  publisher : PublisherStats := {}
  pipeline : DataPipeline ChannelFrame
  pairCount : Nat := 0
  framesProduced : Nat := 0

namespace CommandHandler

/-! ## Routing -/

def aliasMap : List (Bytes × Bytes) :=
  [(lit "checkstatus", lit "check_status"),
    (lit "listchannels", lit "list_channels"),
    (lit "listparameters", lit "list_parameters"),
    (lit "getparameter", lit "get_parameter"),
    (lit "setparameter", lit "set_parameter"),
    (lit "activatechannel", lit "activate_channel"),
    (lit "deactivatechannel", lit "deactivate_channel"),
    (lit "startcapture", lit "start_capture"),
    (lit "stopcapture", lit "stop_capture")]

/-- The command an alias stands for. -/
def resolveAlias (cmd : Bytes) : Bytes :=
  match aliasMap.find? fun a => a.1 = cmd with
  | some entry => entry.2
  | none => cmd

def normalizeCommand (path : Bytes) (body : Json) : Bytes :=
  -- one leading slash (byte 47) is dropped, then one `api/`
  let p := if path.head? = some 47 then path.drop 1 else path
  let p := if (lit "api/").isPrefixOf p then p.drop 4 else p
  let cmd :=
    if p = [] then []
    else
      match find p (lit "/") 0 with
      | some slash => resolveAlias (toLower (p.drop (slash + 1)))
      | none => resolveAlias (toLower p)
  if cmd = [] then
    match body.lookup (lit "command") with
    | some (.string s) => resolveAlias (toLower s)
    | _ => cmd
  else cmd

example : normalizeCommand (lit "/api/camera/GetParameter") .null = lit "get_parameter" := by
  decide

/-! ## Bodies and details -/

def valueToJson : ParamValue → Json
  | .integer v => .integer v
  | .float v => .float v
  | .enum v => .string v

def paramToJson (p : Parameter) : Json :=
  Json.ofAssignments <|
    [(lit "name", .string p.name),
      (lit "type", .string (paramVariantTypeName p.value)),
      (lit "value", valueToJson p.value),
      (lit "default", valueToJson p.defaultValue),
      (lit "is_readonly", .boolean p.isReadonly),
      (lit "is_available", .boolean p.isAvailable),
      (lit "needs_reopen", .boolean p.needsReopen)] ++
    (if p.value.integer?.isSome || p.value.float?.isSome then
      [(lit "min", valueToJson p.min), (lit "max", valueToJson p.max)]
    else []) ++
    (if p.enumOptions ≠ [] then [(lit "enum_options", .array (p.enumOptions.map .string))] else [])

/-- The data types one element of `data_types` stands for. -/
def expandName (s : Bytes) : List DataType :=
  let ls := toLower s
  if ls = lit "visual_2d" ∨ ls = lit "visual_geometric_2d" then groupMembers .visual2D
  else if ls = lit "visual_3d" ∨ ls = lit "visual_geometric_3d" then groupMembers .visual3D
  else if ls = lit "sensor_data" ∨ ls = lit "sensor_tracking" then groupMembers .sensorData
  else (dataTypeFromString ls).toList

/-- `expand_types`. The single field `data_type` is compared as it is written. -/
def expandTypes (body : Json) : List DataType :=
  match body.lookup (lit "data_types") with
  | some (.array items) => items.flatMap fun item =>
      match item with
      -- elements that are not strings stand for nothing
      | .string s => expandName s
      | _ => []
  | _ =>
      match body.lookup (lit "data_type") with
      | some (.string s) => (dataTypeFromString s).toList
      | _ => []

/-- The list under `data_types` of a response. -/
def typesDetail (types : List DataType) : Json :=
  Json.emptyObject.set (lit "data_types") (.array (types.map fun t => .string (dataTypeToString t)))

/-- The value read from JSON for a parameter: the current alternative decides the
conversion, which may throw. -/
def convertValue (lib : JsonLibrary) (current : ParamValue) (value : Json) :
    Except Bytes ParamValue :=
  match current with
  | .integer _ => (lib.getInt64 value).map .integer
  | .float _ => (lib.getDouble value).map .float
  | .enum _ => (lib.getString value).map .enum

/-! ## Commands -/

def cmdConnect (s : Service) (clientId : Bytes) : Service × Response :=
  if s.sessions.isConnected clientId then
    (s, { code := .alreadyInit, message := lit "Already connected" })
  else
    ({ s with sessions := (s.sessions.connect clientId).1 },
      { code := .success, message := lit "Connected" })

/-- The drains that follow the departure of the last subscriber: the handler's
pipeline, then the publisher's. -/
def drainAll (s : Service) : Service := { s with pipeline := s.pipeline.drain.drain }

def cmdDisconnect (s : Service) (clientId : Bytes) : Service × Response :=
  if s.sessions.isConnected clientId then
    let left := { s with
      channels := (s.channels.disconnectClient clientId).1
      sessions := (s.sessions.disconnect clientId).1 }
    (if left.channels.anySubscriber then left else drainAll left,
      { code := .success, message := lit "Disconnected" })
  else (s, .fromError .notReady (lit "Not connected"))

def cmdStartCapture (s : Service) (body : Json) (clientId : Bytes) : Service × Response :=
  if s.sessions.isConnected clientId then
    let types := expandTypes body
    if types = [] then (s, .fromError .invalidParam (lit "no valid data_types"))
    else
      ({ s with channels := s.channels.startCapture clientId types },
        { code := .success, message := lit "Capture started", detail := typesDetail types })
  else (s, .fromError .notReady (lit "not connected — call connect first"))

def cmdStopCapture (s : Service) (body : Json) (clientId : Bytes) : Service × Response :=
  let types := expandTypes body
  if types = [] then (s, .fromError .invalidParam (lit "no valid data_types"))
  else
    let stopped := { s with channels := s.channels.stopCapture clientId types }
    (if stopped.channels.anySubscriber then stopped else drainAll stopped,
      { code := .success, message := lit "Capture stopped", detail := typesDetail types })

variable (lib : JsonLibrary)

/-- The field `data_type` of a body, converted without a test of its type. -/
def channelOf (body : Json) : Except Bytes (Option DataType) :=
  match body.lookup (lit "data_type") with
  | none => .ok none
  | some value => (lib.getString value).map fun s => dataTypeFromString (toLower s)

def cmdActivateChannel (s : Service) (body : Json) : Except Bytes (Service × Response) :=
  match channelOf lib body with
  | .error what => .error what
  | .ok none => .ok (s, .fromError .invalidParam (lit "invalid data_type"))
  | .ok (some t) =>
      let (channels, changed) := s.channels.activateChannel t
      .ok ({ s with channels := channels },
        { code := .success
          message := if changed then lit "Channel activated" else lit "Channel already active"
          detail := (Json.emptyObject.set (lit "data_type") (.string (dataTypeToString t))).set
            (lit "restart_required") (.boolean false) })

def cmdDeactivateChannel (s : Service) (body : Json) : Except Bytes (Service × Response) :=
  match channelOf lib body with
  | .error what => .error what
  | .ok none => .ok (s, .fromError .invalidParam (lit "invalid data_type"))
  | .ok (some t) =>
      let inactive := { s with channels := (s.channels.deactivateChannel t).1 }
      .ok (if inactive.channels.groupActive (dataTypeToGroup t) then inactive
          else { inactive with pipeline := inactive.pipeline.drainGroup (dataTypeToGroup t) },
        { code := .success
          message := lit "Channel deactivated"
          detail := (Json.emptyObject.set (lit "data_type") (.string (dataTypeToString t))).set
            (lit "restart_required") (.boolean true) })

def publisherJson (stats : PublisherStats) : Json :=
  Json.ofAssignments
    [(lit "sent_2d", .unsigned stats.sent2D), (lit "sent_3d", .unsigned stats.sent3D),
      (lit "sent_sensor", .unsigned stats.sentSensor),
      (lit "dropped_hwm", .unsigned stats.droppedHwm),
      (lit "shutdown_sent", .unsigned stats.shutdownSent)]

def pipelineJson (stats : PipelineStats) : Json :=
  Json.ofAssignments
    [(lit "pushed_2d", .unsigned stats.pushed2D), (lit "pushed_3d", .unsigned stats.pushed3D),
      (lit "pushed_sensor", .unsigned stats.pushedSensor),
      (lit "dropped_2d", .unsigned stats.dropped2D), (lit "dropped_3d", .unsigned stats.dropped3D),
      (lit "dropped_sensor", .unsigned stats.droppedSensor),
      (lit "queue_2d", .unsigned stats.queue2D), (lit "queue_3d", .unsigned stats.queue3D),
      (lit "queue_sensor", .unsigned stats.queueSensor)]

def cmdCheckStatus (s : Service) : Response where
  code := .success
  message := lit "Status"
  detail := Json.ofAssignments
    [(lit "initialized", .boolean true),
      (lit "sessions", .integer s.sessions.sessionCount),
      (lit "simulator", .string versionTag),
      (lit "stereo_pairs_loaded", .unsigned s.pairCount),
      (lit "frames_produced", .unsigned s.framesProduced),
      (lit "channels", s.channels.statusJson),
      (lit "publisher", publisherJson s.publisher),
      (lit "pipeline", pipelineJson s.pipeline.stats)]

def cmdListChannels (s : Service) : Response where
  code := .success
  message := lit "Channels"
  detail := Json.emptyObject.set (lit "channels") <| .array <| allDataTypes.map fun t =>
    Json.ofAssignments
      [(lit "data_type", .string (dataTypeToString t)),
        (lit "group", .string (groupToString (dataTypeToGroup t))),
        (lit "supported", .boolean true),
        (lit "activated", .boolean (s.channels.isActive t)),
        (lit "subscribers", .integer (s.channels.subscriberCount t))]

def cmdListParameters (s : Service) : Response where
  code := .success
  message := lit "Parameters"
  detail := Json.emptyObject.set (lit "parameters") (.array (s.params.all.map paramToJson))

def cmdGetParameter (s : Service) (body : Json) : Except Bytes Response :=
  match body.lookup (lit "name") with
  | none => .ok (.fromError .invalidParam (lit "missing 'name'"))
  | some nameJson =>
      (lib.getString nameJson).map fun name =>
        match s.params.get name with
        | none => .fromError .invalidParam (lit "unknown parameter")
        | some p => { code := .success, message := lit "Success", detail := paramToJson p }

def cmdSetParameter (s : Service) (body : Json) : Except Bytes (Service × Response) :=
  match body.lookup (lit "name"), body.lookup (lit "value") with
  | some nameJson, some value =>
      match lib.getString nameJson with
      | .error what => .error what
      | .ok name =>
          match s.params.get name with
          | none => .ok (s, .fromError .invalidParam (lit "unknown parameter"))
          | some p =>
              (convertValue lib p.value value).map fun v =>
                -- the conversion has been made before the setter can refuse
                match s.params.setValue name v with
                | .error err => (s, .fromError .invalidParam err)
                | .ok params =>
                    ({ s with params := params },
                      { code := .success
                        message := lit "Parameter set"
                        detail := ((Json.emptyObject.set (lit "name") (.string name)).set
                          (lit "value") (valueToJson v)).set
                          (lit "needs_reopen") (.boolean p.needsReopen) })
  | _, _ => .ok (s, .fromError .invalidParam (lit "missing 'name' or 'value'"))

/-- `handle`: the service and the response, or the text of an exception, which
is thrown before anything has changed. -/
def handle (command : Bytes) (body : Json) (clientId : Bytes) (s : Service) :
    Except Bytes (Service × Response) :=
  if command = lit "connect" then .ok (cmdConnect s clientId)
  else if command = lit "disconnect" then .ok (cmdDisconnect s clientId)
  else if command = lit "start_capture" then .ok (cmdStartCapture s body clientId)
  else if command = lit "stop_capture" then .ok (cmdStopCapture s body clientId)
  else if command = lit "activate_channel" then cmdActivateChannel lib s body
  else if command = lit "deactivate_channel" then cmdDeactivateChannel lib s body
  else if command = lit "check_status" then .ok (s, cmdCheckStatus s)
  else if command = lit "list_channels" then .ok (s, cmdListChannels s)
  else if command = lit "list_parameters" then .ok (s, cmdListParameters s)
  else if command = lit "get_parameter" then (cmdGetParameter lib s body).map fun r => (s, r)
  else if command = lit "set_parameter" then cmdSetParameter lib s body
  else if command = lit "init" then
    .ok (s, .fromError .alreadyInit (lit "Already initialized"))
  else if command = lit "dispose" then .ok (s, .fromError .error (lit "Not permitted via API"))
  else .ok (s, .fromError .invalidParam (lit "unknown command: " ++ command))

/-- What a `set_parameter` that returns has read and done. -/
inductive SetParameterReturns (s : Service) (body : Json) : Service → Response → Prop where
  | missing :
      SetParameterReturns s body s (.fromError .invalidParam (lit "missing 'name' or 'value'"))
  | unknown : SetParameterReturns s body s (.fromError .invalidParam (lit "unknown parameter"))
  | refused {nameJson value : Json} {name err : Bytes} {p : Parameter} {v : ParamValue}
      (hname : body.lookup (lit "name") = some nameJson)
      (hstring : lib.getString nameJson = .ok name)
      (hvalue : body.lookup (lit "value") = some value)
      (hconvert : convertValue lib p.value value = .ok v)
      (hset : s.params.setValue name v = .error err) :
      SetParameterReturns s body s (.fromError .invalidParam err)
  | stored {nameJson value : Json} {name : Bytes} {p : Parameter} {v : ParamValue}
      {params : ParameterManager}
      (hname : body.lookup (lit "name") = some nameJson)
      (hstring : lib.getString nameJson = .ok name)
      (hvalue : body.lookup (lit "value") = some value)
      (hconvert : convertValue lib p.value value = .ok v)
      (hset : s.params.setValue name v = .ok params) :
      SetParameterReturns s body { s with params := params }
        { code := .success
          message := lit "Parameter set"
          detail := ((Json.emptyObject.set (lit "name") (.string name)).set
            (lit "value") (valueToJson v)).set (lit "needs_reopen") (.boolean p.needsReopen) }

theorem cmdSetParameter_returns {lib : JsonLibrary} {s next : Service} {body : Json} {r : Response}
    (hcmd : cmdSetParameter lib s body = .ok (next, r)) :
    SetParameterReturns lib s body next r := by
  unfold cmdSetParameter at hcmd
  split at hcmd
  next nameJson value hname hvalue =>
    split at hcmd
    next => contradiction
    next name hstring =>
      split at hcmd
      next =>
        obtain ⟨rfl, rfl⟩ := Prod.mk.inj (Except.ok.inj hcmd)
        exact .unknown
      next p _ =>
        cases hconvert : convertValue lib p.value value with
        | error what =>
            rw [hconvert] at hcmd
            contradiction
        | ok v =>
            rw [hconvert] at hcmd
            simp only [Except.map, Except.ok.injEq] at hcmd
            split at hcmd
            next hset =>
              obtain ⟨rfl, rfl⟩ := Prod.mk.inj hcmd
              exact .refused hname hstring hvalue hconvert hset
            next hset =>
              obtain ⟨rfl, rfl⟩ := Prod.mk.inj hcmd
              exact .stored hname hstring hvalue hconvert hset
  next =>
    obtain ⟨rfl, rfl⟩ := Prod.mk.inj (Except.ok.inj hcmd)
    exact .missing

/-- The commands that `handle` compares with. -/
def commandNames : List Bytes :=
  [lit "connect", lit "disconnect", lit "start_capture", lit "stop_capture",
    lit "activate_channel", lit "deactivate_channel", lit "check_status", lit "list_channels",
    lit "list_parameters", lit "get_parameter", lit "set_parameter", lit "init", lit "dispose"]

/-- The command that ran when `handle` returned, with what it left and answered. -/
inductive Handled (body : Json) (clientId : Bytes) (s : Service) :
    Bytes → Service → Response → Prop where
  | connect {next : Service} {r : Response} (hcmd : cmdConnect s clientId = (next, r)) :
      Handled body clientId s (lit "connect") next r
  | disconnect {next : Service} {r : Response} (hcmd : cmdDisconnect s clientId = (next, r)) :
      Handled body clientId s (lit "disconnect") next r
  | startCapture {next : Service} {r : Response}
      (hcmd : cmdStartCapture s body clientId = (next, r)) :
      Handled body clientId s (lit "start_capture") next r
  | stopCapture {next : Service} {r : Response}
      (hcmd : cmdStopCapture s body clientId = (next, r)) :
      Handled body clientId s (lit "stop_capture") next r
  | activateChannel {next : Service} {r : Response}
      (hcmd : cmdActivateChannel lib s body = .ok (next, r)) :
      Handled body clientId s (lit "activate_channel") next r
  | deactivateChannel {next : Service} {r : Response}
      (hcmd : cmdDeactivateChannel lib s body = .ok (next, r)) :
      Handled body clientId s (lit "deactivate_channel") next r
  | checkStatus : Handled body clientId s (lit "check_status") s (cmdCheckStatus s)
  | listChannels : Handled body clientId s (lit "list_channels") s (cmdListChannels s)
  | listParameters : Handled body clientId s (lit "list_parameters") s (cmdListParameters s)
  | getParameter {r : Response} (hcmd : cmdGetParameter lib s body = .ok r) :
      Handled body clientId s (lit "get_parameter") s r
  | setParameter {next : Service} {r : Response}
      (hcmd : cmdSetParameter lib s body = .ok (next, r)) :
      Handled body clientId s (lit "set_parameter") next r
  | init : Handled body clientId s (lit "init") s
      (.fromError .alreadyInit (lit "Already initialized"))
  | dispose : Handled body clientId s (lit "dispose") s
      (.fromError .error (lit "Not permitted via API"))
  | unknown {command : Bytes} (hunknown : command ∉ commandNames) :
      Handled body clientId s command s
        (.fromError .invalidParam (lit "unknown command: " ++ command))

theorem handle_handled {lib : JsonLibrary} {command : Bytes} {body : Json} {clientId : Bytes}
    {s next : Service} {r : Response}
    (hhandle : handle lib command body clientId s = .ok (next, r)) :
    Handled lib body clientId s command next r := by
  -- the comparisons are taken in the order of the source, so a command is decided by
  -- the first name it equals
  unfold handle at hhandle
  by_cases hconnect : command = lit "connect"
  · rw [if_pos hconnect] at hhandle
    subst hconnect
    exact .connect (Except.ok.inj hhandle)
  rw [if_neg hconnect] at hhandle
  by_cases hdisconnect : command = lit "disconnect"
  · rw [if_pos hdisconnect] at hhandle
    subst hdisconnect
    exact .disconnect (Except.ok.inj hhandle)
  rw [if_neg hdisconnect] at hhandle
  by_cases hstart : command = lit "start_capture"
  · rw [if_pos hstart] at hhandle
    subst hstart
    exact .startCapture (Except.ok.inj hhandle)
  rw [if_neg hstart] at hhandle
  by_cases hstop : command = lit "stop_capture"
  · rw [if_pos hstop] at hhandle
    subst hstop
    exact .stopCapture (Except.ok.inj hhandle)
  rw [if_neg hstop] at hhandle
  by_cases hactivate : command = lit "activate_channel"
  · rw [if_pos hactivate] at hhandle
    subst hactivate
    exact .activateChannel hhandle
  rw [if_neg hactivate] at hhandle
  by_cases hdeactivate : command = lit "deactivate_channel"
  · rw [if_pos hdeactivate] at hhandle
    subst hdeactivate
    exact .deactivateChannel hhandle
  rw [if_neg hdeactivate] at hhandle
  by_cases hstatus : command = lit "check_status"
  · rw [if_pos hstatus] at hhandle
    subst hstatus
    obtain ⟨rfl, rfl⟩ := Prod.mk.inj (Except.ok.inj hhandle)
    exact .checkStatus
  rw [if_neg hstatus] at hhandle
  by_cases hchannels : command = lit "list_channels"
  · rw [if_pos hchannels] at hhandle
    subst hchannels
    obtain ⟨rfl, rfl⟩ := Prod.mk.inj (Except.ok.inj hhandle)
    exact .listChannels
  rw [if_neg hchannels] at hhandle
  by_cases hparameters : command = lit "list_parameters"
  · rw [if_pos hparameters] at hhandle
    subst hparameters
    obtain ⟨rfl, rfl⟩ := Prod.mk.inj (Except.ok.inj hhandle)
    exact .listParameters
  rw [if_neg hparameters] at hhandle
  by_cases hget : command = lit "get_parameter"
  · rw [if_pos hget] at hhandle
    subst hget
    cases hcmd : cmdGetParameter lib s body with
    | error what =>
        rw [hcmd] at hhandle
        contradiction
    | ok response =>
        rw [hcmd] at hhandle
        obtain ⟨rfl, rfl⟩ := Prod.mk.inj (Except.ok.inj hhandle)
        exact .getParameter hcmd
  rw [if_neg hget] at hhandle
  by_cases hset : command = lit "set_parameter"
  · rw [if_pos hset] at hhandle
    subst hset
    exact .setParameter hhandle
  rw [if_neg hset] at hhandle
  by_cases hinit : command = lit "init"
  · rw [if_pos hinit] at hhandle
    subst hinit
    obtain ⟨rfl, rfl⟩ := Prod.mk.inj (Except.ok.inj hhandle)
    exact .init
  rw [if_neg hinit] at hhandle
  by_cases hdispose : command = lit "dispose"
  · rw [if_pos hdispose] at hhandle
    subst hdispose
    obtain ⟨rfl, rfl⟩ := Prod.mk.inj (Except.ok.inj hhandle)
    exact .dispose
  rw [if_neg hdispose] at hhandle
  obtain ⟨rfl, rfl⟩ := Prod.mk.inj (Except.ok.inj hhandle)
  apply Handled.unknown
  simp only [commandNames, List.mem_cons, List.not_mem_nil, or_false, not_or]
  exact ⟨hconnect, hdisconnect, hstart, hstop, hactivate, hdeactivate, hstatus, hchannels,
    hparameters, hget, hset, hinit, hdispose⟩

/-- Only `set_parameter` changes the parameters. -/
theorem Handled.params_eq {lib : JsonLibrary} {command : Bytes} {body : Json} {clientId : Bytes}
    {s next : Service} {r : Response} (hhandled : Handled lib body clientId s command next r)
    (hset : command ≠ lit "set_parameter") : next.params = s.params := by
  cases hhandled with
  | connect hcmd =>
      unfold cmdConnect at hcmd
      split at hcmd <;> rw [← (Prod.mk.inj hcmd).1]
  | disconnect hcmd =>
      unfold cmdDisconnect at hcmd
      split at hcmd
      next =>
        rw [← (Prod.mk.inj hcmd).1]
        split <;> rfl
      next => rw [← (Prod.mk.inj hcmd).1]
  | startCapture hcmd =>
      unfold cmdStartCapture at hcmd
      dsimp only at hcmd
      split_ifs at hcmd <;> rw [← (Prod.mk.inj hcmd).1]
  | stopCapture hcmd =>
      unfold cmdStopCapture at hcmd
      dsimp only at hcmd
      split at hcmd
      next => rw [← (Prod.mk.inj hcmd).1]
      next =>
        rw [← (Prod.mk.inj hcmd).1]
        split <;> rfl
  | activateChannel hcmd =>
      unfold cmdActivateChannel at hcmd
      split at hcmd
      next => contradiction
      next => rw [← (Prod.mk.inj (Except.ok.inj hcmd)).1]
      next => rw [← (Prod.mk.inj (Except.ok.inj hcmd)).1]
  | deactivateChannel hcmd =>
      unfold cmdDeactivateChannel at hcmd
      split at hcmd
      next => contradiction
      next => rw [← (Prod.mk.inj (Except.ok.inj hcmd)).1]
      next =>
        rw [← (Prod.mk.inj (Except.ok.inj hcmd)).1]
        split <;> rfl
  | setParameter hcmd => exact absurd rfl hset
  | _ => rfl

end CommandHandler

end SimVision
