import SimVision.App.SerialService
import SimVision.Data.SubscriptionLog

/-! # The log of answers

Whoever records every request with its answer knows the state of the service that
clients can ask for: who is connected, who is subscribed to what, which channels are
forced and what each parameter is set to. Each answer agrees with the answers before
it, whatever ticks and publisher iterations came between.
-/

namespace SimVision

open Foundation CommandHandler

/-! ## Details that are read back -/

@[simp] theorem expandName_dataTypeToString (t : DataType) :
    expandName (dataTypeToString t) = [t] := by
  cases t <;> rfl

/-- The detail of an answer, sent back as a body, stands for the same types. -/
theorem expandTypes_typesDetail (types : List DataType) :
    expandTypes (typesDetail types) = types := by
  change (types.map fun t => Json.string (dataTypeToString t)).flatMap _ = types
  rw [List.flatMap_map]
  refine Eq.trans ?_ (List.flatMap_singleton' types)
  exact List.flatMap_congr fun t _ => expandName_dataTypeToString t

/-- The detail of an answer to a channel command stands for its type. -/
theorem expandTypes_channelDetail (t : DataType) (restart : Bool) :
    expandTypes ((Json.emptyObject.set (lit "data_type") (.string (dataTypeToString t))).set
      (lit "restart_required") (.boolean restart)) = [t] := by
  cases t <;> rfl

/-- The value an answer shows for a parameter. -/
def jsonToValue? : Json → Option ParamValue
  | .integer v => some (.integer v)
  | .float v => some (.float v)
  | .string v => some (.enum v)
  | _ => none

@[simp] theorem jsonToValue_valueToJson (v : ParamValue) :
    jsonToValue? (valueToJson v) = some v := by
  cases v <;> rfl

/-- The string under a key. -/
def stringUnder? (key : Bytes) (j : Json) : Option Bytes :=
  match j.lookup key with
  | some (.string s) => some s
  | _ => none

/-! ## What an entry says -/

/-- A step with its answer. -/
abbrev LogEntry := SerialAction × Response

/-- The call that an answer tells `ChannelManager` has seen. -/
def channelCall? : LogEntry → Option ChannelCall
  | (.command q, r) =>
      if r.code ≠ .success then none
      else if q.command = lit "start_capture" then
        some (.startCapture q.clientId (expandTypes r.detail))
      else if q.command = lit "stop_capture" then
        some (.stopCapture q.clientId (expandTypes r.detail))
      else if q.command = lit "disconnect" then some (.disconnectClient q.clientId)
      else if q.command = lit "activate_channel" then
        (expandTypes r.detail).head?.map .activateChannel
      else if q.command = lit "deactivate_channel" then
        (expandTypes r.detail).head?.map .deactivateChannel
      else none
  | _ => none

/-- What an answer makes of the session of a client. -/
def sessionWrite? (client : Bytes) : LogEntry → Option Bool
  | (.command q, r) =>
      if r.code ≠ .success then none
      else if q.command = lit "connect" then if q.clientId = client then some true else none
      else if q.command = lit "disconnect" then if q.clientId = client then some false else none
      else none
  | _ => none

/-- The value an answer reports as stored. -/
def settingWrite? (name : Bytes) : LogEntry → Option ParamValue
  | (.command q, r) =>
      if q.command = lit "set_parameter" ∧ r.code = .success ∧
          stringUnder? (lit "name") r.detail = some name then
        (r.detail.lookup (lit "value")).bind jsonToValue?
      else none
  | _ => none

/-! ## One command -/

/-- What a command leaves agrees with its answer. -/
structure AnswerTells (q : Request) (s next : Service) (r : Response) : Prop where
  channels : next.channels =
    ((channelCall? (.command q, r)).toList).foldl
      (ChannelManager.applyWith ChannelStates.decrement) s.channels
  sessions : ∀ client, next.sessions.isConnected client =
    (sessionWrite? client (.command q, r)).getD (s.sessions.isConnected client)
  names : next.params.names = s.params.names
  params : ∀ name, next.params.get name = (s.params.get name).map fun p =>
    { p with value := (settingWrite? name (.command q, r)).getD p.value }

section Tells

variable {lib : JsonLibrary} {q : Request} {s next : Service} {r : Response} {body : Json}
  {clientId : Bytes}

/-- An answer without a session to report. -/
theorem sessions_unsaid {client : Bytes} (hsessions : next.sessions = s.sessions)
    (hsession : sessionWrite? client (.command q, r) = none) :
    next.sessions.isConnected client =
      (sessionWrite? client (.command q, r)).getD (s.sessions.isConnected client) := by
  rw [hsession, hsessions]
  rfl

/-- An answer without a setting to report. -/
theorem AnswerTells.of_params (hparams : next.params = s.params)
    (hsetting : ∀ name, settingWrite? name (.command q, r) = none)
    (hchannels : next.channels = ((channelCall? (.command q, r)).toList).foldl
      (ChannelManager.applyWith ChannelStates.decrement) s.channels)
    (hsessions : ∀ client, next.sessions.isConnected client =
      (sessionWrite? client (.command q, r)).getD (s.sessions.isConnected client)) :
    AnswerTells q s next r := by
  refine ⟨hchannels, hsessions, congrArg _ hparams, fun name => ?_⟩
  rw [hparams, hsetting]
  cases s.params.get name with
  | none => rfl
  | some p => rfl

theorem AnswerTells.of_unchanged (hsame : next = s)
    (hcall : channelCall? (.command q, r) = none)
    (hsession : ∀ client, sessionWrite? client (.command q, r) = none)
    (hsetting : ∀ name, settingWrite? name (.command q, r) = none) : AnswerTells q s next r := by
  subst hsame
  refine .of_params rfl hsetting ?_ fun client => sessions_unsaid rfl (hsession client)
  rw [hcall]
  rfl

theorem AnswerTells.of_refused (hsame : next = s) (hcode : r.code ≠ .success) :
    AnswerTells q s next r :=
  .of_unchanged hsame (if_pos hcode) (fun _ => if_pos hcode)
    fun _ => if_neg fun hall => hcode hall.2.1

theorem cmdConnect_tells (hcmd : cmdConnect s clientId = (next, r)) (hcode : r.code = .success) :
    AnswerTells ⟨lit "connect", body, clientId⟩ s next r := by
  unfold cmdConnect at hcmd
  split at hcmd
  next =>
    rw [← (Prod.mk.inj hcmd).2] at hcode
    contradiction
  next =>
    obtain ⟨rfl, rfl⟩ := Prod.mk.inj hcmd
    refine .of_params rfl (fun _ => rfl) rfl fun client => ?_
    have hwrite : sessionWrite? client (.command ⟨lit "connect", body, clientId⟩,
        { code := .success, message := lit "Connected" }) =
        if clientId = client then some true else none := rfl
    rw [hwrite]
    by_cases hclient : clientId = client
    · simp [hclient, SessionManager.connect, SessionManager.isConnected]
    · simp [hclient, Ne.symm hclient, SessionManager.connect, SessionManager.isConnected]

theorem cmdDisconnect_tells (hcmd : cmdDisconnect s clientId = (next, r))
    (hcode : r.code = .success) : AnswerTells ⟨lit "disconnect", body, clientId⟩ s next r := by
  unfold cmdDisconnect at hcmd
  split at hcmd
  next =>
    obtain ⟨hnext, rfl⟩ := Prod.mk.inj hcmd
    have hflushed : next.channels = (s.channels.disconnectClient clientId).1 ∧
        next.sessions = (s.sessions.disconnect clientId).1 ∧ next.params = s.params := by
      rw [← hnext]
      dsimp only
      split <;> exact ⟨rfl, rfl, rfl⟩
    obtain ⟨hchannels, hsessions, hparams⟩ := hflushed
    refine .of_params hparams (fun _ => rfl) hchannels fun client => ?_
    have hwrite : sessionWrite? client (.command ⟨lit "disconnect", body, clientId⟩,
        { code := .success, message := lit "Disconnected" }) =
        if clientId = client then some false else none := rfl
    rw [hwrite, hsessions]
    by_cases hclient : clientId = client
    · simp [hclient, SessionManager.disconnect, SessionManager.isConnected]
    · simp [hclient, Ne.symm hclient, SessionManager.disconnect, SessionManager.isConnected]
  next =>
    rw [← (Prod.mk.inj hcmd).2] at hcode
    contradiction

/-- An answer that lists its types, sent back, is the call that was made. -/
theorem channelCall_startCapture (types : List DataType) (message : Bytes) :
    channelCall? (.command ⟨lit "start_capture", body, clientId⟩,
      { code := .success, message := message, detail := typesDetail types }) =
      some (.startCapture clientId types) := by
  have hcall : channelCall? (.command ⟨lit "start_capture", body, clientId⟩,
      { code := .success, message := message, detail := typesDetail types }) =
      some (.startCapture clientId (expandTypes (typesDetail types))) := rfl
  rw [hcall, expandTypes_typesDetail]

theorem channelCall_stopCapture (types : List DataType) (message : Bytes) :
    channelCall? (.command ⟨lit "stop_capture", body, clientId⟩,
      { code := .success, message := message, detail := typesDetail types }) =
      some (.stopCapture clientId types) := by
  have hcall : channelCall? (.command ⟨lit "stop_capture", body, clientId⟩,
      { code := .success, message := message, detail := typesDetail types }) =
      some (.stopCapture clientId (expandTypes (typesDetail types))) := rfl
  rw [hcall, expandTypes_typesDetail]

theorem cmdStartCapture_tells (hcmd : cmdStartCapture s body clientId = (next, r))
    (hcode : r.code = .success) : AnswerTells ⟨lit "start_capture", body, clientId⟩ s next r := by
  unfold cmdStartCapture at hcmd
  dsimp only at hcmd
  split_ifs at hcmd
  · rw [← (Prod.mk.inj hcmd).2] at hcode
    contradiction
  · obtain ⟨rfl, rfl⟩ := Prod.mk.inj hcmd
    refine .of_params rfl (fun _ => rfl) ?_ fun client => sessions_unsaid rfl rfl
    rw [channelCall_startCapture]
    rfl
  · rw [← (Prod.mk.inj hcmd).2] at hcode
    contradiction

theorem cmdStopCapture_tells (hcmd : cmdStopCapture s body clientId = (next, r))
    (hcode : r.code = .success) : AnswerTells ⟨lit "stop_capture", body, clientId⟩ s next r := by
  unfold cmdStopCapture at hcmd
  dsimp only at hcmd
  split at hcmd
  next =>
    rw [← (Prod.mk.inj hcmd).2] at hcode
    contradiction
  next =>
    obtain ⟨hnext, rfl⟩ := Prod.mk.inj hcmd
    have hflushed : next.channels = s.channels.stopCapture clientId (expandTypes body) ∧
        next.sessions = s.sessions ∧ next.params = s.params := by
      rw [← hnext]
      split <;> exact ⟨rfl, rfl, rfl⟩
    obtain ⟨hchannels, hsessions, hparams⟩ := hflushed
    refine .of_params hparams (fun _ => rfl) ?_ fun client => sessions_unsaid hsessions rfl
    rw [channelCall_stopCapture, hchannels]
    rfl

theorem cmdActivateChannel_tells (hcmd : cmdActivateChannel lib s body = .ok (next, r))
    (hcode : r.code = .success) :
    AnswerTells ⟨lit "activate_channel", body, clientId⟩ s next r := by
  unfold cmdActivateChannel at hcmd
  split at hcmd
  next => contradiction
  next =>
    rw [← (Prod.mk.inj (Except.ok.inj hcmd)).2] at hcode
    contradiction
  next t _ =>
    obtain ⟨rfl, rfl⟩ := Prod.mk.inj (Except.ok.inj hcmd)
    refine .of_params rfl (fun _ => rfl) ?_ fun client => sessions_unsaid rfl rfl
    have hcall : ∀ message, channelCall? (.command ⟨lit "activate_channel", body, clientId⟩,
        { code := .success, message := message,
          detail := (Json.emptyObject.set (lit "data_type") (.string (dataTypeToString t))).set
            (lit "restart_required") (.boolean false) }) =
        (expandTypes ((Json.emptyObject.set (lit "data_type")
          (.string (dataTypeToString t))).set (lit "restart_required")
          (.boolean false))).head?.map .activateChannel := fun _ => rfl
    rw [hcall, expandTypes_channelDetail]
    rfl

theorem cmdDeactivateChannel_tells (hcmd : cmdDeactivateChannel lib s body = .ok (next, r))
    (hcode : r.code = .success) :
    AnswerTells ⟨lit "deactivate_channel", body, clientId⟩ s next r := by
  unfold cmdDeactivateChannel at hcmd
  split at hcmd
  next => contradiction
  next =>
    rw [← (Prod.mk.inj (Except.ok.inj hcmd)).2] at hcode
    contradiction
  next t _ =>
    obtain ⟨hnext, rfl⟩ := Prod.mk.inj (Except.ok.inj hcmd)
    have hdrained : next.channels = (s.channels.deactivateChannel t).1 ∧
        next.sessions = s.sessions ∧ next.params = s.params := by
      rw [← hnext]
      split <;> exact ⟨rfl, rfl, rfl⟩
    obtain ⟨hchannels, hsessions, hparams⟩ := hdrained
    refine .of_params hparams (fun _ => rfl) ?_ fun client => sessions_unsaid hsessions rfl
    have hcall : channelCall? (.command ⟨lit "deactivate_channel", body, clientId⟩,
        { code := .success, message := lit "Channel deactivated",
          detail := (Json.emptyObject.set (lit "data_type") (.string (dataTypeToString t))).set
            (lit "restart_required") (.boolean true) }) =
        (expandTypes ((Json.emptyObject.set (lit "data_type")
          (.string (dataTypeToString t))).set (lit "restart_required")
          (.boolean true))).head?.map .deactivateChannel := rfl
    rw [hcall, expandTypes_channelDetail, hchannels]
    rfl

theorem cmdSetParameter_tells (hcmd : cmdSetParameter lib s body = .ok (next, r))
    (hcode : r.code = .success) : AnswerTells ⟨lit "set_parameter", body, clientId⟩ s next r := by
  cases cmdSetParameter_returns hcmd with
  | missing => contradiction
  | unknown => contradiction
  | refused => contradiction
  | @stored _ _ name p v params _ _ _ _ hset =>
      obtain ⟨stored, hget, -, -, rfl⟩ := ParameterManager.setValue_ok hset
      refine ⟨rfl, fun client => sessions_unsaid rfl rfl, s.params.names_store name stored v,
        fun other => ?_⟩
      have hwrite : settingWrite? other (.command ⟨lit "set_parameter", body, clientId⟩,
          { code := .success
            message := lit "Parameter set"
            detail := ((Json.emptyObject.set (lit "name") (.string name)).set
              (lit "value") (valueToJson v)).set (lit "needs_reopen")
              (.boolean p.needsReopen) }) =
          if name = other then some v else none := by
        by_cases hname : name = other
        · rw [if_pos hname]
          refine (if_pos ⟨rfl, rfl, congrArg some hname⟩).trans ?_
          exact jsonToValue_valueToJson v
        · rw [if_neg hname]
          exact if_neg fun hall => hname (Option.some.inj hall.2.2)
      rw [hwrite, ParameterManager.get_store hget]
      by_cases hname : other = name
      · rw [if_pos hname, if_pos hname.symm, hname, hget]
        rfl
      · rw [if_neg hname, if_neg (Ne.symm hname)]
        cases s.params.get other with
        | none => rfl
        | some q => rfl

theorem AnswerTells.of_handled (hhandled : Handled lib q.body q.clientId s q.command next r) :
    AnswerTells q s next r := by
  by_cases hcode : r.code = .success
  swap
  · exact .of_refused (hhandled.eq_of_refused hcode) hcode
  obtain ⟨command, body, clientId⟩ := q
  dsimp only at hhandled
  cases hhandled with
  | connect hcmd => exact cmdConnect_tells hcmd hcode
  | disconnect hcmd => exact cmdDisconnect_tells hcmd hcode
  | startCapture hcmd => exact cmdStartCapture_tells hcmd hcode
  | stopCapture hcmd => exact cmdStopCapture_tells hcmd hcode
  | activateChannel hcmd => exact cmdActivateChannel_tells hcmd hcode
  | deactivateChannel hcmd => exact cmdDeactivateChannel_tells hcmd hcode
  | setParameter hcmd => exact cmdSetParameter_tells hcmd hcode
  | checkStatus => exact .of_unchanged rfl rfl (fun _ => rfl) fun _ => rfl
  | listChannels => exact .of_unchanged rfl rfl (fun _ => rfl) fun _ => rfl
  | listParameters => exact .of_unchanged rfl rfl (fun _ => rfl) fun _ => rfl
  | getParameter =>
      exact .of_unchanged rfl (if_neg (not_not.mpr hcode)) (fun _ => if_neg (not_not.mpr hcode))
        fun _ => rfl
  | init => contradiction
  | dispose => contradiction
  | unknown => contradiction

end Tells

/-! ## What an answer depends on -/

/-- The stores that all answers but `check_status` are read from. -/
structure SameStores (s other : Service) : Prop where
  channels : other.channels = s.channels
  sessions : other.sessions = s.sessions
  params : other.params = s.params

section Answers

variable {lib : JsonLibrary} {s other next : Service} {r : Response} {body : Json}
  {clientId command : Bytes}

theorem cmdConnect_answer (hsame : SameStores s other) :
    (cmdConnect other clientId).2 = (cmdConnect s clientId).2 := by
  unfold cmdConnect
  rw [hsame.sessions]
  split <;> rfl

theorem cmdDisconnect_answer (hsame : SameStores s other) :
    (cmdDisconnect other clientId).2 = (cmdDisconnect s clientId).2 := by
  unfold cmdDisconnect
  rw [hsame.sessions]
  split <;> rfl

theorem cmdStartCapture_answer (hsame : SameStores s other) :
    (cmdStartCapture other body clientId).2 = (cmdStartCapture s body clientId).2 := by
  unfold cmdStartCapture
  rw [hsame.sessions]
  dsimp only
  split_ifs <;> rfl

theorem cmdStopCapture_answer :
    (cmdStopCapture other body clientId).2 = (cmdStopCapture s body clientId).2 := by
  unfold cmdStopCapture
  dsimp only
  split <;> rfl

theorem cmdActivateChannel_answer (hsame : SameStores s other) :
    (cmdActivateChannel lib other body).map Prod.snd =
      (cmdActivateChannel lib s body).map Prod.snd := by
  unfold cmdActivateChannel
  rw [hsame.channels]
  cases channelOf lib body with
  | error what => rfl
  | ok t => cases t <;> rfl

theorem cmdDeactivateChannel_answer :
    (cmdDeactivateChannel lib other body).map Prod.snd =
      (cmdDeactivateChannel lib s body).map Prod.snd := by
  unfold cmdDeactivateChannel
  cases channelOf lib body with
  | error what => rfl
  | ok t => cases t <;> rfl

theorem cmdSetParameter_answer (hsame : SameStores s other) :
    (cmdSetParameter lib other body).map Prod.snd = (cmdSetParameter lib s body).map Prod.snd := by
  unfold cmdSetParameter
  rw [hsame.params]
  split
  next nameJson value _ _ =>
    cases lib.getString nameJson with
    | error what => rfl
    | ok name =>
        dsimp only
        cases s.params.get name with
        | none => rfl
        | some p =>
            dsimp only
            cases convertValue lib p.value value with
            | error what => rfl
            | ok v =>
                refine congrArg Except.ok ?_
                dsimp only
                cases s.params.setValue name v <;> rfl
  next => rfl

/-- A command with the same answer returns it as well. -/
theorem exists_left_ok {left right : Service × Response} (hanswer : left.2 = right.2)
    (hright : right = (next, r)) : ∃ start, (.ok left : Except Bytes _) = .ok (start, r) := by
  rw [hright] at hanswer
  exact ⟨left.1, congrArg Except.ok (Prod.ext rfl hanswer)⟩

theorem exists_left {left right : Except Bytes (Service × Response)}
    (hanswer : left.map Prod.snd = right.map Prod.snd)
    (hright : right = .ok (next, r)) : ∃ start, left = .ok (start, r) := by
  rw [hright] at hanswer
  obtain ⟨⟨start, answer⟩, hleft, rfl⟩ := map_eq_ok.mp hanswer
  exact ⟨start, hleft⟩

theorem CommandHandler.Handled.answer (hhandled : Handled lib body clientId s command next r)
    (hsame : SameStores s other) (hstatus : command ≠ lit "check_status") :
    ∃ start, handle lib command body clientId other = .ok (start, r) := by
  cases hhandled with
  | connect hcmd => exact exists_left_ok (cmdConnect_answer hsame) hcmd
  | disconnect hcmd => exact exists_left_ok (cmdDisconnect_answer hsame) hcmd
  | startCapture hcmd => exact exists_left_ok (cmdStartCapture_answer hsame) hcmd
  | stopCapture hcmd => exact exists_left_ok cmdStopCapture_answer hcmd
  | activateChannel hcmd => exact exists_left (cmdActivateChannel_answer hsame) hcmd
  | deactivateChannel hcmd => exact exists_left cmdDeactivateChannel_answer hcmd
  | setParameter hcmd => exact exists_left (cmdSetParameter_answer hsame) hcmd
  | checkStatus => exact absurd rfl hstatus
  | listChannels =>
      refine ⟨other, ?_⟩
      change Except.ok (other, cmdListChannels other) = _
      rw [cmdListChannels, hsame.channels]
      rfl
  | listParameters =>
      refine ⟨other, ?_⟩
      change Except.ok (other, cmdListParameters other) = _
      rw [cmdListParameters, hsame.params]
      rfl
  | getParameter hcmd =>
      refine ⟨other, ?_⟩
      have hanswer : cmdGetParameter lib other body = .ok r := by
        rw [← hcmd, cmdGetParameter, hsame.params]
        rfl
      change (cmdGetParameter lib other body).map _ = _
      rw [hanswer]
      rfl
  | init => exact ⟨other, rfl⟩
  | dispose => exact ⟨other, rfl⟩
  | unknown hunknown =>
      simp only [commandNames, List.mem_cons, List.not_mem_nil, or_false, not_or] at hunknown
      refine ⟨other, ?_⟩
      unfold handle
      simp only [hunknown, if_false]
/-- What `check_status` tells beside the counters. -/
theorem cmdCheckStatus_lookup (s : Service) {key : Bytes} {value : Json}
    (hmem : (key, value) ∈ [(lit "initialized", Json.boolean true),
      (lit "sessions", .integer s.sessions.sessionCount), (lit "simulator", .string versionTag),
      (lit "channels", s.channels.statusJson)]) :
    (cmdCheckStatus s).detail.lookup key = some value := by
  refine Json.lookup_ofAssignments ?_ ?_
  · change [lit "initialized", lit "sessions", lit "simulator", lit "stereo_pairs_loaded",
      lit "frames_produced", lit "channels", lit "publisher", lit "pipeline"].Nodup
    decide
  · simp only [List.mem_cons, List.not_mem_nil, or_false] at hmem ⊢
    rcases hmem with h | h | h | h
    · exact .inl h
    · exact .inr (.inl h)
    · exact .inr (.inr (.inl h))
    · exact .inr (.inr (.inr (.inr (.inr (.inl h)))))

theorem cmdCheckStatus_answer (hsame : SameStores s other) :
    ∀ key ∈ [lit "initialized", lit "sessions", lit "simulator", lit "channels"],
      (cmdCheckStatus s).detail.lookup key = (cmdCheckStatus other).detail.lookup key := by
  obtain ⟨hchannels, hsessions, -⟩ := hsame
  simp only [List.forall_mem_cons]
  refine ⟨?_, ?_, ?_, ?_, fun _ hkey => absurd hkey List.not_mem_nil⟩
  · rw [cmdCheckStatus_lookup s (.head _), cmdCheckStatus_lookup other (.head _)]
  · rw [cmdCheckStatus_lookup s (.tail _ (.head _)),
      cmdCheckStatus_lookup other (.tail _ (.head _)), hsessions]
  · rw [cmdCheckStatus_lookup s (.tail _ (.tail _ (.head _))),
      cmdCheckStatus_lookup other (.tail _ (.tail _ (.head _)))]
  · rw [cmdCheckStatus_lookup s (.tail _ (.tail _ (.tail _ (.head _)))),
      cmdCheckStatus_lookup other (.tail _ (.tail _ (.tail _ (.head _)))), hchannels]

end Answers

/-! ## Runs -/

/-- The channel manager that the answers tell of. -/
def loggedChannels (log : List LogEntry) : ChannelManager := .run (log.filterMap channelCall?)

/-- Whether the last answer about the session of a client left it connected. -/
def loggedSession (client : Bytes) (log : List LogEntry) : Bool :=
  (lastWrite (sessionWrite? client) log).getD false

/-- A parameter of the start with the value the log has last reported as stored. -/
def loggedParameter (start : ParameterManager) (name : Bytes) (log : List LogEntry) :
    Option Parameter :=
  (start.get name).map fun p =>
    { p with value := (lastWrite (settingWrite? name) log).getD p.value }

theorem loggedParameter_append (start : ParameterManager) (name : Bytes) (log : List LogEntry)
    (entry : LogEntry) :
    loggedParameter start name (log ++ [entry]) = (loggedParameter start name log).map fun p =>
      { p with value := (settingWrite? name entry).getD p.value } := by
  rw [loggedParameter, loggedParameter, lastWrite_append, lastWrite_singleton, Option.map_map]
  congr 1
  ext p
  cases settingWrite? name entry with
  | none => rfl
  | some v => rfl

/-- The stores agree with the log. -/
structure Recorded (start : ParameterManager) (log : List LogEntry) (s : Service) : Prop where
  channels : s.channels = loggedChannels log
  sessions : ∀ client, s.sessions.isConnected client = loggedSession client log
  names : s.params.names = start.names
  params : ∀ name, s.params.get name = loggedParameter start name log

/-- What an answer must be after the answers before it. Any service that agrees with
these gives it; only the counters of `check_status` are not told by answers. -/
structure Explained (lib : JsonLibrary) (start : ParameterManager) (before : List LogEntry)
    (q : Request) (r : Response) : Prop where
  connect : q.command = lit "connect" →
    r.code = if loggedSession q.clientId before then .alreadyInit else .success
  disconnect : q.command = lit "disconnect" →
    r.code = if loggedSession q.clientId before then .success else .notReady
  startCapture : q.command = lit "start_capture" →
    (r.code = .notReady ↔ loggedSession q.clientId before = false)
  listChannels : q.command = lit "list_channels" →
    ∀ rebuilt : Service, rebuilt.channels = loggedChannels before → r = cmdListChannels rebuilt
  getParameter : q.command = lit "get_parameter" → r.code = .success →
    ∃ nameJson name p, q.body.lookup (lit "name") = some nameJson ∧
      lib.getString nameJson = .ok name ∧ loggedParameter start name before = some p ∧
      r.detail = paramToJson p
  answer : q.command ≠ lit "check_status" →
    ∀ told : Service, Recorded start before told → q.outcome lib told = .ok r
  checkStatus : q.command = lit "check_status" →
    ∀ told : Service, Recorded start before told →
      r.code = .success ∧ r.message = (cmdCheckStatus told).message ∧
        ∀ key ∈ [lit "initialized", lit "sessions", lit "simulator", lit "channels"],
          r.detail.lookup key = (cmdCheckStatus told).detail.lookup key

variable {lib : JsonLibrary} {q : Request} {s next : Service} {r : Response}

/-- The log determines the stores. -/
theorem Recorded.sameStores {start : ParameterManager} {log : List LogEntry} {told : Service}
    (hrecorded : Recorded start log s) (htold : Recorded start log told) : SameStores s told where
  channels := htold.channels.trans hrecorded.channels.symm
  sessions := by
    ext client
    have hclient := (htold.sessions client).trans (hrecorded.sessions client).symm
    unfold SessionManager.isConnected at hclient
    rwa [decide_eq_decide] at hclient
  params := ParameterManager.eq_of_get (htold.names.trans hrecorded.names.symm) fun name =>
    (htold.params name).trans (hrecorded.params name).symm

theorem Recorded.answer {start : ParameterManager} {log : List LogEntry}
    (hrecorded : Recorded start log s) (htells : AnswerTells q s next r) :
    Recorded start (log ++ [(.command q, r)]) next where
  channels := by
    rw [htells.channels, hrecorded.channels, loggedChannels, loggedChannels, List.filterMap_append,
      ChannelManager.run, ChannelManager.run, List.foldl_append]
    cases hcall : channelCall? (.command q, r) <;> simp [hcall]
  sessions client := by
    rw [htells.sessions, hrecorded.sessions, loggedSession, loggedSession, lastWrite_append,
      lastWrite_singleton]
    cases sessionWrite? client (.command q, r) with
    | none => rfl
    | some on => rfl
  names := htells.names.trans hrecorded.names
  params name := by rw [htells.params, hrecorded.params, loggedParameter_append]

/-- A `get_parameter` that succeeds shows the parameter it names. -/
theorem cmdGetParameter_success {body : Json} (hcmd : cmdGetParameter lib s body = .ok r)
    (hcode : r.code = .success) :
    ∃ nameJson name p, body.lookup (lit "name") = some nameJson ∧
      lib.getString nameJson = .ok name ∧ s.params.get name = some p ∧
      r.detail = paramToJson p := by
  unfold cmdGetParameter at hcmd
  cases hname : body.lookup (lit "name") with
  | none =>
      rw [hname] at hcmd
      rw [← Except.ok.inj hcmd] at hcode
      contradiction
  | some nameJson =>
      rw [hname] at hcmd
      dsimp only at hcmd
      cases hstring : lib.getString nameJson with
      | error what =>
          rw [hstring] at hcmd
          contradiction
      | ok name =>
          rw [hstring] at hcmd
          have hanswer := Except.ok.inj hcmd
          dsimp only at hanswer
          cases hget : s.params.get name with
          | none =>
              rw [hget] at hanswer
              rw [← hanswer] at hcode
              contradiction
          | some p =>
              rw [hget] at hanswer
              exact ⟨nameJson, name, p, rfl, hstring, hget, by rw [← hanswer]⟩

theorem Recorded.explains {start : ParameterManager} {log : List LogEntry}
    (hrecorded : Recorded start log s)
    (hhandle : handle lib q.command q.body q.clientId s = .ok (next, r)) :
    Explained lib start log q r where
  connect hcommand := by
    rw [hcommand] at hhandle
    have hcmd : (cmdConnect s q.clientId).2 = r := congrArg Prod.snd (Except.ok.inj hhandle)
    rw [← hcmd, ← hrecorded.sessions, cmdConnect]
    split <;> rfl
  disconnect hcommand := by
    rw [hcommand] at hhandle
    have hcmd : (cmdDisconnect s q.clientId).2 = r := congrArg Prod.snd (Except.ok.inj hhandle)
    rw [← hcmd, ← hrecorded.sessions, cmdDisconnect]
    split <;> rfl
  startCapture hcommand := by
    rw [hcommand] at hhandle
    have hcmd : (cmdStartCapture s q.body q.clientId).2 = r :=
      congrArg Prod.snd (Except.ok.inj hhandle)
    rw [← hcmd, ← hrecorded.sessions, cmdStartCapture]
    split
    next hconnected =>
      rw [hconnected]
      dsimp only
      split
      next => exact iff_of_false (fun hcode => Code.noConfusion hcode) Bool.false_ne_true.symm
      next => exact iff_of_false (fun hcode => Code.noConfusion hcode) Bool.false_ne_true.symm
    next hconnected => exact iff_of_true rfl (Bool.eq_false_iff.mpr hconnected)
  listChannels hcommand := by
    rw [hcommand] at hhandle
    have hcmd : cmdListChannels s = r := congrArg Prod.snd (Except.ok.inj hhandle)
    intro rebuilt hrebuilt
    rw [← hcmd, cmdListChannels, cmdListChannels, hrebuilt, hrecorded.channels]
  getParameter hcommand hcode := by
    rw [hcommand] at hhandle
    have hmap : (cmdGetParameter lib s q.body).map (fun r => (s, r)) = .ok (next, r) := hhandle
    cases hcmd : cmdGetParameter lib s q.body with
    | error what =>
        rw [hcmd] at hmap
        contradiction
    | ok answer =>
        rw [hcmd] at hmap
        obtain rfl : answer = r := congrArg Prod.snd (Except.ok.inj hmap)
        obtain ⟨nameJson, name, p, hname, hstring, hget, hdetail⟩ :=
          cmdGetParameter_success hcmd hcode
        exact ⟨nameJson, name, p, hname, hstring, (hrecorded.params name).symm.trans hget, hdetail⟩
  answer hcommand told htold := by
    obtain ⟨left, hleft⟩ := (handle_handled hhandle).answer (hrecorded.sameStores htold) hcommand
    exact (Request.outcome_of_handle hleft).1
  checkStatus hcommand told htold := by
    rw [hcommand] at hhandle
    have hcmd : cmdCheckStatus s = r := congrArg Prod.snd (Except.ok.inj hhandle)
    have hsame := hrecorded.sameStores htold
    rw [← hcmd]
    exact ⟨rfl, rfl, cmdCheckStatus_answer hsame⟩

section Runs

variable {samples : Samples} {cfg : Config} {cameraFile : Option Bytes} {source : SimDataSource}
  {guard : SerialState → SerialAction → Prop} {history : List LogEntry} {state : SerialState}

theorem serialStep_answered {before after : SerialState} {action : SerialAction}
    {responses : List Response} (hstep : serialStep lib samples cfg before action =
      some (after, responses)) :
    (∃ q r, action = .command q ∧ responses = [r] ∧ q.outcome lib before.service = .ok r ∧
      after.service = q.after lib before.service) ∨
    (responses = [] ∧ after.service.channels = before.service.channels ∧
      after.service.sessions = before.service.sessions ∧
      after.service.params = before.service.params) := by
  cases action with
  | command q =>
      left
      unfold serialStep at hstep
      dsimp only at hstep
      cases houtcome : q.outcome lib before.service with
      | error what =>
          rw [houtcome] at hstep
          contradiction
      | ok r =>
          rw [houtcome] at hstep
          cases hstep
          exact ⟨q, r, rfl, rfl, houtcome, rfl⟩
  | tick secClock nsecClock =>
      right
      unfold serialStep at hstep
      dsimp only at hstep
      generalize CaptureEngine.tick samples (before.reads secClock nsecClock) before.capture =
        ticked at hstep
      rcases ticked with ⟨frames, what | capture⟩
      · contradiction
      · cases hstep
        exact ⟨rfl, rfl, rfl, rfl⟩
  | publish sends =>
      right
      simp only [serialStep] at hstep
      generalize Publisher.runOnce lib cfg.zmq.pubId ⟨before.sockets, before.service.publisher⟩
        sends before.service.pipeline = sent at hstep
      rcases sent with what | result
      · contradiction
      · cases hstep
        exact ⟨rfl, rfl, rfl, rfl⟩

theorem recorded_of_reaches
    (hreach : (serialService lib samples cfg cameraFile source).logged.Reaches guard history
      state) :
    Recorded (mainService lib cfg cameraFile source).params history state.service := by
  apply hreach.invariant fun history state =>
    Recorded (mainService lib cfg cameraFile source).params history state.service
  · refine ⟨rfl, fun _ => rfl, rfl, fun name => ?_⟩
    exact Option.map_id'.symm
  · intro log before action after entries _ hbefore _ hstep
    obtain ⟨responses, hserial, rfl⟩ := Machine.logged_step hstep
    rcases serialStep_answered hserial with
      ⟨q, r, rfl, rfl, houtcome, hafter⟩ | ⟨rfl, hchannels, hsessions, hparams⟩
    · rw [hafter]
      exact hbefore.answer (.of_handled (Request.handled_of_outcome houtcome))
    · rw [List.map_nil, List.append_nil]
      exact ⟨hchannels.trans hbefore.channels, fun client => hsessions ▸ hbefore.sessions client,
        hparams ▸ hbefore.names, fun name => hparams ▸ hbefore.params name⟩

/-- In every run each answer is explained by the answers before it, and the stores
are those that the answers tell of. -/
theorem answers_explained
    (hreach : (serialService lib samples cfg cameraFile source).logged.Reaches guard history
      state) :
    Recorded (mainService lib cfg cameraFile source).params history state.service ∧
      ∀ before q r after, history = before ++ (.command q, r) :: after →
        Explained lib (mainService lib cfg cameraFile source).params before q r := by
  refine ⟨recorded_of_reaches hreach, fun before q r after hsplit => ?_⟩
  have hone : ∀ state action next entries,
      (serialService lib samples cfg cameraFile source).logged.step state action =
        some (next, entries) → entries.length ≤ 1 := by
    intro state action next entries hstep
    obtain ⟨responses, hserial, rfl⟩ := Machine.logged_step hstep
    rcases serialStep_answered hserial with ⟨q, r, -, rfl, -, -⟩ | ⟨rfl, -⟩
    · exact Nat.le_refl 1
    · exact Nat.zero_le 1
  obtain ⟨start, action, next, hstart, -, hstep⟩ := hreach.exists_step hone hsplit
  obtain ⟨responses, hserial, hentries⟩ := Machine.logged_step hstep
  rcases serialStep_answered hserial with ⟨p, answer, rfl, rfl, houtcome, -⟩ | ⟨rfl, -⟩
  · obtain ⟨hentry, -⟩ := List.cons.inj hentries
    cases hentry
    exact (recorded_of_reaches hstart).explains (Request.handle_of_outcome houtcome)
  · contradiction

end Runs

/-- A client sets the gain, and another one reads it after a tick. -/
def gainReadBack : List SerialAction :=
  [.command (connectBy "A"), .command setGain, .tick 0 0,
    .command ⟨lit "get_parameter", .object [(lit "name", .string (lit "gain"))], lit "C"⟩]

theorem gainReadBack_explained :
    ∃ state history, defaultService.logged.runFrom defaultService.logged.init gainReadBack =
        some (state, history) ∧
      Recorded (mainService .plain {} none {}).params history state.service ∧
      ∀ before q r after, history = before ++ (.command q, r) :: after →
        Explained .plain (mainService .plain {} none {}).params before q r := by
  have hruns : (defaultService.logged.runFrom defaultService.logged.init gainReadBack).isSome =
      true := by
    decide +kernel
  obtain ⟨⟨state, history⟩, hrun⟩ := Option.isSome_iff_exists.mp hruns
  exact ⟨state, history, hrun, answers_explained (Machine.reachable_of_runFrom hrun)⟩

end SimVision
