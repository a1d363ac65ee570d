import SimVision.Api.AdminServer
import SimVision.Api.CommandRouting
import SimVision.App.Main

/-! # Encoding of replies

Every string of a reply is a literal, a registered name or value, or comes from
a parsed body, except that the error for an unknown command repeats the command.
So a reply can be serialised exactly when the path names its command in UTF-8.
-/

namespace SimVision

open Foundation

/-! ## Parameters in UTF-8 -/

def ParamValue.utf8 : ParamValue → Prop
  | .enum v => validUtf8 v = true
  | _ => True

structure Parameter.Utf8 (p : Parameter) : Prop where
  name : validUtf8 p.name = true
  value : p.value.utf8
  min : p.min.utf8
  max : p.max.utf8
  default : p.defaultValue.utf8
  options : ∀ option ∈ p.enumOptions, validUtf8 option = true

/-- Every stored parameter is in UTF-8. -/
def ParamsUtf8 (m : ParameterManager) : Prop := ∀ name p, m.get name = some p → p.Utf8

theorem addInt_utf8 {n : Bytes} (hname : validUtf8 n = true) (value lo hi : Int) (reopen : Bool) :
    (addInt n value lo hi reopen).Utf8 :=
  ⟨hname, trivial, trivial, trivial, trivial, by simp [addInt]⟩

theorem addEnum_utf8 {n value : Bytes} (hname : validUtf8 n = true)
    (hvalue : validUtf8 value = true)
    {vals : List Bytes} (hvals : ∀ v ∈ vals, validUtf8 v = true) (reopen : Bool) :
    (addEnum n value vals reopen).Utf8 :=
  ⟨hname, hvalue, trivial, trivial, hvalue, hvals⟩

namespace ParamsUtf8

theorem registerParameter {m : ParameterManager} (hm : ParamsUtf8 m) {p : Parameter} (hp : p.Utf8) :
    ParamsUtf8 (m.registerParameter p) := by
  intro name q hget
  rw [ParameterManager.get_registerParameter] at hget
  split at hget
  next =>
    obtain rfl := Option.some.inj hget
    exact hp
  next => exact hm name q hget

theorem registerParameters (cfg : Config) : ParamsUtf8 (registerParameters {} cfg) := by
  have hmain : ∀ p ∈ mainParameters cfg, p.Utf8 := by
    simp only [mainParameters, List.forall_mem_cons, List.not_mem_nil, false_imp_iff, implies_true,
      and_true]
    refine ⟨addInt_utf8 (by decide) _ _ _ _, addEnum_utf8 (by decide) (by decide) (by decide) _, ?_⟩
    refine ⟨addEnum_utf8 (by decide) (by decide) (by decide) _, ?_⟩
    refine ⟨addInt_utf8 (by decide) _ _ _ _, addInt_utf8 (by decide) _ _ _ _, ?_⟩
    refine ⟨addInt_utf8 (by decide) _ _ _ _, addInt_utf8 (by decide) _ _ _ _, ?_⟩
    refine ⟨addEnum_utf8 (by decide) (by decide) (by decide) _, ?_⟩
    refine ⟨addInt_utf8 (by decide) _ _ _ _, addInt_utf8 (by decide) _ _ _ _, ?_⟩
    refine ⟨⟨by decide, trivial, trivial, trivial, trivial, by simp⟩, ?_⟩
    refine ⟨addEnum_utf8 (by decide) (by decide) (by decide) _, ?_⟩
    exact ⟨addInt_utf8 (by decide) _ _ _ _, addInt_utf8 (by decide) _ _ _ _,
      addInt_utf8 (by decide) _ _ _ _⟩
  have hfold : ∀ (ps : List Parameter) (m : ParameterManager), (∀ p ∈ ps, p.Utf8) → ParamsUtf8 m →
      ParamsUtf8 (ps.foldl ParameterManager.registerParameter m) := by
    intro ps
    induction ps with
    | nil => exact fun _ _ hm => hm
    | cons p rest ih =>
        intro m hps hm
        rw [List.forall_mem_cons] at hps
        exact ih _ hps.2 (hm.registerParameter hps.1)
  apply hfold _ _ hmain
  intro name p hget
  simp [ParameterManager.get] at hget

theorem setValue {m next : ParameterManager} (hm : ParamsUtf8 m) {name : Bytes}
    {value : ParamValue} (hvalue : value.utf8) (hset : m.setValue name value = .ok next) :
    ParamsUtf8 next := by
  obtain ⟨p, hget, _, _, rfl⟩ := ParameterManager.setValue_ok hset
  intro other q hother
  rw [ParameterManager.get_store hget] at hother
  split at hother
  next =>
    obtain rfl := Option.some.inj hother
    exact { hm name p hget with value := hvalue }
  next => exact hm other q hother

end ParamsUtf8

/-- A value converted from JSON in UTF-8 is in UTF-8. -/
theorem convertValue_utf8 {lib : JsonLibrary} (hlib : lib.ConvertsStrings) {current v : ParamValue}
    {value : Json} (hutf8 : value.utf8 = true)
    (hconvert : CommandHandler.convertValue lib current value = .ok v) : v.utf8 := by
  unfold CommandHandler.convertValue at hconvert
  split at hconvert
  next =>
    cases hget : lib.getInt64 value with
    | error what =>
        rw [hget] at hconvert
        contradiction
    | ok i =>
        rw [hget] at hconvert
        obtain rfl := Except.ok.inj hconvert
        trivial
  next =>
    cases hget : lib.getDouble value with
    | error what =>
        rw [hget] at hconvert
        contradiction
    | ok d =>
        rw [hget] at hconvert
        obtain rfl := Except.ok.inj hconvert
        trivial
  next =>
    cases hget : lib.getString value with
    | error what =>
        rw [hget] at hconvert
        contradiction
    | ok s =>
        rw [hget] at hconvert
        obtain rfl := Except.ok.inj hconvert
        obtain rfl := hlib.getString_ok value s hget
        exact hutf8

namespace ParamsUtf8

theorem loadCameraEntries {lib : JsonLibrary} (hlib : lib.ConvertsStrings) :
    ∀ {items : List (Bytes × Json)} {m : ParameterManager}, (∀ item ∈ items, item.2.utf8 = true) →
      ParamsUtf8 m → ParamsUtf8 (loadCameraEntries lib m items) := by
  intro items
  induction items with
  | nil => exact fun _ hm => hm
  | cons item rest ih =>
      rcases item with ⟨name, value⟩
      intro m hitems hm
      rw [List.forall_mem_cons] at hitems
      unfold SimVision.loadCameraEntries
      split
      next next hentry =>
        apply ih hitems.2
        rcases loadCameraEntry_ok hentry with rfl | ⟨_, _, _, hconvert, hset⟩
        · exact hm
        · exact hm.setValue (convertValue_utf8 hlib hitems.1 hconvert) hset
      next => exact hm

theorem loadCameraSetting {lib : JsonLibrary} (hencodes : lib.Encodes) (hlib : lib.ConvertsStrings)
    (file : Option Bytes) {m : ParameterManager} (hm : ParamsUtf8 m) :
    ParamsUtf8 (loadCameraSetting lib file m) := by
  unfold SimVision.loadCameraSetting
  split
  next => exact hm
  next text =>
    split
    next j hparse =>
      have hj := hencodes.parseStream_utf8 text j hparse
      apply ParamsUtf8.loadCameraEntries hlib _ hm
      intro item hitem
      cases j with
      | object members => exact (Json.utf8_object.mp hj item hitem).2
      | array elements =>
          obtain ⟨⟨element, i⟩, hmem, rfl⟩ := List.mem_map.mp hitem
          exact Json.utf8_array.mp hj element (List.fst_mem_of_mem_zipIdx hmem)
      | null => contradiction
      | _ =>
          obtain rfl := List.mem_singleton.mp hitem
          exact hj
    next => exact hm

end ParamsUtf8

/-! ## Responses in UTF-8 -/

/-- The strings that a command puts into its response are in UTF-8. -/
structure Response.Utf8 (r : Response) : Prop where
  message : validUtf8 r.message = true
  detail : r.detail.utf8 = true

theorem Response.utf8_of {code : Code} {message : Bytes} {detail : Json}
    (hmessage : validUtf8 message = true) (hdetail : detail.utf8 = true) :
    Response.Utf8 { code := code, message := message, detail := detail } := ⟨hmessage, hdetail⟩

theorem Response.fromError_utf8 (code : Code) {message : Bytes}
    (hmessage : validUtf8 message = true) :
    (Response.fromError code message).Utf8 := Response.utf8_of hmessage rfl

theorem dataTypeToString_utf8 (t : DataType) : validUtf8 (dataTypeToString t) = true := by
  cases t <;> decide

theorem groupToString_utf8 (g : DataGroup) : validUtf8 (groupToString g) = true := by
  cases g <;> decide

theorem ParameterManager.setValue_error_utf8 {m : ParameterManager} {name err : Bytes}
    {value : ParamValue} (hname : validUtf8 name = true)
    (hset : m.setValue name value = .error err) : validUtf8 err = true := by
  obtain ⟨refusal, hrefusal, rfl⟩ := setValue_error hset
  have hrefusals : ∀ text ∈ refusals, validUtf8 text = true := by decide
  exact validUtf8_append_valid (hrefusals refusal hrefusal) hname

theorem ChannelManager.statusJson_utf8 (m : ChannelManager) : m.statusJson.utf8 = true := by
  apply Json.utf8_ofAssignments
  simp only [List.forall_mem_cons, List.not_mem_nil, false_imp_iff, implies_true, and_true]
  refine ⟨⟨by decide, rfl⟩, by decide, Json.utf8_array.mpr ?_⟩
  intro j hj
  obtain ⟨kv, _, rfl⟩ := List.mem_map.mp hj
  apply Json.utf8_ofAssignments
  simp only [List.forall_mem_cons, List.not_mem_nil, false_imp_iff, implies_true, and_true]
  exact ⟨⟨by decide, dataTypeToString_utf8 _⟩, ⟨by decide, groupToString_utf8 _⟩, ⟨by decide, rfl⟩,
    ⟨by decide, rfl⟩, by decide, rfl⟩

namespace CommandHandler

theorem typesDetail_utf8 (types : List DataType) : (typesDetail types).utf8 = true := by
  apply Json.utf8_set rfl (by decide)
  rw [Json.utf8_array]
  intro j hj
  obtain ⟨t, _, rfl⟩ := List.mem_map.mp hj
  exact dataTypeToString_utf8 t

theorem channelDetail_utf8 (t : DataType) (restart : Bool) :
    ((Json.emptyObject.set (lit "data_type") (.string (dataTypeToString t))).set
      (lit "restart_required") (.boolean restart)).utf8 = true := by
  have htype : (Json.string (dataTypeToString t)).utf8 = true := dataTypeToString_utf8 t
  exact Json.utf8_set (Json.utf8_set rfl (by decide) htype) (by decide) rfl

theorem valueToJson_utf8 {v : ParamValue} (hv : v.utf8) : (valueToJson v).utf8 = true := by
  cases v with
  | integer v => rfl
  | float v => rfl
  | enum v => exact hv

theorem paramToJson_utf8 {p : Parameter} (hp : p.Utf8) : (paramToJson p).utf8 = true := by
  have htype : validUtf8 (paramVariantTypeName p.value) = true := by
    cases p.value with
    | integer v => exact (by decide : validUtf8 (lit "Integer") = true)
    | float v => exact (by decide : validUtf8 (lit "Float") = true)
    | enum v => exact (by decide : validUtf8 (lit "Enum") = true)
  apply Json.utf8_ofAssignments
  rw [List.forall_mem_append, List.forall_mem_append]
  refine ⟨⟨?_, ?_⟩, ?_⟩
  · simp only [List.forall_mem_cons, List.not_mem_nil, false_imp_iff, implies_true, and_true]
    exact ⟨⟨by decide, hp.name⟩, ⟨by decide, htype⟩, ⟨by decide, valueToJson_utf8 hp.value⟩,
      ⟨by decide, valueToJson_utf8 hp.default⟩, ⟨by decide, rfl⟩, ⟨by decide, rfl⟩, by decide, rfl⟩
  · split
    next =>
      simp only [List.forall_mem_cons, List.not_mem_nil, false_imp_iff, implies_true, and_true]
      exact ⟨⟨by decide, valueToJson_utf8 hp.min⟩, by decide, valueToJson_utf8 hp.max⟩
    next => simp
  · split
    next =>
      simp only [List.forall_mem_cons, List.not_mem_nil, false_imp_iff, implies_true, and_true]
      refine ⟨by decide, Json.utf8_array.mpr ?_⟩
      intro j hj
      obtain ⟨option, hoption, rfl⟩ := List.mem_map.mp hj
      exact hp.options option hoption
    next => simp

theorem publisherJson_utf8 (stats : PublisherStats) : (publisherJson stats).utf8 = true := by
  apply Json.utf8_ofAssignments
  simp only [List.forall_mem_cons, List.not_mem_nil, false_imp_iff, implies_true, and_true,
    Json.utf8_unsigned]
  decide

theorem pipelineJson_utf8 (stats : PipelineStats) : (pipelineJson stats).utf8 = true := by
  apply Json.utf8_ofAssignments
  simp only [List.forall_mem_cons, List.not_mem_nil, false_imp_iff, implies_true, and_true,
    Json.utf8_unsigned]
  decide

variable {lib : JsonLibrary} {s next : Service} {body : Json} {clientId : Bytes} {r : Response}

theorem cmdConnect_utf8 (hcmd : cmdConnect s clientId = (next, r)) : r.Utf8 := by
  unfold cmdConnect at hcmd
  split at hcmd
  next =>
    obtain ⟨_, rfl⟩ := Prod.mk.inj hcmd
    exact Response.utf8_of (by decide) rfl
  next =>
    obtain ⟨_, rfl⟩ := Prod.mk.inj hcmd
    exact Response.utf8_of (by decide) rfl

theorem cmdDisconnect_utf8 (hcmd : cmdDisconnect s clientId = (next, r)) : r.Utf8 := by
  unfold cmdDisconnect at hcmd
  split at hcmd
  next =>
    obtain ⟨_, rfl⟩ := Prod.mk.inj hcmd
    exact Response.utf8_of (by decide) rfl
  next =>
    obtain ⟨_, rfl⟩ := Prod.mk.inj hcmd
    exact Response.fromError_utf8 _ (by decide)

theorem cmdStartCapture_utf8 (hcmd : cmdStartCapture s body clientId = (next, r)) : r.Utf8 := by
  unfold cmdStartCapture at hcmd
  split at hcmd
  next =>
    dsimp only at hcmd
    split at hcmd
    next =>
      obtain ⟨_, rfl⟩ := Prod.mk.inj hcmd
      exact Response.fromError_utf8 _ (by decide)
    next =>
      obtain ⟨_, rfl⟩ := Prod.mk.inj hcmd
      exact Response.utf8_of (by decide) (typesDetail_utf8 _)
  next =>
    obtain ⟨_, rfl⟩ := Prod.mk.inj hcmd
    exact Response.fromError_utf8 _ (by decide)

theorem cmdStopCapture_utf8 (hcmd : cmdStopCapture s body clientId = (next, r)) : r.Utf8 := by
  unfold cmdStopCapture at hcmd
  dsimp only at hcmd
  split at hcmd
  next =>
    obtain ⟨_, rfl⟩ := Prod.mk.inj hcmd
    exact Response.fromError_utf8 _ (by decide)
  next =>
    obtain ⟨_, rfl⟩ := Prod.mk.inj hcmd
    exact Response.utf8_of (by decide) (typesDetail_utf8 _)

theorem cmdActivateChannel_utf8 (hcmd : cmdActivateChannel lib s body = .ok (next, r)) :
    r.Utf8 := by
  unfold cmdActivateChannel at hcmd
  split at hcmd
  next => contradiction
  next =>
    obtain ⟨_, rfl⟩ := Prod.mk.inj (Except.ok.inj hcmd)
    exact Response.fromError_utf8 _ (by decide)
  next t _ =>
    obtain ⟨_, rfl⟩ := Prod.mk.inj (Except.ok.inj hcmd)
    refine Response.utf8_of ?_ (channelDetail_utf8 t false)
    split <;> decide

theorem cmdDeactivateChannel_utf8 (hcmd : cmdDeactivateChannel lib s body = .ok (next, r)) :
    r.Utf8 := by
  unfold cmdDeactivateChannel at hcmd
  split at hcmd
  next => contradiction
  next =>
    obtain ⟨_, rfl⟩ := Prod.mk.inj (Except.ok.inj hcmd)
    exact Response.fromError_utf8 _ (by decide)
  next t _ =>
    obtain ⟨_, rfl⟩ := Prod.mk.inj (Except.ok.inj hcmd)
    exact Response.utf8_of (by decide) (channelDetail_utf8 t true)

theorem cmdCheckStatus_utf8 : (cmdCheckStatus s).Utf8 := by
  refine Response.utf8_of (by decide) ?_
  apply Json.utf8_ofAssignments
  simp only [List.forall_mem_cons, List.not_mem_nil, false_imp_iff, implies_true, and_true]
  exact ⟨⟨by decide, rfl⟩, ⟨by decide, rfl⟩, ⟨by decide, by decide⟩, ⟨by decide, rfl⟩,
    ⟨by decide, rfl⟩, ⟨by decide, s.channels.statusJson_utf8⟩, ⟨by decide, publisherJson_utf8 _⟩,
    by decide, pipelineJson_utf8 _⟩

theorem cmdListChannels_utf8 : (cmdListChannels s).Utf8 := by
  refine Response.utf8_of (by decide) (Json.utf8_set rfl (by decide) (Json.utf8_array.mpr ?_))
  intro j hj
  obtain ⟨t, _, rfl⟩ := List.mem_map.mp hj
  apply Json.utf8_ofAssignments
  simp only [List.forall_mem_cons, List.not_mem_nil, false_imp_iff, implies_true, and_true]
  exact ⟨⟨by decide, dataTypeToString_utf8 t⟩, ⟨by decide, groupToString_utf8 _⟩, ⟨by decide, rfl⟩,
    ⟨by decide, rfl⟩, by decide, rfl⟩

theorem cmdListParameters_utf8 (hparams : ParamsUtf8 s.params) : (cmdListParameters s).Utf8 := by
  refine Response.utf8_of (by decide) (Json.utf8_set rfl (by decide) (Json.utf8_array.mpr ?_))
  intro j hj
  obtain ⟨p, hp, rfl⟩ := List.mem_map.mp hj
  obtain ⟨name, hget⟩ := ParameterManager.mem_all.mp hp
  exact paramToJson_utf8 (hparams name p hget)

theorem cmdGetParameter_utf8 (hparams : ParamsUtf8 s.params)
    (hcmd : cmdGetParameter lib s body = .ok r) : r.Utf8 := by
  unfold cmdGetParameter at hcmd
  split at hcmd
  next =>
    obtain rfl := Except.ok.inj hcmd
    exact Response.fromError_utf8 _ (by decide)
  next nameJson _ =>
    cases hget : lib.getString nameJson with
    | error what =>
        rw [hget] at hcmd
        contradiction
    | ok name =>
        rw [hget] at hcmd
        obtain rfl := Except.ok.inj hcmd
        dsimp only
        split
        next => exact Response.fromError_utf8 _ (by decide)
        next p hp => exact Response.utf8_of (by decide) (paramToJson_utf8 (hparams name p hp))

theorem cmdSetParameter_utf8 (hlib : lib.ConvertsStrings) (hbody : body.utf8 = true)
    (hcmd : cmdSetParameter lib s body = .ok (next, r)) : r.Utf8 := by
  have hlookup : ∀ {key name : Bytes} {nameJson : Json}, body.lookup key = some nameJson →
      lib.getString nameJson = .ok name → validUtf8 name = true := by
    intro key name nameJson hname hstring
    obtain rfl := hlib.getString_ok nameJson name hstring
    exact Json.utf8_of_lookup hbody hname
  cases cmdSetParameter_returns hcmd with
  | missing => exact Response.fromError_utf8 _ (by decide)
  | unknown => exact Response.fromError_utf8 _ (by decide)
  | refused hname hstring _ _ hset =>
      apply Response.fromError_utf8
      exact ParameterManager.setValue_error_utf8 (hlookup hname hstring) hset
  | stored hname hstring hvalue hconvert _ =>
      have hv := convertValue_utf8 hlib (Json.utf8_of_lookup hbody hvalue) hconvert
      refine Response.utf8_of (by decide) ?_
      apply Json.utf8_set (Json.utf8_set (Json.utf8_set rfl (by decide) ?_) (by decide)
        (valueToJson_utf8 hv)) (by decide) rfl
      rw [Json.utf8_string]
      exact hlookup hname hstring

/-- Every known command answers in UTF-8. -/
theorem handle_utf8 (hlib : lib.ConvertsStrings) (hparams : ParamsUtf8 s.params)
    (hbody : body.utf8 = true) {command : Bytes} (hknown : command ∈ commandNames)
    (hhandle : handle lib command body clientId s = .ok (next, r)) : r.Utf8 := by
  cases handle_handled hhandle with
  | connect hcmd => exact cmdConnect_utf8 hcmd
  | disconnect hcmd => exact cmdDisconnect_utf8 hcmd
  | startCapture hcmd => exact cmdStartCapture_utf8 hcmd
  | stopCapture hcmd => exact cmdStopCapture_utf8 hcmd
  | activateChannel hcmd => exact cmdActivateChannel_utf8 hcmd
  | deactivateChannel hcmd => exact cmdDeactivateChannel_utf8 hcmd
  | checkStatus => exact cmdCheckStatus_utf8
  | listChannels => exact cmdListChannels_utf8
  | listParameters => exact cmdListParameters_utf8 hparams
  | getParameter hcmd => exact cmdGetParameter_utf8 hparams hcmd
  | setParameter hcmd => exact cmdSetParameter_utf8 hlib hbody hcmd
  | init => exact Response.fromError_utf8 _ (by decide)
  | dispose => exact Response.fromError_utf8 _ (by decide)
  | unknown hunknown => exact absurd hknown hunknown

/-- An unknown command is answered in UTF-8 exactly when it is in UTF-8 itself. -/
theorem handle_unknown_utf8 {command : Bytes} (hunknown : command ∉ commandNames)
    (hhandle : handle lib command body clientId s = .ok (next, r)) :
    r.detail.utf8 = true ∧ validUtf8 r.message = validUtf8 command := by
  have hmessage : validUtf8 (lit "unknown command: " ++ command) = validUtf8 command :=
    validUtf8_append (by decide)
  cases handle_handled hhandle with
  | unknown => exact ⟨rfl, hmessage⟩
  | _ => exact absurd (by decide) hunknown

/-- A request leaves the parameters in UTF-8. -/
theorem handle_paramsUtf8 (hlib : lib.ConvertsStrings) (hparams : ParamsUtf8 s.params)
    (hbody : body.utf8 = true) {command : Bytes}
    (hhandle : handle lib command body clientId s = .ok (next, r)) : ParamsUtf8 next.params := by
  by_cases hset : command = lit "set_parameter"
  · subst hset
    cases handle_handled hhandle with
    | setParameter hcmd =>
        cases cmdSetParameter_returns hcmd with
        | missing => exact hparams
        | unknown => exact hparams
        | refused => exact hparams
        | stored _ _ hvalue hconvert hset =>
            have hv := convertValue_utf8 hlib (Json.utf8_of_lookup hbody hvalue) hconvert
            exact hparams.setValue hv hset
    | unknown hunknown => exact absurd (by decide) hunknown
  · rw [(handle_handled hhandle).params_eq hset]
    exact hparams

end CommandHandler

/-! ## Replies -/

section

variable {lib : JsonLibrary} {cfg : Config} {cameraFile : Option Bytes}

theorem requestBody_utf8 (hencodes : lib.Encodes) (buf more : Bytes) :
    (requestBody lib buf more).utf8 = true := by
  unfold requestBody
  split
  next => rfl
  next =>
    split
    next body hparse => exact hencodes.parse_utf8 _ body hparse
    next => rfl

theorem requestClient_utf8 (hencodes : lib.Encodes) {body : Json} (hbody : body.utf8 = true)
    {clientId : Bytes} (hclient : requestClient lib body = .ok clientId) :
    validUtf8 clientId = true := by
  unfold requestClient at hclient
  split at hclient
  next =>
    obtain rfl := Except.ok.inj hclient
    decide
  next s hlookup =>
    obtain rfl := Except.ok.inj hclient
    rw [← Json.utf8_string]
    exact Json.utf8_of_lookup hbody hlookup
  next =>
    obtain rfl := Except.ok.inj hclient
    decide
  next => exact hencodes.dump_utf8 _ clientId hclient

/-- The services of the running program: `main` registers and loads the
parameters, then requests change them. Other threads change other fields. -/
inductive Serving (lib : JsonLibrary) (cfg : Config) (cameraFile : Option Bytes) :
    Service → Prop where
  | start {s : Service}
      (hparams : s.params = loadCameraSetting lib cameraFile (registerParameters {} cfg)) :
      Serving lib cfg cameraFile s
  | request {s next : Service} {buf more clientId : Bytes} {r : Response}
      (hbefore : Serving lib cfg cameraFile s)
      (hhandle : CommandHandler.handle lib (requestCommand lib buf more) (requestBody lib buf more)
        clientId s = .ok (next, r)) : Serving lib cfg cameraFile next
  | other {s next : Service} (hbefore : Serving lib cfg cameraFile s)
      (hparams : next.params = s.params) : Serving lib cfg cameraFile next

theorem Serving.paramsUtf8 (hencodes : lib.Encodes) (hlib : lib.ConvertsStrings) {s : Service}
    (hserving : Serving lib cfg cameraFile s) : ParamsUtf8 s.params := by
  induction hserving with
  | start hparams =>
      rw [hparams]
      exact (ParamsUtf8.registerParameters cfg).loadCameraSetting hencodes hlib cameraFile
  | request _ hhandle ih =>
      exact CommandHandler.handle_paramsUtf8 hlib ih (requestBody_utf8 hencodes _ _) hhandle
  | other _ hparams ih =>
      rw [hparams]
      exact ih

theorem CommandHandler.resolveAlias_utf8 (cmd : Bytes) :
    validUtf8 (resolveAlias cmd) = validUtf8 cmd := by
  have haliases : ∀ entry ∈ aliasMap,
      validUtf8 entry.1 = true ∧ validUtf8 entry.2 = true := by decide
  unfold resolveAlias
  split
  next entry hfind =>
    have hentry := haliases entry (List.mem_of_find?_eq_some hfind)
    have hcmd : entry.1 = cmd := by simpa using List.find?_some hfind
    rw [hentry.2, ← hcmd, hentry.1]
  next => rfl

/-- A command is in UTF-8 exactly when its segment of the path is. -/
theorem requestCommand_utf8 (hencodes : lib.Encodes) (buf more : Bytes) :
    validUtf8 (requestCommand lib buf more) =
      validUtf8 (commandSegment (parseRequestLine buf).path) := by
  have hsegment : ∀ segment, validUtf8 (CommandHandler.resolveAlias (toLower segment)) =
      validUtf8 segment := by
    intro segment
    rw [CommandHandler.resolveAlias_utf8, validUtf8_toLower]
  unfold requestCommand
  rw [CommandHandler.normalizeCommand_eq]
  split
  next hempty =>
    rw [← hsegment (commandSegment _), hempty]
    split
    next s hlookup =>
      rw [hsegment, ← Json.utf8_string]
      exact Json.utf8_of_lookup (requestBody_utf8 hencodes buf more) hlookup
    next => rfl
  next => rw [hsegment]

/-- A response to a request can be serialised if and only if the segment of the
path that names the command is valid UTF-8. -/
theorem reply_encodes_iff (hencodes : lib.Encodes) (hlib : lib.ConvertsStrings) {s next : Service}
    (hserving : Serving lib cfg cameraFile s) (hserver : validUtf8 cfg.admin.serverId = true)
    {buf more clientId : Bytes} (clocks : ReplyClocks) {r : Response}
    (hclient : requestClient lib (requestBody lib buf more) = .ok clientId)
    (hhandle : CommandHandler.handle lib (requestCommand lib buf more) (requestBody lib buf more)
      clientId s = .ok (next, r)) :
    (∃ text, (completeResponse cfg.admin clientId clocks r).toJson lib = .ok text) ↔
      validUtf8 (commandSegment (parseRequestLine buf).path) = true := by
  have hbody := requestBody_utf8 hencodes buf more
  have hclientUtf8 := requestClient_utf8 hencodes hbody hclient
  rw [Response.toJson, hencodes.dump_ok, ← requestCommand_utf8 hencodes buf more]
  -- only the answer to an unknown command repeats bytes of the path
  by_cases hknown : requestCommand lib buf more ∈ CommandHandler.commandNames
  · have hnames : ∀ name ∈ CommandHandler.commandNames, validUtf8 name = true := by decide
    have hr := CommandHandler.handle_utf8 hlib (hserving.paramsUtf8 hencodes hlib) hbody hknown
      hhandle
    exact iff_of_true (Response.envelope_utf8 _ hr.message hr.detail hserver hclientUtf8)
      (hnames _ hknown)
  · obtain ⟨hdetail, hmessage⟩ := CommandHandler.handle_unknown_utf8 hknown hhandle
    rw [← hmessage]
    constructor
    · intro henvelope
      exact Response.message_utf8 (completeResponse cfg.admin clientId clocks r) henvelope
    · intro hvalid
      exact Response.envelope_utf8 _ hvalid hdetail hserver hclientUtf8

end

/-- A client that connects is answered. -/
theorem connect_reply_encodes :
    ∃ text, (completeResponse ({} : Config).admin (lit "default") ⟨5, 7⟩
      (CommandHandler.cmdConnect (mainService .plain {} none {}) (lit "default")).2).toJson .plain =
        .ok text := by
  have hcommand : requestCommand .plain (lit "POST /api/connect HTTP/1.1\r\n\r\n") [] =
      lit "connect" := by decide
  have hhandle : CommandHandler.handle .plain
      (requestCommand .plain (lit "POST /api/connect HTTP/1.1\r\n\r\n") [])
      (requestBody .plain (lit "POST /api/connect HTTP/1.1\r\n\r\n") []) (lit "default")
      (mainService .plain {} none {}) =
        .ok (CommandHandler.cmdConnect (mainService .plain {} none {}) (lit "default")) := by
    rw [hcommand]
    rfl
  have hserving : Serving .plain {} none (mainService .plain {} none {}) := .start rfl
  apply (reply_encodes_iff JsonLibrary.plain_encodes JsonLibrary.plain_convertsStrings hserving
    (by decide) ⟨5, 7⟩ rfl hhandle).mpr
  decide

/-- A request for the command of one byte `0xFF` has a response that cannot be
serialised. -/
theorem invalidCommand_reply_throws :
    ¬ ∀ (lib : JsonLibrary), lib.Encodes → lib.ConvertsStrings →
      ∀ (cfg : Config) (cameraFile : Option Bytes) (s next : Service),
        Serving lib cfg cameraFile s → validUtf8 cfg.admin.serverId = true →
        ∀ (buf more clientId : Bytes) (clocks : ReplyClocks) (r : Response),
          requestClient lib (requestBody lib buf more) = .ok clientId →
          CommandHandler.handle lib (requestCommand lib buf more) (requestBody lib buf more)
            clientId s = .ok (next, r) →
          ∃ text, (completeResponse cfg.admin clientId clocks r).toJson lib = .ok text := by
  intro hclaim
  have hcommand : requestCommand .plain
      (lit "GET /" ++ [0xFF] ++ lit " HTTP/1.1\r\n\r\n") [] = [0xFF] := by decide
  obtain ⟨text, htext⟩ := hclaim .plain JsonLibrary.plain_encodes
    JsonLibrary.plain_convertsStrings {} none (mainService .plain {} none {})
    (mainService .plain {} none {}) (.start rfl) (by decide)
    (lit "GET /" ++ [0xFF] ++ lit " HTTP/1.1\r\n\r\n") [] (lit "default") ⟨5, 7⟩
    (.fromError .invalidParam (lit "unknown command: " ++ [0xFF])) rfl (by
      rw [hcommand]
      rfl)
  have henvelope := (JsonLibrary.plain_encodes.dump_ok _).mp ⟨text, htext⟩
  have hmessage : validUtf8 (lit "unknown command: " ++ [0xFF]) = true :=
    Response.message_utf8 _ henvelope
  exact absurd hmessage (by decide)

end SimVision
