import SimVision.App.Main

/-! # Validity of the parameters over whole runs

An accepted configuration has a frame rate between 1 and 240, while `fps` is
registered with the bounds 1 and 120. All other parameters are registered within
their bounds, and no write leaves them.
-/

namespace SimVision

open Foundation

/-- What holds of the parameters in a run that began with `registered`. -/
structure ParametersValid (registered current : ParameterManager) : Prop where
  integer_bounds : ∀ name p v, current.get name = some p → p.value = .integer v →
    ∃ low high default, p.min = .integer low ∧ p.max = .integer high ∧
      p.defaultValue = .integer default ∧ (low ≤ v ∧ v ≤ high) ∧ low ≤ default ∧ default ≤ high
  enum_options : ∀ name p v, current.get name = some p → p.value = .enum v → v ∈ p.enumOptions
  type_kept : ∀ name p₀, registered.get name = some p₀ →
    ∃ p, current.get name = some p ∧ p.value.index = p₀.value.index
  readonly_kept : ∀ name p₀ p, registered.get name = some p₀ → p₀.isReadonly = true →
    current.get name = some p → p.value = p₀.value
  none_added : ∀ name, registered.get name = none → current.get name = none

/-- A parameter registered within its own bounds or options. -/
def WellRegistered (p : Parameter) : Prop :=
  match p.value with
  | .integer v => ∃ low high, p.min = .integer low ∧ p.max = .integer high ∧
      p.defaultValue = .integer v ∧ low ≤ v ∧ v ≤ high
  | .float _ => False
  | .enum v => v ∈ p.enumOptions

theorem addInt_wellRegistered (n : Bytes) {value lo hi : Int} (reopen : Bool) (hlow : lo ≤ value)
    (hhigh : value ≤ hi) : WellRegistered (addInt n value lo hi reopen) :=
  ⟨lo, hi, rfl, rfl, rfl, hlow, hhigh⟩

theorem addEnum_wellRegistered (n : Bytes) {value : Bytes} {vals : List Bytes} (reopen : Bool)
    (hmem : value ∈ vals) : WellRegistered (addEnum n value vals reopen) :=
  hmem

/-- Every parameter of `main` is well registered when the frame rate is. -/
theorem mainParameters_wellRegistered {cfg : Config} (hlow : 1 ≤ cfg.capture.fps)
    (hhigh : cfg.capture.fps ≤ 120) : ∀ p ∈ mainParameters cfg, WellRegistered p := by
  simp only [mainParameters, List.forall_mem_cons, List.not_mem_nil, false_imp_iff, implies_true,
    and_true]
  refine ⟨addInt_wellRegistered _ _ hlow hhigh, ?_⟩
  refine ⟨addEnum_wellRegistered _ _ (by decide), addEnum_wellRegistered _ _ (by decide), ?_⟩
  refine ⟨addInt_wellRegistered _ _ (by decide) (by decide), ?_⟩
  refine ⟨addInt_wellRegistered _ _ (by decide) (by decide), ?_⟩
  refine ⟨addInt_wellRegistered _ _ (by decide) (by decide), ?_⟩
  refine ⟨addInt_wellRegistered _ _ (by decide) (by decide), ?_⟩
  refine ⟨addEnum_wellRegistered _ _ (by decide), ?_⟩
  refine ⟨addInt_wellRegistered _ _ (by decide) (by decide), ?_⟩
  refine ⟨addInt_wellRegistered _ _ (by decide) (by decide), ?_⟩
  refine ⟨⟨0, 0, rfl, rfl, rfl, by decide, by decide⟩, ?_⟩
  refine ⟨addEnum_wellRegistered _ _ (by decide), ?_⟩
  refine ⟨addInt_wellRegistered _ _ (by decide) (by decide), ?_⟩
  exact ⟨addInt_wellRegistered _ _ (by decide) (by decide),
    addInt_wellRegistered _ _ (by decide) (by decide)⟩

/-! ## The registered parameters by name -/

theorem mainParameters_names_nodup (cfg : Config) :
    ((mainParameters cfg).map Parameter.name).Nodup := by
  have hnames : (mainParameters cfg).map Parameter.name =
      (mainParameters {}).map Parameter.name := rfl
  rw [hnames]
  decide

/-- Registering parameters with distinct names makes each of them readable. -/
theorem get_foldl_registerParameter {ps : List Parameter} (hnodup : (ps.map Parameter.name).Nodup)
    (m : ParameterManager) (name : Bytes) :
    (ps.foldl ParameterManager.registerParameter m).get name =
      ((ps.find? fun p => p.name = name).or (m.get name)) := by
  induction ps generalizing m with
  | nil => rfl
  | cons p rest ih =>
      rw [List.map_cons, List.nodup_cons] at hnodup
      rw [List.foldl_cons, ih hnodup.2, ParameterManager.get_registerParameter]
      by_cases hname : name = p.name
      · subst hname
        have hnone : rest.find? (fun q => q.name = p.name) = none := by
          rw [List.find?_eq_none]
          intro q hq
          have hne : q.name ≠ p.name := fun heq => hnodup.1 (heq ▸ List.mem_map_of_mem hq)
          simpa using hne
        simp [hnone]
      · rw [if_neg hname, List.find?_cons_of_neg (by simpa using Ne.symm hname)]

theorem mem_of_get_registerParameters {cfg : Config} {name : Bytes} {p : Parameter}
    (hget : (registerParameters {} cfg).get name = some p) : p ∈ mainParameters cfg := by
  rw [registerParameters, get_foldl_registerParameter (mainParameters_names_nodup cfg)] at hget
  cases hfind : (mainParameters cfg).find? fun p => p.name = name with
  | none =>
      rw [hfind] at hget
      contradiction
  | some q =>
      rw [hfind, Option.some_or, Option.some.injEq] at hget
      subst q
      exact List.mem_of_find?_eq_some hfind

theorem get_fps (cfg : Config) : (registerParameters {} cfg).get (lit "fps") =
    some (addInt (lit "fps") cfg.capture.fps 1 120 true) := by
  rw [registerParameters, get_foldl_registerParameter (mainParameters_names_nodup cfg)]
  rfl

/-! ## Validity -/

/-- A rewriting of a well registered parameter stays within its bounds. -/
theorem WellRegistered.integer_bounds {registered current : Parameter} {v : Int}
    (hwell : WellRegistered registered) (hrewritten : Rewritten registered current)
    (hvalue : current.value = .integer v) :
    ∃ low high default, current.min = .integer low ∧ current.max = .integer high ∧
      current.defaultValue = .integer default ∧ (low ≤ v ∧ v ≤ high) ∧
      low ≤ default ∧ default ≤ high := by
  obtain ⟨value, rfl, hvalues⟩ := hrewritten
  obtain rfl : value = .integer v := hvalue
  -- a value of another alternative is refused, so the registered value was an integer
  have hinteger : ∃ w, registered.value = .integer w := by
    rcases hvalues with hsame | ⟨_, hadmits⟩
    · exact ⟨v, hsame.symm⟩
    · cases hregistered : registered.value with
      | integer w => exact ⟨w, rfl⟩
      | float w => simp [Parameter.Admits, hregistered, ParamValue.integer?] at hadmits
      | enum w => simp [Parameter.Admits, hregistered, ParamValue.integer?] at hadmits
  obtain ⟨w, hw⟩ := hinteger
  simp only [WellRegistered, hw] at hwell
  obtain ⟨low, high, hmin, hmax, hdefault, hlow, hhigh⟩ := hwell
  refine ⟨low, high, w, hmin, hmax, hdefault, ?_, hlow, hhigh⟩
  rcases hvalues with hsame | ⟨_, hadmits⟩
  · rw [hw, ParamValue.integer.injEq] at hsame
    omega
  · exact hadmits.2 low high hmin hmax

theorem WellRegistered.enum_options {registered current : Parameter} {v : Bytes}
    (hwell : WellRegistered registered) (hrewritten : Rewritten registered current)
    (hvalue : current.value = .enum v) : v ∈ current.enumOptions := by
  obtain ⟨value, rfl, hvalues⟩ := hrewritten
  obtain rfl : value = .enum v := hvalue
  rcases hvalues with hsame | ⟨_, hadmits⟩
  · simpa [WellRegistered, ← hsame] using hwell
  · cases hregistered : registered.value with
    | integer w => simp [Parameter.Admits, hregistered, ParamValue.enum?] at hadmits
    | float w => simp [Parameter.Admits, hregistered, ParamValue.enum?] at hadmits
    | enum w =>
        simp only [WellRegistered, hregistered] at hwell
        -- the setter lets any string pass when there are no options, which is not the case
        rcases hadmits.2 with hempty | hmem
        · rw [hempty] at hwell
          contradiction
        · exact hmem

/-- Rewritings of well registered parameters are valid. -/
theorem RewrittenAll.valid {registered current : ParameterManager}
    (hrewritten : RewrittenAll registered current)
    (hwell : ∀ name p, registered.get name = some p → WellRegistered p) :
    ParametersValid registered current := by
  refine ⟨?_, ?_, ?_, ?_, ?_⟩
  · intro name p v hget hvalue
    obtain ⟨p₀, hregistered, hparameter⟩ := hrewritten.of_current hget
    exact (hwell name p₀ hregistered).integer_bounds hparameter hvalue
  · intro name p v hget hvalue
    obtain ⟨p₀, hregistered, hparameter⟩ := hrewritten.of_current hget
    exact (hwell name p₀ hregistered).enum_options hparameter hvalue
  · intro name p₀ hregistered
    obtain ⟨p, hget, hparameter⟩ := hrewritten.of_registered hregistered
    exact ⟨p, hget, hparameter.index_eq⟩
  · intro name p₀ p hregistered hreadonly hget
    obtain ⟨p₁, hregistered', value, rfl, hvalue⟩ := hrewritten.of_current hget
    rw [hregistered] at hregistered'
    cases hregistered'
    rcases hvalue with hsame | ⟨hwritable, _⟩
    · exact hsame
    · rw [hreadonly] at hwritable
      contradiction
  · intro name hregistered
    rw [← Option.not_isSome_iff_eq_none, Option.isSome_iff_exists]
    rintro ⟨p, hget⟩
    obtain ⟨p₀, hstored, _⟩ := hrewritten.of_current hget
    rw [hregistered] at hstored
    contradiction

/-- The default of `fps` survives every write. -/
theorem fps_after_writes {lib : JsonLibrary} {cfg : Config} {s : Service}
    (hparams : s.params = registerParameters {} cfg) (writes : List ParameterWrite) :
    ∃ v, (s.writes lib writes).params.get (lit "fps") =
      some { addInt (lit "fps") cfg.capture.fps 1 120 true with value := .integer v } := by
  have hrewritten := rewrittenAll_writes lib s writes
  rw [hparams] at hrewritten
  obtain ⟨p, hget, value, rfl, rfl | ⟨_, hadmits⟩⟩ := hrewritten.of_registered (get_fps cfg)
  · exact ⟨cfg.capture.fps, hget⟩
  · cases value with
    | integer v => exact ⟨v, hget⟩
    | float v => simp [Parameter.Admits, addInt, ParamValue.float?] at hadmits
    | enum v => simp [Parameter.Admits, addInt, ParamValue.enum?] at hadmits

/-- For every accepted configuration, the parameters are valid after any writes
if and only if the configured frame rate is at most 120. -/
theorem parametersValid_iff {lib : JsonLibrary} {configDir : Bytes} {file : Option Bytes}
    {cfg : Config} (hload : ConfigLoader.load lib configDir file = (cfg, [])) {s : Service}
    (hparams : s.params = registerParameters {} cfg) (writes : List ParameterWrite) :
    ParametersValid (registerParameters {} cfg) (s.writes lib writes).params ↔
      cfg.capture.fps ≤ 120 := by
  constructor
  · intro hvalid
    obtain ⟨v, hfps⟩ := @fps_after_writes lib _ _ hparams writes
    obtain ⟨low, high, default, _, hmax, hdefault, _, _, hle⟩ :=
      hvalid.integer_bounds _ _ v hfps rfl
    have hhigh : (120 : Int) = high := ParamValue.integer.inj hmax
    have hrate : cfg.capture.fps = default := ParamValue.integer.inj hdefault
    omega
  · intro hrate
    have hchecked := ConfigLoader.load_fps hload
    have hrewritten := rewrittenAll_writes lib s writes
    rw [hparams] at hrewritten
    apply hrewritten.valid
    intro name p hget
    exact mainParameters_wellRegistered hchecked.1 hrate p (mem_of_get_registerParameters hget)

/-- A configuration with three endpoints and a frame rate. -/
def configOfFps (fps : Int) : Json :=
  Json.ofAssignments
    [(lit "admin_server", Json.emptyObject),
      (lit "capture", Json.ofAssignments [(lit "fps", .integer fps)]),
      (lit "zmq", Json.ofAssignments [(lit "endpoints", Json.ofAssignments
        [(lit "visual_2d", .string (lit "ipc:///tmp/v2d")),
          (lit "visual_3d", .string (lit "ipc:///tmp/v3d")),
          (lit "sensor_data", .string (lit "ipc:///tmp/sd"))])])]

/-- The configuration loaded from the file with that document. -/
def loadedConfig (fps : Int) : Config :=
  (ConfigLoader.load (.reading (configOfFps fps)) (lit "config") (some (configOfFps fps).text)).1

theorem parametersValid_at_sixty :
    ParametersValid (registerParameters {} (loadedConfig 60))
      ((({ params := registerParameters {} (loadedConfig 60), pipeline := .create 8 } :
        Service).writes (.reading (configOfFps 60)) [.cameraEntry (lit "fps") (.integer 500),
          .setParameter (Json.ofAssignments [(lit "name", .string (lit "fps")),
            (lit "value", .integer 90)]) (lit "default")]).params) := by
  have herr : (ConfigLoader.load (.reading (configOfFps 60)) (lit "config")
      (some (configOfFps 60).text)).2 = [] := by decide
  have hrate : (loadedConfig 60).capture.fps ≤ 120 := by decide
  exact (parametersValid_iff (Prod.ext rfl herr) rfl _).mpr hrate

/-- The configuration accepts 240, which the bounds of `fps` exclude. -/
theorem parameters_not_valid_at_240 :
    ¬ ∀ (lib : JsonLibrary) (configDir : Bytes) (file : Option Bytes) (cfg : Config),
      ConfigLoader.load lib configDir file = (cfg, []) → ∀ (s : Service),
      s.params = registerParameters {} cfg → ∀ writes : List ParameterWrite,
        ParametersValid (registerParameters {} cfg) (s.writes lib writes).params := by
  intro hvalid
  have herr : (ConfigLoader.load (.reading (configOfFps 240)) (lit "config")
      (some (configOfFps 240).text)).2 = [] := by decide
  have hrate : (loadedConfig 240).capture.fps = 240 := by decide
  obtain ⟨low, high, default, _, hmax, _, hbounds, _⟩ := (hvalid _ _ _ (loadedConfig 240)
    (Prod.ext rfl herr)
    { params := registerParameters {} (loadedConfig 240), pipeline := .create 8 }
    rfl []).integer_bounds (lit "fps") _ _ (get_fps _) rfl
  have hhigh : (120 : Int) = high := ParamValue.integer.inj hmax
  omega

end SimVision
