import Mathlib.Data.List.Nodup
import SimVision.Api.CommandHandler
import SimVision.DataSource.SimDataSource

/-! # Parameters at start-up

`main` registers the parameters from the configuration and overrides their
values with the entries of `CameraSetting.json`. From then on only
`set_parameter` writes them.
-/

namespace SimVision

open Foundation

/-- A parameter registered by `add_int`. -/
def addInt (n : Bytes) (value lo hi : Int) (reopen : Bool) : Parameter where
  name := n
  value := .integer value
  min := .integer lo
  max := .integer hi
  defaultValue := .integer value
  needsReopen := reopen

/-- A parameter registered by `add_enum`. -/
def addEnum (n value : Bytes) (vals : List Bytes) (reopen : Bool) : Parameter where
  name := n
  value := .enum value
  defaultValue := .enum value
  enumOptions := vals
  needsReopen := reopen

/-- The parameters in the order they are registered. The bounds of
`scene_illuminance` are left as constructed. -/
def mainParameters (cfg : Config) : List Parameter :=
  [addInt (lit "fps") cfg.capture.fps 1 120 true,
    addEnum (lit "resolution") (lit "HD720")
      [lit "HD2K", lit "HD1080", lit "HD720", lit "HD1200", lit "VGA"] true,
    addEnum (lit "depth_mode") (lit "NEURAL")
      [lit "NONE", lit "NEURAL_LIGHT", lit "NEURAL", lit "NEURAL_PLUS", lit "PERFORMANCE",
        lit "QUALITY", lit "ULTRA"] true,
    addInt (lit "exposure_time") 0 0 33333 false,
    addInt (lit "gain") 50 0 100 false,
    addInt (lit "analog_gain") 1000 1000 16000 false,
    addInt (lit "digital_gain") 1 1 256 false,
    addEnum (lit "auto_exposure_gain") (lit "On") [lit "On", lit "Off"] false,
    addInt (lit "exposure_compensation") 50 0 100 false,
    addInt (lit "denoising") 50 0 100 false,
    { name := lit "scene_illuminance"
      value := .integer 0
      defaultValue := .integer 0
      isReadonly := true },
    addEnum (lit "mem_type") (lit "CPU") [lit "CPU", lit "GPU"] false,
    addInt (lit "target_fps_2d") 15 0 240 false,
    addInt (lit "target_fps_3d") 15 0 240 false,
    addInt (lit "target_fps_sensor") 200 0 1000 false]

def registerParameters (m : ParameterManager) (cfg : Config) : ParameterManager :=
  (mainParameters cfg).foldl ParameterManager.registerParameter m

/-! ## CameraSetting.json -/

/-- `j.items()`: keys of an object, indices of an array, one empty key for a scalar. -/
def jsonItems : Json → List (Bytes × Json)
  | .object members => members
  | .array elements => elements.zipIdx.map fun e => (decimal e.2, e.1)
  | .null => []
  | scalar => [([], scalar)]

variable (lib : JsonLibrary)

/-- One iteration of the loop of `load_camera_setting`. A refused value is
ignored, a value that does not convert throws. -/
def loadCameraEntry (m : ParameterManager) (name : Bytes) (value : Json) :
    Except Bytes ParameterManager :=
  match m.get name with
  | none => .ok m
  | some current =>
      (CommandHandler.convertValue lib current.value value).map fun v =>
        match m.setValue name v with
        | .ok next => next
        | .error _ => m

/-- The loop over the entries, left by the first exception. -/
def loadCameraEntries (m : ParameterManager) : List (Bytes × Json) → ParameterManager
  | [] => m
  | (name, value) :: rest =>
      match loadCameraEntry lib m name value with
      | .ok next => loadCameraEntries next rest
      | .error _ => m

/-- An entry that does not throw changes nothing but a value that `set_value`
accepted. -/
theorem loadCameraEntry_ok {lib : JsonLibrary} {m next : ParameterManager} {name : Bytes}
    {value : Json} (hentry : loadCameraEntry lib m name value = .ok next) :
    next = m ∨ ∃ p v, m.get name = some p ∧
      CommandHandler.convertValue lib p.value value = .ok v ∧ m.setValue name v = .ok next := by
  unfold loadCameraEntry at hentry
  split at hentry
  next => exact .inl (Except.ok.inj hentry).symm
  next p hget =>
    cases hconvert : CommandHandler.convertValue lib p.value value with
    | error what =>
        rw [hconvert] at hentry
        contradiction
    | ok v =>
        rw [hconvert] at hentry
        simp only [Except.map, Except.ok.injEq] at hentry
        split at hentry
        next params hset =>
          subst hentry
          exact .inr ⟨p, v, hget, hconvert, hset⟩
        next => exact .inl hentry.symm

/-- `load_camera_setting`, with `none` for a file that cannot be opened. -/
def loadCameraSetting (file : Option Bytes) (m : ParameterManager) : ParameterManager :=
  match file with
  | none => m
  | some text =>
      match lib.parseStream text with
      | .ok j => loadCameraEntries lib m (jsonItems j)
      | .error _ => m

/-- The service as `main` leaves it before the first request. -/
def mainService (cfg : Config) (cameraFile : Option Bytes) (source : SimDataSource) : Service where
  params := loadCameraSetting lib cameraFile (registerParameters {} cfg)
  pipeline := .create (sizeOfInt cfg.spsc.queueSize)
  pairCount := source.pairCount

/-! ## Writes after registration -/

/-- A write to the parameters: an entry of the settings file, or a request. -/
inductive ParameterWrite where
  | cameraEntry (name : Bytes) (value : Json)
  | setParameter (body : Json) (clientId : Bytes)

/-- The service after a write; a write that throws leaves it as it was. -/
def Service.write (s : Service) : ParameterWrite → Service
  | .cameraEntry name value =>
      match loadCameraEntry lib s.params name value with
      | .ok params => { s with params := params }
      | .error _ => s
  | .setParameter body clientId =>
      match CommandHandler.handle lib (lit "set_parameter") body clientId s with
      | .ok (next, _) => next
      | .error _ => s

/-- The service after a sequence of writes. -/
def Service.writes (s : Service) (writes : List ParameterWrite) : Service :=
  writes.foldl (Service.write lib) s

/-- Loading the settings file is a sequence of entry writes. -/
theorem loadCameraSetting_writes (file : Option Bytes) (s : Service) :
    ∃ entries, { s with params := loadCameraSetting lib file s.params } = s.writes lib entries := by
  -- the loop stops at the first exception, so its writes are a prefix of the entries
  have hentries : ∀ (items : List (Bytes × Json)) (s : Service),
      ∃ entries, { s with params := loadCameraEntries lib s.params items } =
        s.writes lib entries := by
    intro items
    induction items with
    | nil => exact fun s => ⟨[], rfl⟩
    | cons item rest ih =>
        rcases item with ⟨name, value⟩
        intro s
        unfold loadCameraEntries
        cases hentry : loadCameraEntry lib s.params name value with
        | error what => exact ⟨[], rfl⟩
        | ok params =>
            obtain ⟨entries, hrest⟩ := ih { s with params := params }
            refine ⟨.cameraEntry name value :: entries, ?_⟩
            have hwrite : s.write lib (.cameraEntry name value) = { s with params := params } := by
              simp [Service.write, hentry]
            rw [Service.writes, List.foldl_cons, hwrite]
            exact hrest
  unfold loadCameraSetting
  split
  next => exact ⟨[], rfl⟩
  next =>
    split
    next j _ => exact hentries (jsonItems j) s
    next => exact ⟨[], rfl⟩

/-! ## What writes can do -/

/-- A parameter after writes: only the value may differ from the registered one,
and a new value is one that a writable parameter admits. -/
def Rewritten (registered current : Parameter) : Prop :=
  ∃ value, current = { registered with value := value } ∧
    (value = registered.value ∨ registered.isReadonly = false ∧ registered.Admits value)

/-- The parameters after writes, name by name. -/
def RewrittenAll (registered current : ParameterManager) : Prop :=
  ∀ name, Option.Rel Rewritten (registered.get name) (current.get name)

theorem Rewritten.refl (p : Parameter) : Rewritten p p := ⟨p.value, rfl, .inl rfl⟩

theorem RewrittenAll.refl (m : ParameterManager) : RewrittenAll m m := by
  intro name
  cases m.get name with
  | none => exact .none
  | some p => exact .some (Rewritten.refl p)

theorem RewrittenAll.of_registered {registered current : ParameterManager}
    (hrewritten : RewrittenAll registered current) {name : Bytes} {p₀ : Parameter}
    (hget : registered.get name = some p₀) : ∃ p, current.get name = some p ∧ Rewritten p₀ p := by
  have hname := hrewritten name
  rw [hget] at hname
  cases hcurrent : current.get name with
  | none =>
      rw [hcurrent] at hname
      contradiction
  | some p =>
      rw [hcurrent] at hname
      obtain ⟨hparameter⟩ := hname
      exact ⟨p, rfl, hparameter⟩

theorem RewrittenAll.of_current {registered current : ParameterManager}
    (hrewritten : RewrittenAll registered current) {name : Bytes} {p : Parameter}
    (hget : current.get name = some p) :
    ∃ p₀, registered.get name = some p₀ ∧ Rewritten p₀ p := by
  have hname := hrewritten name
  rw [hget] at hname
  cases hregistered : registered.get name with
  | none =>
      rw [hregistered] at hname
      contradiction
  | some p₀ =>
      rw [hregistered] at hname
      obtain ⟨hparameter⟩ := hname
      exact ⟨p₀, rfl, hparameter⟩

/-- A rewriting keeps the alternative that the parameter holds. -/
theorem Rewritten.index_eq {registered current : Parameter}
    (hrewritten : Rewritten registered current) : current.value.index = registered.value.index := by
  obtain ⟨value, rfl, rfl | ⟨_, hadmits⟩⟩ := hrewritten
  · rfl
  · cases value with
    | integer v => exact ((ParamValue.integer?_isSome _).mp hadmits.1).symm
    | float v => exact ((ParamValue.float?_isSome _).mp hadmits.1).symm
    | enum v => exact ((ParamValue.enum?_isSome _).mp hadmits.1).symm

/-- Whether a parameter admits a value depends on its alternative only. -/
theorem Parameter.admits_of_rewritten {registered current : Parameter}
    (hrewritten : Rewritten registered current) {value : ParamValue}
    (hadmits : current.Admits value) : registered.Admits value := by
  have hindex := hrewritten.index_eq
  obtain ⟨old, rfl, _⟩ := hrewritten
  dsimp only at hindex
  cases value with
  | integer v =>
      refine ⟨?_, hadmits.2⟩
      rw [ParamValue.integer?_isSome, ← hindex, ← ParamValue.integer?_isSome]
      exact hadmits.1
  | float v =>
      refine ⟨?_, hadmits.2⟩
      rw [ParamValue.float?_isSome, ← hindex, ← ParamValue.float?_isSome]
      exact hadmits.1
  | enum v =>
      refine ⟨?_, hadmits.2⟩
      rw [ParamValue.enum?_isSome, ← hindex, ← ParamValue.enum?_isSome]
      exact hadmits.1

/-- A successful `set_value` is a rewriting. -/
theorem RewrittenAll.setValue {registered current next : ParameterManager} {name : Bytes}
    {value : ParamValue} (hbefore : RewrittenAll registered current)
    (hset : current.setValue name value = .ok next) : RewrittenAll registered next := by
  -- the bounds that were checked are those of the current parameter, which are the
  -- registered ones
  obtain ⟨p, hget, hwritable, hadmits, rfl⟩ := ParameterManager.setValue_ok hset
  intro other
  rw [ParameterManager.get_store hget]
  split
  next heq =>
    subst heq
    obtain ⟨p₀, hregistered, hrewritten⟩ := hbefore.of_current hget
    have hadmits₀ := Parameter.admits_of_rewritten hrewritten hadmits
    obtain ⟨old, rfl, _⟩ := hrewritten
    rw [hregistered]
    exact .some ⟨value, rfl, .inr ⟨hwritable, hadmits₀⟩⟩
  next => exact hbefore other

/-- An entry that does not throw leaves a rewriting. -/
theorem RewrittenAll.cameraEntry {lib : JsonLibrary} {registered current next : ParameterManager}
    {name : Bytes} {value : Json} (hbefore : RewrittenAll registered current)
    (hentry : loadCameraEntry lib current name value = .ok next) :
    RewrittenAll registered next := by
  rcases loadCameraEntry_ok hentry with rfl | ⟨_, _, _, _, hset⟩
  · exact hbefore
  · exact hbefore.setValue hset

/-- Every write is a rewriting, whatever its outcome. -/
theorem RewrittenAll.write {registered : ParameterManager} {s : Service}
    (hbefore : RewrittenAll registered s.params) (write : ParameterWrite) :
    RewrittenAll registered (s.write lib write).params := by
  cases write with
  | cameraEntry name value =>
      simp only [Service.write]
      split
      next params hentry => exact hbefore.cameraEntry hentry
      next => exact hbefore
  | setParameter body clientId =>
      simp only [Service.write]
      split
      next next r hhandle =>
        cases CommandHandler.cmdSetParameter_returns hhandle with
        | missing => exact hbefore
        | unknown => exact hbefore
        | refused => exact hbefore
        | stored _ _ _ _ hset => exact hbefore.setValue hset
      next => exact hbefore

/-- After any sequence of writes the parameters are rewritings of those before. -/
theorem rewrittenAll_writes (s : Service) (writes : List ParameterWrite) :
    RewrittenAll s.params (s.writes lib writes).params := by
  have hrun : ∀ (registered : ParameterManager) (s : Service), RewrittenAll registered s.params →
      RewrittenAll registered (s.writes lib writes).params := by
    induction writes with
    | nil => exact fun _ _ hbefore => hbefore
    | cons write rest ih =>
        intro registered s hbefore
        rw [Service.writes, List.foldl_cons]
        exact ih registered _ (hbefore.write lib write)
  exact hrun s.params s (RewrittenAll.refl s.params)

end SimVision
