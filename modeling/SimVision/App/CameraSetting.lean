import SimVision.App.ParameterValidity
import SimVision.Foundation.JsonObject
import SimVision.Foundation.JsonReread

/-! # Saving and loading the parameters

`save_camera_setting` writes the value of every parameter. The next start loads
them over the registered values by a path that checks each one again and drops
what it refuses, which is never a value that differs from the registered one.
-/

namespace SimVision

open Foundation

/-- `param_value_to_json`. -/
def paramValueToJson (p : Parameter) : Json :=
  match p.value with
  | .integer v => .integer v
  | .float v => .float v
  | .enum v => .string v

/-- The object that `save_camera_setting` prints. -/
def cameraSettingJson (m : ParameterManager) : Json :=
  m.all.foldl (fun j p => j.set p.name (paramValueToJson p)) Json.emptyObject

/-- `save_camera_setting`: what it leaves in the file, which is opened before the
object is printed. -/
def saveCameraSetting (dump : Json → Except Bytes Bytes) (m : ParameterManager) : Bytes :=
  match dump (cameraSettingJson m) with
  | .ok text => text
  | .error _ => []

/-! ## The states that the parameters reach -/

/-- A request or a load that may change the parameters. -/
inductive SettingStep where
  | setParameter (body : Json) (clientId : Bytes)
  | load (file : Option Bytes)

namespace Service

variable (lib : JsonLibrary)

def settingStep (s : Service) : SettingStep → Service
  | .setParameter body clientId => s.write lib (.setParameter body clientId)
  | .load file => { s with params := loadCameraSetting lib file s.params }

def settingSteps (s : Service) (steps : List SettingStep) : Service :=
  steps.foldl (settingStep lib) s

end Service

theorem RewrittenAll.writes {lib : JsonLibrary} {registered : ParameterManager} {s : Service}
    (hbefore : RewrittenAll registered s.params) (writes : List ParameterWrite) :
    RewrittenAll registered (s.writes lib writes).params := by
  induction writes generalizing s with
  | nil => exact hbefore
  | cons write rest ih =>
      rw [Service.writes, List.foldl_cons]
      exact ih (hbefore.write lib write)

theorem RewrittenAll.settingStep {lib : JsonLibrary} {registered : ParameterManager} {s : Service}
    (hbefore : RewrittenAll registered s.params) (step : SettingStep) :
    RewrittenAll registered (s.settingStep lib step).params := by
  cases step with
  | setParameter body clientId => exact hbefore.write lib _
  | load file =>
      obtain ⟨entries, hentries⟩ := loadCameraSetting_writes lib file s
      rw [Service.settingStep, hentries]
      exact hbefore.writes entries

/-- However often the parameters are set and loaded, they are rewritings of those
that were registered. -/
theorem rewrittenAll_settingSteps {lib : JsonLibrary} {registered : ParameterManager} {s : Service}
    (hbefore : RewrittenAll registered s.params) (steps : List SettingStep) :
    RewrittenAll registered (s.settingSteps lib steps).params := by
  induction steps generalizing s with
  | nil => exact hbefore
  | cons step rest ih =>
      rw [Service.settingSteps, List.foldl_cons]
      exact ih (hbefore.settingStep step)

/-! ## Values that survive printing -/

def IsInt64 (v : Int) : Prop := -2 ^ 63 ≤ v ∧ v < 2 ^ 63

/-- The documented behaviour of `get<int64_t>` on integers that fit. -/
structure Foundation.JsonLibrary.ConvertsInt64 (lib : JsonLibrary) : Prop where
  getInt64_integer : ∀ i, IsInt64 i → lib.getInt64 (.integer i) = .ok i
  getInt64_unsigned : ∀ n : Nat, n < 2 ^ 63 → lib.getInt64 (.unsigned n) = .ok n

/-- A value that is printed as it is and converted back. -/
def ParamValue.Printable : ParamValue → Prop
  | .integer v => IsInt64 v
  | .float _ => False
  | .enum v => validUtf8 v = true

/-- Whatever is written to the parameter is printable. -/
def Parameter.StaysPrintable (p₀ : Parameter) : Prop := ∀ p, Rewritten p₀ p → p.value.Printable

theorem addInt_staysPrintable (n : Bytes) {value lo hi : Int} (reopen : Bool)
    (hvalue : IsInt64 value) (hlo : IsInt64 lo) (hhi : IsInt64 hi) :
    (addInt n value lo hi reopen).StaysPrintable := by
  rintro p ⟨written, rfl, rfl | ⟨_, hadmits⟩⟩
  · exact hvalue
  · cases written with
    | integer v =>
        obtain ⟨hlow, hhigh⟩ := hadmits.2 lo hi rfl rfl
        exact ⟨hlo.1.trans hlow, hhigh.trans_lt hhi.2⟩
    | float v => simp [Parameter.Admits, addInt, ParamValue.float?] at hadmits
    | enum v => simp [Parameter.Admits, addInt, ParamValue.enum?] at hadmits

theorem addEnum_staysPrintable (n : Bytes) {value : Bytes} {vals : List Bytes} (reopen : Bool)
    (hvalue : validUtf8 value = true) (hsome : vals ≠ []) (hvals : ∀ v ∈ vals, validUtf8 v = true) :
    (addEnum n value vals reopen).StaysPrintable := by
  rintro p ⟨written, rfl, rfl | ⟨_, hadmits⟩⟩
  · exact hvalue
  · cases written with
    | integer v => simp [Parameter.Admits, addEnum, ParamValue.integer?] at hadmits
    | float v => simp [Parameter.Admits, addEnum, ParamValue.float?] at hadmits
    | enum v =>
        rcases hadmits.2 with hempty | hmem
        · exact absurd hempty hsome
        · exact hvals v hmem

theorem mainParameters_staysPrintable {cfg : Config} (hlow : 1 ≤ cfg.capture.fps)
    (hhigh : cfg.capture.fps ≤ 240) : ∀ p ∈ mainParameters cfg, p.StaysPrintable := by
  -- all numbers of the table are far inside the 64 bits
  have hint : ∀ (n : Bytes) (value lo hi : Int) (reopen : Bool),
      (∀ v ∈ [value, lo, hi], 0 ≤ v ∧ v ≤ 33333) →
        (addInt n value lo hi reopen).StaysPrintable := by
    intro n value lo hi reopen hsmall
    have hfits : ∀ v ∈ [value, lo, hi], IsInt64 v := by
      intro v hv
      obtain ⟨hnonneg, hle⟩ := hsmall v hv
      exact ⟨by omega, by omega⟩
    exact addInt_staysPrintable n reopen (hfits _ (by simp)) (hfits _ (by simp)) (hfits _ (by simp))
  simp only [mainParameters, List.forall_mem_cons, List.not_mem_nil, false_imp_iff, implies_true,
    and_true]
  refine ⟨hint _ _ _ _ _ (by simp; omega), ?_⟩
  refine ⟨addEnum_staysPrintable _ _ (by decide) (by decide) (by decide), ?_⟩
  refine ⟨addEnum_staysPrintable _ _ (by decide) (by decide) (by decide), ?_⟩
  refine ⟨hint _ _ _ _ _ (by decide), ?_⟩
  refine ⟨hint _ _ _ _ _ (by decide), ?_⟩
  refine ⟨hint _ _ _ _ _ (by decide), ?_⟩
  refine ⟨hint _ _ _ _ _ (by decide), ?_⟩
  refine ⟨addEnum_staysPrintable _ _ (by decide) (by decide) (by decide), ?_⟩
  refine ⟨hint _ _ _ _ _ (by decide), ?_⟩
  refine ⟨hint _ _ _ _ _ (by decide), ?_⟩
  refine ⟨?_, ?_⟩
  · -- `scene_illuminance` is read-only, so its value is the registered one
    rintro p ⟨written, rfl, rfl | ⟨hwritable, _⟩⟩
    · exact ⟨by decide, by decide⟩
    · contradiction
  refine ⟨addEnum_staysPrintable _ _ (by decide) (by decide) (by decide), ?_⟩
  exact ⟨hint _ _ _ _ _ (by decide), hint _ _ _ _ _ (by decide), hint _ _ _ _ _ (by decide)⟩

/-! ## Loading what was saved -/

section Restore

variable {lib : JsonLibrary}

/-- A printable value is converted back to itself. -/
theorem convertValue_restores (hstrings : lib.ConvertsStrings) (hints : lib.ConvertsInt64)
    {current p : Parameter} (hindex : p.value.index = current.value.index)
    (hprintable : p.value.Printable) :
    CommandHandler.convertValue lib current.value (paramValueToJson p).reread = .ok p.value := by
  unfold paramValueToJson
  cases hvalue : p.value with
  | integer v =>
      rw [hvalue] at hindex hprintable
      obtain ⟨old, hold⟩ : ∃ old, current.value = .integer old := by
        cases hcurrent : current.value with
        | integer old => exact ⟨old, rfl⟩
        | float old => simp [hcurrent, ParamValue.index] at hindex
        | enum old => simp [hcurrent, ParamValue.index] at hindex
      have hget : lib.getInt64 (Json.integer v).reread = .ok v := by
        rw [Json.reread_integer]
        split
        next hnonneg =>
          have hlt := hprintable.2
          rw [hints.getInt64_unsigned _ (by omega), Int.toNat_of_nonneg hnonneg]
        next => exact hints.getInt64_integer v hprintable
      rw [hold, CommandHandler.convertValue, hget]
      rfl
  | float v =>
      rw [hvalue] at hprintable
      contradiction
  | enum v =>
      rw [hvalue] at hindex
      obtain ⟨old, hold⟩ : ∃ old, current.value = .enum old := by
        cases hcurrent : current.value with
        | integer old => simp [hcurrent, ParamValue.index] at hindex
        | float old => simp [hcurrent, ParamValue.index] at hindex
        | enum old => exact ⟨old, rfl⟩
      rw [hold, CommandHandler.convertValue, Json.reread_string, hstrings.getString_string]
      rfl

/-- Loading the saved value over the registered one restores the parameter: a
value that is refused is the registered one. -/
theorem loadCameraEntry_restores (hstrings : lib.ConvertsStrings) (hints : lib.ConvertsInt64)
    {m : ParameterManager} {name : Bytes} {p₀ p : Parameter} (hrewritten : Rewritten p₀ p)
    (hprintable : p.value.Printable) (hget : m.get name = some p₀) :
    ∃ next, loadCameraEntry lib m name (paramValueToJson p).reread = .ok next ∧
      next.get name = some p ∧ ∀ other, other ≠ name → next.get other = m.get other := by
  have hconvert := convertValue_restores hstrings hints hrewritten.index_eq hprintable
  unfold loadCameraEntry
  rw [hget]
  dsimp only
  rw [hconvert]
  refine ⟨_, rfl, ?_⟩
  obtain ⟨value, rfl, hvalue⟩ := hrewritten
  dsimp only
  cases hset : m.setValue name value with
  | ok next =>
      obtain ⟨current, hcurrent, _, _, rfl⟩ := ParameterManager.setValue_ok hset
      obtain rfl : p₀ = current := Option.some.inj (hget.symm.trans hcurrent)
      refine ⟨?_, ?_⟩
      · rw [ParameterManager.get_store hget, if_pos rfl]
      · intro other hne
        rw [ParameterManager.get_store hget, if_neg hne]
  | error err =>
      refine ⟨?_, fun _ _ => rfl⟩
      rcases hvalue with hsame | ⟨hwritable, hadmits⟩
      · rw [hget, hsame]
      · rw [ParameterManager.setValue_of_admits hget hwritable hadmits] at hset
        contradiction

/-- The loop restores the parameters that its entries name. -/
theorem loadCameraEntries_restores (hstrings : lib.ConvertsStrings) (hints : lib.ConvertsInt64)
    {registered saved : ParameterManager} (hrewritten : RewrittenAll registered saved)
    (hprintable : ∀ name p, saved.get name = some p → p.value.Printable)
    {items : List (Bytes × Json)} (hkeys : (items.map Prod.fst).Nodup)
    (hitems : ∀ item ∈ items,
      ∃ p, saved.get item.1 = some p ∧ item.2 = (paramValueToJson p).reread)
    {m : ParameterManager} (hm : ∀ item ∈ items, m.get item.1 = registered.get item.1)
    (name : Bytes) :
    (loadCameraEntries lib m items).get name =
      if name ∈ items.map Prod.fst then saved.get name else m.get name := by
  induction items generalizing m with
  | nil => rfl
  | cons item rest ih =>
      rcases item with ⟨key, value⟩
      rw [List.map_cons, List.nodup_cons] at hkeys
      rw [List.forall_mem_cons] at hitems hm
      obtain ⟨⟨p, hsaved, rfl⟩, hrestItems⟩ := hitems
      obtain ⟨p₀, hregistered, hparameter⟩ := hrewritten.of_current hsaved
      obtain ⟨next, hentry, hrestored, hothers⟩ := loadCameraEntry_restores hstrings hints
        hparameter (hprintable key p hsaved) (hm.1.trans hregistered)
      have hrest : ∀ item ∈ rest, next.get item.1 = registered.get item.1 := by
        intro item hitem
        have hne : item.1 ≠ key := by
          intro heq
          exact hkeys.1 (heq ▸ List.mem_map.mpr ⟨item, hitem, rfl⟩)
        rw [hothers _ hne]
        exact hm.2 item hitem
      rw [loadCameraEntries, hentry]
      dsimp only
      rw [ih hkeys.2 hrestItems hrest]
      by_cases hname : name = key
      · subst hname
        rw [if_neg hkeys.1, if_pos (by simp), hrestored, hsaved]
      · rw [hothers name hname]
        simp only [List.map_cons, List.mem_cons, hname, false_or]

end Restore

/-! ## The saved object -/

section Saved

variable {m : ParameterManager}

/-- What is saved, name by name. -/
def savedMembers (m : ParameterManager) : List (Bytes × Json) :=
  m.all.map fun p => (p.name, paramValueToJson p)

theorem cameraSettingJson_eq (m : ParameterManager) : cameraSettingJson m =
    (savedMembers m).foldl (fun j kv => j.set kv.1 kv.2) Json.emptyObject := by
  rw [cameraSettingJson, savedMembers, List.foldl_map]

theorem savedMembers_keys_nodup (hnames : ∀ name p, m.get name = some p → p.name = name) :
    ((savedMembers m).map Prod.fst).Nodup := by
  have hkeys : (savedMembers m).map Prod.fst = m.params.keys := by
    rw [savedMembers, ParameterManager.all, List.map_map, List.map_map]
    apply List.map_congr_left
    rintro ⟨name, p⟩ hentry
    exact hnames name p (AList.mem_lookup_iff.mpr hentry)
  rw [hkeys]
  exact m.params.keys_nodup

/-- The members of the saved object are exactly the saved values. -/
theorem cameraSettingJson_members (hnames : ∀ name p, m.get name = some p → p.name = name) :
    ∃ members, cameraSettingJson m = .object members ∧ Json.SortedMembers members ∧
      ∀ name value, (name, value) ∈ members ↔
        ∃ p, m.get name = some p ∧ value = paramValueToJson p := by
  have hkeys := savedMembers_keys_nodup hnames
  obtain ⟨members, hfilled, hsorted⟩ :=
    @Json.foldl_set_sorted [] (savedMembers m) List.Pairwise.nil
  rw [← Json.emptyObject, ← cameraSettingJson_eq] at hfilled
  have hlookup : ∀ name, Json.findMember name members = (cameraSettingJson m).lookup name := by
    intro name
    rw [hfilled, Json.lookup]
  refine ⟨members, hfilled, hsorted, ?_⟩
  intro name value
  constructor
  · intro hmem
    have hfound := Json.findMember_of_mem hsorted.keys_nodup hmem
    rw [hlookup, cameraSettingJson_eq] at hfound
    -- a name that was not saved is not found in the object
    have hsaved : name ∈ (savedMembers m).map Prod.fst := by
      by_contra habsent
      rw [Json.lookup_foldl_set_of_notMem habsent] at hfound
      contradiction
    obtain ⟨saved, hin, rfl⟩ := List.mem_map.mp hsaved
    rw [Json.lookup_foldl_set hkeys hin, Option.some.injEq] at hfound
    obtain ⟨p, hp, rfl⟩ := List.mem_map.mp hin
    obtain ⟨stored, hget⟩ := ParameterManager.mem_all.mp hp
    refine ⟨p, ?_, hfound.symm⟩
    rw [hnames stored p hget]
    exact hget
  · rintro ⟨p, hget, rfl⟩
    have hin : (name, paramValueToJson p) ∈ savedMembers m :=
      List.mem_map.mpr ⟨p, ParameterManager.mem_all.mpr ⟨name, hget⟩, by rw [hnames name p hget]⟩
    apply Json.mem_of_findMember
    rw [hlookup, cameraSettingJson_eq]
    exact Json.lookup_foldl_set hkeys hin _

end Saved

theorem name_of_get_registerParameters {cfg : Config} {name : Bytes} {p : Parameter}
    (hget : (registerParameters {} cfg).get name = some p) : p.name = name := by
  rw [registerParameters, get_foldl_registerParameter (mainParameters_names_nodup cfg)] at hget
  cases hfind : (mainParameters cfg).find? fun p => p.name = name with
  | none =>
      rw [hfind] at hget
      contradiction
  | some q =>
      rw [hfind, Option.some_or, Option.some.injEq] at hget
      subst q
      simpa using List.find?_some hfind

theorem mainParameters_name_utf8 (cfg : Config) :
    ∀ p ∈ mainParameters cfg, validUtf8 p.name = true := by
  have hnames : ∀ name ∈ (mainParameters cfg).map Parameter.name, validUtf8 name = true := by
    have hsame : (mainParameters cfg).map Parameter.name =
        (mainParameters {}).map Parameter.name := rfl
    rw [hsame]
    decide
  exact fun p hp => hnames p.name (List.mem_map_of_mem hp)

theorem paramValueToJson_utf8 {p : Parameter} (hprintable : p.value.Printable) :
    (paramValueToJson p).utf8 = true := by
  unfold paramValueToJson
  cases hvalue : p.value with
  | integer v => rfl
  | float v => rfl
  | enum v =>
      rw [hvalue] at hprintable
      rw [Json.utf8_string]
      exact hprintable

/-! ## What a saved file restores -/

section Restored

variable {cfg : Config} {saved : ParameterManager}

theorem RewrittenAll.name_eq (hrewritten : RewrittenAll (registerParameters {} cfg) saved)
    {name : Bytes} {p : Parameter} (hget : saved.get name = some p) : p.name = name := by
  obtain ⟨p₀, hregistered, value, rfl, -⟩ := hrewritten.of_current hget
  exact name_of_get_registerParameters (p := p₀) hregistered

theorem RewrittenAll.printable (hrewritten : RewrittenAll (registerParameters {} cfg) saved)
    (hlow : 1 ≤ cfg.capture.fps) (hhigh : cfg.capture.fps ≤ 240) {name : Bytes} {p : Parameter}
    (hget : saved.get name = some p) : p.value.Printable := by
  obtain ⟨p₀, hregistered, hparameter⟩ := hrewritten.of_current hget
  exact mainParameters_staysPrintable hlow hhigh p₀ (mem_of_get_registerParameters hregistered) p
    hparameter

theorem RewrittenAll.name_utf8 (hrewritten : RewrittenAll (registerParameters {} cfg) saved)
    {name : Bytes} {p : Parameter} (hget : saved.get name = some p) : validUtf8 name = true := by
  obtain ⟨p₀, hregistered, -⟩ := hrewritten.of_current hget
  rw [← name_of_get_registerParameters hregistered]
  exact mainParameters_name_utf8 cfg p₀ (mem_of_get_registerParameters hregistered)

/-- A name that is registered is saved. -/
theorem RewrittenAll.get_eq_none {registered : ParameterManager}
    (hrewritten : RewrittenAll registered saved) {name : Bytes} (hnone : saved.get name = none) :
    registered.get name = none := by
  by_contra hsome
  obtain ⟨p₀, hregistered⟩ := Option.ne_none_iff_exists'.mp hsome
  obtain ⟨p, hget, -⟩ := hrewritten.of_registered hregistered
  exact Option.some_ne_none p (hget.symm.trans hnone)

/-- Loading over the registered parameters what was saved of a rewriting gives that
rewriting. -/
theorem RewrittenAll.restored {lib : JsonLibrary} (hstrings : lib.ConvertsStrings)
    (hints : lib.ConvertsInt64) {dump : Json → Except Bytes Bytes}
    (hdump : ∀ j : Json, j.utf8 = true → ∃ text, dump j = .ok text)
    (hlow : 1 ≤ cfg.capture.fps) (hhigh : cfg.capture.fps ≤ 240)
    (hrewritten : RewrittenAll (registerParameters {} cfg) saved)
    (hprints : JsonLibrary.PrintsBack dump lib.parseStream (cameraSettingJson saved))
    (name : Bytes) :
    (loadCameraSetting lib (some (saveCameraSetting dump saved))
      (registerParameters {} cfg)).get name = saved.get name := by
  have hnames : ∀ name p, saved.get name = some p → p.name = name :=
    fun _ _ => hrewritten.name_eq
  have hprintable : ∀ name p, saved.get name = some p → p.value.Printable :=
    fun _ _ => hrewritten.printable hlow hhigh
  obtain ⟨members, hobject, hsorted, hmembers⟩ := cameraSettingJson_members hnames
  have hutf8 : (cameraSettingJson saved).utf8 = true := by
    rw [hobject, Json.utf8_object]
    rintro ⟨key, value⟩ hmem
    obtain ⟨p, hget, rfl⟩ := (hmembers key value).mp hmem
    exact ⟨hrewritten.name_utf8 hget, paramValueToJson_utf8 (hprintable key p hget)⟩
  obtain ⟨text, htext⟩ := hdump _ hutf8
  have hfile : saveCameraSetting dump saved = text := by
    rw [saveCameraSetting, htext]
  rw [hfile, loadCameraSetting, hprints text htext, hobject, Json.reread_object]
  dsimp only [jsonItems]
  have hkeys : (members.map fun m => (m.1, m.2.reread)).map Prod.fst = members.map Prod.fst := by
    rw [List.map_map]
    rfl
  have hitems : ∀ item ∈ members.map fun m => (m.1, m.2.reread),
      ∃ p, saved.get item.1 = some p ∧ item.2 = (paramValueToJson p).reread := by
    intro item hitem
    obtain ⟨⟨key, value⟩, hmem, rfl⟩ := List.mem_map.mp hitem
    obtain ⟨p, hget, rfl⟩ := (hmembers key value).mp hmem
    exact ⟨p, hget, rfl⟩
  rw [loadCameraEntries_restores hstrings hints hrewritten hprintable
    (hkeys ▸ hsorted.keys_nodup) hitems (fun _ _ => rfl), hkeys]
  split
  next => rfl
  next habsent =>
    have hnone : saved.get name = none := by
      by_contra hsome
      obtain ⟨p, hget⟩ := Option.ne_none_iff_exists'.mp hsome
      have hmem := (hmembers name (paramValueToJson p)).mpr ⟨p, hget, rfl⟩
      exact habsent (List.mem_map.mpr ⟨_, hmem, rfl⟩)
    rw [hnone, hrewritten.get_eq_none hnone]

end Restored

/-- Saving the parameters in any state that requests and loads have led to, and
loading them at the next start, restores every parameter. -/
theorem cameraSetting_roundTrip {lib : JsonLibrary} (hstrings : lib.ConvertsStrings)
    (hints : lib.ConvertsInt64) {dump : Json → Except Bytes Bytes}
    (hdump : ∀ j : Json, j.utf8 = true → ∃ text, dump j = .ok text) {configDir : Bytes}
    {file : Option Bytes} {cfg : Config} (hload : ConfigLoader.load lib configDir file = (cfg, []))
    {s : Service} (hparams : s.params = registerParameters {} cfg) (steps : List SettingStep)
    (hprints : JsonLibrary.PrintsBack dump lib.parseStream
      (cameraSettingJson (s.settingSteps lib steps).params)) (name : Bytes) :
    (loadCameraSetting lib (some (saveCameraSetting dump (s.settingSteps lib steps).params))
      (registerParameters {} cfg)).get name = (s.settingSteps lib steps).params.get name := by
  have hrewritten : RewrittenAll (registerParameters {} cfg) (s.settingSteps lib steps).params := by
    apply rewrittenAll_settingSteps
    rw [hparams]
    exact RewrittenAll.refl _
  obtain ⟨hlow, hhigh⟩ := ConfigLoader.load_fps hload
  exact hrewritten.restored hstrings hints hdump hlow hhigh hprints name

/-- A library that reads a configuration and a settings file. -/
def settingsLibrary (config saved : Json) : JsonLibrary :=
  { JsonLibrary.reading config with
    parseStream := fun text =>
      if text = config.text then .ok config
      else if text = saved.text then .ok saved.reread
      else JsonLibrary.plain.parseStream text }

theorem settingsLibrary_printsBack {config saved : Json} (hother : saved.text ≠ config.text) :
    JsonLibrary.PrintsBack (settingsLibrary config saved).dump
      (settingsLibrary config saved).parseStream saved := by
  intro text hdump
  rw [@JsonLibrary.plain_dump_eq saved text hdump]
  exact (if_neg hother).trans (if_pos rfl)

/-- A service whose `fps` is registered outside its own bounds. -/
def fastService : Service where
  params := registerParameters {} (loadedConfig 240)
  pipeline := .create 8

def gainRequest : SettingStep :=
  .setParameter (Json.ofAssignments [(lit "name", .string (lit "gain")),
      (lit "value", .integer 70)])
    (lit "default")

/-- What is saved after the request. -/
def fastSaved : Json :=
  cameraSettingJson (fastService.settingSteps (.reading (configOfFps 240)) [gainRequest]).params

def fastLibrary : JsonLibrary := settingsLibrary (configOfFps 240) fastSaved

theorem fastLibrary_loads : ConfigLoader.load fastLibrary (lit "config")
    (some (configOfFps 240).text) = (loadedConfig 240, []) := by
  have hparse : ConfigLoader.loadJsonFile fastLibrary (lit "config" ++ lit "/config.json")
      (some (configOfFps 240).text) = ConfigLoader.loadJsonFile (.reading (configOfFps 240))
        (lit "config" ++ lit "/config.json") (some (configOfFps 240).text) := by
    simp [ConfigLoader.loadJsonFile, fastLibrary, settingsLibrary, JsonLibrary.reading]
  have herr : (ConfigLoader.load (.reading (configOfFps 240)) (lit "config")
      (some (configOfFps 240).text)).2 = [] := by decide
  rw [loadedConfig, ← herr]
  unfold ConfigLoader.load
  rw [hparse]
  rfl

theorem gain_restored :
    (loadCameraSetting fastLibrary
      (some (saveCameraSetting fastLibrary.dump
        (fastService.settingSteps fastLibrary [gainRequest]).params))
      (registerParameters {} (loadedConfig 240))).get (lit "gain") =
      (fastService.settingSteps fastLibrary [gainRequest]).params.get (lit "gain") := by
  have hstrings : fastLibrary.ConvertsStrings :=
    ⟨fun _ => rfl, JsonLibrary.plain_convertsStrings.getString_ok⟩
  have hints : fastLibrary.ConvertsInt64 := ⟨fun _ _ => rfl, fun _ _ => rfl⟩
  have hdump : ∀ j : Json, j.utf8 = true → ∃ text, fastLibrary.dump j = .ok text :=
    fun j hutf8 => ⟨j.text, JsonLibrary.plain_dump hutf8⟩
  refine cameraSetting_roundTrip hstrings hints hdump fastLibrary_loads rfl [gainRequest] ?_ _
  have hsaved : cameraSettingJson (fastService.settingSteps fastLibrary [gainRequest]).params =
      fastSaved := rfl
  rw [hsaved]
  exact settingsLibrary_printsBack (by decide +kernel)

end SimVision
