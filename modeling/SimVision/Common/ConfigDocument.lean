import Mathlib.Data.Finset.Card
import Mathlib.Data.Rat.Floor
import SimVision.Common.Config
import SimVision.Common.Types

/-! # What an accepted document says

Which documents are accepted, and the port, the image size, the frame rate and the
endpoints of an accepted configuration, read directly from its document. Only the
sign of the port and the number of endpoints are checked, so an accepted document may
leave an endpoint to its built-in default and name a port that is not one.
-/

namespace SimVision

open Foundation

namespace Foundation.JsonLibrary

/-- `static_cast<int>` of an integer of any width. -/
def castInt (i : Int) : Int := i.bmod (2 ^ 32)

theorem castInt_of_range {i : Int} (hlow : -2 ^ 31 ≤ i) (hhigh : i < 2 ^ 31) : castInt i = i := by
  unfold castInt
  exact Int.bmod_eq_of_le (by omega) (by omega)

theorem castInt_range (i : Int) : -2 ^ 31 ≤ castInt i ∧ castInt i < 2 ^ 31 := by
  unfold castInt
  have hlow := Int.le_bmod (x := i) (m := 2 ^ 32) (by decide)
  have hhigh := Int.bmod_lt (x := i) (m := 2 ^ 32) (by decide)
  omega

theorem truncate_eq_floor {q : ℚ} (hnonneg : 0 ≤ q) : truncate (.finite q) = ⌊q⌋ := by
  rw [truncate, Rat.floor_def', Int.tdiv_eq_ediv_of_nonneg (Rat.num_nonneg.mpr hnonneg)]

/-- The documented behaviour of `get<int>`: numbers are converted by `static_cast`. -/
structure ConvertsInts (lib : JsonLibrary) : Prop where
  getInt_integer : ∀ i, lib.getInt (.integer i) = .ok (castInt i)
  getInt_unsigned : ∀ n : Nat, lib.getInt (.unsigned n) = .ok (castInt n)
  getInt_float : ∀ q : ℚ, 0 ≤ q → q < 2 ^ 31 →
    lib.getInt (.float (.finite q)) = .ok (truncate (.finite q))
  getInt_range : ∀ j i, lib.getInt j = .ok i → -2 ^ 31 ≤ i ∧ i < 2 ^ 31

/-- The library that reads one text, with conversions to `int` that wrap. -/
def casting (j : Json) : JsonLibrary :=
  { reading j with getInt := convertNumber castInt fun d => castInt (truncate d) }

theorem casting_convertsInts (j : Json) : (casting j).ConvertsInts where
  getInt_integer := fun _ => rfl
  getInt_unsigned := fun _ => rfl
  getInt_float := by
    intro q hnonneg hlt
    change Except.ok (castInt (truncate (.finite q))) = _
    have hfloor := Int.floor_nonneg.mpr hnonneg
    have hbound : ⌊q⌋ < 2 ^ 31 := Int.floor_lt.mpr (by exact_mod_cast hlt)
    rw [truncate_eq_floor hnonneg, castInt_of_range (by omega) hbound]
  getInt_range := by
    intro value i hget
    cases value with
    | integer n =>
        rw [← Except.ok.inj hget]
        exact castInt_range n
    | unsigned n =>
        rw [← Except.ok.inj hget]
        exact castInt_range n
    | float d =>
        rw [← Except.ok.inj hget]
        exact castInt_range _
    | null => contradiction
    | boolean b => contradiction
    | string s => contradiction
    | array elements => contradiction
    | object members => contradiction

end Foundation.JsonLibrary

namespace ConfigLoader

/-! ## The document of a configuration -/

/-- A field as it is converted, or the default of a field that is absent. -/
def fieldOr {T : Type} (convert : Json → Except Bytes T) (j : Json) (key : Bytes)
    (default : T) : T :=
  match j.lookup key with
  | none => default
  | some value =>
      match convert value with
      | .ok converted => converted
      | .error _ => default

/-- The members of `zmq.endpoints`. -/
def endpointsField (j : Json) : Json := (j.field (lit "zmq")).field (lit "endpoints")

/-- The settings that the checks are about. -/
structure Settings where
  port : Int
  imageWidth : Int
  imageHeight : Int
  fps : Int
  endpoints : Bytes → Prop

/-- A configuration has the settings. -/
def Has (settings : Settings) (cfg : Config) : Prop :=
  cfg.admin.port = settings.port ∧ cfg.capture.imageWidth = settings.imageWidth ∧
    cfg.capture.imageHeight = settings.imageHeight ∧ cfg.capture.fps = settings.fps ∧
    ∀ key, key ∈ cfg.zmq.endpoints ↔ settings.endpoints key

/-- The settings that a document gives, with the defaults of the others. -/
def documentSettings (lib : JsonLibrary) (j : Json) : Settings where
  port := fieldOr lib.getInt (j.field (lit "admin_server")) (lit "port") 8443
  imageWidth := fieldOr lib.getInt (j.field (lit "capture")) (lit "image_width") 1280
  imageHeight := fieldOr lib.getInt (j.field (lit "capture")) (lit "image_height") 720
  fps := fieldOr lib.getInt (j.field (lit "capture")) (lit "fps") 15
  endpoints := fun key => (endpointsField j).contains key = true

/-! ## The documents that are accepted -/

/-- The type that a member is converted to. -/
inductive MemberType where
  | string
  | int
  | bool

/-- A value of which the conversion to the type does not throw. -/
def MemberType.Converts (lib : JsonLibrary) : MemberType → Json → Prop
  | .string, value => ∃ s, lib.getString value = .ok s
  | .int, value => ∃ i, lib.getInt value = .ok i
  | .bool, value => ∃ b, lib.getBool value = .ok b

/-- The members of the list that the value has are converted. -/
def Converts (lib : JsonLibrary) (j : Json) (members : List (Bytes × MemberType)) : Prop :=
  ∀ m ∈ members, ∀ value, j.lookup m.1 = some value → m.2.Converts lib value

/-- The members that are read of `admin_server`. -/
def adminMembers : List (Bytes × MemberType) :=
  [(lit "host", .string), (lit "port", .int), (lit "cert_path", .string),
    (lit "key_path", .string), (lit "worker_threads", .int), (lit "server_id", .string)]

def captureMembers : List (Bytes × MemberType) :=
  [(lit "fps", .int), (lit "data_source_dir", .string), (lit "stereo_image_dir", .string),
    (lit "image_width", .int), (lit "image_height", .int), (lit "image_channels", .int)]

def zmqMembers : List (Bytes × MemberType) :=
  [(lit "transport", .string), (lit "hwm", .int), (lit "immediate", .bool),
    (lit "linger_ms", .int), (lit "pub_id", .string)]

def spscMembers : List (Bytes × MemberType) :=
  [(lit "queue_size", .int), (lit "drop_policy", .string), (lit "cv_timeout_ms", .int)]

/-- The values of `endpoints` over which the loop does not throw. -/
def EndpointsConvert (lib : JsonLibrary) : Json → Prop
  | .object members => ∀ m ∈ members, MemberType.string.Converts lib m.2
  | .null => True
  | .array [] => True
  | _ => False

/-- At least three different names. -/
def ThreeNames (names : Bytes → Prop) : Prop :=
  ∃ a, names a ∧ ∃ b, names b ∧ ∃ c, names c ∧ a ≠ b ∧ a ≠ c ∧ b ≠ c

/-- What a document has to be for `load` not to reject it, in the order of the checks. -/
structure Acceptable (lib : JsonLibrary) (j : Json) : Prop where
  version : Converts lib j [(lit "version", .int)]
  admin : Converts lib (j.field (lit "admin_server")) adminMembers
  named : j.contains (lit "admin_server") = true
  port : 0 < (documentSettings lib j).port
  capture : Converts lib (j.field (lit "capture")) captureMembers
  fps : 1 ≤ (documentSettings lib j).fps ∧ (documentSettings lib j).fps ≤ 240
  zmq : Converts lib (j.field (lit "zmq")) zmqMembers
  strings : ∃ members, endpointsField j = .object members ∧
    ∀ m ∈ members, MemberType.string.Converts lib m.2
  three : ThreeNames (documentSettings lib j).endpoints
  spsc : Converts lib (j.field (lit "spsc")) spscMembers
  logLevel : Converts lib j [(lit "log_level", .string)]

variable {lib : JsonLibrary} {settings : Settings}

theorem converts_cons {j : Json} {key : Bytes} {type : MemberType}
    {rest : List (Bytes × MemberType)} :
    Converts lib j ((key, type) :: rest) ↔
      (∀ value, j.lookup key = some value → type.Converts lib value) ∧ Converts lib j rest :=
  List.forall_mem_cons

theorem converts_nil {j : Json} : Converts lib j [] ↔ True :=
  iff_true_intro fun _ hmem => absurd hmem List.not_mem_nil

theorem converts_null (members : List (Bytes × MemberType)) : Converts lib .null members :=
  fun _ _ _ hlookup => by contradiction

theorem field_of_absent {j : Json} {key : Bytes} (habsent : ¬ j.contains key = true) :
    j.field key = .null := by
  rw [Json.contains, Bool.not_eq_true, Option.isSome_eq_false_iff, Option.isNone_iff_eq_none]
    at habsent
  rw [Json.field, habsent]
  rfl

/-- A field is left alone, or converted and assigned. -/
theorem optField_cases {T : Type} (convert : Json → Except Bytes T) (j : Json) (key : Bytes)
    (assign : T → Config → Config) :
    (j.lookup key = none ∧ optField convert j key assign = pure ()) ∨
      ∃ value, j.lookup key = some value ∧ optField convert j key assign =
        (Effect.ofExcept Exit.thrown (convert value) >>= fun v => modify (assign v)) := by
  unfold optField
  cases hlookup : j.lookup key with
  | none =>
      rw [if_neg (by simp [Json.contains, hlookup])]
      exact .inl ⟨rfl, rfl⟩
  | some value =>
      rw [if_pos (by simp [Json.contains, hlookup]), Json.field, hlookup, Option.getD_some]
      exact .inr ⟨value, rfl, rfl⟩

/-- A field that is none of the settings. -/
theorem optField_other {T : Type} (convert : Json → Except Bytes T) (j : Json) (key : Bytes)
    {assign : T → Config → Config}
    (hassign : ∀ value cfg, Has settings cfg → Has settings (assign value cfg)) :
    Effect.Returns (Has settings)
      (∀ value, j.lookup key = some value → ∃ v, convert value = .ok v)
      (optField convert j key assign) (Has settings) := by
  obtain ⟨hnone, hskip⟩ | ⟨value, hsome, hread⟩ := optField_cases convert j key assign
  · rw [hskip]
    refine (Effect.Returns.pure ()).of_iff (iff_of_true trivial fun value hvalue => ?_)
    rw [hnone] at hvalue
    contradiction
  · rw [hread]
    refine (Effect.Returns.bind _ (.ofExcept _ _) fun v => .modify (hassign v)).of_iff ?_
    rw [hsome, and_true]
    exact ⟨fun hconverts _ hvalue => Option.some.inj hvalue ▸ hconverts, fun hall => hall _ rfl⟩

/-- A field that is one of the settings. -/
theorem optField_setting {T : Type} (convert : Json → Except Bytes T) (j : Json) (key : Bytes)
    {assign : T → Config → Config} (after : T → Settings) {before : T}
    (hbefore : after before = settings)
    (hassign : ∀ value cfg, Has settings cfg → Has (after value) (assign value cfg)) :
    Effect.Returns (Has settings)
      (∀ value, j.lookup key = some value → ∃ v, convert value = .ok v)
      (optField convert j key assign) (Has (after (fieldOr convert j key before))) := by
  unfold fieldOr
  obtain ⟨hnone, hskip⟩ | ⟨value, hsome, hread⟩ := optField_cases convert j key assign
  · rw [hskip, hnone, hbefore]
    exact (Effect.Returns.pure ()).of_iff (iff_of_true trivial fun _ _ => by contradiction)
  · rw [hread, hsome]
    cases hconvert : convert value with
    | ok converted =>
        simp only [hconvert]
        refine (Effect.Returns.modify (hassign converted)).of_iff (iff_of_true trivial ?_)
        intro _ hvalue
        exact ⟨converted, Option.some.inj hvalue ▸ hconvert⟩
    | error what =>
        refine (Effect.Returns.throw _).of_iff (iff_of_false not_false fun hall => ?_)
        obtain ⟨v, hv⟩ := hall value rfl
        rw [hconvert] at hv
        contradiction

/-- A section is read where it is there; one that is not is as an empty one. -/
theorem section_returns {pre post : Config → Prop} {j : Json} {key : Bytes}
    (condition : Json → Prop) {program : LoadM Unit} (hnull : condition .null)
    (hread : Effect.Returns pre (condition (j.field key)) program post)
    (hskip : j.field key = .null → ∀ cfg, pre cfg → post cfg) :
    Effect.Returns pre (condition (j.field key))
      (if j.contains key then program else pure ()) post := by
  by_cases hcontains : j.contains key = true
  · rwa [if_pos hcontains]
  · rw [if_neg hcontains]
    have habsent := field_of_absent hcontains
    rw [habsent]
    exact ((Effect.Returns.pure ()).mono (hskip habsent)).of_iff (iff_of_true trivial hnull)

/-- The loop over the members of `endpoints` adds their keys. -/
private theorem assignAll_returns (members : List (Bytes × Json)) {names : Bytes → Prop} :
    Effect.Returns (Has { settings with endpoints := names })
      (∀ m ∈ members, MemberType.string.Converts lib m.2)
      (loadEndpoints.assignAll lib members)
      (Has { settings with endpoints := fun key => names key ∨ ∃ m ∈ members, m.1 = key }) := by
  induction members generalizing names with
  | nil =>
      refine ((Effect.Returns.pure ()).mono ?_).of_iff (iff_of_true trivial (by simp))
      intro cfg ⟨hport, hwidth, hheight, hfps, hkeys⟩
      refine ⟨hport, hwidth, hheight, hfps, fun key => ?_⟩
      rw [hkeys key]
      simp
  | cons member rest ih =>
      rcases member with ⟨key, value⟩
      rw [List.forall_mem_cons]
      refine .bind _ (.ofExcept _ _) fun v => ?_
      refine Effect.Returns.of_iff (.bind (Has { settings with
        endpoints := fun k => names k ∨ k = key }) (.modify fun cfg hcfg => ?_) fun _ =>
        ih.mono ?_) (iff_of_eq (true_and _))
      · obtain ⟨hport, hwidth, hheight, hfps, hkeys⟩ := hcfg
        refine ⟨hport, hwidth, hheight, hfps, fun k => ?_⟩
        rw [AList.mem_insert, hkeys k]
        exact or_comm
      · intro cfg ⟨hport, hwidth, hheight, hfps, hkeys⟩
        refine ⟨hport, hwidth, hheight, hfps, fun k => ?_⟩
        rw [hkeys k]
        simp only [List.exists_mem_cons_iff, or_assoc, eq_comm]

theorem contains_object {members : List (Bytes × Json)} {key : Bytes} :
    (Json.object members).contains key = true ↔ ∃ m ∈ members, m.1 = key := by
  simp [Json.contains, Json.lookup, Json.findMember, Option.isSome_map, List.find?_isSome]

/-- Loading `endpoints` adds the keys of the object. -/
private theorem loadEndpoints_returns (endpoints : Json)
    (hnone : settings.endpoints = fun _ => False) :
    Effect.Returns (Has settings) (EndpointsConvert lib endpoints) (loadEndpoints lib endpoints)
      (Has { settings with endpoints := fun key => endpoints.contains key = true }) := by
  have hempty : Effect.Returns (Has settings) True (pure () : LoadM Unit)
      (Has { settings with endpoints := fun _ => false = true }) := by
    refine (Effect.Returns.pure ()).mono ?_
    intro cfg ⟨hport, hwidth, hheight, hfps, hkeys⟩
    refine ⟨hport, hwidth, hheight, hfps, fun key => ?_⟩
    rw [hkeys key, hnone]
    simp
  have hkeyless : ∀ value, Effect.Returns (Has settings) False (loadEndpoints.keyless lib value)
      (Has { settings with endpoints := fun _ => false = true }) := by
    intro value
    exact (Effect.Returns.bind _ (.ofExcept _ _) fun _ => .throw _).of_iff (iff_of_eq (and_false _))
  cases endpoints with
  | object members =>
      have hadds := @assignAll_returns lib settings members fun _ => False
      rw [← hnone] at hadds
      refine hadds.mono fun cfg ⟨hport, hwidth, hheight, hfps, hkeys⟩ => ?_
      refine ⟨hport, hwidth, hheight, hfps, fun key => ?_⟩
      have hkey := hkeys key
      dsimp only at hkey ⊢
      rw [contains_object, ← false_or (∃ m ∈ members, m.1 = key)]
      exact hkey
  | null => exact hempty
  | array elements =>
      cases elements with
      | nil => exact hempty
      | cons first rest => exact hkeyless first
  | boolean b => exact hkeyless (.boolean b)
  | integer i => exact hkeyless (.integer i)
  | unsigned n => exact hkeyless (.unsigned n)
  | float d => exact hkeyless (.float d)
  | string s => exact hkeyless (.string s)

theorem fieldOr_null {T : Type} (convert : Json → Except Bytes T) (key : Bytes) (default : T) :
    fieldOr convert .null key default = default := rfl

private theorem loadAdmin_returns (j : Json) :
    Effect.Returns (Has settings) (Converts lib (j.field (lit "admin_server")) adminMembers)
      (loadAdmin lib j) (Has { settings with
        port := fieldOr lib.getInt (j.field (lit "admin_server")) (lit "port")
          settings.port }) := by
  refine section_returns (Converts lib · adminMembers) (converts_null _) ?_ ?_
  · simp only [adminMembers, converts_cons, converts_nil, and_true]
    refine .bind _ (optField_other _ _ _ fun _ _ hcfg => hcfg) fun _ => ?_
    refine .bind _ (optField_setting _ _ _ (fun port => { settings with port := port }) rfl
      fun _ _ hcfg => ⟨rfl, hcfg.2⟩) fun _ => ?_
    refine .bind _ (optField_other _ _ _ fun _ _ hcfg => hcfg) fun _ => ?_
    refine .bind _ (optField_other _ _ _ fun _ _ hcfg => hcfg) fun _ => ?_
    refine .bind _ (optField_other _ _ _ fun _ _ hcfg => hcfg) fun _ => ?_
    exact optField_other _ _ _ fun _ _ hcfg => hcfg
  · intro habsent cfg hcfg
    rwa [habsent, fieldOr_null]

private theorem loadCapture_returns (j : Json) :
    Effect.Returns (Has settings) (Converts lib (j.field (lit "capture")) captureMembers)
      (loadCapture lib j) (Has { settings with
        fps := fieldOr lib.getInt (j.field (lit "capture")) (lit "fps") settings.fps
        imageWidth :=
          fieldOr lib.getInt (j.field (lit "capture")) (lit "image_width") settings.imageWidth
        imageHeight :=
          fieldOr lib.getInt (j.field (lit "capture")) (lit "image_height")
            settings.imageHeight }) := by
  refine section_returns (Converts lib · captureMembers) (converts_null _) ?_ ?_
  · simp only [captureMembers, converts_cons, converts_nil, and_true]
    refine .bind _ (optField_setting _ _ _ (fun fps => { settings with fps := fps }) rfl
      fun _ _ hcfg => ⟨hcfg.1, hcfg.2.1, hcfg.2.2.1, rfl, hcfg.2.2.2.2⟩) fun _ => ?_
    refine .bind _ (optField_other _ _ _ fun _ _ hcfg => hcfg) fun _ => ?_
    refine .bind _ (optField_other _ _ _ fun _ _ hcfg => hcfg) fun _ => ?_
    refine .bind _ (optField_setting _ _ _ (fun width => { settings with
      fps := fieldOr lib.getInt (j.field (lit "capture")) (lit "fps") settings.fps
      imageWidth := width }) rfl fun _ _ hcfg => ⟨hcfg.1, rfl, hcfg.2.2⟩) fun _ => ?_
    refine .bind _ (optField_setting _ _ _ (fun height => { settings with
      fps := fieldOr lib.getInt (j.field (lit "capture")) (lit "fps") settings.fps
      imageWidth :=
        fieldOr lib.getInt (j.field (lit "capture")) (lit "image_width") settings.imageWidth
      imageHeight := height }) rfl
      fun _ _ hcfg => ⟨hcfg.1, hcfg.2.1, rfl, hcfg.2.2.2⟩) fun _ => ?_
    exact optField_other _ _ _ fun _ _ hcfg => hcfg
  · intro habsent cfg hcfg
    rwa [habsent, fieldOr_null, fieldOr_null, fieldOr_null]

private theorem loadZmq_returns (j : Json) (hnone : settings.endpoints = fun _ => False) :
    Effect.Returns (Has settings)
      (Converts lib (j.field (lit "zmq")) zmqMembers ∧ EndpointsConvert lib (endpointsField j))
      (loadZmq lib j) (Has { settings with
        endpoints := fun key => (endpointsField j).contains key = true }) := by
  have hnothing : ∀ cfg, Has settings cfg →
      Has { settings with endpoints := fun key => Json.null.contains key = true } cfg := by
    intro cfg ⟨hport, hwidth, hheight, hfps, hkeys⟩
    refine ⟨hport, hwidth, hheight, hfps, fun key => ?_⟩
    rw [hkeys key, hnone]
    simp [Json.contains, Json.lookup]
  unfold endpointsField
  refine section_returns (fun z => Converts lib z zmqMembers ∧
    EndpointsConvert lib (z.field (lit "endpoints"))) ⟨converts_null _, trivial⟩ ?_ ?_
  · simp only [zmqMembers, converts_cons, converts_nil, and_assoc, true_and]
    refine .bind _ (optField_other _ _ _ fun _ _ hcfg => hcfg) fun _ => ?_
    refine .bind _ (optField_other _ _ _ fun _ _ hcfg => hcfg) fun _ => ?_
    refine .bind _ (optField_other _ _ _ fun _ _ hcfg => hcfg) fun _ => ?_
    refine .bind _ (optField_other _ _ _ fun _ _ hcfg => hcfg) fun _ => ?_
    refine .bind _ (optField_other _ _ _ fun _ _ hcfg => hcfg) fun _ => ?_
    refine section_returns (EndpointsConvert lib) trivial (loadEndpoints_returns _ hnone)
      fun habsent => ?_
    rw [habsent]
    exact hnothing
  · intro habsent
    rw [habsent]
    exact hnothing

private theorem loadSpsc_returns (j : Json) :
    Effect.Returns (Has settings) (Converts lib (j.field (lit "spsc")) spscMembers)
      (loadSpsc lib j) (Has settings) := by
  refine section_returns (Converts lib · spscMembers) (converts_null _) ?_ fun _ _ hcfg => hcfg
  simp only [spscMembers, converts_cons, converts_nil, and_true]
  refine .bind _ (optField_other _ _ _ fun _ _ hcfg => hcfg) fun _ => ?_
  refine .bind _ (optField_other _ _ _ fun _ _ hcfg => hcfg) fun _ => ?_
  exact optField_other _ _ _ fun _ _ hcfg => hcfg

private theorem checkAdmin_returns (j : Json) :
    Effect.Returns (Has settings) (j.contains (lit "admin_server") = true ∧ 0 < settings.port)
      (checkAdmin j) (Has settings) := by
  unfold checkAdmin
  by_cases hcontains : j.contains (lit "admin_server") = true
  · rw [if_pos hcontains]
    refine Effect.Returns.get_bind fun cfg hcfg => ?_
    refine (Effect.Returns.check.of_iff ?_).mono fun _ heq => heq ▸ hcfg
    rw [hcfg.1, and_iff_right hcontains, not_le]
  · rw [if_neg hcontains]
    exact (Effect.Returns.throw _).of_iff (iff_of_false not_false fun hboth => hcontains hboth.1)

private theorem checkFps_returns :
    Effect.Returns (Has settings) (1 ≤ settings.fps ∧ settings.fps ≤ 240) checkFps
      (Has settings) := by
  refine Effect.Returns.get_bind fun cfg hcfg => ?_
  refine (Effect.Returns.check.of_iff ?_).mono fun _ heq => heq ▸ hcfg
  rw [hcfg.2.2.2.1]
  omega

/-- The list of the names is long enough exactly when three of them differ. -/
theorem three_le_keys (endpoints : AList fun _ : Bytes => Bytes) :
    3 ≤ endpoints.keys.length ↔ ThreeNames (· ∈ endpoints) := by
  have hcard := List.toFinset_card_of_nodup (l := endpoints.keys) endpoints.nodupKeys
  rw [← hcard]
  refine Iff.trans Finset.two_lt_card ?_
  simp only [List.mem_toFinset]
  rfl

private theorem checkZmq_returns :
    Effect.Returns (Has settings) (ThreeNames settings.endpoints) checkZmq (Has settings) := by
  refine Effect.Returns.of_iff (.bind (Has settings) (.modify fun _ hcfg => hcfg)
    fun _ => Effect.Returns.get_bind fun cfg hcfg => ?_) (iff_of_eq (true_and _))
  refine (Effect.Returns.check.of_iff ?_).mono fun _ heq => heq ▸ hcfg
  rw [not_lt, three_le_keys, funext fun key => propext (hcfg.2.2.2.2 key)]

/-- An object is needed for there to be names. -/
theorem endpointsConvert_iff {endpoints : Json}
    (hthree : ThreeNames fun key => endpoints.contains key = true) :
    EndpointsConvert lib endpoints ↔ ∃ members, endpoints = .object members ∧
      ∀ m ∈ members, MemberType.string.Converts lib m.2 := by
  obtain ⟨a, hname, -⟩ := hthree
  cases endpoints with
  | object members =>
      refine ⟨fun hconvert => ⟨members, rfl, hconvert⟩, fun ⟨others, heq, hconvert⟩ => ?_⟩
      obtain rfl := Json.object.inj heq
      exact hconvert
  | null => contradiction
  | array elements => contradiction
  | boolean b => contradiction
  | integer i => contradiction
  | unsigned n => contradiction
  | float d => contradiction
  | string s => contradiction

private theorem loadFields_returns (j : Json) :
    Effect.Returns (Has ⟨8443, 1280, 720, 15, fun _ => False⟩) (Acceptable lib j)
      (loadFields lib j) (Has (documentSettings lib j)) := by
  refine Effect.Returns.of_iff (.bind _ (optField_other _ _ _ fun _ _ hcfg => hcfg) fun _ =>
    .bind _ (loadAdmin_returns j) fun _ => .bind _ (checkAdmin_returns j) fun _ =>
    .bind _ (loadCapture_returns j) fun _ => .bind _ checkFps_returns fun _ =>
    .bind _ (loadZmq_returns j rfl) fun _ => .bind _ checkZmq_returns fun _ =>
    .bind _ (loadSpsc_returns j) fun _ => .bind _ (.modify fun _ hcfg => hcfg) fun _ =>
    optField_other _ _ _ fun _ _ hcfg => hcfg) ?_
  constructor
  · intro ⟨hversion, hadmin, ⟨hnamed, hport⟩, hcapture, hfps, ⟨hzmq, hconvert⟩, hthree, hspsc,
      _, hlevel⟩
    exact {
      version := converts_cons.mpr ⟨hversion, converts_nil.mpr trivial⟩
      admin := hadmin
      named := hnamed
      port := hport
      capture := hcapture
      fps := hfps
      zmq := hzmq
      strings := (endpointsConvert_iff hthree).mp hconvert
      three := hthree
      spsc := hspsc
      logLevel := converts_cons.mpr ⟨hlevel, converts_nil.mpr trivial⟩ }
  · intro h
    exact ⟨(converts_cons.mp h.version).1, h.admin, ⟨h.named, h.port⟩, h.capture, h.fps,
      ⟨h.zmq, (endpointsConvert_iff h.three).mpr h.strings⟩, h.three, h.spsc, trivial,
      (converts_cons.mp h.logLevel).1⟩

/-- The documents that are accepted. -/
theorem load_accepts_iff {configDir : Bytes} {file : Option Bytes} {j : Json}
    (hparse : loadJsonFile lib (configDir ++ lit "/config.json") file = .ok j) :
    (∃ cfg, load lib configDir file = (cfg, [])) ↔ Acceptable lib j := by
  obtain ⟨hreturns, _⟩ := @loadFields_returns lib j {} ⟨rfl, rfl, rfl, rfl, fun key => by simp⟩
  rw [← hreturns]
  constructor
  · intro ⟨cfg, hload⟩
    obtain ⟨parsed, hparsed, hrun⟩ := load_accepted hload
    obtain rfl : parsed = j := Except.ok.inj (hparsed.symm.trans hparse)
    exact ⟨(), by rw [hrun]⟩
  · intro ⟨value, hvalue⟩
    refine ⟨(Effect.execute (loadFields lib j) {}).2, ?_⟩
    rw [load, hparse]
    rcases hrun : Effect.execute (loadFields lib j) {} with ⟨outcome, cfg⟩
    rw [hrun] at hvalue
    obtain rfl : outcome = .ok value := hvalue
    simp only [hrun]

/-- An accepted configuration has the settings of its document. -/
theorem load_settings {configDir : Bytes} {file : Option Bytes} {j : Json} {cfg : Config}
    (hparse : loadJsonFile lib (configDir ++ lit "/config.json") file = .ok j)
    (hload : load lib configDir file = (cfg, [])) : Has (documentSettings lib j) cfg := by
  obtain ⟨parsed, hparsed, hrun⟩ := load_accepted hload
  obtain rfl : parsed = j := Except.ok.inj (hparsed.symm.trans hparse)
  obtain ⟨_, hsettings⟩ :=
    @loadFields_returns lib parsed {} ⟨rfl, rfl, rfl, rfl, fun key => by simp⟩
  rw [hrun] at hsettings
  exact hsettings () rfl

end ConfigLoader
/-! ## What the later components make of the settings -/

/-- The name of a group in `zmq.endpoints`. -/
def endpointName : DataGroup → Bytes
  | .visual2D => lit "visual_2d"
  | .visual3D => lit "visual_3d"
  | .sensorData => lit "sensor_data"

/-- `endpoints_`, with the built-in endpoint of a group whose name is missing. -/
def DataPublisher.endpointOf (cfg : ZmqConfig) (group : DataGroup) : Bytes :=
  (cfg.endpoints.lookup (endpointName group)).getD
    (lit "ipc:///tmp/sim_vision_" ++ endpointName group)

/-- The port that `start` binds: `static_cast<uint16_t>`. -/
def AdminServer.boundPort (cfg : AdminServerConfig) : Int := cfg.port % 2 ^ 16

namespace ConfigLoader

/-- The member `port` as it is written. -/
def portField (j : Json) : Option Json := (j.field (lit "admin_server")).lookup (lit "port")

/-- A written number that is a port. -/
def IsPort : Json → Prop
  | .integer i => 1 ≤ i ∧ i ≤ 65535
  | .unsigned n => 1 ≤ n ∧ n ≤ 65535
  | .float (.finite q) => 1 ≤ q ∧ q ≤ 65535
  | _ => False

/-- What fail-fast loading promises: every group has its own endpoint, the one the publisher
takes, and the port is one, as written and as stored, the one the server binds. -/
structure FailFast (j : Json) (cfg : Config) : Prop where
  endpoints : ∀ group, endpointName group ∈ cfg.zmq.endpoints
  configured : ∀ group, cfg.zmq.endpoints.lookup (endpointName group) =
    some (DataPublisher.endpointOf cfg.zmq group)
  stored : 1 ≤ cfg.admin.port ∧ cfg.admin.port ≤ 65535
  bound : AdminServer.boundPort cfg.admin = cfg.admin.port
  written : ∀ value, portField j = some value → IsPort value

/-- No group that is named falls back to a built-in endpoint. -/
theorem endpoint_configured {cfg : ZmqConfig} {group : DataGroup}
    (hname : endpointName group ∈ cfg.endpoints) :
    cfg.endpoints.lookup (endpointName group) = some (DataPublisher.endpointOf cfg group) := by
  obtain ⟨endpoint, hendpoint⟩ := Option.isSome_iff_exists.mp (AList.lookup_isSome.mpr hname)
  rw [DataPublisher.endpointOf, hendpoint, Option.getD_some]

/-- A stored port in range is the one that is bound. -/
theorem boundPort_eq {cfg : AdminServerConfig} (hstored : 1 ≤ cfg.port ∧ cfg.port ≤ 65535) :
    AdminServer.boundPort cfg = cfg.port := by
  unfold AdminServer.boundPort
  omega

/-- A port is converted to a port. -/
theorem getInt_of_isPort {lib : JsonLibrary} (hlib : lib.ConvertsInts) {value : Json}
    (hport : IsPort value) : ∃ i, lib.getInt value = .ok i ∧ 1 ≤ i ∧ i ≤ 65535 := by
  cases value with
  | integer i =>
      obtain ⟨hlow, hhigh⟩ := hport
      refine ⟨i, ?_, hlow, hhigh⟩
      rw [hlib.getInt_integer, JsonLibrary.castInt_of_range (by omega) (by omega)]
  | unsigned n =>
      obtain ⟨hlow, hhigh⟩ := hport
      refine ⟨n, ?_, by omega, by omega⟩
      rw [hlib.getInt_unsigned, JsonLibrary.castInt_of_range (by omega) (by omega)]
  | float d =>
      cases d with
      | finite q =>
          obtain ⟨hlow, hhigh⟩ := hport
          have hnonneg : (0 : ℚ) ≤ q := le_trans zero_le_one hlow
          have hlt : q < 2 ^ 31 := lt_of_le_of_lt hhigh (by norm_num)
          refine ⟨_, hlib.getInt_float q hnonneg hlt, ?_⟩
          rw [JsonLibrary.truncate_eq_floor hnonneg]
          constructor
          · exact Int.le_floor.mpr (by exact_mod_cast hlow)
          · exact Int.lt_add_one_iff.mp (Int.floor_lt.mpr (by push_cast; linarith))
      | nan => contradiction
      | negInf => contradiction
      | posInf => contradiction
  | null => contradiction
  | boolean b => contradiction
  | string s => contradiction
  | array elements => contradiction
  | object members => contradiction

/-- A port that is written in range, or left out, is stored in range. -/
theorem stored_of_written (hlib : lib.ConvertsInts) {j : Json}
    (hwritten : ∀ value, portField j = some value → IsPort value) :
    1 ≤ (documentSettings lib j).port ∧ (documentSettings lib j).port ≤ 65535 := by
  unfold documentSettings fieldOr
  dsimp only
  cases hvalue : (j.field (lit "admin_server")).lookup (lit "port") with
  | none =>
      change (1 : Int) ≤ 8443 ∧ (8443 : Int) ≤ 65535
      decide
  | some value =>
      obtain ⟨i, hget, hrange⟩ := getInt_of_isPort hlib (hwritten value hvalue)
      simp only [hget]
      exact hrange

/-- For every document, loading is fail-fast if and only if the document is one that is
rejected, or it names the three endpoints and writes a port in range where it writes one. -/
theorem failFast_iff (hlib : lib.ConvertsInts) {configDir : Bytes} {file : Option Bytes} {j : Json}
    (hparse : loadJsonFile lib (configDir ++ lit "/config.json") file = .ok j) :
    (∀ cfg, load lib configDir file = (cfg, []) → FailFast j cfg) ↔
      (¬ Acceptable lib j ∨
        (∀ group, (endpointsField j).contains (endpointName group) = true) ∧
          ∀ value, portField j = some value → IsPort value) := by
  constructor
  · intro hfail
    by_cases haccept : Acceptable lib j
    · obtain ⟨cfg, hload⟩ := (load_accepts_iff hparse).mpr haccept
      obtain ⟨_, _, _, _, hnames⟩ := load_settings hparse hload
      have hcfg := hfail cfg hload
      exact .inr ⟨fun group => (hnames _).mp (hcfg.endpoints group), hcfg.written⟩
    · exact .inl haccept
  · intro hcondition cfg hload
    obtain ⟨hport, _, _, _, hkeys⟩ := load_settings hparse hload
    obtain hreject | ⟨hnames, hwritten⟩ := hcondition
    · exact absurd ((load_accepts_iff hparse).mp ⟨cfg, hload⟩) hreject
    · have hendpoints : ∀ group, endpointName group ∈ cfg.zmq.endpoints :=
        fun group => (hkeys _).mpr (hnames group)
      have hstored := stored_of_written hlib hwritten
      rw [← hport] at hstored
      exact ⟨hendpoints, fun group => endpoint_configured (hendpoints group), hstored,
        boundPort_eq hstored, hwritten⟩

/-- A document with a port and three endpoints. -/
def documentOf (port : Nat) (names : List String) : Json :=
  Json.ofAssignments
    [(lit "admin_server", Json.ofAssignments [(lit "port", .unsigned port)]),
      (lit "zmq", Json.ofAssignments [(lit "endpoints",
        Json.ofAssignments (names.map fun name => (lit name, .string (lit "ipc:///tmp/sv"))))])]

def defaultDocument : Json := documentOf 8443 ["visual_2d", "visual_3d", "sensor_data"]

theorem defaultDocument_failFast :
    (load (.casting defaultDocument) (lit "config") (some defaultDocument.text)).2 = [] ∧
      FailFast defaultDocument
        (load (.casting defaultDocument) (lit "config") (some defaultDocument.text)).1 := by
  have herr : (load (.casting defaultDocument) (lit "config")
      (some defaultDocument.text)).2 = [] := by decide +kernel
  have hparse : loadJsonFile (.casting defaultDocument) (lit "config" ++ lit "/config.json")
      (some defaultDocument.text) = .ok defaultDocument := by
    rw [loadJsonFile, JsonLibrary.casting, JsonLibrary.reading]
    simp
  refine ⟨herr, (failFast_iff (JsonLibrary.casting_convertsInts _) hparse).mpr (.inr ⟨?_, ?_⟩) _
    (Prod.ext rfl herr)⟩
  · intro group
    cases group <;> decide +kernel
  · intro value hvalue
    have hport : portField defaultDocument = some (.unsigned 8443) := by rfl
    rw [hport] at hvalue
    obtain rfl := Option.some.inj hvalue
    exact ⟨by decide, by decide⟩

/-- A misspelt endpoint, and a port that is not one. -/
def misnamedDocument : Json := documentOf (2 ^ 32 + 80) ["visual_2d", "visual_3d", "sensor"]

/-- The document is accepted, one group is left to its built-in endpoint, and the
port that is bound is not the one that is written. -/
theorem misnamedDocument_accepted :
    ¬ ∀ (lib : JsonLibrary), lib.ConvertsInts →
      ∀ (configDir : Bytes) (file : Option Bytes) (j : Json) (cfg : Config),
        loadJsonFile lib (configDir ++ lit "/config.json") file = .ok j →
        load lib configDir file = (cfg, []) → FailFast j cfg := by
  intro hclaim
  have herr : (load (.casting misnamedDocument) (lit "config")
      (some misnamedDocument.text)).2 = [] := by decide +kernel
  have hparse : loadJsonFile (.casting misnamedDocument) (lit "config" ++ lit "/config.json")
      (some misnamedDocument.text) = .ok misnamedDocument := by
    rw [loadJsonFile, JsonLibrary.casting, JsonLibrary.reading]
    simp
  have hmissing : lit "sensor_data" ∉ (load (.casting misnamedDocument) (lit "config")
      (some misnamedDocument.text)).1.zmq.endpoints := by decide +kernel
  exact hmissing ((hclaim _ (JsonLibrary.casting_convertsInts _) _ _ _ _ hparse
    (Prod.ext rfl herr)).endpoints .sensorData)

end ConfigLoader

end SimVision
