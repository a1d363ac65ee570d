import SimVision.Api.CommandHandler
import SimVision.Foundation.ByteSearch

/-! # The names of data types in requests

A name stands in an array, alone in a field, or in a channel command. The array
folds letter case and expands groups, the channel commands only fold, and the
single field does neither.
-/

namespace SimVision

open Foundation CommandHandler

/-! ## The places of a name -/

/-- A body with the name as the element of `data_types`. -/
def elementBody (s : Bytes) : Json := Json.ofAssignments [(lit "data_types", .array [.string s])]

/-- A body with the name as `data_type`. -/
def fieldBody (s : Bytes) : Json := Json.ofAssignments [(lit "data_type", .string s)]

def groupNames : List Bytes :=
  [lit "visual_2d", lit "visual_geometric_2d", lit "visual_3d", lit "visual_geometric_3d",
    lit "sensor_data", lit "sensor_tracking"]

def typeNames : List Bytes := kTable.map Entry.name

variable {s : Bytes} {lib : JsonLibrary}

theorem expandTypes_elementBody (s : Bytes) : expandTypes (elementBody s) = expandName s := by
  change [Json.string s].flatMap _ = _
  rw [List.flatMap_singleton]

theorem expandTypes_fieldBody (s : Bytes) :
    expandTypes (fieldBody s) = (dataTypeFromString s).toList := rfl

theorem channelOf_fieldBody (hlib : lib.ConvertsStrings) (s : Bytes) :
    channelOf lib (fieldBody s) = .ok (dataTypeFromString (toLower s)) := by
  have hlookup : (fieldBody s).lookup (lit "data_type") = some (.string s) := rfl
  rw [channelOf, hlookup]
  dsimp only
  rw [hlib.getString_string]
  rfl

/-! ## What the names stand for -/

theorem dataTypeFromString_isSome : (dataTypeFromString s).isSome ↔ s ∈ typeNames := by
  unfold dataTypeFromString typeNames
  rw [Option.isSome_map, List.find?_isSome, List.mem_map]
  constructor
  · rintro ⟨e, he, hname⟩
    exact ⟨e, he, (of_decide_eq_true hname).symm⟩
  · rintro ⟨e, he, hname⟩
    exact ⟨e, he, decide_eq_true hname.symm⟩

/-- Type names have no capitals. -/
theorem toLower_of_mem_typeNames (hname : s ∈ typeNames) : toLower s = s := by
  have hlower : ∀ name ∈ typeNames, toLower name = name := by decide
  exact hlower s hname

/-- A name that is no group name stands for at most one type in an array as well. -/
theorem expandName_of_notMem (hgroup : toLower s ∉ groupNames) :
    expandName s = (dataTypeFromString (toLower s)).toList := by
  simp only [groupNames, List.mem_cons, List.not_mem_nil, or_false, not_or] at hgroup
  obtain ⟨h2d, hgeometric2d, h3d, hgeometric3d, hsensor, htracking⟩ := hgroup
  unfold expandName
  rw [if_neg (not_or.mpr ⟨h2d, hgeometric2d⟩), if_neg (not_or.mpr ⟨h3d, hgeometric3d⟩),
    if_neg (not_or.mpr ⟨hsensor, htracking⟩)]

/-- A group name stands for several types in an array. -/
theorem expandName_of_mem (hgroup : toLower s ∈ groupNames) : 1 < (expandName s).length := by
  simp only [groupNames, List.mem_cons, List.not_mem_nil, or_false] at hgroup
  unfold expandName
  dsimp only
  split_ifs with h2d h3d hsensor
  · decide
  · decide
  · decide
  · tauto

/-! ## One language -/

/-- A channel command accepts the name if it stands for something, and then makes
its setting on every type of the list. -/
def ActsOn (set : ChannelManager → DataType → ChannelManager) (types : List DataType)
    (service : Service) (outcome : Except Bytes (Service × Response)) : Prop :=
  ∃ next r, outcome = .ok (next, r) ∧
    if types = [] then next = service ∧ r.code = .invalidParam
    else r.code = .success ∧ next.channels = types.foldl set service.channels

/-- The name stands for the same list of types in all places. -/
structure OneLanguage (lib : JsonLibrary) (s : Bytes) : Prop where
  field : expandTypes (fieldBody s) = expandTypes (elementBody s)
  activate : ∀ service, ActsOn (fun m t => (m.activateChannel t).1) (expandTypes (elementBody s))
    service (cmdActivateChannel lib service (fieldBody s))
  deactivate : ∀ service, ActsOn (fun m t => (m.deactivateChannel t).1)
    (expandTypes (elementBody s)) service (cmdDeactivateChannel lib service (fieldBody s))

theorem cmdActivateChannel_actsOn (hlib : lib.ConvertsStrings) (s : Bytes) (service : Service) :
    ActsOn (fun m t => (m.activateChannel t).1) (dataTypeFromString (toLower s)).toList service
      (cmdActivateChannel lib service (fieldBody s)) := by
  unfold cmdActivateChannel
  rw [channelOf_fieldBody hlib]
  cases dataTypeFromString (toLower s) with
  | none => exact ⟨_, _, rfl, rfl, rfl⟩
  | some t => exact ⟨_, _, rfl, rfl, rfl⟩

theorem cmdDeactivateChannel_actsOn (hlib : lib.ConvertsStrings) (s : Bytes) (service : Service) :
    ActsOn (fun m t => (m.deactivateChannel t).1) (dataTypeFromString (toLower s)).toList service
      (cmdDeactivateChannel lib service (fieldBody s)) := by
  unfold cmdDeactivateChannel
  rw [channelOf_fieldBody hlib]
  cases dataTypeFromString (toLower s) with
  | none => exact ⟨_, _, rfl, rfl, rfl⟩
  | some t =>
      refine ⟨_, _, rfl, rfl, ?_⟩
      dsimp only
      -- the drain of an inactive group leaves the channels alone
      split <;> rfl

/-- A name stands for the same types everywhere if and only if it is no group name
in any letter case and no data type name with a capital letter. -/
theorem oneLanguage_iff (hlib : lib.ConvertsStrings) (s : Bytes) :
    OneLanguage lib s ↔ toLower s ∉ groupNames ∧ (toLower s ∈ typeNames → s ∈ typeNames) := by
  constructor
  · rintro ⟨hfield, _, _⟩
    rw [expandTypes_fieldBody, expandTypes_elementBody] at hfield
    have hgroup : toLower s ∉ groupNames := by
      intro hmem
      have hseveral := expandName_of_mem hmem
      rw [← hfield] at hseveral
      exact absurd hseveral (Nat.not_lt.mpr Option.length_toList_le)
    refine ⟨hgroup, fun hname => ?_⟩
    rw [expandName_of_notMem hgroup] at hfield
    rw [← dataTypeFromString_isSome] at hname ⊢
    cases hs : dataTypeFromString s with
    | some t => rfl
    | none =>
        obtain ⟨t, ht⟩ := Option.isSome_iff_exists.mp hname
        rw [hs, ht] at hfield
        contradiction
  · rintro ⟨hgroup, hnamed⟩
    have hsame : dataTypeFromString s = dataTypeFromString (toLower s) := by
      by_cases hname : s ∈ typeNames
      · rw [toLower_of_mem_typeNames hname]
      · have hlower : toLower s ∉ typeNames := fun hmem => hname (hnamed hmem)
        rw [← dataTypeFromString_isSome, Option.not_isSome_iff_eq_none] at hname hlower
        rw [hname, hlower]
    have helement : expandTypes (elementBody s) = (dataTypeFromString (toLower s)).toList := by
      rw [expandTypes_elementBody, expandName_of_notMem hgroup]
    refine ⟨?_, fun service => ?_, fun service => ?_⟩
    · rw [helement, expandTypes_fieldBody, hsame]
    · rw [helement]
      exact cmdActivateChannel_actsOn hlib s service
    · rw [helement]
      exact cmdDeactivateChannel_actsOn hlib s service

theorem depthMap_oneLanguage : OneLanguage .plain (lit "depth_map") :=
  (oneLanguage_iff JsonLibrary.plain_convertsStrings _).mpr (by decide)

/-- A group name in the single field stands for nothing. -/
theorem groupName_rejected : ¬ ∀ (lib : JsonLibrary), lib.ConvertsStrings →
    ∀ s : Bytes, OneLanguage lib s := by
  intro hclaim
  have hfield := (hclaim .plain JsonLibrary.plain_convertsStrings (lit "visual_2d")).field
  exact absurd hfield (by decide)

end SimVision
