import SimVision.Api.CommandHandler

/-! # Exceptions of the dispatcher

Four commands convert a field of the request body without testing its type
first. The dispatcher returns exactly when those fields convert.
-/

namespace SimVision

open Foundation

namespace CommandHandler

variable {lib : JsonLibrary}

/-- The JSON value converts to the alternative that a parameter holds. -/
def ConvertsTo (lib : JsonLibrary) (current : ParamValue) (value : Json) : Prop :=
  match current with
  | .integer _ => ∃ i, lib.getInt64 value = .ok i
  | .float _ => ∃ d, lib.getDouble value = .ok d
  | .enum _ => value.isString = true

/-- The fields that a command converts untested are absent or of the right type. -/
structure WellTyped (lib : JsonLibrary) (s : Service) (command : Bytes) (body : Json) : Prop where
  channel : command = lit "activate_channel" ∨ command = lit "deactivate_channel" →
    ∀ value, body.lookup (lit "data_type") = some value → value.isString = true
  read_name : command = lit "get_parameter" →
    ∀ name, body.lookup (lit "name") = some name → name.isString = true
  write : command = lit "set_parameter" →
    ∀ nameJson value, body.lookup (lit "name") = some nameJson →
      body.lookup (lit "value") = some value →
      ∃ name, nameJson = .string name ∧
        ∀ p, s.params.get name = some p → ConvertsTo lib p.value value

/-- A mapped result is a value exactly when the result is. -/
private theorem map_returns_iff {α β : Type} (f : α → β) (result : Except Bytes α) :
    (∃ b, result.map f = .ok b) ↔ ∃ a, result = .ok a := by
  cases result with
  | ok a => exact iff_of_true ⟨f a, rfl⟩ ⟨a, rfl⟩
  | error what => exact iff_of_false (fun ⟨_, h⟩ => by contradiction) fun ⟨_, h⟩ => by contradiction

private theorem returns_ite {α : Type} {condition : Prop} [Decidable condition]
    {first second : Except Bytes α} (hfirst : ∃ a, first = .ok a) (hsecond : ∃ a, second = .ok a) :
    ∃ a, (if condition then first else second) = .ok a := by
  split
  next => exact hfirst
  next => exact hsecond

theorem convertValue_returns_iff (hlib : lib.ConvertsStrings) (current : ParamValue)
    (value : Json) : (∃ v, convertValue lib current value = .ok v) ↔
      ConvertsTo lib current value := by
  cases current with
  | integer i => exact map_returns_iff _ _
  | float d => exact map_returns_iff _ _
  | enum e =>
      exact (map_returns_iff _ _).trans (hlib.getString_isOk value)

theorem channelOf_returns_iff (hlib : lib.ConvertsStrings) (body : Json) :
    (∃ t, channelOf lib body = .ok t) ↔
      ∀ value, body.lookup (lit "data_type") = some value → value.isString = true := by
  unfold channelOf
  cases body.lookup (lit "data_type") with
  | none => simp
  | some value =>
      rw [map_returns_iff, hlib.getString_isOk]
      simp

/-- A command that reads the channel first returns exactly when that is read. -/
private theorem channelCommand_returns_iff (hlib : lib.ConvertsStrings) {β : Type} (body : Json)
    (result : Except Bytes β)
    (herror : ∀ what, channelOf lib body = .error what → result = .error what)
    (hok : ∀ t, channelOf lib body = .ok t → ∃ b, result = .ok b) :
    (∃ b, result = .ok b) ↔
      ∀ value, body.lookup (lit "data_type") = some value → value.isString = true := by
  rw [← channelOf_returns_iff hlib]
  cases hchannel : channelOf lib body with
  | error what =>
      rw [herror what hchannel]
      exact iff_of_false (by rintro ⟨_, ⟨⟩⟩) (by rintro ⟨_, ⟨⟩⟩)
  | ok t => exact iff_of_true (hok t hchannel) ⟨t, rfl⟩

private theorem cmdActivateChannel_returns_iff (hlib : lib.ConvertsStrings) (s : Service)
    (body : Json) : (∃ result, cmdActivateChannel lib s body = .ok result) ↔
      ∀ value, body.lookup (lit "data_type") = some value → value.isString = true := by
  unfold cmdActivateChannel
  apply channelCommand_returns_iff hlib
  · intro what hchannel
    rw [hchannel]
  · intro t hchannel
    rw [hchannel]
    cases t with
    | none => exact ⟨_, rfl⟩
    | some t => exact ⟨_, rfl⟩

private theorem cmdDeactivateChannel_returns_iff (hlib : lib.ConvertsStrings) (s : Service)
    (body : Json) : (∃ result, cmdDeactivateChannel lib s body = .ok result) ↔
      ∀ value, body.lookup (lit "data_type") = some value → value.isString = true := by
  unfold cmdDeactivateChannel
  apply channelCommand_returns_iff hlib
  · intro what hchannel
    rw [hchannel]
  · intro t hchannel
    rw [hchannel]
    cases t with
    | none => exact ⟨_, rfl⟩
    | some t => exact ⟨_, rfl⟩

private theorem cmdGetParameter_returns_iff (hlib : lib.ConvertsStrings) (s : Service)
    (body : Json) : (∃ result, cmdGetParameter lib s body = .ok result) ↔
      ∀ name, body.lookup (lit "name") = some name → name.isString = true := by
  unfold cmdGetParameter
  cases body.lookup (lit "name") with
  | none => exact iff_of_true ⟨_, rfl⟩ (by rintro _ ⟨⟩)
  | some name =>
      dsimp only
      rw [map_returns_iff, hlib.getString_isOk]
      simp only [Option.some.injEq, forall_eq']

private theorem cmdSetParameter_returns_iff (hlib : lib.ConvertsStrings) (s : Service)
    (body : Json) : (∃ result, cmdSetParameter lib s body = .ok result) ↔
      ∀ nameJson value, body.lookup (lit "name") = some nameJson →
        body.lookup (lit "value") = some value →
        ∃ name, nameJson = .string name ∧
          ∀ p, s.params.get name = some p → ConvertsTo lib p.value value := by
  unfold cmdSetParameter
  cases body.lookup (lit "name") with
  | none => exact iff_of_true ⟨_, rfl⟩ (by rintro _ _ ⟨⟩)
  | some nameJson =>
      cases body.lookup (lit "value") with
      | none => exact iff_of_true ⟨_, rfl⟩ (by rintro _ _ _ ⟨⟩)
      | some value =>
          simp only [Option.some.injEq, forall_eq', forall_apply_eq_imp_iff]
          cases hname : lib.getString nameJson with
          | error what =>
              refine iff_of_false (by rintro ⟨_, ⟨⟩⟩) ?_
              rintro ⟨name, rfl, _⟩
              rw [hlib.getString_string] at hname
              contradiction
          | ok name =>
              -- the name converted, so what decides is the value of a parameter of that name
              obtain rfl := hlib.getString_ok nameJson name hname
              simp only [Json.string.injEq, exists_eq_left']
              cases s.params.get name with
              | none => exact iff_of_true ⟨_, rfl⟩ (by rintro _ ⟨⟩)
              | some p =>
                  dsimp only
                  rw [map_returns_iff, convertValue_returns_iff hlib]
                  simp only [Option.some.injEq, forall_eq']

/-- A command that converts nothing is well typed with any body. -/
private theorem wellTyped_of_other (s : Service) {command : Bytes} (body : Json)
    (hactivate : command ≠ lit "activate_channel")
    (hdeactivate : command ≠ lit "deactivate_channel")
    (hget : command ≠ lit "get_parameter") (hset : command ≠ lit "set_parameter") :
    WellTyped lib s command body where
  channel := fun hcommand => absurd hcommand (not_or.mpr ⟨hactivate, hdeactivate⟩)
  read_name := fun hcommand => absurd hcommand hget
  write := fun hcommand => absurd hcommand hset

/-- The dispatcher returns a response if and only if the fields its command
converts untested are absent or of the right type. -/
theorem handle_returns_iff (hlib : lib.ConvertsStrings) (s : Service) (command : Bytes)
    (body : Json) (clientId : Bytes) :
    (∃ result, handle lib command body clientId s = .ok result) ↔
      WellTyped lib s command body := by
  by_cases hactivate : command = lit "activate_channel"
  · subst hactivate
    refine (cmdActivateChannel_returns_iff hlib s body).trans ?_
    constructor
    · intro hfield
      exact ⟨fun _ => hfield, fun h => absurd h (by decide), fun h => absurd h (by decide)⟩
    · intro htyped
      exact htyped.channel (.inl rfl)
  by_cases hdeactivate : command = lit "deactivate_channel"
  · subst hdeactivate
    refine (cmdDeactivateChannel_returns_iff hlib s body).trans ?_
    constructor
    · intro hfield
      exact ⟨fun _ => hfield, fun h => absurd h (by decide), fun h => absurd h (by decide)⟩
    · intro htyped
      exact htyped.channel (.inr rfl)
  by_cases hget : command = lit "get_parameter"
  · subst hget
    have hhandle : handle lib (lit "get_parameter") body clientId s =
        (cmdGetParameter lib s body).map fun r => (s, r) := rfl
    rw [hhandle, map_returns_iff, cmdGetParameter_returns_iff hlib]
    constructor
    · intro hfield
      exact ⟨fun h => absurd h (by decide), fun _ => hfield, fun h => absurd h (by decide)⟩
    · intro htyped
      exact htyped.read_name rfl
  by_cases hset : command = lit "set_parameter"
  · subst hset
    refine (cmdSetParameter_returns_iff hlib s body).trans ?_
    constructor
    · intro hfield
      exact ⟨fun h => absurd h (by decide), fun h => absurd h (by decide), fun _ => hfield⟩
    · intro htyped
      exact htyped.write rfl
  refine iff_of_true ?_ (wellTyped_of_other s body hactivate hdeactivate hget hset)
  unfold handle
  rw [if_neg hactivate, if_neg hdeactivate, if_neg hget, if_neg hset]
  -- the nine commands left convert nothing, whichever of them it is
  iterate 9 refine returns_ite ⟨_, rfl⟩ ?_
  exact ⟨_, rfl⟩

/-- The service before any client has come. -/
def freshService : Service := { pipeline := .create 8 }

theorem getParameter_of_string_returns :
    ∃ result, handle .plain (lit "get_parameter") (.object [(lit "name", .string (lit "fps"))])
      (lit "default") freshService = .ok result := by
  apply (handle_returns_iff JsonLibrary.plain_convertsStrings _ _ _ _).mpr
  refine ⟨fun h => absurd h (by decide), ?_, fun h => absurd h (by decide)⟩
  intro _ name hname
  obtain rfl := Option.some.inj hname
  rfl

/-- `get_parameter` with a number for a name throws. -/
theorem getParameter_of_number_throws :
    ¬ ∀ (lib : JsonLibrary), lib.ConvertsStrings →
      ∀ (s : Service) (command : Bytes) (body : Json) (clientId : Bytes),
        ∃ result, handle lib command body clientId s = .ok result := by
  intro hreturns
  obtain ⟨result, hresult⟩ := hreturns .plain JsonLibrary.plain_convertsStrings freshService
    (lit "get_parameter") (.object [(lit "name", .integer 5)]) (lit "default")
  contradiction

end CommandHandler

end SimVision
