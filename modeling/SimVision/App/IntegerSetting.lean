import SimVision.Api.CommandEffects
import SimVision.App.CameraSetting
import SimVision.Common.ConfigDocument

/-! # Setting an integer parameter

`set_parameter` converts the value of the request before the parameter checks it.
The bounds are those of the converted number, so a value that is no integer passes
them when its conversion does.
-/

namespace SimVision

open Foundation CommandHandler

/-! ## JSON numbers -/

/-- The value is a JSON integer, signed or unsigned, of this number. -/
def Foundation.Json.IsInteger : Json → Int → Prop
  | .integer i, n => i = n
  | .unsigned u, n => (u : Int) = n
  | _, _ => False

/-- Signed integers have 64 bits, and so have unsigned ones. -/
def Foundation.Json.Fits64 : Json → Prop
  | .integer i => IsInt64 i
  | .unsigned u => u < 2 ^ 64
  | _ => True

namespace Foundation.JsonLibrary

/-- `static_cast<int64_t>` of an integer of any width. -/
def castInt64 (i : Int) : Int := i.bmod (2 ^ 64)

theorem castInt64_of_fits {i : Int} (hfits : IsInt64 i) : castInt64 i = i :=
  Int.bmod_eq_of_le (by have := hfits.1; omega) (by have := hfits.2; omega)

/-- The documented behaviour of `get<int64_t>`: integers are converted by
`static_cast`, as are finite numbers in its range, and what is neither a number nor
a boolean throws. -/
structure CastsInt64 (lib : JsonLibrary) : Prop where
  getInt64_integer : ∀ i, IsInt64 i → lib.getInt64 (.integer i) = .ok i
  getInt64_unsigned : ∀ u : Nat, u < 2 ^ 64 → lib.getInt64 (.unsigned u) = .ok (castInt64 u)
  getInt64_float : ∀ q : ℚ, IsInt64 (truncate (.finite q)) →
    lib.getInt64 (.float (.finite q)) = .ok (truncate (.finite q))
  getInt64_null : ∀ n, lib.getInt64 .null ≠ .ok n
  getInt64_string : ∀ s n, lib.getInt64 (.string s) ≠ .ok n
  getInt64_array : ∀ elements n, lib.getInt64 (.array elements) ≠ .ok n
  getInt64_object : ∀ members n, lib.getInt64 (.object members) ≠ .ok n

/-- The plain library with a conversion to `int64_t` that wraps and takes booleans. -/
def casting64 : JsonLibrary :=
  { plain with
    getInt64 := fun j =>
      match j with
      | .boolean b => .ok b.toNat
      | _ => convertNumber castInt64 truncate j }

theorem casting64_castsInt64 : casting64.CastsInt64 where
  getInt64_integer := fun _ hfits => congrArg Except.ok (castInt64_of_fits hfits)
  getInt64_unsigned := fun _ _ => rfl
  getInt64_float := fun _ _ => rfl
  getInt64_null := nofun
  getInt64_string := nofun
  getInt64_array := nofun
  getInt64_object := nofun

end Foundation.JsonLibrary

/-! ## The requests -/

/-- A `set_parameter` request. -/
def setRequest (name : Bytes) (value : Json) (clientId : Bytes) : Request where
  command := lit "set_parameter"
  body := Json.ofAssignments [(lit "name", .string name), (lit "value", value)]
  clientId := clientId

/-- A `get_parameter` request. -/
def getRequest (name clientId : Bytes) : Request where
  command := lit "get_parameter"
  body := Json.ofAssignments [(lit "name", .string name)]
  clientId := clientId

variable {lib : JsonLibrary} {s : Service} {name clientId : Bytes} {value : Json} {p : Parameter}

/-- A request ends as the handler does. -/
theorem CommandHandler.Request.settles (lib : JsonLibrary) (q : Request) (s : Service) :
    (q.outcome lib s, q.after lib s) = settle s (handle lib q.command q.body q.clientId s) :=
  handleSteps_settles q.command q.body q.clientId s

theorem paramToJson_value (p : Parameter) :
    (paramToJson p).lookup (lit "value") = some (valueToJson p.value) := by
  have hkeys : ([lit "name", lit "type", lit "value", lit "default", lit "is_readonly",
      lit "is_available", lit "needs_reopen"] ++ [lit "min", lit "max"] ++ [lit "enum_options"] :
      List Bytes).Nodup := by decide
  unfold paramToJson
  apply Json.lookup_ofAssignments
  · refine hkeys.sublist ?_
    rw [List.map_append, List.map_append]
    refine ((List.Sublist.refl _).append ?_).append ?_
    · split
      next => exact List.Sublist.refl _
      next => exact List.nil_sublist _
    · split
      next => exact List.Sublist.refl _
      next => exact List.nil_sublist _
  · simp

/-- Reading a registered parameter returns its value. -/
theorem getRequest_outcome (hstrings : lib.ConvertsStrings) (hget : s.params.get name = some p) :
    ∃ r, (getRequest name clientId).outcome lib s = .ok r ∧ r.code = .success ∧
      r.detail.lookup (lit "value") = some (valueToJson p.value) := by
  have hhandle : handle lib (lit "get_parameter") (getRequest name clientId).body clientId s =
      (cmdGetParameter lib s (getRequest name clientId).body).map fun r => (s, r) := rfl
  have hname : (getRequest name clientId).body.lookup (lit "name") = some (.string name) := rfl
  have hsettles := Request.settles lib (getRequest name clientId) s
  change _ = settle s (handle lib (lit "get_parameter") (getRequest name clientId).body clientId s)
    at hsettles
  rw [hhandle, cmdGetParameter, hname] at hsettles
  dsimp only at hsettles
  rw [hstrings.getString_string, Except.map, hget] at hsettles
  exact ⟨_, congrArg Prod.fst hsettles, rfl, paramToJson_value p⟩

/-! ## What is accepted -/

/-- An integer parameter with the bounds, as it stands in the registry. -/
structure IntegerBetween (m : ParameterManager) (name : Bytes) (low high : Int) (p : Parameter) :
    Prop where
  registered : m.get name = some p
  writable : p.isReadonly = false
  integer : p.value.integer?.isSome
  min_eq : p.min = .integer low
  max_eq : p.max = .integer high
  min_fits : IsInt64 low
  max_fits : IsInt64 high

variable {low high : Int}

/-- The setter takes exactly the numbers within the bounds. -/
theorem IntegerBetween.setValue_eq (hparam : IntegerBetween s.params name low high p) (n : Int) :
    (low ≤ n ∧ n ≤ high ∧
        s.params.setValue name (.integer n) = .ok (s.params.store name p (.integer n))) ∨
      (¬ (low ≤ n ∧ n ≤ high) ∧ ∃ err, s.params.setValue name (.integer n) = .error err) := by
  by_cases hrange : low ≤ n ∧ n ≤ high
  · refine .inl ⟨hrange.1, hrange.2, ?_⟩
    apply ParameterManager.setValue_of_admits hparam.registered hparam.writable
    refine ⟨hparam.integer, ?_⟩
    intro lo hi hlo hhi
    rw [hparam.min_eq] at hlo
    rw [hparam.max_eq] at hhi
    cases hlo
    cases hhi
    exact hrange
  · refine .inr ⟨hrange, ?_⟩
    cases hset : s.params.setValue name (.integer n) with
    | error err => exact ⟨err, rfl⟩
    | ok next =>
        obtain ⟨q, hget, _, hadmits, _⟩ := ParameterManager.setValue_ok hset
        rw [hparam.registered] at hget
        obtain rfl := Option.some.inj hget
        exact absurd (hadmits.2 low high hparam.min_eq hparam.max_eq) hrange

/-- The request converts the value, then the setter decides. -/
theorem IntegerBetween.setRequest_settles (hstrings : lib.ConvertsStrings)
    (hparam : IntegerBetween s.params name low high p) :
    (∃ n, lib.getInt64 value = .ok n ∧ low ≤ n ∧ n ≤ high ∧
        (setRequest name value clientId).Succeeds lib s ∧
        ((setRequest name value clientId).after lib s).params =
          s.params.store name p (.integer n)) ∨
      ((∀ n, lib.getInt64 value = .ok n → ¬ (low ≤ n ∧ n ≤ high)) ∧
        ¬ (setRequest name value clientId).Succeeds lib s ∧
        (setRequest name value clientId).after lib s = s) := by
  have hhandle : handle lib (lit "set_parameter") (setRequest name value clientId).body clientId s =
      cmdSetParameter lib s (setRequest name value clientId).body := rfl
  have hname : (setRequest name value clientId).body.lookup (lit "name") =
      some (.string name) := rfl
  have hvalue : (setRequest name value clientId).body.lookup (lit "value") = some value := rfl
  have hsettles := Request.settles lib (setRequest name value clientId) s
  change _ = settle s (handle lib (lit "set_parameter") (setRequest name value clientId).body
    clientId s) at hsettles
  rw [hhandle, cmdSetParameter, hname, hvalue] at hsettles
  dsimp only at hsettles
  rw [hstrings.getString_string] at hsettles
  dsimp only at hsettles
  rw [hparam.registered] at hsettles
  obtain ⟨current, hcurrent⟩ := Option.isSome_iff_exists.mp hparam.integer
  have hinteger : p.value = .integer current := by
    cases hp : p.value with
    | integer v =>
        rw [hp] at hcurrent
        rw [Option.some.inj hcurrent]
    | float v =>
        rw [hp] at hcurrent
        contradiction
    | enum v =>
        rw [hp] at hcurrent
        contradiction
  have hconvert : convertValue lib p.value value = (lib.getInt64 value).map .integer := by
    rw [hinteger]
    rfl
  dsimp only at hsettles
  rw [hconvert] at hsettles
  cases hget : lib.getInt64 value with
  | error what =>
      rw [hget] at hsettles
      refine .inr ⟨nofun, ?_, congrArg Prod.snd hsettles⟩
      rintro ⟨r, houtcome, _⟩
      rw [show (setRequest name value clientId).outcome lib s = .error what from
        congrArg Prod.fst hsettles] at houtcome
      contradiction
  | ok n =>
      rw [hget] at hsettles
      rcases hparam.setValue_eq n with ⟨hlow, hhigh, hset⟩ | ⟨hrange, err, hset⟩
      · simp only [Except.map, hset] at hsettles
        refine .inl ⟨n, rfl, hlow, hhigh, ⟨_, congrArg Prod.fst hsettles, rfl⟩, ?_⟩
        exact congrArg (fun ended => ended.2.params) hsettles
      · simp only [Except.map, hset] at hsettles
        refine .inr ⟨?_, ?_, congrArg Prod.snd hsettles⟩
        · intro m hm
          rw [← Except.ok.inj hm]
          exact hrange
        · rintro ⟨r, houtcome, hcode⟩
          have hrefused := Except.ok.inj (houtcome.symm.trans (congrArg Prod.fst hsettles))
          rw [hrefused] at hcode
          contradiction

/-- The request succeeds for the integers within the bounds alone, which are read
back as they were sent; otherwise the stored value stays. -/
structure SetsIntegers (lib : JsonLibrary) (s : Service) (name : Bytes) (low high : Int)
    (value : Json) : Prop where
  succeeds_iff : ∀ clientId, (setRequest name value clientId).Succeeds lib s ↔
    ∃ n, value.IsInteger n ∧ low ≤ n ∧ n ≤ high
  reads_back : ∀ clientId reader n, value.IsInteger n → low ≤ n → n ≤ high →
    ∃ r, (getRequest name reader).outcome lib ((setRequest name value clientId).after lib s) =
        .ok r ∧
      r.code = .success ∧ r.detail.lookup (lit "value") = some (.integer n)
  unchanged : ∀ clientId, ¬ (setRequest name value clientId).Succeeds lib s →
    ((setRequest name value clientId).after lib s).params = s.params

/-- A value that is no integer of 64 bits is converted into one within the bounds:
a floating-point number or a boolean by its conversion, an unsigned integer from
`2 ^ 63` on by wrapping. -/
def CoercedBetween (lib : JsonLibrary) (low high : Int) : Json → Prop
  | .float d => ∃ n, lib.getInt64 (.float d) = .ok n ∧ low ≤ n ∧ n ≤ high
  | .boolean b => ∃ n, lib.getInt64 (.boolean b) = .ok n ∧ low ≤ n ∧ n ≤ high
  | .unsigned u => 2 ^ 63 ≤ u ∧ low ≤ JsonLibrary.castInt64 u ∧ JsonLibrary.castInt64 u ≤ high
  | _ => False

/-- Every finite number whose integral part is within the bounds is coerced. -/
theorem coercedBetween_finite (hlib : lib.CastsInt64) (hlow : IsInt64 low)
    (hhigh : IsInt64 high) {q : ℚ}
    (hrange : low ≤ JsonLibrary.truncate (.finite q) ∧ JsonLibrary.truncate (.finite q) ≤ high) :
    CoercedBetween lib low high (.float (.finite q)) := by
  have hfits : IsInt64 (JsonLibrary.truncate (.finite q)) :=
    ⟨hlow.1.trans hrange.1, hrange.2.trans_lt hhigh.2⟩
  exact ⟨_, hlib.getInt64_float q hfits, hrange⟩

/-- Integers are converted to themselves. -/
theorem getInt64_of_isInteger (hlib : lib.CastsInt64) {n : Int} (hinteger : value.IsInteger n)
    (hfits : IsInt64 n) : lib.getInt64 value = .ok n := by
  cases value with
  | integer i =>
      obtain rfl : i = n := hinteger
      exact hlib.getInt64_integer i hfits
  | unsigned u =>
      obtain rfl : (u : Int) = n := hinteger
      rw [hlib.getInt64_unsigned u (by have := hfits.2; omega), JsonLibrary.castInt64_of_fits hfits]
  | null => contradiction
  | boolean b => contradiction
  | float d => contradiction
  | string text => contradiction
  | array elements => contradiction
  | object members => contradiction

/-- What converts into the bounds is an integer there or is coerced. -/
theorem isInteger_or_coerced (hlib : lib.CastsInt64) (hvalue : value.Fits64) {n : Int}
    (hget : lib.getInt64 value = .ok n) (hlow : low ≤ n) (hhigh : n ≤ high) :
    value.IsInteger n ∨ CoercedBetween lib low high value := by
  cases value with
  | integer i =>
      rw [hlib.getInt64_integer i hvalue] at hget
      exact .inl (Except.ok.inj hget)
  | unsigned u =>
      rw [hlib.getInt64_unsigned u hvalue] at hget
      obtain rfl := Except.ok.inj hget
      by_cases hbig : 2 ^ 63 ≤ u
      · exact .inr ⟨hbig, hlow, hhigh⟩
      · exact .inl (JsonLibrary.castInt64_of_fits ⟨by omega, by omega⟩).symm
  | float d => exact .inr ⟨n, hget, hlow, hhigh⟩
  | boolean b => exact .inr ⟨n, hget, hlow, hhigh⟩
  | null => exact absurd hget (hlib.getInt64_null n)
  | string text => exact absurd hget (hlib.getInt64_string text n)
  | array elements => exact absurd hget (hlib.getInt64_array elements n)
  | object members => exact absurd hget (hlib.getInt64_object members n)

/-- A coerced value is converted into the bounds, and is no integer there. -/
theorem CoercedBetween.not_isInteger (hlib : lib.CastsInt64) (hvalue : value.Fits64)
    (hhigh : IsInt64 high) (hcoerced : CoercedBetween lib low high value) :
    (∃ n, lib.getInt64 value = .ok n ∧ low ≤ n ∧ n ≤ high) ∧
      ∀ n, value.IsInteger n → ¬ n ≤ high := by
  cases value with
  | unsigned u =>
      obtain ⟨hbig, hlow, hle⟩ := hcoerced
      refine ⟨⟨_, hlib.getInt64_unsigned u hvalue, hlow, hle⟩, ?_⟩
      rintro n rfl hn
      have hlt := hhigh.2
      omega
  | float d => exact ⟨hcoerced, nofun⟩
  | boolean b => exact ⟨hcoerced, nofun⟩
  | null => contradiction
  | integer i => contradiction
  | string text => contradiction
  | array elements => contradiction
  | object members => contradiction

/-- `set_parameter` is faithful for an integer parameter if and only if the value
is not coerced into its bounds. -/
theorem setsIntegers_iff (hlib : lib.CastsInt64) (hstrings : lib.ConvertsStrings)
    (hparam : IntegerBetween s.params name low high p) (hvalue : value.Fits64) :
    SetsIntegers lib s name low high value ↔ ¬ CoercedBetween lib low high value := by
  have hsettles := fun clientId =>
    @IntegerBetween.setRequest_settles lib s name clientId value p low high hstrings hparam
  constructor
  · intro hsets hcoerced
    obtain ⟨⟨n, hget, hlow, hhigh⟩, hnot⟩ := hcoerced.not_isInteger hlib hvalue hparam.max_fits
    rcases hsettles [] with ⟨_, _, _, _, hsucceeds, _⟩ | ⟨hout, _⟩
    · obtain ⟨m, hinteger, _, hle⟩ := (hsets.succeeds_iff []).mp hsucceeds
      exact hnot m hinteger hle
    · exact hout n hget ⟨hlow, hhigh⟩
  · intro hcoerced
    have hfits : ∀ n, low ≤ n → n ≤ high → IsInt64 n :=
      fun n hlow hhigh => ⟨hparam.min_fits.1.trans hlow, hhigh.trans_lt hparam.max_fits.2⟩
    refine ⟨fun clientId => ?_, fun clientId reader n hinteger hlow hhigh => ?_, fun clientId => ?_⟩
    · rcases hsettles clientId with ⟨n, hget, hlow, hhigh, hsucceeds, _⟩ | ⟨hout, hfails, _⟩
      · refine iff_of_true hsucceeds ⟨n, ?_, hlow, hhigh⟩
        exact (isInteger_or_coerced hlib hvalue hget hlow hhigh).resolve_right hcoerced
      · refine iff_of_false hfails ?_
        rintro ⟨n, hinteger, hlow, hhigh⟩
        exact hout n (getInt64_of_isInteger hlib hinteger (hfits n hlow hhigh)) ⟨hlow, hhigh⟩
    · have hget := getInt64_of_isInteger hlib hinteger (hfits n hlow hhigh)
      rcases hsettles clientId with ⟨m, hm, _, _, _, hstored⟩ | ⟨hout, _⟩
      · obtain rfl := Except.ok.inj (hget.symm.trans hm)
        have hstoredGet : ((setRequest name value clientId).after lib s).params.get name =
            some { p with value := .integer n } := by
          rw [hstored, ParameterManager.get_store hparam.registered, if_pos rfl]
        exact @getRequest_outcome lib _ name reader _ hstrings hstoredGet
      · exact absurd ⟨hlow, hhigh⟩ (hout n hget)
    · intro hfails
      rcases hsettles clientId with ⟨_, _, _, _, hsucceeds, _⟩ | ⟨_, _, hsame⟩
      · exact absurd hsucceeds hfails
      · rw [hsame]

theorem casting64_convertsStrings : JsonLibrary.casting64.ConvertsStrings :=
  ⟨fun _ => rfl, JsonLibrary.plain_convertsStrings.getString_ok⟩

/-- The parameter `gain`, as `main` registers it. -/
def gainParameter : Parameter := addInt (lit "gain") 50 0 100 false

theorem gain_integerBetween :
    IntegerBetween (mainService .plain {} none {}).params (lit "gain") 0 100 gainParameter where
  registered := by decide
  writable := rfl
  integer := rfl
  min_eq := rfl
  max_eq := rfl
  min_fits := ⟨by decide, by decide⟩
  max_fits := ⟨by decide, by decide⟩

/-- The gain is set to an integer within its bounds. -/
theorem gain_setsInteger :
    SetsIntegers .casting64 (mainService .plain {} none {}) (lit "gain") 0 100 (.integer 60) := by
  have hvalue : (Json.integer 60).Fits64 := ⟨by decide, by decide⟩
  exact (setsIntegers_iff JsonLibrary.casting64_castsInt64 casting64_convertsStrings
    gain_integerBetween hvalue).mpr id

/-- The gain is set to 60 by the number 60.5. -/
theorem gain_setsFraction :
    ¬ ∀ (lib : JsonLibrary), lib.CastsInt64 → lib.ConvertsStrings →
      ∀ (s : Service) (name : Bytes) (low high : Int) (p : Parameter) (value : Json),
        IntegerBetween s.params name low high p → value.Fits64 →
        SetsIntegers lib s name low high value := by
  intro hclaim
  have hsets := hclaim .casting64 JsonLibrary.casting64_castsInt64 casting64_convertsStrings
    (mainService .plain {} none {}) (lit "gain") 0 100 gainParameter (.float (.finite (121 / 2)))
    gain_integerBetween trivial
  have htruncated : JsonLibrary.truncate (.finite (121 / 2)) = 60 := by
    rw [JsonLibrary.truncate_eq_floor (by norm_num)]
    norm_num
  have hconverted : JsonLibrary.casting64.getInt64 (.float (.finite (121 / 2))) = .ok 60 :=
    congrArg Except.ok htruncated
  rcases @IntegerBetween.setRequest_settles .casting64 (mainService .plain {} none {})
      (lit "gain") [] (.float (.finite (121 / 2))) gainParameter 0 100 casting64_convertsStrings
      gain_integerBetween with ⟨_, _, _, _, hsucceeds, _⟩ | ⟨hout, _⟩
  · obtain ⟨n, hinteger, _⟩ := (hsets.succeeds_iff []).mp hsucceeds
    exact hinteger
  · exact hout 60 hconverted (by decide)

end SimVision
