import Mathlib.Data.List.AList
import SimVision.Foundation.Cpp

/-! # Parameters

A parameter carries its value with the bounds, options and flags that
`set_value` checks. Bounds constrain a value only when both hold its own type.
-/

namespace SimVision

open Foundation

inductive ParamValue where
  | integer (value : Int)
  | float (value : Double)
  | enum (value : Bytes)
  deriving DecidableEq

namespace ParamValue

/-- A default-constructed variant holds its first alternative. -/
instance : Inhabited ParamValue := ⟨.integer 0⟩

def integer? : ParamValue → Option Int
  | .integer v => some v
  | _ => none

def float? : ParamValue → Option Double
  | .float v => some v
  | _ => none

def enum? : ParamValue → Option Bytes
  | .enum v => some v
  | _ => none

/-- `index()` of the variant. -/
def index : ParamValue → Nat
  | .integer _ => 0
  | .float _ => 1
  | .enum _ => 2

theorem integer?_isSome (v : ParamValue) : v.integer?.isSome ↔ v.index = 0 := by
  cases v <;> simp [integer?, index]

theorem float?_isSome (v : ParamValue) : v.float?.isSome ↔ v.index = 1 := by
  cases v <;> simp [float?, index]

theorem enum?_isSome (v : ParamValue) : v.enum?.isSome ↔ v.index = 2 := by
  cases v <;> simp [enum?, index]

end ParamValue

def paramVariantTypeName : ParamValue → Bytes
  | .integer _ => lit "Integer"
  | .float _ => lit "Float"
  | .enum _ => lit "Enum"

structure Parameter where
  name : Bytes
  value : ParamValue
  min : ParamValue := default
  max : ParamValue := default
  defaultValue : ParamValue
  isReadonly : Bool := false
  isAvailable : Bool := true
  needsReopen : Bool := false
  enumOptions : List Bytes := []
  deriving DecidableEq

def sameType (a b : ParamValue) : Bool := a.index = b.index

/-- `in_range<T>`, where `holds` reads the alternative `T` and `le` compares it. -/
def inRange {T : Type} (holds : ParamValue → Option T) (le : T → T → Bool) (v : T)
    (lo hi : ParamValue) : Bool :=
  match holds lo, holds hi with
  | some low, some high => le low v && le v high
  | _, _ => true

def enumAllowed (vals : List Bytes) (v : Bytes) : Bool := vals.isEmpty || vals.contains v

/-- `params_` by name; the order of an `unordered_map` is the order of the list. -/
structure ParameterManager where
  params : AList (fun _ : Bytes => Parameter) := ∅

namespace ParameterManager

def registerParameter (m : ParameterManager) (p : Parameter) : ParameterManager :=
  ⟨m.params.insert p.name p⟩

/-- `p.value = value` on the stored parameter, which stays where it is in the order. -/
def store (m : ParameterManager) (name : Bytes) (p : Parameter) (value : ParamValue) :
    ParameterManager :=
  ⟨m.params.replace name { p with value := value }⟩

/-- `set_value`: the store after a success, or the text left in `err`. -/
def setValue (m : ParameterManager) (name : Bytes) (value : ParamValue) :
    Except Bytes ParameterManager :=
  match m.params.lookup name with
  | none => .error (lit "unknown parameter: " ++ name)
  | some p =>
      if p.isReadonly then .error (lit "parameter is read-only: " ++ name)
      else if !sameType p.value value then .error (lit "type mismatch for parameter: " ++ name)
      else
        match value with
        | .integer v =>
            if inRange ParamValue.integer? (fun a b => decide (a ≤ b)) v p.min p.max then
              .ok (m.store name p value)
            else .error (lit "value out of range for parameter: " ++ name)
        | .float v =>
            if inRange ParamValue.float? Double.le v p.min p.max then .ok (m.store name p value)
            else .error (lit "value out of range for parameter: " ++ name)
        | .enum v =>
            if enumAllowed p.enumOptions v then .ok (m.store name p value)
            else .error (lit "invalid enum value for parameter: " ++ name)

def get (m : ParameterManager) (name : Bytes) : Option Parameter := m.params.lookup name

def all (m : ParameterManager) : List Parameter := m.params.entries.map Sigma.snd

def names (m : ParameterManager) : List Bytes := m.params.keys

def has (m : ParameterManager) (name : Bytes) : Bool := (m.params.lookup name).isSome

/-- The texts that precede the name in the errors of `set_value`. -/
def refusals : List Bytes :=
  [lit "unknown parameter: ", lit "parameter is read-only: ", lit "type mismatch for parameter: ",
    lit "value out of range for parameter: ", lit "invalid enum value for parameter: "]

/-- Every error of `set_value` names the parameter it refuses. -/
theorem setValue_error {m : ParameterManager} {name err : Bytes} {value : ParamValue}
    (hset : m.setValue name value = .error err) : ∃ refusal ∈ refusals, err = refusal ++ name := by
  unfold setValue at hset
  repeat' split at hset
  all_goals
    first
    | contradiction
    | exact ⟨_, by simp [refusals], (Except.error.inj hset).symm⟩

theorem get_registerParameter (m : ParameterManager) (p : Parameter) (name : Bytes) :
    (m.registerParameter p).get name = if name = p.name then some p else m.get name := by
  unfold get registerParameter
  split
  next heq =>
    subst name
    rw [AList.lookup_insert]
  next hne => rw [AList.lookup_insert_ne hne]

theorem dlookup_kreplace (entries : List (Sigma fun _ : Bytes => Parameter)) (name other : Bytes)
    (p : Parameter) : (entries.kreplace name p).dlookup other =
      if other = name then (entries.dlookup name).map fun _ => p else entries.dlookup other := by
  induction entries with
  | nil => split <;> rfl
  | cons entry rest ih =>
      obtain ⟨key, q⟩ := entry
      by_cases hkey : name = key
      · subst hkey
        have hcons : List.kreplace name p (⟨name, q⟩ :: rest) = ⟨name, p⟩ :: rest :=
          List.lookmap_cons_some _ _ (by simp)
        rw [hcons, List.dlookup_cons_eq]
        split
        next hother => rw [hother, List.dlookup_cons_eq, Option.map_some]
        next hother => rw [List.dlookup_cons_ne _ _ hother, List.dlookup_cons_ne _ _ hother]
      · have hcons : List.kreplace name p (⟨key, q⟩ :: rest) = ⟨key, q⟩ :: rest.kreplace name p :=
          List.lookmap_cons_none _ _ (by simp [hkey])
        rw [hcons, List.dlookup_cons_ne rest ⟨key, q⟩ hkey]
        by_cases hother : other = key
        · subst hother
          rw [List.dlookup_cons_eq, List.dlookup_cons_eq, if_neg (Ne.symm hkey)]
        · rw [List.dlookup_cons_ne _ _ hother, List.dlookup_cons_ne _ _ hother, ih]

theorem get_store {m : ParameterManager} {name : Bytes} {current : Parameter}
    (hget : m.get name = some current) (other : Bytes) (p : Parameter) (value : ParamValue) :
    (m.store name p value).get other =
      if other = name then some { p with value := value } else m.get other := by
  refine (dlookup_kreplace _ _ _ _).trans ?_
  have hcurrent : m.params.entries.dlookup name = some current := hget
  rw [hcurrent, Option.map_some]
  rfl

@[simp] theorem names_store (m : ParameterManager) (name : Bytes) (p : Parameter)
    (value : ParamValue) : (m.store name p value).names = m.names :=
  AList.keys_replace _ _ _

/-- Storing what is stored changes nothing. -/
theorem store_self {m : ParameterManager} {name : Bytes} {p : Parameter} {value : ParamValue}
    (hget : m.get name = some { p with value := value }) : m.store name p value = m := by
  have hentries : m.params.entries.kreplace name { p with value := value } = m.params.entries :=
    List.kreplace_self m.params.nodupKeys (AList.mem_lookup_iff.mp hget)
  unfold store
  congr 1
  exact AList.ext hentries

/-- The names in their order and what is stored under each are all there is. -/
theorem eq_of_get {m other : ParameterManager} (hnames : m.names = other.names)
    (hget : ∀ name, m.get name = other.get name) : m = other := by
  have hentries : ∀ n : ParameterManager, n.params.entries =
      n.names.filterMap fun name => (n.get name).map (Sigma.mk name) := by
    intro n
    unfold names get AList.keys List.keys
    rw [List.filterMap_map]
    refine Eq.trans (List.filterMap_some).symm (List.filterMap_congr fun entry hentry => ?_)
    have hlookup : n.params.lookup entry.1 = some entry.2 := AList.mem_lookup_iff.mpr hentry
    dsimp only [Function.comp_apply]
    rw [hlookup]
    rfl
  have hsame : m.params.entries = other.params.entries := by
    rw [hentries m, hentries other, hnames, funext hget]
  obtain ⟨params⟩ := m
  obtain ⟨others⟩ := other
  exact congrArg ParameterManager.mk (AList.ext hsame)

theorem mem_all {m : ParameterManager} {p : Parameter} :
    p ∈ m.all ↔ ∃ name, m.get name = some p := by
  unfold all get
  rw [List.mem_map]
  constructor
  · rintro ⟨⟨name, stored⟩, hmem, rfl⟩
    exact ⟨name, AList.mem_lookup_iff.mpr hmem⟩
  · rintro ⟨name, hget⟩
    exact ⟨⟨name, p⟩, AList.mem_lookup_iff.mp hget, rfl⟩

end ParameterManager

/-- What `set_value` requires of a value for a parameter. -/
def Parameter.Admits (p : Parameter) : ParamValue → Prop
  | .integer v => p.value.integer?.isSome ∧
      ∀ low high, p.min = .integer low → p.max = .integer high → low ≤ v ∧ v ≤ high
  | .float v => p.value.float?.isSome ∧
      ∀ low high, p.min = .float low → p.max = .float high → low.le v ∧ v.le high
  | .enum v => p.value.enum?.isSome ∧ (p.enumOptions = [] ∨ v ∈ p.enumOptions)

/-- A successful `set_value` finds a writable parameter that admits the value and
changes nothing else. -/
theorem ParameterManager.setValue_ok {m next : ParameterManager} {name : Bytes}
    {value : ParamValue} (hset : m.setValue name value = .ok next) :
    ∃ p, m.get name = some p ∧ p.isReadonly = false ∧ p.Admits value ∧
      next = m.store name p value := by
  unfold setValue at hset
  split at hset
  next => contradiction
  next p hget =>
    refine ⟨p, hget, ?_⟩
    split at hset
    next => contradiction
    next hwritable =>
      split at hset
      next => contradiction
      next htype =>
        refine ⟨by simpa using hwritable, ?_⟩
        simp only [sameType, Bool.not_eq_true', decide_eq_false_iff_not, not_not] at htype
        cases value with
        | integer v =>
            dsimp only at hset
            split at hset
            next hrange =>
              refine ⟨⟨?_, ?_⟩, (Except.ok.inj hset).symm⟩
              · rwa [ParamValue.integer?_isSome]
              · intro low high hlow hhigh
                simpa [inRange, hlow, hhigh, ParamValue.integer?] using hrange
            next => contradiction
        | float v =>
            dsimp only at hset
            split at hset
            next hrange =>
              refine ⟨⟨?_, ?_⟩, (Except.ok.inj hset).symm⟩
              · rwa [ParamValue.float?_isSome]
              · intro low high hlow hhigh
                simpa [inRange, hlow, hhigh, ParamValue.float?] using hrange
            next => contradiction
        | enum v =>
            dsimp only at hset
            split at hset
            next hallowed =>
              refine ⟨⟨?_, ?_⟩, (Except.ok.inj hset).symm⟩
              · rwa [ParamValue.enum?_isSome]
              · simpa [enumAllowed] using hallowed
            next => contradiction

/-- A writable parameter takes every value that it admits. -/
theorem ParameterManager.setValue_of_admits {m : ParameterManager} {name : Bytes} {p : Parameter}
    {value : ParamValue} (hget : m.get name = some p) (hwritable : p.isReadonly = false)
    (hadmits : p.Admits value) : m.setValue name value = .ok (m.store name p value) := by
  unfold get at hget
  unfold setValue
  rw [hget]
  dsimp only
  rw [hwritable, if_neg Bool.false_ne_true]
  cases value with
  | integer v =>
      have hindex := (ParamValue.integer?_isSome p.value).mp hadmits.1
      have hrange : inRange ParamValue.integer? (fun a b => decide (a ≤ b)) v p.min p.max =
          true := by
        have hbounds := hadmits.2
        unfold inRange
        cases hmin : p.min <;> cases hmax : p.max <;> simp_all [ParamValue.integer?]
      have hsame : sameType p.value (.integer v) = true := decide_eq_true hindex
      rw [hsame, Bool.not_true, if_neg Bool.false_ne_true]
      exact if_pos hrange
  | float v =>
      have hindex := (ParamValue.float?_isSome p.value).mp hadmits.1
      have hrange : inRange ParamValue.float? Double.le v p.min p.max = true := by
        have hbounds := hadmits.2
        unfold inRange
        cases hmin : p.min <;> cases hmax : p.max <;> simp_all [ParamValue.float?]
      have hsame : sameType p.value (.float v) = true := decide_eq_true hindex
      rw [hsame, Bool.not_true, if_neg Bool.false_ne_true]
      exact if_pos hrange
  | enum v =>
      have hindex := (ParamValue.enum?_isSome p.value).mp hadmits.1
      have hallowed : enumAllowed p.enumOptions v = true := by
        simpa [enumAllowed] using hadmits.2
      have hsame : sameType p.value (.enum v) = true := decide_eq_true hindex
      rw [hsame, Bool.not_true, if_neg Bool.false_ne_true]
      exact if_pos hallowed

end SimVision
