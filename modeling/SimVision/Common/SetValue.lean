import SimVision.Common.Parameter

/-! # What a call of `set_value` does

The value of one parameter changes if it is registered, writable and admits the new
value; otherwise nothing changes and the caller is told why. So no sequence of calls
takes a value out of its bounds.
-/

namespace SimVision

open Foundation

/-- A call of `set_value` as its caller sees it. -/
structure SetValueCall where
  store : ParameterManager
  err : Bytes
  returned : Bool

namespace ParameterManager

/-- `set_value` with what `err` held before. -/
def callSetValue (m : ParameterManager) (name : Bytes) (value : ParamValue) (err : Bytes) :
    SetValueCall :=
  match m.setValue name value with
  | .ok next => { store := next, err := err, returned := true }
  | .error text => { store := m, err := text, returned := false }

/-- The store after a sequence of calls. -/
def setValues (m : ParameterManager) (calls : List (Bytes × ParamValue)) : ParameterManager :=
  calls.foldl (fun m call => (m.callSetValue call.1 call.2 []).store) m

/-- The call returns true exactly for a registered, writable parameter that admits the
value. On true this parameter's value is the given one and nothing else has changed;
on false nothing has changed and `err` says why. -/
structure SetsAsSpecified (m : ParameterManager) (name : Bytes) (value : ParamValue)
    (call : SetValueCall) : Prop where
  returned_iff : call.returned = true ↔
    ∃ p, m.get name = some p ∧ p.isReadonly = false ∧ p.Admits value
  changed : call.returned = true → ∀ p, m.get name = some p →
    call.store.get name = some { p with value := value }
  others : ∀ other, other ≠ name → call.store.get other = m.get other
  refused : call.returned = false → call.store = m ∧ call.err ≠ []

end ParameterManager

/-- The value satisfies what a new value would have to. -/
def Parameter.InBounds (p : Parameter) : Prop := p.Admits p.value

/-- Every value within its bounds stays so under any sequence of calls, and its
parameter keeps its other fields. -/
def ParameterManager.KeepsBounds (m : ParameterManager) : Prop :=
  ∀ (calls : List (Bytes × ParamValue)) (name : Bytes) (p : Parameter), m.get name = some p →
    p.InBounds → ∃ value, (m.setValues calls).get name = some { p with value := value } ∧
      ({ p with value := value } : Parameter).InBounds

namespace Parameter

variable {p : Parameter}

/-- A value that was admitted is admitted beside itself. -/
theorem Admits.inBounds {value : ParamValue} (hadmits : p.Admits value) :
    ({ p with value := value } : Parameter).InBounds := by
  cases value with
  | integer v => exact ⟨rfl, hadmits.2⟩
  | float v => exact ⟨rfl, hadmits.2⟩
  | enum v => exact ⟨rfl, hadmits.2⟩

/-- Between two `Float` bounds there is no NaN. -/
theorem not_admits_nan {low high : Double}
    (hmin : p.min = .float low) (hmax : p.max = .float high) :
    ¬ p.Admits (.float .nan) := by
  intro hadmits
  obtain ⟨hlow, _⟩ := hadmits.2 low high hmin hmax
  cases low <;> contradiction

end Parameter

namespace ParameterManager

theorem refusals_ne_nil {refusal : Bytes} (hrefusal : refusal ∈ refusals) : refusal ≠ [] := by
  have hall : ∀ r ∈ refusals, r ≠ [] := by decide
  exact hall refusal hrefusal

theorem callSetValue_spec (m : ParameterManager) (name : Bytes) (value : ParamValue)
    (err : Bytes) : m.SetsAsSpecified name value (m.callSetValue name value err) := by
  cases hset : m.setValue name value with
  | ok next =>
      obtain ⟨p, hget, hwritable, hadmits, rfl⟩ := setValue_ok hset
      have hcall : m.callSetValue name value err = ⟨m.store name p value, err, true⟩ := by
        rw [callSetValue, hset]
      rw [hcall]
      constructor
      case returned_iff => exact iff_of_true rfl ⟨p, hget, hwritable, hadmits⟩
      case changed =>
        intro _ q hq
        obtain rfl := Option.some.inj (hget.symm.trans hq)
        rw [get_store hget, if_pos rfl]
      case others =>
        intro other hother
        rw [get_store hget, if_neg hother]
      case refused =>
        intro hfalse
        contradiction
  | error text =>
      have hcall : m.callSetValue name value err = ⟨m, text, false⟩ := by
        rw [callSetValue, hset]
      rw [hcall]
      constructor
      case returned_iff =>
        refine iff_of_false Bool.false_ne_true ?_
        rintro ⟨p, hget, hwritable, hadmits⟩
        rw [setValue_of_admits hget hwritable hadmits] at hset
        contradiction
      case changed => exact fun htrue => absurd htrue Bool.false_ne_true
      case others => exact fun _ _ => rfl
      case refused =>
        intro _
        obtain ⟨refusal, hrefusal, rfl⟩ := setValue_error hset
        exact ⟨rfl, fun hnil => refusals_ne_nil hrefusal (List.append_eq_nil_iff.mp hnil).1⟩

/-- One call keeps a parameter but for its value, and a value within its bounds there. -/
theorem callSetValue_keepsBounds {m : ParameterManager} {name : Bytes} {p : Parameter}
    (hget : m.get name = some p) (hbounds : p.InBounds) (call : Bytes × ParamValue) :
    ∃ value, (m.callSetValue call.1 call.2 []).store.get name = some { p with value := value } ∧
      ({ p with value := value } : Parameter).InBounds := by
  have hspec := m.callSetValue_spec call.1 call.2 []
  by_cases hname : name = call.1
  · subst hname
    cases hreturned : (m.callSetValue call.1 call.2 []).returned with
    | true =>
        obtain ⟨q, hq, _, hadmits⟩ := hspec.returned_iff.mp hreturned
        obtain rfl := Option.some.inj (hget.symm.trans hq)
        exact ⟨call.2, hspec.changed hreturned _ hq, hadmits.inBounds⟩
    | false =>
        rw [(hspec.refused hreturned).1]
        exact ⟨p.value, hget, hbounds⟩
  · rw [hspec.others name hname]
    exact ⟨p.value, hget, hbounds⟩

theorem keepsBounds (m : ParameterManager) : m.KeepsBounds := by
  intro calls
  induction calls generalizing m with
  | nil => exact fun name p hget hbounds => ⟨p.value, hget, hbounds⟩
  | cons call rest ih =>
      intro name p hget hbounds
      obtain ⟨value, hnext, hkept⟩ := callSetValue_keepsBounds hget hbounds call
      obtain ⟨last, hlast, hbound⟩ :=
        ih (m.callSetValue call.1 call.2 []).store name _ hnext hkept
      exact ⟨last, hlast, hbound⟩

/-- For every store, every call does what is specified, no `Float` bounds admit a NaN,
and sequences of calls keep the values within their bounds. -/
theorem setValue_spec (m : ParameterManager) :
    (∀ name value err, m.SetsAsSpecified name value (m.callSetValue name value err)) ∧
      (∀ (p : Parameter) (low high : Double), p.min = .float low → p.max = .float high →
        ¬ p.Admits (.float .nan)) ∧
      m.KeepsBounds :=
  ⟨m.callSetValue_spec, fun _ _ _ => Parameter.not_admits_nan, m.keepsBounds⟩

end ParameterManager

end SimVision
