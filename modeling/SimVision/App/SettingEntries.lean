import SimVision.App.CameraSetting

/-! # Entries that cut a load short

`load_camera_setting` applies the entries of the file one by one. Unknown names
and refused values are passed over, but a value that does not convert leaves the
loop: the entries before it stay applied and the entries after it are never seen.
-/

namespace SimVision

open Foundation

section Entries

variable (lib : JsonLibrary) (m : ParameterManager)

/-- The entry names a parameter and its value does not convert to its type. -/
def Malformed (entry : Bytes × Json) : Prop :=
  ∃ p what, m.get entry.1 = some p ∧ CommandHandler.convertValue lib p.value entry.2 = .error what

/-- The entry names a writable parameter and carries a value that it admits. -/
def Carries (entry : Bytes × Json) (v : ParamValue) : Prop :=
  ∃ p, m.get entry.1 = some p ∧ p.isReadonly = false ∧
    CommandHandler.convertValue lib p.value entry.2 = .ok v ∧ p.Admits v

/-- Applying the entry changes the value of its parameter. -/
def Changes (entry : Bytes × Json) : Prop :=
  ∃ v, Carries lib m entry v ∧ (m.get entry.1).map Parameter.value ≠ some v

/-- Either no value has changed, or every valid entry has been applied. -/
def AllOrNothing (entries : List (Bytes × Json)) (after : ParameterManager) : Prop :=
  (∀ name, (after.get name).map Parameter.value = (m.get name).map Parameter.value) ∨
    ∀ entry ∈ entries, ∀ v, Carries lib m entry v →
      (after.get entry.1).map Parameter.value = some v

/-- The first malformed entry does not stand between two that change a value. -/
def NotCutShort (entries : List (Bytes × Json)) : Prop :=
  ∀ before bad after, entries = before ++ bad :: after →
    (∀ entry ∈ before, ¬ Malformed lib m entry) → Malformed lib m bad →
    (∀ entry ∈ before, ¬ Changes lib m entry) ∨ ∀ entry ∈ after, ¬ Changes lib m entry

end Entries

section Load

variable {lib : JsonLibrary} {m m' : ParameterManager} {entry : Bytes × Json}

/-- Whether an entry is malformed depends on the parameter it names. -/
theorem Malformed.of_get (hget : m'.get entry.1 = m.get entry.1) (hbad : Malformed lib m entry) :
    Malformed lib m' entry := by
  obtain ⟨p, what, hp, hconvert⟩ := hbad
  exact ⟨p, what, hget.trans hp, hconvert⟩

theorem Carries.of_get {v : ParamValue} (hget : m'.get entry.1 = m.get entry.1)
    (hcarries : Carries lib m entry v) : Carries lib m' entry v := by
  obtain ⟨p, hp, hwritable, hconvert, hadmits⟩ := hcarries
  exact ⟨p, hget.trans hp, hwritable, hconvert, hadmits⟩

/-- A malformed entry throws. -/
theorem loadCameraEntry_malformed (hbad : Malformed lib m entry) :
    ∃ what, loadCameraEntry lib m entry.1 entry.2 = .error what := by
  obtain ⟨p, what, hget, hconvert⟩ := hbad
  refine ⟨what, ?_⟩
  rw [loadCameraEntry, hget]
  dsimp only
  rw [hconvert]
  rfl

/-- What an entry does that does not throw. -/
theorem loadCameraEntry_spec (hgood : ¬ Malformed lib m entry) :
    ∃ next, loadCameraEntry lib m entry.1 entry.2 = .ok next ∧
      (∀ other, other ≠ entry.1 → next.get other = m.get other) ∧
      (∀ v, Carries lib m entry v → (next.get entry.1).map Parameter.value = some v) ∧
      ((∀ v, ¬ Carries lib m entry v) → next.get entry.1 = m.get entry.1) := by
  rw [loadCameraEntry]
  cases hget : m.get entry.1 with
  | none =>
      refine ⟨m, rfl, fun _ _ => rfl, ?_, fun _ => hget⟩
      rintro v ⟨p, hp, _⟩
      rw [hget] at hp
      contradiction
  | some p =>
      dsimp only
      cases hconvert : CommandHandler.convertValue lib p.value entry.2 with
      | error what => exact absurd ⟨p, what, hget, hconvert⟩ hgood
      | ok v =>
          refine ⟨_, rfl, ?_⟩
          dsimp only
          cases hset : m.setValue entry.1 v with
          | ok next =>
              obtain ⟨current, hcurrent, hwritable, hadmits, rfl⟩ :=
                ParameterManager.setValue_ok hset
              obtain rfl : p = current := Option.some.inj (hget.symm.trans hcurrent)
              refine ⟨?_, ?_, ?_⟩
              · intro other hne
                rw [ParameterManager.get_store hget, if_neg hne]
              · rintro w ⟨q, hq, _, hw, _⟩
                obtain rfl : p = q := Option.some.inj (hget.symm.trans hq)
                rw [hconvert, Except.ok.injEq] at hw
                rw [ParameterManager.get_store hget, if_pos rfl, Option.map_some, hw]
              · intro hnone
                exact absurd ⟨p, hget, hwritable, hconvert, hadmits⟩ (hnone v)
          | error err =>
              refine ⟨fun _ _ => rfl, ?_, fun _ => hget⟩
              rintro w ⟨q, hq, hwritable, hw, hadmits⟩
              obtain rfl : p = q := Option.some.inj (hget.symm.trans hq)
              rw [hconvert, Except.ok.injEq] at hw
              rw [hw, ParameterManager.setValue_of_admits hget hwritable hadmits] at hset
              contradiction

/-- A load touches only the parameters that its entries name. -/
theorem loadCameraEntries_frame {entries : List (Bytes × Json)} {name : Bytes}
    (habsent : name ∉ entries.map Prod.fst) :
    (loadCameraEntries lib m entries).get name = m.get name := by
  induction entries generalizing m with
  | nil => rfl
  | cons entry rest ih =>
      rw [List.map_cons, List.mem_cons, not_or] at habsent
      by_cases hbad : Malformed lib m entry
      · obtain ⟨what, hthrow⟩ := loadCameraEntry_malformed hbad
        rw [loadCameraEntries, hthrow]
      · obtain ⟨next, hentry, hothers, _⟩ := loadCameraEntry_spec hbad
        rw [loadCameraEntries, hentry]
        dsimp only
        rw [ih habsent.2, hothers name habsent.1]

/-- Without malformed entries every entry is applied if it is valid, and otherwise
leaves its parameter alone. -/
theorem loadCameraEntries_spec {entries : List (Bytes × Json)}
    (hkeys : (entries.map Prod.fst).Nodup) (hgood : ∀ entry ∈ entries, ¬ Malformed lib m entry) :
    ∀ entry ∈ entries,
      (∀ v, Carries lib m entry v →
        ((loadCameraEntries lib m entries).get entry.1).map Parameter.value = some v) ∧
      ((∀ v, ¬ Carries lib m entry v) →
        (loadCameraEntries lib m entries).get entry.1 = m.get entry.1) := by
  induction entries generalizing m with
  | nil => exact nofun
  | cons first rest ih =>
      rw [List.map_cons, List.nodup_cons] at hkeys
      rw [List.forall_mem_cons] at hgood
      obtain ⟨next, hentry, hothers, hcarries, hkept⟩ := loadCameraEntry_spec hgood.1
      have hsame : ∀ entry ∈ rest, next.get entry.1 = m.get entry.1 := by
        intro entry hmem
        refine hothers entry.1 ?_
        intro heq
        exact hkeys.1 (heq ▸ List.mem_map.mpr ⟨entry, hmem, rfl⟩)
      have hlater := @ih next hkeys.2 fun entry hmem hbad =>
        hgood.2 entry hmem (hbad.of_get (hsame entry hmem).symm)
      rw [loadCameraEntries, hentry]
      dsimp only
      intro entry hmem
      rcases List.mem_cons.mp hmem with rfl | hmem
      · rw [loadCameraEntries_frame hkeys.1]
        exact ⟨hcarries, hkept⟩
      · obtain ⟨happlied, huntouched⟩ := hlater entry hmem
        refine ⟨fun v hv => happlied v (hv.of_get (hsame entry hmem)), ?_⟩
        intro hnone
        rw [← hsame entry hmem]
        exact huntouched fun v hv => hnone v (hv.of_get (hsame entry hmem).symm)

/-- The first malformed entry ends the load. -/
theorem loadCameraEntries_cut {before after : List (Bytes × Json)} {bad : Bytes × Json}
    (hkeys : ((before ++ bad :: after).map Prod.fst).Nodup)
    (hgood : ∀ entry ∈ before, ¬ Malformed lib m entry) (hbad : Malformed lib m bad) :
    loadCameraEntries lib m (before ++ bad :: after) = loadCameraEntries lib m before := by
  induction before generalizing m with
  | nil =>
      obtain ⟨what, hthrow⟩ := loadCameraEntry_malformed hbad
      simp only [List.nil_append, loadCameraEntries, hthrow]
  | cons first rest ih =>
      rw [List.cons_append, List.map_cons, List.nodup_cons] at hkeys
      rw [List.forall_mem_cons] at hgood
      obtain ⟨next, hentry, hothers, _⟩ := loadCameraEntry_spec hgood.1
      have hsame : ∀ entry ∈ rest ++ bad :: after, next.get entry.1 = m.get entry.1 := by
        intro entry hmem
        refine hothers entry.1 ?_
        intro heq
        exact hkeys.1 (heq ▸ List.mem_map.mpr ⟨entry, hmem, rfl⟩)
      rw [List.cons_append, loadCameraEntries, loadCameraEntries, hentry]
      dsimp only
      refine ih hkeys.2 ?_ (hbad.of_get (hsame bad (by simp)))
      intro entry hmem hmalformed
      exact hgood.2 entry hmem
        (hmalformed.of_get (hsame entry (List.mem_append_left _ hmem)).symm)

/-- A load without malformed entries changes no value if and only if no entry
changes one. -/
theorem unchanged_iff {entries : List (Bytes × Json)} (hkeys : (entries.map Prod.fst).Nodup)
    (hgood : ∀ entry ∈ entries, ¬ Malformed lib m entry) :
    (∀ name, ((loadCameraEntries lib m entries).get name).map Parameter.value =
        (m.get name).map Parameter.value) ↔ ∀ entry ∈ entries, ¬ Changes lib m entry := by
  have hspec := loadCameraEntries_spec hkeys hgood
  constructor
  · rintro hsame entry hmem ⟨v, hcarries, hne⟩
    rw [← hsame entry.1, (hspec entry hmem).1 v hcarries] at hne
    contradiction
  · intro hquiet name
    by_cases hname : name ∈ entries.map Prod.fst
    · obtain ⟨entry, hmem, rfl⟩ := List.mem_map.mp hname
      by_cases hcarries : ∃ v, Carries lib m entry v
      · obtain ⟨v, hv⟩ := hcarries
        rw [(hspec entry hmem).1 v hv]
        by_contra hne
        exact hquiet entry hmem ⟨v, hv, Ne.symm hne⟩
      · rw [(hspec entry hmem).2 fun v hv => hcarries ⟨v, hv⟩]
    · rw [loadCameraEntries_frame hname]

/-- Either no entry is malformed, or one is the first. -/
theorem first_malformed (entries : List (Bytes × Json)) :
    (∀ entry ∈ entries, ¬ Malformed lib m entry) ∨
      ∃ before bad after, entries = before ++ bad :: after ∧
        (∀ entry ∈ before, ¬ Malformed lib m entry) ∧ Malformed lib m bad := by
  classical
  cases hfind : entries.find? fun entry => Malformed lib m entry with
  | none =>
      left
      intro entry hmem hbad
      exact List.find?_eq_none.mp hfind entry hmem (decide_eq_true hbad)
  | some bad =>
      right
      obtain ⟨hbad, before, after, hsplit, hgood⟩ := List.find?_eq_some_iff_append.mp hfind
      refine ⟨before, bad, after, hsplit, ?_, of_decide_eq_true hbad⟩
      intro entry hmem
      simpa using hgood entry hmem

end Load

/-- For every object in the file and every parameter store, a load is all or
nothing if and only if the first malformed entry does not stand between two that
change a value. -/
theorem load_allOrNothing_iff {lib : JsonLibrary} {text : Bytes} {members : List (Bytes × Json)}
    (hparse : lib.parseStream text = .ok (.object members)) (hsorted : Json.SortedMembers members)
    (m : ParameterManager) :
    AllOrNothing lib m members (loadCameraSetting lib (some text) m) ↔
      NotCutShort lib m members := by
  have hload : loadCameraSetting lib (some text) m = loadCameraEntries lib m members := by
    rw [loadCameraSetting, hparse]
    rfl
  rw [hload]
  have hkeys := hsorted.keys_nodup
  -- with a first malformed entry, what is loaded is what stands before it
  have hcut : ∀ before bad after, members = before ++ bad :: after →
      (∀ entry ∈ before, ¬ Malformed lib m entry) → Malformed lib m bad →
      (AllOrNothing lib m members (loadCameraEntries lib m members) ↔
        (∀ entry ∈ before, ¬ Changes lib m entry) ∨ ∀ entry ∈ after, ¬ Changes lib m entry) := by
    intro before bad after hsplit hgood hbad
    rw [hsplit] at hkeys
    have hbeforeKeys : (before.map Prod.fst).Nodup := by
      rw [List.map_append] at hkeys
      exact hkeys.of_append_left
    have hlater : ∀ entry ∈ after,
        (loadCameraEntries lib m before).get entry.1 = m.get entry.1 := by
      intro entry hmem
      refine loadCameraEntries_frame fun hname => ?_
      rw [List.map_append] at hkeys
      exact List.disjoint_of_nodup_append hkeys hname
        (List.mem_map.mpr ⟨entry, List.mem_cons_of_mem _ hmem, rfl⟩)
    rw [hsplit, loadCameraEntries_cut hkeys hgood hbad, AllOrNothing,
      unchanged_iff hbeforeKeys hgood]
    refine or_congr_right ?_
    constructor
    · rintro happlied entry hmem ⟨v, hcarries, hne⟩
      have hvalue := happlied entry (by simp [hmem]) v hcarries
      rw [hlater entry hmem] at hvalue
      exact hne hvalue
    · intro hquiet entry hmem v hcarries
      rcases List.mem_append.mp hmem with hbefore | hrest
      · exact (loadCameraEntries_spec hbeforeKeys hgood entry hbefore).1 v hcarries
      · rcases List.mem_cons.mp hrest with rfl | hafter
        · obtain ⟨p, what, hp, hthrow⟩ := hbad
          obtain ⟨q, hq, _, hconvert, _⟩ := hcarries
          obtain rfl : p = q := Option.some.inj (hp.symm.trans hq)
          rw [hthrow] at hconvert
          contradiction
        · rw [hlater entry hafter]
          by_contra hne
          exact hquiet entry hafter ⟨v, hcarries, hne⟩
  constructor
  · intro hall before bad after hsplit hgood hbad
    exact (hcut before bad after hsplit hgood hbad).mp hall
  · intro hwhole
    rcases @first_malformed lib m members with hgood | ⟨before, bad, after, hsplit, hgood, hbad⟩
    · exact .inr fun entry hmem v hv => (loadCameraEntries_spec hkeys hgood entry hmem).1 v hv
    · exact (hcut before bad after hsplit hgood hbad).mpr
        (hwhole before bad after hsplit hgood hbad)

/-- The members of a settings file. -/
def settingsOf (entries : List (String × Json)) : List (Bytes × Json) :=
  entries.map fun entry => (lit entry.1, entry.2)

/-- A malformed entry after the only one that changes a value. -/
def trailingFailure : List (Bytes × Json) :=
  settingsOf [("denoising", .unsigned 10), ("fps", .string (lit "fast"))]

theorem reading_parseStream (j : Json) : (JsonLibrary.reading j).parseStream j.text = .ok j :=
  if_pos rfl

theorem get_denoising : (registerParameters {} {}).get (lit "denoising") =
    some (addInt (lit "denoising") 50 0 100 false) := by decide

theorem get_gain : (registerParameters {} {}).get (lit "gain") =
    some (addInt (lit "gain") 50 0 100 false) := by decide

theorem trailingFailure_allOrNothing :
    AllOrNothing (.reading (.object trailingFailure)) (registerParameters {} {}) trailingFailure
      (loadCameraSetting (.reading (.object trailingFailure))
        (some (Json.object trailingFailure).text) (registerParameters {} {})) := by
  have hsorted : Json.SortedMembers trailingFailure := by
    unfold Json.SortedMembers
    decide
  refine (load_allOrNothing_iff (reading_parseStream _) hsorted _).mpr ?_
  intro before bad after hsplit hgood hbad
  cases before with
  | nil =>
      -- the first entry is not malformed
      obtain ⟨rfl, _⟩ := List.cons.inj hsplit
      obtain ⟨p, what, hget, hthrow⟩ := hbad
      rw [get_denoising, Option.some.injEq] at hget
      subst hget
      contradiction
  | cons first rest =>
      cases rest with
      | nil =>
          obtain ⟨_, htail⟩ := List.cons.inj hsplit
          obtain ⟨_, rfl⟩ := List.cons.inj htail
          exact .inr nofun
      | cons second rest =>
          have hlength := congrArg List.length hsplit
          simp [trailingFailure, settingsOf] at hlength

/-- A malformed entry between two that change a value. -/
def middleFailure : List (Bytes × Json) :=
  settingsOf [("denoising", .unsigned 10), ("fps", .string (lit "fast")), ("gain", .unsigned 70)]

/-- `denoising` is loaded and `gain` is not. -/
theorem middleFailure_halfDone :
    ¬ ∀ (lib : JsonLibrary), lib.ConvertsStrings → lib.ConvertsInt64 →
      ∀ (text : Bytes) (members : List (Bytes × Json)),
        lib.parseStream text = .ok (.object members) → Json.SortedMembers members →
        ∀ m : ParameterManager, AllOrNothing lib m members
          (loadCameraSetting lib (some text) m) := by
  intro hclaim
  have hstrings : (JsonLibrary.reading (.object middleFailure)).ConvertsStrings :=
    ⟨fun _ => rfl, JsonLibrary.plain_convertsStrings.getString_ok⟩
  have hints : (JsonLibrary.reading (.object middleFailure)).ConvertsInt64 :=
    ⟨fun _ _ => rfl, fun _ _ => rfl⟩
  have hsorted : Json.SortedMembers middleFailure := by
    unfold Json.SortedMembers
    decide
  have hload : loadCameraSetting (.reading (.object middleFailure))
      (some (Json.object middleFailure).text) (registerParameters {} {}) =
      loadCameraEntries (.reading (.object middleFailure)) (registerParameters {} {})
        middleFailure := by
    rw [loadCameraSetting, reading_parseStream]
    rfl
  have hall := hclaim _ hstrings hints _ _ (reading_parseStream _) hsorted
    (registerParameters {} {})
  rw [hload] at hall
  rcases hall with hsame | happlied
  · have hchanged : ((loadCameraEntries (.reading (.object middleFailure))
        (registerParameters {} {}) middleFailure).get (lit "denoising")).map Parameter.value =
          some (.integer 10) := by decide
    have hdenoising := hsame (lit "denoising")
    rw [hchanged, get_denoising] at hdenoising
    contradiction
  · have hskipped : ((loadCameraEntries (.reading (.object middleFailure))
        (registerParameters {} {}) middleFailure).get (lit "gain")).map Parameter.value =
          some (.integer 50) := by decide
    have hgain := happlied (lit "gain", .unsigned 70) (by simp [middleFailure, settingsOf])
      (.integer 70) ⟨_, get_gain, rfl, rfl, rfl, fun low high hlow hhigh => ?_⟩
    · rw [hskipped] at hgain
      contradiction
    · obtain rfl := ParamValue.integer.inj hlow
      obtain rfl := ParamValue.integer.inj hhigh
      exact ⟨by decide, by decide⟩

end SimVision
