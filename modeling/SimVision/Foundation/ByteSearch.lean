import Mathlib.Data.List.TakeWhile
import SimVision.Foundation.Cpp

/-! # Searching byte strings

`find` returns the first offset at which the needle occurs. Text in front of a
needle that lacks its first byte only shifts the result.
-/

namespace SimVision.Foundation

variable {needle s first second : Bytes} {c : UInt8} {i : Nat}

/-- The needle stands at an offset of a string. -/
def OccursAt (needle s : Bytes) (i : Nat) : Prop := needle <+: s.drop i

instance : Decidable (OccursAt needle s i) := inferInstanceAs (Decidable (needle <+: s.drop i))

/-- An occurrence within the first part does not depend on the second. -/
theorem OccursAt.append_iff (hwithin : i + needle.length ≤ first.length) :
    OccursAt needle (first ++ second) i ↔ OccursAt needle first i := by
  unfold OccursAt
  rw [List.drop_append_of_le_length (by omega)]
  constructor
  · intro hoccurs
    apply List.prefix_of_prefix_length_le hoccurs (List.prefix_append _ _)
    rw [List.length_drop]
    omega
  · exact fun hoccurs => hoccurs.trans (List.prefix_append _ _)

theorem OccursAt.length_le (hoccurs : OccursAt needle s i) (hneedle : needle ≠ []) :
    i + needle.length ≤ s.length := by
  have hle := List.IsPrefix.length_le hoccurs
  have hpos := List.length_pos_iff.mpr hneedle
  rw [List.length_drop] at hle
  omega

theorem findFirst_some (hfound : findFirst needle s = some i) :
    OccursAt needle s i ∧ ∀ j < i, ¬ OccursAt needle s j := by
  induction s generalizing i with
  | nil =>
      unfold findFirst at hfound
      split at hfound
      next hempty =>
        obtain rfl := Option.some.inj hfound
        rw [hempty]
        exact ⟨List.nil_prefix, fun j hj => absurd hj (Nat.not_lt_zero j)⟩
      next => contradiction
  | cons c rest ih =>
      unfold findFirst at hfound
      split at hfound
      next hprefix =>
        obtain rfl := Option.some.inj hfound
        exact ⟨List.isPrefixOf_iff_prefix.mp hprefix, fun j hj => absurd hj (Nat.not_lt_zero j)⟩
      next hprefix =>
        obtain ⟨k, hk, rfl⟩ := Option.map_eq_some_iff.mp hfound
        obtain ⟨hoccurs, hfirst⟩ := ih hk
        refine ⟨hoccurs, fun j hj => ?_⟩
        cases j with
        | zero => exact fun hzero => hprefix (List.isPrefixOf_iff_prefix.mpr hzero)
        | succ j => exact hfirst j (by omega)

theorem findFirst_eq_some (hoccurs : OccursAt needle s i) (hneedle : needle ≠ [])
    (hfirst : ∀ j < i, ¬ OccursAt needle s j) : findFirst needle s = some i := by
  induction s generalizing i with
  | nil =>
      rw [OccursAt, List.drop_nil, List.prefix_nil] at hoccurs
      exact absurd hoccurs hneedle
  | cons c rest ih =>
      unfold findFirst
      cases i with
      | zero =>
          have hprefix : needle.isPrefixOf (c :: rest) = true :=
            List.isPrefixOf_iff_prefix.mpr hoccurs
          rw [if_pos hprefix]
      | succ i =>
          have hnot : ¬ needle.isPrefixOf (c :: rest) = true :=
            fun hprefix => hfirst 0 (Nat.succ_pos i) (List.isPrefixOf_iff_prefix.mp hprefix)
          rw [if_neg hnot, ih hoccurs fun j hj => hfirst (j + 1) (by omega)]
          rfl

theorem findFirst_ne_none (hoccurs : OccursAt needle s i) (hneedle : needle ≠ []) :
    findFirst needle s ≠ none := by
  induction i using Nat.strong_induction_on with
  | _ i ih =>
      by_cases hbefore : ∃ j < i, OccursAt needle s j
      · obtain ⟨j, hj, hoccursBefore⟩ := hbefore
        exact ih j hj hoccursBefore
      · rw [findFirst_eq_some hoccurs hneedle fun j hj hoccursBefore =>
          hbefore ⟨j, hj, hoccursBefore⟩]
        exact Option.some_ne_none _

/-- Text behind the first occurrence does not change it. -/
theorem findFirst_append_of_some (hfound : findFirst needle first = some i) (hneedle : needle ≠ [])
    (second : Bytes) : findFirst needle (first ++ second) = some i := by
  obtain ⟨hoccurs, hfirst⟩ := findFirst_some hfound
  have hwithin := hoccurs.length_le hneedle
  apply findFirst_eq_some ((OccursAt.append_iff hwithin).mpr hoccurs) hneedle
  intro j hj hbefore
  exact hfirst j hj ((OccursAt.append_iff (by omega)).mp hbefore)

/-- A string whose first occurrence is known, cut off: it is found once it is whole. -/
theorem findFirst_isSome_iff (hfound : findFirst needle s = some i) (hneedle : needle ≠ [])
    (hcut : first <+: s) :
    (findFirst needle first).isSome = true ↔ i + needle.length ≤ first.length := by
  obtain ⟨second, rfl⟩ := hcut
  constructor
  · intro hsome
    obtain ⟨j, hj⟩ := Option.isSome_iff_exists.mp hsome
    obtain rfl := Option.some.inj ((findFirst_append_of_some hj hneedle second).symm.trans hfound)
    exact (findFirst_some hj).1.length_le hneedle
  · intro hwithin
    have hoccurs := (OccursAt.append_iff hwithin).mp (findFirst_some hfound).1
    exact Option.isSome_iff_ne_none.mpr (findFirst_ne_none hoccurs hneedle)

/-- The first occurrence is found from every place in front of it. -/
theorem find_of_le (hfound : findFirst needle s = some i) (hneedle : needle ≠ []) {pos : Nat}
    (hle : pos ≤ i) : find s needle pos = some i := by
  obtain ⟨hoccurs, hfirst⟩ := findFirst_some hfound
  have hwithin := hoccurs.length_le hneedle
  have hshift : findFirst needle (s.drop pos) = some (i - pos) := by
    apply findFirst_eq_some _ hneedle
    · intro j hj hbefore
      apply hfirst (pos + j) (by omega)
      rwa [OccursAt, List.drop_drop] at hbefore
    · rw [OccursAt, List.drop_drop, Nat.add_sub_cancel' hle]
      exact hoccurs
  rw [find, if_pos (by omega), hshift, Option.map_some, Nat.sub_add_cancel hle]

theorem find_eq_none (hnone : findFirst needle s = none) (hneedle : needle ≠ []) (pos : Nat) :
    find s needle pos = none := by
  unfold find
  split
  next =>
    rw [Option.map_eq_none_iff]
    by_contra hsome
    obtain ⟨j, hj⟩ := Option.ne_none_iff_exists'.mp hsome
    have hoccurs := (findFirst_some hj).1
    rw [OccursAt, List.drop_drop] at hoccurs
    exact findFirst_ne_none hoccurs hneedle hnone
  next => rfl

/-- A search that starts behind the first part. -/
theorem find_append_right (pos : Nat) : find (first ++ second) needle (first.length + pos) =
    (find second needle pos).map (· + first.length) := by
  unfold find
  rw [List.length_append, List.drop_length_add_append]
  by_cases hpos : pos ≤ second.length
  · rw [if_pos hpos, if_pos (by omega), Option.map_map]
    refine congrArg (Option.map · _) (funext fun i => ?_)
    simp only [Function.comp_apply]
    omega
  · rw [if_neg hpos, if_neg (by omega)]
    rfl

theorem find_zero : find s needle 0 = findFirst needle s := by
  simp [find]

/-- The search goes past text without the first byte of the needle. -/
theorem findFirst_append (hfirst : c ∉ first) :
    findFirst (c :: needle) (first ++ second) =
      (findFirst (c :: needle) second).map (· + first.length) := by
  induction first with
  | nil => simp
  | cons d rest ih =>
      rw [List.mem_cons, not_or] at hfirst
      have hnot : ¬ (c :: needle).isPrefixOf (d :: (rest ++ second)) = true := by
        simp [List.isPrefixOf, hfirst.1]
      rw [List.cons_append, findFirst, if_neg hnot, ih hfirst.2, Option.map_map]
      rfl

/-- Cutting a string at the first occurrence of a byte. -/
theorem findFirst_byte : findFirst [c] s =
    if c ∈ s then some (s.takeWhile fun d => d ≠ c).length else none := by
  induction s with
  | nil => simp [findFirst]
  | cons d rest ih =>
      unfold findFirst
      by_cases heq : c = d
      · simp [heq, List.isPrefixOf]
      · rw [if_neg (by simp [List.isPrefixOf, heq]), ih]
        split
        next hmem => simp [hmem, Ne.symm heq]
        next hmem => simp [hmem, heq]

theorem substr_append (first second rest : Bytes) :
    substr (first ++ (second ++ rest)) first.length second.length = second := by
  simp [substr]

theorem substr_zero (first second : Bytes) : substr (first ++ second) 0 first.length = first := by
  simp [substr]

theorem toLower_append (first second : Bytes) :
    toLower (first ++ second) = toLower first ++ toLower second := List.map_append

@[simp] theorem length_toLower (s : Bytes) : (toLower s).length = s.length := List.length_map _

/-- Lower-casing leaves everything but the capitals alone. -/
theorem toLower_eq_self (hcapitals : ∀ d ∈ s, ¬ (65 ≤ d ∧ d ≤ 90)) : toLower s = s := by
  have hsame : ∀ d ∈ s, toLowerByte d = id d := by
    intro d hd
    exact if_neg (hcapitals d hd)
  rw [toLower, List.map_congr_left hsame, List.map_id]

/-- Lower-casing makes no byte below the letters, and keeps those there are. -/
theorem toLowerByte_eq_iff {d : UInt8} (hlow : c < 65) : toLowerByte d = c ↔ d = c := by
  unfold toLowerByte
  split
  next hcapital =>
    obtain ⟨hfirst, hlast⟩ := hcapital
    rw [UInt8.le_iff_toNat_le] at hfirst hlast
    rw [UInt8.lt_iff_toNat_lt] at hlow
    rw [← UInt8.toNat_inj, ← UInt8.toNat_inj, UInt8.toNat_add]
    simp only [UInt8.reduceToNat] at hlow hfirst hlast ⊢
    omega
  next => rfl

theorem mem_toLower_iff (hlow : c < 65) : c ∈ toLower s ↔ c ∈ s := by
  simp only [toLower, List.mem_map, toLowerByte_eq_iff hlow, exists_eq_right]

/-! ## Numbers -/

theorem isDigit_iff : isDigit c = true ↔ 48 ≤ c.toNat ∧ c.toNat ≤ 57 := by
  rw [isDigit, Bool.and_eq_true, decide_eq_true_eq, decide_eq_true_eq, UInt8.le_iff_toNat_le,
    UInt8.le_iff_toNat_le]
  rfl

theorem not_isSpace_of_isDigit (hdigit : isDigit c = true) : isSpace c = false := by
  obtain ⟨hlow, _⟩ := isDigit_iff.mp hdigit
  rw [isSpace, Bool.or_eq_false_iff, Bool.and_eq_false_iff]
  constructor
  · rw [decide_eq_false_iff_not]
    rintro rfl
    contradiction
  · right
    rw [decide_eq_false_iff_not, UInt8.le_iff_toNat_le]
    change ¬ c.toNat ≤ 13
    omega

/-- White space in front of a decimal number that is in range, and no digit behind it. -/
theorem stoul_digits_append {space digits behind : Bytes} (hspace : ∀ d ∈ space, isSpace d = true)
    (hdigits : ∀ d ∈ digits, isDigit d = true) (hsome : digits ≠ [])
    (hrange : decimalValue digits < wordSize) (hbehind : ∀ d ∈ behind.head?, isDigit d = false) :
    stoul (space ++ (digits ++ behind)) = some (decimalValue digits) := by
  obtain ⟨d, rest, rfl⟩ := List.exists_cons_of_ne_nil hsome
  have hfirst : isDigit d = true := hdigits d List.mem_cons_self
  have hstart : (space ++ (d :: rest ++ behind)).dropWhile isSpace = d :: rest ++ behind := by
    rw [List.dropWhile_append_of_pos hspace, List.cons_append, List.dropWhile_cons,
      not_isSpace_of_isDigit hfirst]
    rfl
  have hsign : ∀ sign : UInt8, isDigit sign = false → (d :: rest ++ behind).head? ≠ some sign := by
    intro sign hsign hhead
    rw [List.cons_append, List.head?_cons] at hhead
    rw [← Option.some.inj hhead, hfirst] at hsign
    contradiction
  have hminus := hsign 45 (by decide)
  have hplus := hsign 43 (by decide)
  have hrun : (d :: rest ++ behind).takeWhile isDigit = d :: rest := by
    rw [List.takeWhile_append_of_pos hdigits]
    cases behind with
    | nil => simp
    | cons e behind => simp [hbehind e rfl]
  simp only [stoul, hstart, hminus, hplus, or_self, if_false, hrun, hsome]
  rw [if_neg (Nat.not_le.mpr hrange)]

/-- White space in front of a decimal number that is in range. -/
theorem stoul_digits {space digits : Bytes} (hspace : ∀ d ∈ space, isSpace d = true)
    (hdigits : ∀ d ∈ digits, isDigit d = true) (hsome : digits ≠ [])
    (hrange : decimalValue digits < wordSize) :
    stoul (space ++ digits) = some (decimalValue digits) := by
  have hnothing : ∀ d ∈ ([] : Bytes).head?, isDigit d = false := fun _ hd => absurd hd (by simp)
  rw [← stoul_digits_append hspace hdigits hsome hrange hnothing, List.append_nil]

end SimVision.Foundation
