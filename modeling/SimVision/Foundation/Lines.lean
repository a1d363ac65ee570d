import SimVision.Foundation.ByteSearch

/-! # Lines of a byte string

Lines are ended by two bytes. A needle without the first of them lies within one
line, so the first line that contains it has its first occurrence.
-/

namespace SimVision.Foundation

variable {a b c : UInt8} {needle s first second line : Bytes} {lines : List Bytes} {i : Nat}

/-- Put a byte in front of the first line. -/
def consLine (c : UInt8) : List Bytes → List Bytes
  | [] => [[c]]
  | line :: lines => (c :: line) :: lines

/-- The lines of a string that the bytes `a` and `b` separate. -/
def linesBy (a b : UInt8) : Bytes → List Bytes
  | [] => [[]]
  | [c] => [[c]]
  | c :: d :: rest =>
      if c = a ∧ d = b then [] :: linesBy a b rest else consLine c (linesBy a b (d :: rest))

example : linesBy 13 10 (lit "a\r\n\r\nb") = [lit "a", [], lit "b"] := by decide

theorem linesBy_ne_nil (s : Bytes) : linesBy a b s ≠ [] := by
  fun_induction linesBy a b s with
  | case1 => exact List.cons_ne_nil _ _
  | case2 c => exact List.cons_ne_nil _ _
  | case3 c d rest hbreak => exact List.cons_ne_nil _ _
  | case4 c d rest hbreak ih =>
      cases hlines : linesBy a b (d :: rest) with
      | nil => exact absurd hlines ih
      | cons line lines => exact List.cons_ne_nil _ _

theorem isPrefixOf_pair_iff {d : UInt8} {rest : Bytes} :
    [a, b].isPrefixOf (c :: d :: rest) = true ↔ c = a ∧ d = b := by
  simp only [List.isPrefixOf, Bool.and_true, Bool.and_eq_true, beq_iff_eq]
  exact and_congr eq_comm eq_comm

/-- A string without a separator is one line. -/
theorem linesBy_of_none (hnone : findFirst [a, b] s = none) : linesBy a b s = [s] := by
  fun_induction linesBy a b s with
  | case1 => rfl
  | case2 c => rfl
  | case3 c d rest hbreak =>
      rw [findFirst, if_pos (isPrefixOf_pair_iff.mpr hbreak)] at hnone
      contradiction
  | case4 c d rest hbreak ih =>
      rw [findFirst, if_neg (isPrefixOf_pair_iff.not.mpr hbreak), Option.map_eq_none_iff] at hnone
      rw [ih hnone]
      rfl

/-- The first separator ends the first line. -/
theorem linesBy_of_some (hfound : findFirst [a, b] s = some i) :
    linesBy a b s = s.take i :: linesBy a b (s.drop (i + 2)) := by
  fun_induction linesBy a b s generalizing i with
  | case1 => contradiction
  | case2 c =>
      simp [findFirst, List.isPrefixOf] at hfound
  | case3 c d rest hbreak =>
      rw [findFirst, if_pos (isPrefixOf_pair_iff.mpr hbreak)] at hfound
      obtain rfl := Option.some.inj hfound
      rfl
  | case4 c d rest hbreak ih =>
      rw [findFirst, if_neg (isPrefixOf_pair_iff.not.mpr hbreak)] at hfound
      obtain ⟨k, hk, rfl⟩ := Option.map_eq_some_iff.mp hfound
      rw [ih hk]
      rfl

/-- The lines in front of a separator and behind it. -/
theorem linesBy_append (hne : a ≠ b) (first second : Bytes) :
    linesBy a b (first ++ a :: b :: second) = linesBy a b first ++ linesBy a b second := by
  have hbreak : linesBy a b (a :: b :: second) = [] :: linesBy a b second := if_pos ⟨rfl, rfl⟩
  fun_induction linesBy a b first with
  | case1 => exact hbreak
  | case2 c =>
      rw [List.singleton_append, linesBy, if_neg fun h => hne h.2, hbreak]
      rfl
  | case3 c d rest hpair ih =>
      rw [List.cons_append, List.cons_append, linesBy, if_pos hpair, ih]
      rfl
  | case4 c d rest hpair ih =>
      rw [List.cons_append] at ih
      rw [List.cons_append, List.cons_append, linesBy, if_neg hpair, ih]
      obtain ⟨line, lines, hlines⟩ := List.exists_cons_of_ne_nil (@linesBy_ne_nil a b (d :: rest))
      rw [hlines]
      rfl

/-- A map that keeps the separators apart from the other bytes works line by line. -/
theorem linesBy_map {f : UInt8 → UInt8} (hfirst : ∀ c, f c = a ↔ c = a)
    (hsecond : ∀ c, f c = b ↔ c = b) (s : Bytes) :
    linesBy a b (s.map f) = (linesBy a b s).map (List.map f) := by
  fun_induction linesBy a b s with
  | case1 => rfl
  | case2 c => rfl
  | case3 c d rest hbreak ih =>
      rw [List.map_cons, List.map_cons, linesBy,
        if_pos ((and_congr (hfirst c) (hsecond d)).mpr hbreak), ih]
      rfl
  | case4 c d rest hbreak ih =>
      rw [List.map_cons] at ih
      rw [List.map_cons, List.map_cons, linesBy,
        if_neg ((and_congr (hfirst c) (hsecond d)).not.mpr hbreak), ih]
      cases linesBy a b (d :: rest) <;> rfl

/-! ## Searching line by line -/

/-- A needle without the byte `c` does not reach over it. -/
theorem isPrefixOf_append_cons (hfree : c ∉ needle) :
    needle.isPrefixOf (first ++ c :: second) = needle.isPrefixOf first := by
  induction first generalizing needle with
  | nil =>
      cases needle with
      | nil => rfl
      | cons d rest =>
          have hne : d ≠ c := fun heq => hfree (heq ▸ List.mem_cons_self)
          simp [List.isPrefixOf, hne]
  | cons e first ih =>
      cases needle with
      | nil => rfl
      | cons d rest =>
          rw [List.cons_append, List.isPrefixOf, List.isPrefixOf,
            ih fun hmem => hfree (List.mem_cons_of_mem _ hmem)]

/-- The first occurrence is in front of a byte that the needle lacks, or behind it. -/
theorem findFirst_append_cons (hneedle : needle ≠ []) (hfree : c ∉ needle) :
    findFirst needle (first ++ c :: second) =
      (findFirst needle first).or ((findFirst needle second).map (· + (first.length + 1))) := by
  induction first with
  | nil =>
      have hnot : ¬ needle.isPrefixOf (c :: second) = true := by
        rw [← List.nil_append (c :: second), isPrefixOf_append_cons hfree]
        simpa using hneedle
      have hbehind : findFirst needle (c :: second) = (findFirst needle second).map (· + 1) :=
        if_neg hnot
      have hempty : findFirst needle [] = none := if_neg hneedle
      rw [List.nil_append, hbehind, hempty]
      rfl
  | cons d first ih =>
      rw [List.cons_append, findFirst, ← List.cons_append, isPrefixOf_append_cons hfree, findFirst]
      split
      next => rfl
      next =>
        rw [ih, Option.map_or, Option.map_map]
        rfl

end SimVision.Foundation
