import Mathlib.Data.List.Infix
import SimVision.Foundation.ByteSearch

/-! # Texts that announce their own end

A part that ends at a separator it does not contain can be cut off a text without
looking at what follows, and a printed number is read back from its digits. Texts
built of such parts and of a body whose length is printed in front of it are no
proper prefixes of each other.
-/

namespace SimVision.Foundation

universe u

variable {α : Type u}

/-- Parts that end at the same separator are compared before what follows them. -/
theorem prefix_of_separated {first other rest later : List α} {sep : α} (hfirst : sep ∉ first)
    (hother : sep ∉ other) (hcut : first ++ sep :: rest <+: other ++ sep :: later) :
    first = other ∧ rest <+: later := by
  induction first generalizing other with
  | nil =>
      cases other with
      | nil => exact ⟨rfl, (List.cons_prefix_cons.mp hcut).2⟩
      | cons c other =>
          have hsep := (List.cons_prefix_cons.mp hcut).1
          exact absurd (hsep ▸ List.mem_cons_self) hother
  | cons b first ih =>
      rw [List.mem_cons, not_or] at hfirst
      cases other with
      | nil => exact absurd (List.cons_prefix_cons.mp hcut).1.symm hfirst.1
      | cons c other =>
          rw [List.mem_cons, not_or] at hother
          obtain ⟨rfl, htail⟩ := List.cons_prefix_cons.mp hcut
          obtain ⟨rfl, hrest⟩ := ih hfirst.2 hother.2 htail
          exact ⟨rfl, hrest⟩

theorem prefix_of_append_left {common rest later : List α}
    (hcut : common ++ rest <+: common ++ later) : rest <+: later :=
  (List.prefix_append_right_inj common).mp hcut

/-! ## Printed numbers -/

theorem digitByte_toNat (n : Nat) : (digitByte n).toNat = 48 + n % 10 := by
  have hlt : n % 10 < 10 := Nat.mod_lt n (by omega)
  rw [digitByte, UInt8.toNat_ofNat']
  change (48 + n % 10) % 256 = _
  exact Nat.mod_eq_of_lt (by omega)

theorem digitByte_isDigit (n : Nat) : isDigit (digitByte n) = true := by
  have hlt : n % 10 < 10 := Nat.mod_lt n (by omega)
  rw [isDigit_iff, digitByte_toNat]
  omega

theorem decimalDigits_isDigit (fuel n : Nat) : ∀ c ∈ decimalDigits fuel n, isDigit c = true := by
  induction fuel generalizing n with
  | zero => exact fun c hc => absurd hc List.not_mem_nil
  | succ fuel ih =>
      intro c hc
      unfold decimalDigits at hc
      split at hc
      next =>
        rw [List.mem_singleton.mp hc]
        exact digitByte_isDigit n
      next =>
        rcases List.mem_append.mp hc with hc | hc
        · exact ih (n / 10) c hc
        · rw [List.mem_singleton.mp hc]
          exact digitByte_isDigit n

theorem decimalValue_append_digit (digits : Bytes) (c : UInt8) :
    decimalValue (digits ++ [c]) = decimalValue digits * 10 + (c.toNat - 48) := by
  rw [decimalValue, List.foldl_append]
  rfl

theorem decimalValue_decimalDigits (fuel n : Nat) (hfuel : n < fuel) :
    decimalValue (decimalDigits fuel n) = n := by
  induction fuel generalizing n with
  | zero => exact absurd hfuel (Nat.not_lt_zero n)
  | succ fuel ih =>
      unfold decimalDigits
      split
      next hlt =>
        have hsingle := decimalValue_append_digit [] (digitByte n)
        rw [List.nil_append, digitByte_toNat, Nat.mod_eq_of_lt hlt] at hsingle
        rw [hsingle]
        change 0 * 10 + (48 + n - 48) = n
        omega
      next hge =>
        rw [decimalValue_append_digit, ih (n / 10) (by omega), digitByte_toNat]
        omega

/-- A printed number is read back. -/
theorem decimalValue_decimal (n : Nat) : decimalValue (decimal n) = n :=
  decimalValue_decimalDigits (n + 1) n (Nat.lt_succ_self n)

theorem decimal_isDigit (n : Nat) : ∀ c ∈ decimal n, isDigit c = true :=
  decimalDigits_isDigit (n + 1) n

theorem decimal_injective {m n : Nat} (heq : decimal m = decimal n) : m = n := by
  rw [← decimalValue_decimal m, heq, decimalValue_decimal]

theorem notMem_decimal {c : UInt8} (hc : isDigit c = false) (n : Nat) : c ∉ decimal n := by
  intro hmem
  rw [decimal_isDigit n c hmem] at hc
  contradiction

/-- A body behind its printed length: as a prefix of another such text it is that
text. -/
theorem eq_of_framed {sep : UInt8} {line body other : Bytes} (hsep : isDigit sep = false)
    (hcut : decimal body.length ++ sep :: (line ++ body) <+:
      decimal other.length ++ sep :: (line ++ other)) : body = other := by
  obtain ⟨hlength, hrest⟩ :=
    prefix_of_separated (notMem_decimal hsep _) (notMem_decimal hsep _) hcut
  exact (prefix_of_append_left hrest).eq_of_length (decimal_injective hlength)

end SimVision.Foundation
