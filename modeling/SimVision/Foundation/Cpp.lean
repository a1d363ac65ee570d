import Mathlib.Algebra.Group.Nat.Defs
import Mathlib.Data.List.Basic
import Mathlib.Data.Rat.Defs
import Mathlib.Algebra.Order.Ring.Unbundled.Rat
import Mathlib.Tactic.Common

/-! # Values and operations of the C++ language and its standard library

Unsigned 64-bit arithmetic is natural-number arithmetic modulo `2 ^ 64`, a
`std::string` is a list of bytes, and a `double` keeps exactly the ordering that
comparisons can observe. Operations that throw return `none`.
-/

namespace SimVision.Foundation

/-! ## Unsigned 64-bit arithmetic -/

/-- The number of values of `size_t` and `uint64_t`. -/
def wordSize : Nat := 2 ^ 64

/-- `x + 1` on an unsigned 64-bit value. -/
def wordSucc (x : Nat) : Nat := (x + 1) % wordSize

/-- `x - y` on unsigned 64-bit values. -/
def wordSub (x y : Nat) : Nat := (x + wordSize - y) % wordSize

theorem wordSucc_eq {x : Nat} (hlt : x + 1 < wordSize) : wordSucc x = x + 1 :=
  Nat.mod_eq_of_lt hlt

theorem wordSub_eq {x y : Nat} (hle : y ≤ x) (hlt : x < wordSize) : wordSub x y = x - y := by
  have hshift : x + wordSize - y = x - y + wordSize := by omega
  rw [wordSub, hshift, Nat.add_mod_right]
  exact Nat.mod_eq_of_lt (by omega)

theorem wordSucc_lt (x : Nat) : wordSucc x < wordSize :=
  Nat.mod_lt _ (by simp [wordSize])

theorem wordSub_self (x : Nat) : wordSub x x = 0 := by
  rw [wordSub, Nat.add_sub_cancel_left, Nat.mod_self]

/-- Stepping the subtrahend shortens a distance by one, across the wrap as well. -/
theorem wordSub_wordSucc {x y : Nat} (hx : x < wordSize) (hy : y < wordSize) (hne : x ≠ y) :
    wordSub x (wordSucc y) = wordSub x y - 1 := by
  unfold wordSub wordSucc wordSize at *
  omega

theorem wordSub_eq_zero_iff {x y : Nat} (hx : x < wordSize) (hy : y < wordSize) :
    wordSub x y = 0 ↔ x = y := by
  unfold wordSub wordSize at *
  omega

/-! ## Byte strings -/

/-- The bytes of a `std::string`, with no requirement on their encoding. -/
abbrev Bytes := List UInt8

/-- The bytes of a string literal in a UTF-8 source file. -/
def lit (text : String) : Bytes := text.toUTF8.data.toList

/-- `std::tolower` in the "C" locale, which changes only the ASCII capitals. -/
def toLowerByte (c : UInt8) : UInt8 :=
  if 65 ≤ c ∧ c ≤ 90 then c + 32 else c

/-- Lower-casing a whole string. -/
def toLower (s : Bytes) : Bytes := s.map toLowerByte

/-- Offset of the first occurrence of `needle`. -/
def findFirst (needle : Bytes) : Bytes → Option Nat
  | [] => if needle = [] then some 0 else none
  | c :: rest =>
      if needle.isPrefixOf (c :: rest) then some 0 else (findFirst needle rest).map (· + 1)

/-- `s.find(needle, pos)`, with `none` for `npos`. -/
def find (s needle : Bytes) (pos : Nat) : Option Nat :=
  if pos ≤ s.length then (findFirst needle (s.drop pos)).map (· + pos) else none

/-- `s.substr(pos, count)` for a `pos` within the string. -/
def substr (s : Bytes) (pos count : Nat) : Bytes := (s.drop pos).take count

/-- `std::isspace` in the "C" locale. -/
def isSpace (c : UInt8) : Bool := c = 32 || (9 ≤ c && c ≤ 13)

def isDigit (c : UInt8) : Bool := 48 ≤ c && c ≤ 57

/-- The number written by a list of decimal digits. -/
def decimalValue (digits : Bytes) : Nat :=
  digits.foldl (fun total c => total * 10 + (c.toNat - 48)) 0

/-- `std::stoul(s)`: leading white space and a sign are accepted, a minus sign
negates modulo `2 ^ 64`, and both exceptions are `none`. -/
def stoul (s : Bytes) : Option Nat :=
  let start := s.dropWhile isSpace
  let negative := start.head? = some 45
  let body := if start.head? = some 45 ∨ start.head? = some 43 then start.tail else start
  let digits := body.takeWhile isDigit
  if digits = [] then none
  else if wordSize ≤ decimalValue digits then none
  else if negative then some (wordSub 0 (decimalValue digits))
  else some (decimalValue digits)

example : stoul (lit " 42\r\n") = some 42 := by decide

/-- The last decimal digit of a number. -/
def digitByte (n : Nat) : UInt8 := UInt8.ofNat (48 + n % 10)

/-- At most `fuel` decimal digits of a number. -/
def decimalDigits : Nat → Nat → Bytes
  | 0, _ => []
  | fuel + 1, n =>
      if n < 10 then [digitByte n] else decimalDigits fuel (n / 10) ++ [digitByte n]

/-- `std::to_string` of an unsigned number, which has at most as many digits as
its value plus one. -/
def decimal (n : Nat) : Bytes := decimalDigits (n + 1) n

/-- `std::to_string` of a signed number. -/
def signedDecimal (i : Int) : Bytes :=
  if i < 0 then lit "-" ++ decimal i.natAbs else decimal i.natAbs

example : signedDecimal (-1203) = lit "-1203" := by decide

theorem digitByte_lt (n : Nat) : digitByte n < 0x80 := by
  have hlt : n % 10 < 10 := Nat.mod_lt n (by omega)
  unfold digitByte
  rw [UInt8.lt_iff_toNat_lt, UInt8.toNat_ofNat']
  change (48 + n % 10) % 256 < 128
  omega

theorem decimalDigits_lt (fuel n : Nat) : ∀ c ∈ decimalDigits fuel n, c < 0x80 := by
  induction fuel generalizing n with
  | zero => simp [decimalDigits]
  | succ fuel ih =>
      intro c hc
      unfold decimalDigits at hc
      split at hc
      next =>
        obtain rfl := List.mem_singleton.mp hc
        exact digitByte_lt n
      next =>
        rcases List.mem_append.mp hc with hc | hc
        · exact ih (n / 10) c hc
        · obtain rfl := List.mem_singleton.mp hc
          exact digitByte_lt n

/-- A printed number is ASCII. -/
theorem signedDecimal_lt (i : Int) : ∀ c ∈ signedDecimal i, c < 0x80 := by
  intro c hc
  unfold signedDecimal at hc
  split at hc
  next =>
    rcases List.mem_append.mp hc with hc | hc
    · have hminus : lit "-" = [45] := by decide
      rw [hminus] at hc
      obtain rfl := List.mem_singleton.mp hc
      decide
    · exact decimalDigits_lt _ _ c hc
  next => exact decimalDigits_lt _ _ c hc

/-! ## Floating point -/

/-- A `double` up to the sign of zero: comparisons cannot tell more. -/
inductive Double where
  | nan
  | negInf
  | finite (value : ℚ)
  | posInf
  deriving DecidableEq

namespace Double

/-- IEEE `x <= y`, false as soon as one side is a NaN. -/
def le : Double → Double → Bool
  | .nan, _ => false
  | _, .nan => false
  | .negInf, _ => true
  | _, .posInf => true
  | .finite x, .finite y => decide (x ≤ y)
  | _, _ => false

end Double

end SimVision.Foundation
