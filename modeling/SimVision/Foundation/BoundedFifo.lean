import Mathlib.Data.List.Basic
import Mathlib.Data.Nat.ModEq
import SimVision.Foundation.Machine

/-! # Bounded first-in first-out queues

The abstract queue is a list of at most `capacity` items. It accepts an item
only below its capacity, reports `full` only at its capacity and `empty` only
when it holds nothing. The second half gives the index arithmetic by which a
ring of `capacity` slots stores a window of consecutive positions.
-/

namespace SimVision.Foundation

variable {α : Type*}

/-- The outcomes a bounded queue can report to its users. -/
inductive FifoEvent (α : Type*) where
  | pushed (item : α)
  | full
  | popped (item : α)
  | empty

namespace BoundedFifo

/-- The abstract queue decides each outcome from the items it holds. -/
def accept [DecidableEq α] (capacity : Nat) (items : List α) : FifoEvent α → Option (List α)
  | .pushed item => if items.length < capacity then some (items ++ [item]) else none
  | .full => if items.length = capacity then some items else none
  | .popped item =>
      match items with
      | first :: rest => if first = item then some rest else none
      | [] => none
  | .empty => if items = [] then some [] else none

/-- The bounded queue as a specification of histories. -/
def fifo [DecidableEq α] (capacity : Nat) : Acceptor (List α) (FifoEvent α) where
  init := []
  accept := accept capacity

end BoundedFifo

/-! ## Ring slots -/

/-- Positions closer than one revolution apart that share a slot are equal. -/
theorem ringSlot_injective {capacity first second : Nat}
    (hmod : first % capacity = second % capacity)
    (hlow : second ≤ first) (hhigh : first < second + capacity) : first = second := by
  have hdvd : capacity ∣ first - second := (Nat.modEq_iff_dvd' hlow).mp hmod.symm
  have hzero : first - second = 0 := Nat.eq_zero_of_dvd_of_lt hdvd (by omega)
  omega

/-- Distinct positions of one window of `capacity` positions have distinct slots. -/
theorem ringSlot_ne (base : Nat) {capacity first second : Nat} (hne : first ≠ second)
    (hfirst : base ≤ first ∧ first < base + capacity)
    (hsecond : base ≤ second ∧ second < base + capacity) :
    first % capacity ≠ second % capacity := by
  intro hmod
  rcases Nat.le_total second first with hle | hle
  · exact hne (ringSlot_injective hmod hle (by omega))
  · exact hne (ringSlot_injective hmod.symm hle (by omega)).symm

/-! ## Positions that wrap

Where positions are kept modulo `size`, a window may pass from `size - 1` to zero.
Its slots then go on from zero as well, whatever the last slot was. -/

section Wrapping

variable {size capacity : Nat} (base : Nat) {count : Nat}

/-- The positions of a window have slots of their own. -/
def SlotsDistinct (size capacity base count : Nat) : Prop :=
  ∀ j < count, ∀ k < count, j ≠ k →
    (base + j) % size % capacity ≠ (base + k) % size % capacity

theorem wrapped_position {k : Nat} (hafter : size ≤ base + k) (hnear : base + k < size + size) :
    (base + k) % size = base + k - size := by
  rw [Nat.mod_eq_sub_mod hafter, Nat.mod_eq_of_lt (by omega)]

/-- A window on both sides of the wrap: an early and a late position share no slot
while there are no more positions than are left over of whole revolutions. -/
theorem wrappedSlot_ne (hfits : count ≤ capacity)
    (hsmall : count ≤ size % capacity) {j k : Nat} (hk : k < count)
    (hbefore : base + j < size) (hafter : size ≤ base + k) :
    (base + j) % size % capacity ≠ (base + k) % size % capacity := by
  have hleft : size % capacity ≤ size := Nat.mod_le size capacity
  rw [Nat.mod_eq_of_lt hbefore, wrapped_position base hafter (by omega)]
  intro hmod
  have hdvd : capacity ∣ base + j - (base + k - size) :=
    (Nat.modEq_iff_dvd' (by omega)).mp hmod.symm
  have hgap : base + j - (base + k - size) = size - (k - j) := by omega
  rw [hgap] at hdvd
  have hsame : (k - j) % capacity = size % capacity :=
    (Nat.modEq_iff_dvd' (by omega)).mpr hdvd
  rw [Nat.mod_eq_of_lt (by omega)] at hsame
  omega

/-- A longer window across the wrap has a late position in the slot of an early one. -/
theorem exists_sharedSlot (hbase : base < size) (hfits : count ≤ capacity) (hlt : capacity < size)
    (hwraps : size < base + count) (hrest : size % capacity ≠ 0)
    (hlong : size % capacity < count) :
    ∃ j < count, ∃ k < count, j ≠ k ∧
      (base + j) % size % capacity = (base + k) % size % capacity := by
  have hwhole := Nat.div_add_mod size capacity
  generalize size % capacity = gap at hlong hrest hwhole
  -- the slot of `size - before` is the one that is reached `before` steps earlier
  obtain ⟨before, after, hsum, hpos, hearly, hlate⟩ : ∃ before after, before + after = gap ∧
      0 < before ∧ before ≤ size - base ∧ size + after < base + count := by
    rcases Nat.le_total gap (size - base) with hle | hle
    · exact ⟨gap, 0, rfl, by omega, hle, by omega⟩
    · exact ⟨size - base, gap - (size - base), by omega, by omega, Nat.le_refl _, by omega⟩
  refine ⟨size - before - base, by omega, size + after - base, by omega, by omega, ?_⟩
  have hfirst : (base + (size - before - base)) % size = size - before := by
    rw [Nat.add_sub_cancel' (by omega)]
    exact Nat.mod_eq_of_lt (by omega)
  have hsecond : (base + (size + after - base)) % size = after := by
    rw [Nat.add_sub_cancel' (by omega), Nat.add_mod_left]
    exact Nat.mod_eq_of_lt (by omega)
  have hslot : size - before = after + capacity * (size / capacity) := by omega
  rw [hfirst, hsecond, hslot, Nat.add_mul_mod_self_left]

/-- A window no longer than what is left over has slots of its own on both sides of
the wrap. -/
theorem slotsDistinct_of_short (hbase : base < size) (hfits : count ≤ capacity)
    (hlt : capacity < size) (hshort : count ≤ size % capacity) :
    SlotsDistinct size capacity base count := by
  intro j hj k hk hne
  rcases Nat.lt_or_ge (base + j) size with hjbefore | hjafter
  · rcases Nat.lt_or_ge (base + k) size with hkbefore | hkafter
    · rw [Nat.mod_eq_of_lt hjbefore, Nat.mod_eq_of_lt hkbefore]
      exact ringSlot_ne base (by omega) (by omega) (by omega)
    · exact wrappedSlot_ne base hfits hshort hk hjbefore hkafter
  · rcases Nat.lt_or_ge (base + k) size with hkbefore | hkafter
    · exact (wrappedSlot_ne base hfits hshort hj hkbefore hjafter).symm
    · rw [wrapped_position base hjafter (by omega), wrapped_position base hkafter (by omega)]
      exact ringSlot_ne 0 (by omega) (by omega) (by omega)

/-- The slots of a window are distinct exactly where it ends before the wrap, or the
slots meet at the wrap without a gap, or the window is no longer than that gap. -/
theorem slotsDistinct_iff (hbase : base < size) (hfits : count ≤ capacity) (hlt : capacity < size) :
    SlotsDistinct size capacity base count ↔
      base + count ≤ size ∨ capacity ∣ size ∨ count ≤ size % capacity := by
  constructor
  · intro hdistinct
    by_contra hnone
    obtain ⟨hwraps, hgap, hlong⟩ : ¬ base + count ≤ size ∧ ¬ capacity ∣ size ∧
        ¬ count ≤ size % capacity := by
      simpa only [not_or] using hnone
    have hrest : size % capacity ≠ 0 := fun hzero => hgap (Nat.dvd_of_mod_eq_zero hzero)
    obtain ⟨j, hj, k, hk, hne, hsame⟩ := exists_sharedSlot base hbase hfits hlt
      (Nat.not_le.mp hwraps) hrest (Nat.not_le.mp hlong)
    exact hdistinct j hj k hk hne hsame
  · rintro (hends | hmeets | hshort)
    · intro j hj k hk hne
      have hposition : ∀ i < count, (base + i) % size = base + i :=
        fun i hi => Nat.mod_eq_of_lt (by omega)
      rw [hposition j hj, hposition k hk]
      exact ringSlot_ne base (by omega) (by omega) (by omega)
    · intro j hj k hk hne
      rw [Nat.mod_mod_of_dvd _ hmeets, Nat.mod_mod_of_dvd _ hmeets]
      exact ringSlot_ne base (by omega) (by omega) (by omega)
    · exact slotsDistinct_of_short base hbase hfits hlt hshort

end Wrapping

end SimVision.Foundation
