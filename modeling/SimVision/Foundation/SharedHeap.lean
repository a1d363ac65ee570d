import Mathlib.Data.Multiset.AddSub
import Mathlib.Data.Multiset.Count
import Mathlib.Logic.Function.Basic

/-! # Shared pointers

A block of memory lives as long as there is a pointer to it: a pointer is copied from
another one, and with the last one its block is destroyed. Whoever keeps an account of
the pointers that exist knows which blocks are alive, and that no use of a pointer in
the account is undefined.
-/

namespace SimVision.Foundation

universe u

/-- Blocks with the number of pointers to each. No address is given out twice. -/
structure SharedHeap (β : Type u) where
  blocks : Nat → Option (β × Nat)
  next : Nat

namespace SharedHeap

variable {β : Type u}

def empty : SharedHeap β := ⟨fun _ => none, 0⟩

/-- The value behind a pointer; `none` where that is undefined. -/
def read (heap : SharedHeap β) (p : Nat) : Option β :=
  (heap.blocks p).map Prod.fst

/-- A new block with its first pointer. -/
def make (heap : SharedHeap β) (value : β) : SharedHeap β × Nat :=
  (⟨Function.update heap.blocks heap.next (some (value, 1)), heap.next + 1⟩, heap.next)

def makeAll (heap : SharedHeap β) : List β → SharedHeap β × List Nat
  | [] => (heap, [])
  | value :: rest =>
      let made := heap.make value
      let (final, pointers) := made.1.makeAll rest
      (final, made.2 :: pointers)

def copy (heap : SharedHeap β) (p : Nat) : Option (SharedHeap β) :=
  (heap.blocks p).map fun block =>
    { heap with blocks := Function.update heap.blocks p (some (block.1, block.2 + 1)) }

/-- A pointer is destroyed, and its block with the last one. -/
def destroy (heap : SharedHeap β) (p : Nat) : Option (SharedHeap β) :=
  (heap.blocks p).map fun block =>
    let left := if block.2 = 1 then none else some (block.1, block.2 - 1)
    { heap with blocks := Function.update heap.blocks p left }

def destroyAll (heap : SharedHeap β) : List Nat → Option (SharedHeap β)
  | [] => some heap
  | p :: rest => (heap.destroy p).bind fun next => next.destroyAll rest

/-- The pointers that exist are `owners`. -/
structure Counted (heap : SharedHeap β) (owners : Multiset Nat) : Prop where
  counts : ∀ p block, heap.blocks p = some block → block.2 = owners.count p
  alive : ∀ p, (heap.blocks p).isSome = true ↔ p ∈ owners
  fresh : ∀ p ≥ heap.next, heap.blocks p = none

namespace Counted

variable {heap next : SharedHeap β} {owners : Multiset Nat} {p : Nat}

theorem empty : (SharedHeap.empty : SharedHeap β).Counted 0 where
  counts _ _ hblock := by contradiction
  alive p := ⟨fun hsome => by contradiction, fun hmem => absurd hmem (Multiset.notMem_zero p)⟩
  fresh _ _ := rfl

/-- Exactly the pointers of the account can be read. -/
theorem read_isSome (hcounted : heap.Counted owners) (p : Nat) :
    (heap.read p).isSome = true ↔ p ∈ owners := by
  rw [read, Option.isSome_map, hcounted.alive]

theorem exists_block (hcounted : heap.Counted owners) (hmem : p ∈ owners) :
    ∃ value, heap.blocks p = some (value, owners.count p) := by
  obtain ⟨⟨value, n⟩, hblock⟩ := Option.isSome_iff_exists.mp ((hcounted.alive p).mpr hmem)
  obtain rfl := hcounted.counts p _ hblock
  exact ⟨value, hblock⟩

theorem exists_read (hcounted : heap.Counted owners) (hmem : p ∈ owners) :
    ∃ value, heap.read p = some value := by
  obtain ⟨value, hblock⟩ := hcounted.exists_block hmem
  exact ⟨value, by rw [read, hblock, Option.map_some]⟩

/-- Pointers of the account all lead to values. -/
theorem exists_values (hcounted : heap.Counted owners) {pointers : List Nat}
    (hmem : ∀ p ∈ pointers, p ∈ owners) :
    ∃ values : List β, pointers.map heap.read = values.map some := by
  induction pointers with
  | nil => exact ⟨[], rfl⟩
  | cons p rest ih =>
      obtain ⟨value, hvalue⟩ := hcounted.exists_read (hmem p List.mem_cons_self)
      obtain ⟨values, hvalues⟩ := ih fun q hq => hmem q (List.mem_cons_of_mem p hq)
      exact ⟨value :: values, by rw [List.map_cons, List.map_cons, hvalue, hvalues]⟩

theorem next_notMem (hcounted : heap.Counted owners) : heap.next ∉ owners := by
  intro hmem
  have hsome := (hcounted.alive _).mpr hmem
  rw [hcounted.fresh _ le_rfl] at hsome
  contradiction

/-- Setting the block of one address keeps an account that changes at this address only. -/
theorem update (hcounted : heap.Counted owners) {owners' : Multiset Nat}
    {block : Option (β × Nat)} {bound : Nat} (hcount : ∀ q ≠ p, owners'.count q = owners.count q)
    (hblock : ∀ kept, block = some kept → kept.2 = owners'.count p)
    (halive : block.isSome = true ↔ p ∈ owners') (hbound : heap.next ≤ bound) (hp : p < bound) :
    (⟨Function.update heap.blocks p block, bound⟩ : SharedHeap β).Counted owners' where
  counts q kept hkept := by
    dsimp only at hkept
    by_cases hq : q = p
    · subst hq
      rw [Function.update_self] at hkept
      exact hblock kept hkept
    · rw [Function.update_of_ne hq] at hkept
      rw [hcount q hq, hcounted.counts q kept hkept]
  alive q := by
    dsimp only
    by_cases hq : q = p
    · subst hq
      rw [Function.update_self]
      exact halive
    · rw [Function.update_of_ne hq, hcounted.alive, ← Multiset.count_pos, ← Multiset.count_pos,
        hcount q hq]
  fresh q hq := by
    have hne : q ≠ p := Nat.ne_of_gt (Nat.lt_of_lt_of_le hp hq)
    dsimp only
    rw [Function.update_of_ne hne]
    exact hcounted.fresh q (Nat.le_trans hbound hq)

theorem lt_next (hcounted : heap.Counted owners) (hmem : p ∈ owners) : p < heap.next := by
  by_contra hge
  have hsome := (hcounted.alive p).mpr hmem
  rw [hcounted.fresh p (Nat.le_of_not_lt hge)] at hsome
  contradiction

theorem make (hcounted : heap.Counted owners) (value : β) :
    (heap.make value).1.Counted ((heap.make value).2 ::ₘ owners) ∧
      (heap.make value).1.read (heap.make value).2 = some value ∧
      ∀ q ∈ owners, (heap.make value).1.read q = heap.read q := by
  have hnew := hcounted.next_notMem
  refine ⟨hcounted.update ?_ ?_ ?_ (Nat.le_succ _) (Nat.lt_succ_self _), ?_, ?_⟩
  · exact fun q hq => Multiset.count_cons_of_ne hq owners
  · rintro kept hkept
    obtain rfl := Option.some.inj hkept
    rw [SharedHeap.make, Multiset.count_cons_self, Multiset.count_eq_zero_of_notMem hnew]
  · exact ⟨fun _ => Multiset.mem_cons_self _ _, fun _ => rfl⟩
  · simp only [SharedHeap.make, read, Function.update_self, Option.map_some]
  · intro q hq
    have hne : q ≠ heap.next := fun heq => hnew (heq ▸ hq)
    simp only [SharedHeap.make, read, Function.update_of_ne hne]

theorem makeAll (hcounted : heap.Counted owners) (values : List β) :
    (heap.makeAll values).1.Counted (((heap.makeAll values).2 : Multiset Nat) + owners) ∧
      (heap.makeAll values).2.map (heap.makeAll values).1.read = values.map some ∧
      ∀ q ∈ owners, (heap.makeAll values).1.read q = heap.read q := by
  induction values generalizing heap owners with
  | nil =>
      refine ⟨?_, rfl, fun _ _ => rfl⟩
      rwa [SharedHeap.makeAll, Multiset.coe_nil, Multiset.zero_add]
  | cons value rest ih =>
      obtain ⟨hmade, hfirst, hkept⟩ := hcounted.make value
      obtain ⟨hall, hrest, hstill⟩ := ih hmade
      refine ⟨?_, ?_, fun q hq => ?_⟩
      · rw [SharedHeap.makeAll, ← Multiset.cons_coe, Multiset.cons_add, ← Multiset.add_cons]
        exact hall
      · rw [SharedHeap.makeAll, List.map_cons, List.map_cons, hrest,
          hstill _ (Multiset.mem_cons_self _ _), hfirst]
      · rw [SharedHeap.makeAll, hstill q (Multiset.mem_cons_of_mem hq), hkept q hq]

/-- A pointer of the account can be copied. -/
theorem copy (hcounted : heap.Counted owners) (hmem : p ∈ owners) :
    ∃ next, heap.copy p = some next ∧ next.Counted (p ::ₘ owners) ∧
      ∀ q, next.read q = heap.read q := by
  obtain ⟨value, hblock⟩ := hcounted.exists_block hmem
  refine ⟨_, by rw [SharedHeap.copy, hblock, Option.map_some], ?_, fun q => ?_⟩
  · refine hcounted.update ?_ ?_ ?_ le_rfl (hcounted.lt_next hmem)
    · exact fun q hq => Multiset.count_cons_of_ne hq owners
    · rintro kept hkept
      obtain rfl := Option.some.inj hkept
      exact (Multiset.count_cons_self p owners).symm
    · exact ⟨fun _ => Multiset.mem_cons_self p owners, fun _ => rfl⟩
  · by_cases hq : q = p
    · subst hq
      simp only [read, Function.update_self, hblock, Option.map_some]
    · simp only [read, Function.update_of_ne hq]

/-- A pointer of the account can be destroyed, and what other pointers lead to stays. -/
theorem destroy (hcounted : heap.Counted (p ::ₘ owners)) :
    ∃ next, heap.destroy p = some next ∧ next.Counted owners ∧
      ∀ q ∈ owners, next.read q = heap.read q := by
  have hmem := Multiset.mem_cons_self p owners
  obtain ⟨value, hblock⟩ := hcounted.exists_block hmem
  rw [Multiset.count_cons_self] at hblock
  refine ⟨_, by rw [SharedHeap.destroy, hblock, Option.map_some], ?_, fun q hq => ?_⟩
  · refine hcounted.update ?_ ?_ ?_ le_rfl (hcounted.lt_next hmem)
    · exact fun q hq => (Multiset.count_cons_of_ne hq owners).symm
    · intro kept hkept
      split at hkept
      next => contradiction
      next => exact (congrArg Prod.snd (Option.some.inj hkept)).symm
    · rw [← Multiset.count_pos]
      split
      next hlast =>
        rw [Nat.succ.inj hlast]
        exact ⟨fun hsome => by contradiction, fun hpos => absurd hpos (Nat.lt_irrefl 0)⟩
      next hshared =>
        exact ⟨fun _ => Nat.pos_of_ne_zero fun hzero => hshared (by rw [hzero]), fun _ => rfl⟩
  · by_cases heq : q = p
    · subst heq
      have hshared : owners.count q + 1 ≠ 1 := fun hone =>
        Nat.ne_of_gt (Multiset.count_pos.mpr hq) (Nat.succ.inj hone)
      simp only [read, Function.update_self, hblock, if_neg hshared, Option.map_some]
    · simp only [read, Function.update_of_ne heq]

theorem destroyAll {pointers : List Nat}
    (hcounted : heap.Counted ((pointers : Multiset Nat) + owners)) :
    ∃ next, heap.destroyAll pointers = some next ∧ next.Counted owners ∧
      ∀ q ∈ owners, next.read q = heap.read q := by
  induction pointers generalizing heap with
  | nil =>
      rw [Multiset.coe_nil, Multiset.zero_add] at hcounted
      exact ⟨heap, rfl, hcounted, fun _ _ => rfl⟩
  | cons p rest ih =>
      rw [← Multiset.cons_coe, Multiset.cons_add] at hcounted
      obtain ⟨first, hfirst, hleft, hread⟩ := hcounted.destroy
      obtain ⟨next, hnext, hrest, hstill⟩ := ih hleft
      refine ⟨next, ?_, hrest, fun q hq => ?_⟩
      · rw [SharedHeap.destroyAll, hfirst, Option.bind_some, hnext]
      · rw [hstill q hq, hread q (Multiset.mem_add.mpr (.inr hq))]

end Counted

end SharedHeap

end SimVision.Foundation
