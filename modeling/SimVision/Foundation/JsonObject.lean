import Mathlib.Data.List.Lex
import SimVision.Foundation.Json

/-! # Objects in the order of their keys

Assignments keep the members of an object in ascending order of distinct keys, so
that the members are exactly what is read back under their keys.
-/

namespace SimVision.Foundation.Json

/-- Members in ascending order of their keys, as an iteration visits them. -/
def SortedMembers (members : List (Bytes × Json)) : Prop :=
  members.Pairwise fun a b => a.1 < b.1

variable {members : List (Bytes × Json)}

theorem SortedMembers.keys_nodup (hsorted : SortedMembers members) :
    (members.map Prod.fst).Nodup := by
  rw [List.Nodup, List.pairwise_map]
  refine hsorted.imp ?_
  intro a b hlt heq
  rw [heq] at hlt
  exact List.lt_irrefl _ hlt

theorem mem_setMember {key : Bytes} {value : Json} {m : Bytes × Json}
    (hmem : m ∈ setMember key value members) : m = (key, value) ∨ m ∈ members := by
  induction members with
  | nil => exact .inl (List.mem_singleton.mp hmem)
  | cons first rest ih =>
      rcases first with ⟨k, v⟩
      unfold setMember at hmem
      split at hmem
      next =>
        rcases List.mem_cons.mp hmem with hhead | hrest
        · exact .inl hhead
        · exact .inr (List.mem_cons_of_mem _ hrest)
      next =>
        split at hmem
        next => exact List.mem_cons.mp hmem
        next =>
          rcases List.mem_cons.mp hmem with hhead | hrest
          · exact .inr (hhead ▸ List.mem_cons_self ..)
          · exact (ih hrest).imp id (List.mem_cons_of_mem _)

theorem SortedMembers.setMember (hsorted : SortedMembers members) (key : Bytes) (value : Json) :
    SortedMembers (Json.setMember key value members) := by
  induction members with
  | nil => exact List.pairwise_singleton ..
  | cons first rest ih =>
      rcases first with ⟨k, v⟩
      obtain ⟨hfirst, hrest⟩ := List.pairwise_cons.mp hsorted
      unfold Json.setMember
      split
      next heq =>
        subst heq
        exact List.pairwise_cons.mpr ⟨hfirst, hrest⟩
      next hne =>
        split
        next hlt =>
          refine List.pairwise_cons.mpr ⟨?_, hsorted⟩
          intro m hm
          rcases List.mem_cons.mp hm with rfl | hm
          · exact hlt
          · exact List.lt_trans hlt (hfirst m hm)
        next hle =>
          have hlt : k < key := by
            by_contra hge
            exact hne (List.le_antisymm (List.not_lt.mp hge) (List.not_lt.mp hle))
          refine List.pairwise_cons.mpr ⟨?_, ih hrest⟩
          intro m hm
          rcases mem_setMember hm with rfl | hm
          · exact hlt
          · exact hfirst m hm

/-- An object filled by assignments has sorted members. -/
theorem foldl_set_sorted (assignments : List (Bytes × Json)) (hsorted : SortedMembers members) :
    ∃ filled, assignments.foldl (fun (j : Json) kv => j.set kv.1 kv.2) (object members) =
        object filled ∧ SortedMembers filled := by
  induction assignments generalizing members with
  | nil => exact ⟨members, rfl, hsorted⟩
  | cons kv rest ih => exact ih (hsorted.setMember kv.1 kv.2)

/-- A member of an object with distinct keys is what its key finds. -/
theorem findMember_of_mem (hkeys : (members.map Prod.fst).Nodup) {key : Bytes} {value : Json}
    (hmem : (key, value) ∈ members) : findMember key members = some value := by
  induction members with
  | nil => contradiction
  | cons first rest ih =>
      rw [List.map_cons, List.nodup_cons] at hkeys
      unfold findMember
      rcases List.mem_cons.mp hmem with rfl | hrest
      · simp
      · have hne : first.1 ≠ key := by
          intro heq
          exact hkeys.1 (heq ▸ List.mem_map.mpr ⟨(key, value), hrest, rfl⟩)
        rw [List.find?_cons_of_neg (by simpa using hne)]
        exact ih hkeys.2 hrest

theorem mem_of_findMember {key : Bytes} {value : Json}
    (hfind : findMember key members = some value) : (key, value) ∈ members := by
  obtain ⟨m, hm, rfl⟩ := Option.map_eq_some_iff.mp hfind
  have hkey : m.1 = key := by simpa using List.find?_some hm
  rw [← hkey]
  exact List.mem_of_find?_eq_some hm

end SimVision.Foundation.Json
