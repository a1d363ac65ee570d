import SimVision.Foundation.Machine

/-! # Scans of a shared state, one item at a time

A scan looks for an item that holds in a state that others change between its
reads. What it returns is right for a state that held still. For one that moved,
a scan that finds nothing proves nothing, unless what holds was never left behind
it alone.
-/

namespace SimVision.Foundation

universe u v w x

variable {State : Type u} {Group : Type v} {Item : Type w} {Change : Type x}

/-- A scan in progress: the items of `group` still to be read, and whether some
item of it has held at every moment so far, or at none. -/
structure Scan (Group : Type v) (Item : Type w) where
  group : Group
  unread : List Item
  always : Bool
  never : Bool

structure ScanState (State : Type u) (Group : Type v) (Item : Type w) where
  shared : State
  scan : Option (Scan Group Item) := none

/-- What a scan returned, and what it should tell. -/
structure ScanResult (Group : Type v) where
  group : Group
  found : Bool
  always : Bool
  never : Bool
  deriving DecidableEq

/-- A scan that returns false missed nothing that held throughout, and one that
returns true found something that held at some moment. -/
def ScanResult.Consistent (r : ScanResult Group) : Prop :=
  (r.always = true → r.found = true) ∧ (r.never = true → r.found = false)

inductive ScanAction (Group : Type v) (Change : Type x) where
  | start (group : Group)
  | read
  | change (change : Change)

/- The items of a group, the test that a single read makes, and what the other
threads do to the state. -/
variable (members : Group → List Item) (holds : State → Item → Bool)
  (apply : State → Change → State)

namespace Scan

/-- The moment of a state enters the record. -/
def observe (scan : Scan Group Item) (shared : State) : Scan Group Item :=
  { scan with
    always := scan.always && (members scan.group).any (holds shared)
    never := scan.never && !(members scan.group).any (holds shared) }

def finish (scan : Scan Group Item) (found : Bool) : ScanResult Group where
  group := scan.group
  found := found
  always := scan.always
  never := scan.never

end Scan

def ScanState.step (s : ScanState State Group Item) :
    ScanAction Group Change → Option (ScanState State Group Item × List (ScanResult Group))
  | .start group =>
      match s.scan with
      | none =>
          let scan : Scan Group Item := ⟨group, members group, true, true⟩
          some ({ s with scan := some (scan.observe members holds s.shared) }, [])
      | some _ => none
  | .read =>
      match s.scan with
      | none => none
      | some scan =>
          match scan.unread with
          | [] => some ({ s with scan := none }, [scan.finish false])
          | item :: rest =>
              if holds s.shared item then some ({ s with scan := none }, [scan.finish true])
              else if rest = [] then some ({ s with scan := none }, [scan.finish false])
              else some ({ s with scan := some { scan with unread := rest } }, [])
  | .change change =>
      let shared := apply s.shared change
      some ({ shared := shared, scan := s.scan.map fun scan => scan.observe members holds shared },
        [])

/-- One thread scans, the others change the state. -/
def scans (shared : State) :
    Machine (ScanState State Group Item) (ScanAction Group Change) (ScanResult Group) where
  init := { shared := shared }
  step := ScanState.step members holds apply

/-- The condition on a change during a scan: as long as something has held
throughout, what holds after the change is not all behind the scan. -/
def HoldsAhead (s : ScanState State Group Item) : ScanAction Group Change → Prop
  | .change change => ∀ scan ∈ s.scan, scan.always = true →
      (members scan.group).any (holds (apply s.shared change)) = true →
      scan.unread.any (holds (apply s.shared change)) = true
  | _ => True

instance (s : ScanState State Group Item) : ∀ action : ScanAction Group Change,
    Decidable (HoldsAhead members holds apply s action)
  | .change change => inferInstanceAs (Decidable (∀ scan ∈ s.scan, scan.always = true →
      (members scan.group).any (holds (apply s.shared change)) = true →
      scan.unread.any (holds (apply s.shared change)) = true))
  | .start _ => .isTrue trivial
  | .read => .isTrue trivial

/-- A scan that nothing interrupts reads the items until one holds. -/
theorem scan_alone (shared start : State) (group : Group) :
    ∃ reads result, (scans members holds apply start).runFrom { shared := shared }
        (.start group :: List.replicate reads (.read : ScanAction Group Change)) =
          some ({ shared := shared }, [result]) ∧
      result.group = group ∧ result.found = (members group).any (holds shared) := by
  have hreads : ∀ (items : List Item) (always never : Bool), ∃ reads result,
      (scans members holds apply start).runFrom
        { shared := shared, scan := some ⟨group, items, always, never⟩ }
        (List.replicate reads (.read : ScanAction Group Change)) =
          some ({ shared := shared }, [result]) ∧
      result.group = group ∧ result.found = items.any (holds shared) := by
    intro items always never
    induction items with
    | nil =>
        refine ⟨1, ⟨group, false, always, never⟩, ?_, rfl, rfl⟩
        simp [Machine.runFrom, scans, ScanState.step, Scan.finish]
    | cons item rest ih =>
        by_cases hitem : holds shared item = true
        · refine ⟨1, ⟨group, true, always, never⟩, ?_, rfl, by simp [hitem]⟩
          simp [Machine.runFrom, scans, ScanState.step, Scan.finish, hitem]
        · by_cases hrest : rest = []
          · refine ⟨1, ⟨group, false, always, never⟩, ?_, rfl, by simp [hitem, hrest]⟩
            simp [Machine.runFrom, scans, ScanState.step, Scan.finish, hitem, hrest]
          · obtain ⟨reads, result, hrun, hgroup, hfound⟩ := ih
            refine ⟨reads + 1, result, ?_, hgroup, by simp [hitem, hfound]⟩
            rw [List.replicate_succ, Machine.runFrom]
            simp only [scans, ScanState.step, hitem, hrest, if_false, Bool.false_eq_true] at hrun ⊢
            rw [hrun]
            rfl
  obtain ⟨reads, result, hrun, hgroup, hfound⟩ := hreads (members group) _ _
  refine ⟨reads, result, ?_, hgroup, hfound⟩
  rw [Machine.runFrom]
  simp only [scans, ScanState.step, Scan.observe] at hrun ⊢
  rw [hrun]
  rfl

/-! ## What a scan tells -/

/-- What a scan in progress knows of the state. -/
structure ScanInv (s : ScanState State Group Item) : Prop where
  unread_subset : ∀ scan ∈ s.scan, scan.unread ⊆ members scan.group
  never : ∀ scan ∈ s.scan, scan.never = true → (members scan.group).any (holds s.shared) = false

/-- What has held throughout the scan holds now, and some of it is still ahead. -/
def AheadInv (s : ScanState State Group Item) : Prop :=
  ∀ scan ∈ s.scan, scan.always = true →
    (members scan.group).any (holds s.shared) = true ∧ scan.unread.any (holds s.shared) = true

section Soundness

variable {members} {holds} {apply} {s next : ScanState State Group Item}
  {history results : List (ScanResult Group)} {action : ScanAction Group Change}

/-- A scan finds what holds only where something holds. -/
theorem ScanInv.step (hinv : ScanInv members holds s)
    (hstep : s.step members holds apply action = some (next, results)) :
    ScanInv members holds next ∧
      ∀ result ∈ results, result.never = true → result.found = false := by
  cases action with
  | start group =>
      simp only [ScanState.step] at hstep
      split at hstep
      next =>
        cases hstep
        refine ⟨⟨?_, ?_⟩, nofun⟩
        · rintro scan ⟨⟩
          exact List.Subset.refl _
        · rintro scan ⟨⟩ hnever
          simpa [Scan.observe] using hnever
      next => contradiction
  | read =>
      simp only [ScanState.step] at hstep
      split at hstep
      next => contradiction
      next scan hscan =>
        have hsubset := hinv.unread_subset scan hscan
        have hnever := hinv.never scan hscan
        have hover : ScanInv members holds { s with scan := none } := ⟨nofun, nofun⟩
        split at hstep
        next =>
          cases hstep
          refine ⟨hover, fun result hresult _ => ?_⟩
          rw [List.mem_singleton.mp hresult]
          rfl
        next item rest hunread =>
          split at hstep
          next hitem =>
            cases hstep
            refine ⟨hover, fun result hresult hneverResult => ?_⟩
            rw [List.mem_singleton.mp hresult] at hneverResult ⊢
            -- the item found belongs to the group, so something has held
            have hmem : item ∈ members scan.group :=
              hsubset (by rw [hunread]; exact List.mem_cons_self)
            have hnone := List.any_eq_false.mp (hnever hneverResult) item hmem
            exact absurd hitem hnone
          next =>
            split at hstep
            next =>
              cases hstep
              refine ⟨hover, fun result hresult _ => ?_⟩
              rw [List.mem_singleton.mp hresult]
              rfl
            next =>
              cases hstep
              refine ⟨⟨?_, ?_⟩, nofun⟩
              · rintro _ ⟨⟩
                rw [hunread] at hsubset
                exact fun _ hmem => hsubset (List.mem_cons_of_mem _ hmem)
              · rintro _ ⟨⟩
                exact hnever
  | change change =>
      simp only [ScanState.step] at hstep
      cases hstep
      refine ⟨⟨?_, ?_⟩, nofun⟩
      · intro scan hscan
        obtain ⟨before, hbefore, rfl⟩ := Option.map_eq_some_iff.mp hscan
        exact hinv.unread_subset before hbefore
      · intro scan hscan hnever
        obtain ⟨before, _, rfl⟩ := Option.map_eq_some_iff.mp hscan
        simp only [Scan.observe, Bool.and_eq_true] at hnever ⊢
        simpa using hnever.2

/-- As long as no change leaves all that holds behind the scan, a scan finds what
has held throughout. -/
theorem AheadInv.step (hinv : AheadInv members holds s)
    (hahead : HoldsAhead members holds apply s action)
    (hstep : s.step members holds apply action = some (next, results)) :
    AheadInv members holds next ∧
      ∀ result ∈ results, result.always = true → result.found = true := by
  cases action with
  | start group =>
      simp only [ScanState.step] at hstep
      split at hstep
      next =>
        cases hstep
        refine ⟨?_, nofun⟩
        rintro scan ⟨⟩ halways
        simp only [Scan.observe, Bool.true_and] at halways ⊢
        exact ⟨halways, halways⟩
      next => contradiction
  | read =>
      simp only [ScanState.step] at hstep
      split at hstep
      next => contradiction
      next scan hscan =>
        have hscanInv := hinv scan hscan
        have hover : AheadInv members holds { s with scan := none } := nofun
        split at hstep
        next hunread =>
          cases hstep
          refine ⟨hover, fun result hresult halways => ?_⟩
          rw [List.mem_singleton.mp hresult] at halways
          have hsome := (hscanInv halways).2
          rw [hunread] at hsome
          contradiction
        next item rest hunread =>
          rw [hunread] at hscanInv
          split at hstep
          next =>
            cases hstep
            refine ⟨hover, fun result hresult _ => ?_⟩
            rw [List.mem_singleton.mp hresult]
            rfl
          next hitem =>
            have hrest : scan.always = true → rest.any (holds s.shared) = true := by
              intro halways
              have hsome := (hscanInv halways).2
              rw [List.any_cons, Bool.or_eq_true] at hsome
              exact hsome.resolve_left hitem
            split at hstep
            next hlast =>
              cases hstep
              refine ⟨hover, fun result hresult halways => ?_⟩
              rw [List.mem_singleton.mp hresult] at halways
              have hsome := hrest halways
              rw [hlast] at hsome
              contradiction
            next =>
              cases hstep
              refine ⟨?_, nofun⟩
              rintro _ ⟨⟩ halways
              exact ⟨(hscanInv halways).1, hrest halways⟩
  | change change =>
      simp only [ScanState.step] at hstep
      cases hstep
      refine ⟨?_, nofun⟩
      intro scan hscan halways
      obtain ⟨before, hbefore, rfl⟩ := Option.map_eq_some_iff.mp hscan
      simp only [Scan.observe, Bool.and_eq_true] at halways ⊢
      exact ⟨halways.2, hahead before hbefore halways.1 halways.2⟩

variable {shared : State}

/-- A true answer is never unfounded. -/
theorem scans_found {guard : ScanState State Group Item → ScanAction Group Change → Prop}
    (hreach : (scans members holds apply shared).Reaches guard history s) :
    ∀ result ∈ history, result.never = true → result.found = false := by
  have hboth : ScanInv members holds s ∧
      ∀ result ∈ history, result.never = true → result.found = false := by
    apply hreach.invariant fun history s => ScanInv members holds s ∧
      ∀ result ∈ history, result.never = true → result.found = false
    · exact ⟨⟨nofun, nofun⟩, nofun⟩
    · intro before state action after results _ hbefore _ hstep
      obtain ⟨hnext, hresults⟩ := hbefore.1.step hstep
      refine ⟨hnext, fun result hresult => ?_⟩
      rcases List.mem_append.mp hresult with hold | hnew
      · exact hbefore.2 result hold
      · exact hresults result hnew
  exact hboth.2

/-- Scans are consistent in every run whose changes leave something ahead. -/
theorem scans_consistent
    (hreach : (scans members holds apply shared).Reaches (HoldsAhead members holds apply)
      history s) : ∀ result ∈ history, result.Consistent := by
  have hboth : AheadInv members holds s ∧
      ∀ result ∈ history, result.always = true → result.found = true := by
    apply hreach.invariant fun history s => AheadInv members holds s ∧
      ∀ result ∈ history, result.always = true → result.found = true
    · exact ⟨nofun, nofun⟩
    · intro before state action after results _ hbefore hahead hstep
      obtain ⟨hnext, hresults⟩ := hbefore.1.step hahead hstep
      refine ⟨hnext, fun result hresult => ?_⟩
      rcases List.mem_append.mp hresult with hold | hnew
      · exact hbefore.2 result hold
      · exact hresults result hnew
  exact fun result hresult => ⟨hboth.2 result hresult, scans_found hreach result hresult⟩

end Soundness

end SimVision.Foundation
