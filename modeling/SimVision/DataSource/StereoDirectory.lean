import Mathlib.Data.List.Induction
import Mathlib.Data.List.Sort
import SimVision.DataSource.StereoLoading
import SimVision.Foundation.Register

/-! # What a directory is loaded into

Several files may claim one side of one index. The map keeps the file listed
last, whether or not it can be read, so what is loaded depends on the order of
the listing and on files that turn out to be empty.
-/

namespace SimVision

open Foundation

/-! ## The map of slots -/

/-- Slots in ascending order of distinct indexes. -/
def SortedSlots (slots : List (Nat × Slot)) : Prop := slots.Pairwise fun a b => a.1 < b.1

/-- `by_index[idx]`, where an index without an entry has an empty slot. -/
def slotAt (slots : List (Nat × Slot)) (idx : Nat) : Slot :=
  ((slots.find? fun entry => entry.1 = idx).map Prod.snd).getD {}

variable {slots : List (Nat × Slot)} {idx : Nat} {slot : Slot}

theorem slotAt_cons (k : Nat) (slot : Slot) (rest : List (Nat × Slot)) (idx : Nat) :
    slotAt ((k, slot) :: rest) idx = if k = idx then slot else slotAt rest idx := by
  unfold slotAt
  rw [List.find?_cons]
  by_cases hk : k = idx
  · simp [hk]
  · simp [hk]

/-- An index below all others has no entry. -/
theorem slotAt_of_lt (hbelow : ∀ entry ∈ slots, idx < entry.1) : slotAt slots idx = {} := by
  have hnone : (slots.find? fun entry => entry.1 = idx) = none := by
    rw [List.find?_eq_none]
    intro entry hentry heq
    have hlt := hbelow entry hentry
    rw [of_decide_eq_true heq] at hlt
    exact Nat.lt_irrefl _ hlt
  rw [slotAt, hnone]
  rfl

theorem slotAt_of_mem (hsorted : SortedSlots slots) (hmem : (idx, slot) ∈ slots) :
    slotAt slots idx = slot := by
  induction slots with
  | nil => contradiction
  | cons first rest ih =>
      obtain ⟨hfirst, hrest⟩ := List.pairwise_cons.mp hsorted
      rcases first with ⟨k, first⟩
      rw [slotAt_cons]
      rcases List.mem_cons.mp hmem with heq | hmem
      · cases heq
        rw [if_pos rfl]
      · have hlt : k < idx := hfirst _ hmem
        rw [if_neg (Nat.ne_of_lt hlt), ih hrest hmem]

/-- A slot that is not empty has an entry. -/
theorem mem_of_slotAt (hslot : slotAt slots idx ≠ {}) : (idx, slotAt slots idx) ∈ slots := by
  unfold slotAt at hslot ⊢
  cases hfind : slots.find? fun entry => entry.1 = idx with
  | none =>
      rw [hfind] at hslot
      contradiction
  | some entry =>
      have hidx : entry.1 = idx := by simpa using List.find?_some hfind
      rw [← hidx]
      exact List.mem_of_find?_eq_some hfind

theorem mem_updateSlot {f : Slot → Slot} {entry : Nat × Slot}
    (hmem : entry ∈ updateSlot idx f slots) : entry.1 = idx ∨ entry ∈ slots := by
  induction slots with
  | nil =>
      rw [List.mem_singleton.mp hmem]
      exact .inl rfl
  | cons first rest ih =>
      rcases first with ⟨k, first⟩
      unfold updateSlot at hmem
      split at hmem
      next heq =>
        rcases List.mem_cons.mp hmem with rfl | hrest
        · exact .inl heq.symm
        · exact .inr (List.mem_cons_of_mem _ hrest)
      next =>
        split at hmem
        next =>
          rcases List.mem_cons.mp hmem with rfl | hrest
          · exact .inl rfl
          · exact .inr hrest
        next =>
          rcases List.mem_cons.mp hmem with rfl | hrest
          · exact .inr List.mem_cons_self
          · exact (ih hrest).imp id (List.mem_cons_of_mem _)

theorem SortedSlots.updateSlot (hsorted : SortedSlots slots) (idx : Nat) (f : Slot → Slot) :
    SortedSlots (updateSlot idx f slots) := by
  induction slots with
  | nil => exact List.pairwise_singleton ..
  | cons first rest ih =>
      rcases first with ⟨k, first⟩
      obtain ⟨hfirst, hrest⟩ := List.pairwise_cons.mp hsorted
      unfold SimVision.updateSlot
      split
      next heq => exact List.pairwise_cons.mpr ⟨hfirst, hrest⟩
      next hne =>
        split
        next hlt =>
          refine List.pairwise_cons.mpr ⟨?_, hsorted⟩
          intro entry hentry
          rcases List.mem_cons.mp hentry with rfl | hentry
          · exact hlt
          · exact hlt.trans (hfirst entry hentry)
        next hge =>
          refine List.pairwise_cons.mpr ⟨?_, ih hrest⟩
          intro entry hentry
          rcases mem_updateSlot hentry with hidx | hentry
          · change k < entry.1
            omega
          · exact hfirst entry hentry

theorem slotAt_updateSlot (hsorted : SortedSlots slots) (idx : Nat) (f : Slot → Slot) (k : Nat) :
    slotAt (updateSlot idx f slots) k =
      if idx = k then f (slotAt slots idx) else slotAt slots k := by
  induction slots with
  | nil => exact slotAt_cons idx (f {}) [] k
  | cons first rest ih =>
      rcases first with ⟨first, slot⟩
      obtain ⟨hfirst, hrest⟩ := List.pairwise_cons.mp hsorted
      unfold updateSlot
      split
      next heq =>
        subst heq
        rw [slotAt_cons, slotAt_cons, slotAt_cons, if_pos rfl]
        split <;> rfl
      next hne =>
        split
        next hlt =>
          have habsent : slotAt ((first, slot) :: rest) idx = {} := by
            apply slotAt_of_lt
            intro entry hentry
            rcases List.mem_cons.mp hentry with rfl | hentry
            · exact hlt
            · exact hlt.trans (hfirst entry hentry)
          rw [slotAt_cons, habsent]
        next hge =>
          rw [slotAt_cons, slotAt_cons, slotAt_cons, ih hrest, if_neg (Ne.symm hne)]
          by_cases hk : first = k
          · rw [if_pos hk, if_neg fun heq => hne (heq.trans hk.symm), if_pos hk]
          · rw [if_neg hk, if_neg hk]

/-! ## The files of a side -/

/-- The entry is an image file whose name gives the index and the side. -/
def DirEntry.claims (idx : Nat) (side : UInt8) (entry : DirEntry) : Bool :=
  entry.isRegular && decide (parseName entry.name = some (idx, side))

/-- The file that a listing leaves for a side of an index. -/
def fileOf (dir : List DirEntry) (idx : Nat) (side : UInt8) : Option DirEntry :=
  latest (DirEntry.claims idx side) dir

/-- The slot that a listing leaves for an index. -/
def slotOf (dir : List DirEntry) (idx : Nat) : Slot := ⟨fileOf dir idx 108, fileOf dir idx 114⟩

/-- The loop over the directory keeps, for each side of each index, the file that
is listed last. -/
theorem foldl_addEntry (dir : List DirEntry) :
    SortedSlots (dir.foldl addEntry []) ∧
      ∀ idx, slotAt (dir.foldl addEntry []) idx = slotOf dir idx := by
  induction dir using List.reverseRecOn with
  | nil => exact ⟨List.Pairwise.nil, fun _ => rfl⟩
  | append_singleton dir entry ih =>
      obtain ⟨hsorted, hslots⟩ := ih
      rw [List.foldl_append, List.foldl_cons, List.foldl_nil]
      generalize dir.foldl addEntry [] = slots at hsorted hslots ⊢
      have hskipped : (∀ idx side, entry.claims idx side = false) →
          ∀ idx, slotAt slots idx = slotOf (dir ++ [entry]) idx := by
        intro hnone idx
        simp only [hslots, slotOf, fileOf, latest_append_singleton, hnone]
        rfl
      unfold addEntry
      split
      next hirregular =>
        refine ⟨hsorted, hskipped fun idx side => ?_⟩
        rw [DirEntry.claims, (Bool.not_eq_true' _).mp hirregular, Bool.false_and]
      next hregular =>
        have hregular : entry.isRegular = true := by simpa using hregular
        split
        next hname =>
          refine ⟨hsorted, hskipped fun idx side => ?_⟩
          simp [DirEntry.claims, hname]
        next idx side hname =>
          refine ⟨hsorted.updateSlot .., fun k => ?_⟩
          rw [slotAt_updateSlot hsorted, hslots, hslots]
          simp only [slotOf, fileOf, latest_append_singleton, DirEntry.claims, hregular, hname,
            Bool.true_and, Option.some.injEq, Prod.mk.injEq, decide_eq_true_eq]
          by_cases hk : idx = k
          · subst hk
            by_cases hleft : side = 108
            · simp [hleft]
            · by_cases hright : side = 114 <;> simp [hleft, hright]
          · simp [hk]

namespace SimDataSource

variable {source : SimDataSource} {pair : StereoPair}

theorem pairOf_index (hbuilt : source.pairOf idx slot = some pair) : pair.pairIndex = idx := by
  rcases slot with ⟨left, right⟩
  cases left <;> cases right <;> cases hbuilt <;> rfl

/-- A pair is built from what the two files read as. -/
theorem pairOf_congr {other : Slot} (hleft : slot.left.map readFile = other.left.map readFile)
    (hright : slot.right.map readFile = other.right.map readFile) (idx : Nat) :
    source.pairOf idx slot = source.pairOf idx other := by
  rcases slot with ⟨left, right⟩
  rcases other with ⟨otherLeft, otherRight⟩
  cases left <;> cases otherLeft <;> cases right <;> cases otherRight <;>
    simp_all [pairOf]

theorem pairOf_left {file : DirEntry} (hfile : slot.left = some file) (idx : Nat) :
    ∃ pair, source.pairOf idx slot = some pair ∧ pair.left = readFile file := by
  rcases slot with ⟨left, right⟩
  obtain rfl : left = some file := hfile
  cases right <;> exact ⟨_, rfl, rfl⟩

theorem pairOf_right {file : DirEntry} (hfile : slot.right = some file) (idx : Nat) :
    ∃ pair, source.pairOf idx slot = some pair ∧ pair.right = readFile file := by
  rcases slot with ⟨left, right⟩
  obtain rfl : right = some file := hfile
  cases left <;> exact ⟨_, rfl, rfl⟩

/-- The order that `load` sorts by is the order of the map already. -/
theorem loadedPairs_eq (source : SimDataSource) (dir : List DirEntry) :
    source.loadedPairs dir =
      (dir.foldl addEntry []).filterMap fun slot => source.pairOf slot.1 slot.2 := by
  apply List.mergeSort_of_pairwise
  refine (foldl_addEntry dir).1.filterMap _ ?_
  intro first second hlt a ha b hb
  rw [pairOf_index ha, pairOf_index hb]
  exact decide_eq_true (Nat.le_of_lt hlt)

/-- Pairs are loaded in ascending order of distinct indexes. -/
theorem loadedPairs_increasing (source : SimDataSource) (dir : List DirEntry) :
    (source.loadedPairs dir).Pairwise fun a b => a.pairIndex < b.pairIndex := by
  rw [loadedPairs_eq]
  refine (foldl_addEntry dir).1.filterMap _ ?_
  intro first second hlt a ha b hb
  rwa [pairOf_index ha, pairOf_index hb]

/-- What is loaded for an index is built from the files listed last for its sides. -/
theorem mem_loadedPairs {dir : List DirEntry} :
    pair ∈ source.loadedPairs dir ↔
      source.pairOf pair.pairIndex (slotOf dir pair.pairIndex) = some pair := by
  obtain ⟨hsorted, hslots⟩ := foldl_addEntry dir
  rw [loadedPairs_eq, List.mem_filterMap]
  constructor
  · rintro ⟨⟨idx, slot⟩, hmem, hbuilt⟩
    rw [pairOf_index hbuilt, ← hslots, slotAt_of_mem hsorted hmem]
    exact hbuilt
  · intro hbuilt
    have hsome : slotAt (dir.foldl addEntry []) pair.pairIndex ≠ {} := by
      intro hempty
      rw [← hslots, hempty] at hbuilt
      contradiction
    refine ⟨_, mem_of_slotAt hsome, ?_⟩
    rw [hslots]
    exact hbuilt

end SimDataSource

/-! ## The order of the listing -/

/-- The index and the side that an entry is loaded for. -/
def DirEntry.place (entry : DirEntry) : Option (Nat × UInt8) :=
  if entry.isRegular then (parseName entry.name).filter fun place => place.2 = 108 || place.2 = 114
  else none

theorem DirEntry.claims_iff {entry : DirEntry} {idx : Nat} {side : UInt8}
    (hside : side = 108 ∨ side = 114) :
    entry.claims idx side = true ↔ entry.place = some (idx, side) := by
  unfold claims place
  cases entry.isRegular with
  | false => simp
  | true => rcases hside with rfl | rfl <;> simp [Option.filter_eq_some_iff]

/-- Files for one side of one index read alike. -/
def ReadAlike (files : List DirEntry) : Prop :=
  ∀ a ∈ files, ∀ b ∈ files, a.place.isSome → a.place = b.place → readFile a = readFile b

instance (files : List DirEntry) : Decidable (ReadAlike files) :=
  inferInstanceAs (Decidable (∀ a ∈ files, ∀ b ∈ files,
    a.place.isSome → a.place = b.place → readFile a = readFile b))

/-- However the files of the directory are listed, `load` leaves the same pairs,
in strictly ascending order of their indexes. -/
structure OrderIndependent (source : SimDataSource) (stereoDir : Bytes) (files : List DirEntry) :
    Prop where
  same : ∀ first second : List DirEntry, first.Perm files → second.Perm files →
    (source.load stereoDir (some first)).1.pairs = (source.load stereoDir (some second)).1.pairs
  increasing : ∀ listed : List DirEntry, listed.Perm files →
    (source.load stereoDir (some listed)).1.pairs.Pairwise fun a b => a.pairIndex < b.pairIndex

/-- Files that read alike may be listed in any order. -/
theorem ReadAlike.fileOf_perm {files listed : List DirEntry} (halike : ReadAlike files)
    (hperm : listed.Perm files) (idx : Nat) {side : UInt8} (hside : side = 108 ∨ side = 114) :
    (fileOf listed idx side).map readFile = (fileOf files idx side).map readFile := by
  refine map_latest_perm hperm ?_
  intro a ha b hb hclaimsA hclaimsB
  rw [DirEntry.claims_iff hside] at hclaimsA hclaimsB
  exact halike a ha b hb (by rw [hclaimsA]; rfl) (hclaimsA.trans hclaimsB.symm)

theorem ReadAlike.loadedPairs_perm {files listed : List DirEntry} (halike : ReadAlike files)
    (hperm : listed.Perm files) (source : SimDataSource) :
    source.loadedPairs listed = source.loadedPairs files := by
  have hasymm : Std.Asymm fun a b : StereoPair => a.pairIndex < b.pairIndex :=
    ⟨fun _ _ => Nat.lt_asymm⟩
  apply (source.loadedPairs_increasing listed).eq_of_mem_iff (source.loadedPairs_increasing files)
  intro pair
  rw [SimDataSource.mem_loadedPairs, SimDataSource.mem_loadedPairs]
  have hpair := @SimDataSource.pairOf_congr (slotOf listed pair.pairIndex) source
    (slotOf files pair.pairIndex) (halike.fileOf_perm hperm pair.pairIndex (.inl rfl))
    (halike.fileOf_perm hperm pair.pairIndex (.inr rfl)) pair.pairIndex
  rw [hpair]

theorem DirEntry.side_of_place {entry : DirEntry} {idx : Nat} {side : UInt8}
    (hplace : entry.place = some (idx, side)) : side = 108 ∨ side = 114 := by
  unfold place at hplace
  split at hplace
  next =>
    have hside := (Option.filter_eq_some_iff.mp hplace).2
    simpa using hside
  next => contradiction

/-- Each file of a side is listed last in some order, and is loaded then. -/
theorem exists_listing {files : List DirEntry} {entry : DirEntry} (hentry : entry ∈ files)
    {idx : Nat} {side : UInt8} (hplace : entry.place = some (idx, side)) :
    ∃ listed : List DirEntry, listed.Perm files ∧ fileOf listed idx side = some entry :=
  exists_perm_latest hentry ((DirEntry.claims_iff (DirEntry.side_of_place hplace)).mpr hplace)

/-- Two listings that are loaded alike keep files that read alike. -/
theorem SimDataSource.readFile_eq_of_loadedPairs {source : SimDataSource}
    {first second : List DirEntry} (hsame : source.loadedPairs first = source.loadedPairs second)
    {idx : Nat} {side : UInt8} (hside : side = 108 ∨ side = 114) {a b : DirEntry}
    (ha : fileOf first idx side = some a) (hb : fileOf second idx side = some b) :
    readFile a = readFile b := by
  have hpairs : ∀ {pairA pairB : StereoPair}, source.pairOf idx (slotOf first idx) = some pairA →
      source.pairOf idx (slotOf second idx) = some pairB → pairA = pairB := by
    intro pairA pairB hpairA hpairB
    have hmem : pairB ∈ source.loadedPairs second := by
      rw [mem_loadedPairs, pairOf_index hpairB]
      exact hpairB
    rw [← hsame, mem_loadedPairs, pairOf_index hpairB, hpairA] at hmem
    exact Option.some.inj hmem
  rcases hside with rfl | rfl
  · obtain ⟨pairA, hpairA, hleftA⟩ := @pairOf_left (slotOf first idx) source a ha idx
    obtain ⟨pairB, hpairB, hleftB⟩ := @pairOf_left (slotOf second idx) source b hb idx
    rw [← hleftA, ← hleftB, hpairs hpairA hpairB]
  · obtain ⟨pairA, hpairA, hrightA⟩ := @pairOf_right (slotOf first idx) source a ha idx
    obtain ⟨pairB, hpairB, hrightB⟩ := @pairOf_right (slotOf second idx) source b hb idx
    rw [← hrightA, ← hrightB, hpairs hpairA hpairB]

/-- Loading is independent of the order of the listing if and only if all files
that claim one side of one index read alike. -/
theorem orderIndependent_iff (source : SimDataSource) {stereoDir : Bytes} (hdir : stereoDir ≠ [])
    (files : List DirEntry) : OrderIndependent source stereoDir files ↔ ReadAlike files := by
  constructor
  · intro hindependent a ha b hb hplaced heq
    obtain ⟨⟨idx, side⟩, hplaceA⟩ := Option.isSome_iff_exists.mp hplaced
    obtain ⟨listedA, hpermA, hfileA⟩ := exists_listing ha hplaceA
    obtain ⟨listedB, hpermB, hfileB⟩ := exists_listing hb (heq.symm.trans hplaceA)
    have hsame := hindependent.same listedA listedB hpermA hpermB
    rw [source.load_pairs hdir, source.load_pairs hdir] at hsame
    exact SimDataSource.readFile_eq_of_loadedPairs hsame (DirEntry.side_of_place hplaceA) hfileA
      hfileB
  · intro halike
    refine ⟨fun first second hfirst hsecond => ?_, fun listed _ => ?_⟩
    · rw [source.load_pairs hdir, source.load_pairs hdir, halike.loadedPairs_perm hfirst source,
        halike.loadedPairs_perm hsecond source]
    · rw [source.load_pairs hdir]
      exact source.loadedPairs_increasing listed

/-- Two left images and a right one, all of different indexes or sides. -/
def distinctPlaces : List DirEntry :=
  [{ name := lit "L_002.png", content := some [1] },
    { name := lit "R_001.raw", content := some [2] },
    { name := lit "L_001.jpg", content := none }]

theorem distinctPlaces_orderIndependent : OrderIndependent {} (lit "stereo") distinctPlaces :=
  (orderIndependent_iff {} (by decide) distinctPlaces).mpr (by decide)

/-- A name of the left image of index 1. -/
def firstLeft : DirEntry := { name := lit "L_1.png", content := some [1] }

/-- Another name of the left image of index 1. -/
def secondLeft : DirEntry := { name := lit "left_001.png", content := some [2] }

theorem twoLefts_orderDependent : ¬ ∀ (source : SimDataSource) (stereoDir : Bytes),
    stereoDir ≠ [] → ∀ files : List DirEntry, (files.map DirEntry.name).Nodup →
      OrderIndependent source stereoDir files := by
  intro hclaim
  have hdir : lit "stereo" ≠ [] := by decide
  have hindependent := hclaim {} (lit "stereo") hdir [firstLeft, secondLeft] (by decide)
  have hsame := hindependent.same [firstLeft, secondLeft] [secondLeft, firstLeft] (.refl _)
    (.swap _ _ _)
  rw [SimDataSource.load_pairs _ hdir, SimDataSource.load_pairs _ hdir] at hsame
  have hread := @SimDataSource.readFile_eq_of_loadedPairs _ _ _ hsame 1 108 (.inl rfl) secondLeft
    firstLeft (by rfl) (by rfl)
  exact absurd hread (by decide)

/-! ## Sides without an image -/

/-- The image of a side, unless its file is missing, empty or unreadable. -/
def usable : Option DirEntry → Option Bytes
  | none => none
  | some file => if readFile file = [] then none else some (readFile file)

/-- Both images of an index, where one side stands in for the other. -/
def mirrored : Option Bytes → Option Bytes → Option (Bytes × Bytes)
  | some left, some right => some (left, right)
  | some left, none => some (left, left)
  | none, some right => some (right, right)
  | none, none => none

/-- Every pair that a listing is loaded into has two images described by their own
bytes; a side without an image mirrors the other, and an index without one is
skipped. -/
structure AlwaysImages (source : SimDataSource) (stereoDir : Bytes) (dir : List DirEntry) :
    Prop where
  nonempty : ∀ pair ∈ (source.load stereoDir (some dir)).1.pairs, pair.left ≠ [] ∧ pair.right ≠ []
  probed : ∀ pair ∈ (source.load stereoDir (some dir)).1.pairs,
    pair.leftInfo = probeImage pair.left source.width source.height source.channels ∧
      pair.rightInfo = probeImage pair.right source.width source.height source.channels
  built : ∀ idx, ((source.load stereoDir (some dir)).1.pairs.find?
      fun pair => pair.pairIndex = idx).map (fun pair => (pair.left, pair.right)) =
    mirrored (usable (fileOf dir idx 108)) (usable (fileOf dir idx 114))

/-- The files that a listing leaves in the map are readable and not empty. -/
def AllReadable (dir : List DirEntry) : Prop :=
  ∀ idx side, side = 108 ∨ side = 114 → ∀ file, fileOf dir idx side = some file → readFile file ≠ []

theorem usable_of_readable {file : Option DirEntry}
    (hreadable : ∀ entry, file = some entry → readFile entry ≠ []) :
    usable file = file.map readFile := by
  cases file with
  | none => rfl
  | some entry => exact if_neg (hreadable entry rfl)

theorem usable_ne_nil {file : Option DirEntry} {bytes : Bytes}
    (husable : usable file = some bytes) : bytes ≠ [] := by
  cases file with
  | none => contradiction
  | some entry =>
      rw [usable] at husable
      split at husable
      next => contradiction
      next hsome => exact Option.some.inj husable ▸ hsome

/-- Images that stand for both sides are among those of the sides. -/
theorem mirrored_ne_nil {left right : Option Bytes} {images : Bytes × Bytes}
    (hleft : ∀ bytes, left = some bytes → bytes ≠ [])
    (hright : ∀ bytes, right = some bytes → bytes ≠ [])
    (himages : mirrored left right = some images) : images.1 ≠ [] ∧ images.2 ≠ [] := by
  cases left with
  | none =>
      cases right with
      | none => contradiction
      | some r =>
          obtain rfl := Option.some.inj himages
          exact ⟨hright r rfl, hright r rfl⟩
  | some l =>
      cases right with
      | none =>
          obtain rfl := Option.some.inj himages
          exact ⟨hleft l rfl, hleft l rfl⟩
      | some r =>
          obtain rfl := Option.some.inj himages
          exact ⟨hleft l rfl, hright r rfl⟩

namespace SimDataSource

variable {source : SimDataSource}

theorem find_loadedPairs (source : SimDataSource) (dir : List DirEntry) (idx : Nat) :
    ((source.loadedPairs dir).find? fun pair => pair.pairIndex = idx) =
      source.pairOf idx (slotOf dir idx) := by
  cases hfind : (source.loadedPairs dir).find? fun pair => pair.pairIndex = idx with
  | some pair =>
      have hmem := mem_loadedPairs.mp (List.mem_of_find?_eq_some hfind)
      have hidx : pair.pairIndex = idx := by simpa using List.find?_some hfind
      rw [hidx] at hmem
      exact hmem.symm
  | none =>
      cases hbuilt : source.pairOf idx (slotOf dir idx) with
      | none => rfl
      | some pair =>
          have hidx := pairOf_index hbuilt
          have hmem : pair ∈ source.loadedPairs dir := by
            rw [mem_loadedPairs, hidx]
            exact hbuilt
          exact absurd (decide_eq_true hidx) (List.find?_eq_none.mp hfind pair hmem)

/-- The images of a slot, where a side without a file mirrors the other. -/
theorem pairOf_images (source : SimDataSource) (idx : Nat) (slot : Slot) :
    (source.pairOf idx slot).map (fun pair => (pair.left, pair.right)) =
      mirrored (slot.left.map readFile) (slot.right.map readFile) := by
  rcases slot with ⟨left, right⟩
  cases left <;> cases right <;> rfl

end SimDataSource

/-- Loaded pairs have their images if and only if, for each side of each index,
the file listed last is readable and not empty. -/
theorem alwaysImages_iff (source : SimDataSource) {stereoDir : Bytes} (hdir : stereoDir ≠ [])
    (dir : List DirEntry) : AlwaysImages source stereoDir dir ↔ AllReadable dir := by
  constructor
  · rintro ⟨hnonempty, _, _⟩ idx side hside file hfile
    rw [source.load_pairs hdir] at hnonempty
    have hloaded : ∀ pair, source.pairOf idx (slotOf dir idx) = some pair →
        pair.left ≠ [] ∧ pair.right ≠ [] := by
      intro pair hbuilt
      apply hnonempty
      rw [SimDataSource.mem_loadedPairs, SimDataSource.pairOf_index hbuilt]
      exact hbuilt
    rcases hside with rfl | rfl
    · obtain ⟨pair, hbuilt, hleft⟩ :=
        @SimDataSource.pairOf_left (slotOf dir idx) source file hfile idx
      exact hleft ▸ (hloaded pair hbuilt).1
    · obtain ⟨pair, hbuilt, hright⟩ :=
        @SimDataSource.pairOf_right (slotOf dir idx) source file hfile idx
      exact hright ▸ (hloaded pair hbuilt).2
  · intro hreadable
    have hleft : ∀ idx, usable (fileOf dir idx 108) = (fileOf dir idx 108).map readFile :=
      fun idx => usable_of_readable (hreadable idx 108 (.inl rfl))
    have hright : ∀ idx, usable (fileOf dir idx 114) = (fileOf dir idx 114).map readFile :=
      fun idx => usable_of_readable (hreadable idx 114 (.inr rfl))
    have hbuilt : ∀ idx, ((source.loadedPairs dir).find? fun pair => pair.pairIndex = idx).map
        (fun pair => (pair.left, pair.right)) =
        mirrored (usable (fileOf dir idx 108)) (usable (fileOf dir idx 114)) := by
      intro idx
      rw [source.find_loadedPairs, source.pairOf_images, hleft, hright]
      rfl
    refine ⟨?_, ?_, ?_⟩ <;> rw [source.load_pairs hdir]
    · intro pair hpair
      have himages := hbuilt pair.pairIndex
      rw [source.find_loadedPairs, SimDataSource.mem_loadedPairs.mp hpair] at himages
      exact mirrored_ne_nil (fun _ => usable_ne_nil) (fun _ => usable_ne_nil) himages.symm
    · exact fun pair hpair => SimDataSource.loadedPairs_info hpair
    · exact hbuilt

theorem twoImages_alwaysImages :
    AlwaysImages {} (lit "stereo") (twoFiles (lit "left") (lit "right")) := by
  refine (alwaysImages_iff {} (by decide) _).mpr ?_
  intro idx side _ file hfile
  obtain ⟨hmem, _⟩ := mem_of_latest hfile
  simp only [twoFiles, List.mem_cons, List.not_mem_nil, or_false] at hmem
  rcases hmem with rfl | rfl
  · decide
  · decide

/-- An empty left file next to a right image is stored as an empty left image. -/
theorem emptyLeft_stored : ¬ ∀ (source : SimDataSource) (stereoDir : Bytes), stereoDir ≠ [] →
    ∀ dir : List DirEntry, (dir.map DirEntry.name).Nodup → AlwaysImages source stereoDir dir := by
  intro hclaim
  have hdir : lit "stereo" ≠ [] := by decide
  have hnonempty := (hclaim {} (lit "stereo") hdir (twoFiles [] (lit "right")) (by
    decide)).nonempty
  rw [SimDataSource.load_pairs _ hdir, SimDataSource.twoFiles_loaded] at hnonempty
  exact (hnonempty _ (List.mem_singleton_self _)).1 rfl

end SimVision
