import SimVision.DataSource.StereoDirectory
import SimVision.DataSource.TestImages
import SimVision.Foundation.Framing

/-! # The generated directory

`gen_test_images.py` names its files by camera and index, and `load` reads both back
from the names. Whatever order the directory is listed in, the pairs that were generated
are the pairs that are loaded, by their indexes.
-/

namespace SimVision

open Foundation

/-! ## The script -/

/-- A number with zeros in front up to a width. -/
def zeroPadded (width n : Nat) : Bytes :=
  List.replicate (width - (decimal n).length) 48 ++ decimal n

/-- `{camera_id}_{index:03d}.jpg`. -/
def imageName (cameraId : UInt8) (index : Nat) : Bytes :=
  cameraId :: lit "_" ++ (zeroPadded 3 index ++ lit ".jpg")

/-- `main` of the script: the files in an empty directory after it. The loop counts from
one, so a count below one leaves none. -/
def genTestImages (count : Int) : Option (List DirEntry) :=
  (writePpmOrRaw 1280 720).map fun file =>
    (List.range count.toNat).flatMap fun k =>
      [{ name := imageName 76 (k + 1), content := some file },
        { name := imageName 82 (k + 1), content := some file }]

example : imageName 76 7 = lit "L_007.jpg" := by decide

example : imageName 82 1024 = lit "R_1024.jpg" := by decide

/-! ## Reading a name -/

/-- The last place of a character that does not come again. -/
theorem findLast_append {c : UInt8} (first : Bytes) {rest : Bytes} (hrest : c ∉ rest) :
    findLast c (first ++ c :: rest) = some first.length := by
  have hindex : (first ++ c :: rest).reverse.findIdx? (fun d => d = c) = some rest.length := by
    rw [List.reverse_append, List.reverse_cons, List.append_assoc, List.findIdx?_append]
    have hnone : rest.reverse.findIdx? (fun d => d = c) = none := by
      rw [List.findIdx?_eq_none_iff]
      intro d hd
      exact decide_eq_false fun heq => hrest (heq ▸ List.mem_reverse.mp hd)
    rw [hnone]
    simp [List.findIdx?_cons]
  rw [findLast, hindex, Option.map_some, List.length_append, List.length_cons]
  congr 1
  omega

theorem drop_append_succ (first : Bytes) (c : UInt8) (rest : Bytes) :
    (first ++ c :: rest).drop (first.length + 1) = rest := by
  rw [← List.drop_drop, List.drop_left]
  rfl

theorem extOf_append (first : Bytes) {rest : Bytes} (hrest : 46 ∉ rest) :
    extOf (first ++ 46 :: rest) = toLower rest := by
  rw [extOf, findLast_append first hrest]
  exact congrArg toLower (drop_append_succ first 46 rest)

theorem stemOf_append {first rest : Bytes} (hfirst : first ≠ []) (hrest : 46 ∉ rest) :
    stemOf (first ++ 46 :: rest) = first := by
  obtain ⟨d, later, rfl⟩ := List.exists_cons_of_ne_nil hfirst
  rw [stemOf, findLast_append _ hrest]
  exact List.take_left

theorem zeroPadded_isDigit (width n : Nat) : ∀ d ∈ zeroPadded width n, isDigit d = true := by
  intro d hd
  rcases List.mem_append.mp hd with hzero | hdigit
  · rw [List.eq_of_mem_replicate hzero]
    rfl
  · exact decimal_isDigit n d hdigit

theorem decimalValue_zeros (zeros : Nat) (digits : Bytes) :
    decimalValue (List.replicate zeros 48 ++ digits) = decimalValue digits := by
  induction zeros with
  | zero => rfl
  | succ zeros ih => exact ih

theorem decimalValue_zeroPadded (width n : Nat) : decimalValue (zeroPadded width n) = n :=
  (decimalValue_zeros _ _).trans (decimalValue_decimal n)

theorem zeroPadded_ne_nil (width n : Nat) : zeroPadded width n ≠ [] := by
  have hdecimal : decimal n ≠ [] := by
    unfold decimal decimalDigits
    split <;> simp
  exact List.append_ne_nil_of_right_ne_nil _ hdecimal

/-- The name of a generated file gives its index and its camera. -/
theorem parseName_imageName (cameraId : UInt8) {index : Nat} (hindex : index < wordSize) :
    parseName (imageName cameraId index) = some (index, toLowerByte cameraId) := by
  have hname : imageName cameraId index =
      ([cameraId] ++ 95 :: zeroPadded 3 index) ++ 46 :: lit "jpg" := by
    have hunder : lit "_" = [95] := by decide
    have hdot : lit ".jpg" = 46 :: lit "jpg" := by decide
    rw [imageName, hunder, hdot]
    simp
  have hext : extOf (imageName cameraId index) = lit "jpg" := by
    rw [hname, extOf_append _ (by decide)]
    decide
  have hstem : stemOf (imageName cameraId index) = [cameraId] ++ 95 :: zeroPadded 3 index := by
    rw [hname, stemOf_append (List.append_ne_nil_of_left_ne_nil (List.cons_ne_nil _ _) _)
      (by decide)]
  have hunderscore : (95 : UInt8) ∉ zeroPadded 3 index := by
    intro hmem
    exact absurd (zeroPadded_isDigit 3 index 95 hmem) (by decide)
  have hstoul : stoul (zeroPadded 3 index) = some index := by
    have hvalue := decimalValue_zeroPadded 3 index
    have hdigits := @stoul_digits [] (zeroPadded 3 index) (fun _ hnone => absurd hnone
      List.not_mem_nil) (zeroPadded_isDigit 3 index) (zeroPadded_ne_nil 3 index)
      (hvalue.symm ▸ hindex)
    rwa [hvalue] at hdigits
  have hdrop : ([cameraId] ++ 95 :: zeroPadded 3 index).drop ([cameraId].length + 1) =
      zeroPadded 3 index := drop_append_succ [cameraId] 95 _
  have htake : ([cameraId] ++ 95 :: zeroPadded 3 index).take [cameraId].length = [cameraId] :=
    List.take_left
  rw [parseName, hext, if_neg (by decide), hstem, findLast_append _ hunderscore]
  dsimp only
  rw [hdrop, htake, if_neg (zeroPadded_ne_nil 3 index), hstoul]
  rfl

/-! ## What is loaded -/

/-- The pair that two generated files are loaded into. -/
def generatedPair (file : Bytes) (index : Nat) : StereoPair :=
  let info : ImageInfo :=
    { format := lit "raw_u8", isEncoded := false, width := 1280, height := 720, channels := 3,
      code := lit "RGB" }
  { left := file, right := file, leftInfo := info, rightInfo := info, pairIndex := index }

section Load

variable {count : Nat} {files listed : List DirEntry} {file : Bytes}

theorem mem_genTestImages (hfile : writePpmOrRaw 1280 720 = some file)
    (hfiles : genTestImages count = some files) {entry : DirEntry} :
    entry ∈ files ↔ ∃ index cameraId, 1 ≤ index ∧ index ≤ count ∧ (cameraId = 76 ∨ cameraId = 82) ∧
      entry = { name := imageName cameraId index, content := some file } := by
  rw [genTestImages, hfile, Option.map_some, Int.toNat_natCast] at hfiles
  obtain rfl := Option.some.inj hfiles
  rw [List.mem_flatMap]
  constructor
  · rintro ⟨k, hk, hentry⟩
    have hle : k + 1 ≤ count := List.mem_range.mp hk
    rcases List.mem_pair.mp hentry with rfl | rfl
    · exact ⟨k + 1, 76, Nat.le_add_left 1 k, hle, .inl rfl, rfl⟩
    · exact ⟨k + 1, 82, Nat.le_add_left 1 k, hle, .inr rfl, rfl⟩
  · rintro ⟨index, cameraId, hpos, hle, hcamera, rfl⟩
    obtain ⟨k, rfl⟩ := Nat.exists_eq_add_of_le' hpos
    refine ⟨k, List.mem_range.mpr hle, List.mem_pair.mpr ?_⟩
    rcases hcamera with rfl | rfl
    · exact .inl rfl
    · exact .inr rfl

/-- The file of a side is there exactly for the indexes that were generated. -/
theorem fileOf_generated (idx : Nat) (hcount : count < wordSize)
    (hfile : writePpmOrRaw 1280 720 = some file) (hfiles : genTestImages count = some files)
    (hlisted : listed.Perm files) {cameraId : UInt8} (hcamera : cameraId = 76 ∨ cameraId = 82) :
    (fileOf listed idx (toLowerByte cameraId)).map readFile =
      if 1 ≤ idx ∧ idx ≤ count then some file else none := by
  have hmem : ∀ entry, entry ∈ listed ↔ _ := fun entry =>
    hlisted.mem_iff.trans (@mem_genTestImages _ _ _ hfile hfiles entry)
  split
  next hrange =>
    have hentry : { name := imageName cameraId idx, content := some file } ∈ listed :=
      (hmem _).mpr ⟨idx, cameraId, hrange.1, hrange.2, hcamera, rfl⟩
    have hclaims : DirEntry.claims idx (toLowerByte cameraId)
        { name := imageName cameraId idx, content := some file } = true := by
      rw [DirEntry.claims, parseName_imageName cameraId (by omega), decide_eq_true rfl]
      rfl
    cases hlatest : fileOf listed idx (toLowerByte cameraId) with
    | none =>
        have hnone := latest_eq_none_iff.mp hlatest _ hentry
        exact absurd (hnone.symm.trans hclaims) Bool.false_ne_true
    | some entry =>
        obtain ⟨_, _, -, -, -, rfl⟩ := (hmem entry).mp (mem_of_latest hlatest).1
        rfl
  next houtside =>
    rw [Option.map_eq_none_iff]
    refine latest_eq_none_iff.mpr fun entry hentry => ?_
    obtain ⟨index, other, hpos, hle, -, rfl⟩ := (hmem entry).mp hentry
    rw [DirEntry.claims, parseName_imageName other (by omega)]
    refine Bool.and_eq_false_iff.mpr (.inr (decide_eq_false fun heq => houtside ?_))
    obtain ⟨rfl, -⟩ := Prod.mk.inj (Option.some.inj heq)
    exact ⟨hpos, hle⟩

theorem pairOf_generated (source : SimDataSource) (hcount : count < wordSize)
    (hfile : writePpmOrRaw 1280 720 = some file) (hfiles : genTestImages count = some files)
    (hlisted : listed.Perm files) (idx : Nat) :
    source.pairOf idx (slotOf listed idx) =
      if 1 ≤ idx ∧ idx ≤ count then some (generatedPair file idx) else none := by
  have hleft := fileOf_generated idx hcount hfile hfiles hlisted (.inl rfl)
  have hright := fileOf_generated idx hcount hfile hfiles hlisted (.inr rfl)
  have hsides : ∀ content : Option DirEntry, content.map readFile =
      (if 1 ≤ idx ∧ idx ≤ count then some file else none) →
        source.pairOf idx (slotOf listed idx) = source.pairOf idx ⟨content, content⟩ :=
    fun content hcontent =>
      SimDataSource.pairOf_congr (hleft.trans hcontent.symm) (hright.trans hcontent.symm) idx
  split
  next hrange =>
    have hinfo := (@probeImage_written 1280 720 (by decide) (by decide) source.width source.height
      source.channels file hfile).2
    rw [hsides (some { name := [], content := some file }) (if_pos hrange).symm]
    change some (StereoPair.mk file file (probeImage file source.width source.height
      source.channels) (probeImage file source.width source.height source.channels) idx) = _
    rw [hinfo]
    rfl
  next houtside =>
    rw [hsides none (if_neg houtside).symm]
    rfl

/-- However the directory of a count below 2^64 is listed, what is loaded are the generated
pairs in the order of their indexes. -/
theorem generated_loaded (source : SimDataSource) {stereoDir : Bytes} (hdir : stereoDir ≠ [])
    (hcount : count < wordSize) (hfiles : genTestImages count = some files)
    (hlisted : listed.Perm files) :
    ∃ file, writePpmOrRaw 1280 720 = some file ∧
      (source.load stereoDir (some listed)).1.pairs =
        (List.range count).map fun k => generatedPair file (k + 1) := by
  obtain ⟨file, hfile, -⟩ := Option.map_eq_some_iff.mp hfiles
  refine ⟨file, hfile, ?_⟩
  rw [source.load_pairs hdir]
  have hasymm : Std.Asymm fun a b : StereoPair => a.pairIndex < b.pairIndex :=
    ⟨fun _ _ => Nat.lt_asymm⟩
  apply (source.loadedPairs_increasing listed).eq_of_mem_iff
  · rw [List.pairwise_map]
    exact List.pairwise_lt_range.imp fun hlt => Nat.succ_lt_succ hlt
  · intro pair
    rw [SimDataSource.mem_loadedPairs, pairOf_generated source hcount hfile hfiles hlisted,
      List.mem_map]
    constructor
    · intro hbuilt
      split at hbuilt
      next hrange =>
        obtain ⟨k, hk⟩ := Nat.exists_eq_add_of_le' hrange.1
        rw [hk] at hrange hbuilt
        exact ⟨k, List.mem_range.mpr hrange.2, Option.some.inj hbuilt⟩
      next => contradiction
    · rintro ⟨k, hk, rfl⟩
      exact if_pos ⟨Nat.le_add_left 1 k, List.mem_range.mp hk⟩

end Load

/-- The script's default count, with the directory listed backwards. -/
theorem fourPairs_loaded :
    ∃ files, genTestImages 4 = some files ∧ ∃ file, writePpmOrRaw 1280 720 = some file ∧
      (SimDataSource.load {} (lit "stereo") (some files.reverse)).1.pairs =
        (List.range 4).map fun k => generatedPair file (k + 1) := by
  have hsome : (genTestImages 4).isSome = true := by
    rw [genTestImages, Option.isSome_map, writePpmOrRaw, if_pos (by decide)]
    rfl
  obtain ⟨files, hfiles⟩ := Option.isSome_iff_exists.mp hsome
  exact ⟨files, hfiles, @generated_loaded 4 files files.reverse {} (lit "stereo") (by decide)
    (by decide) hfiles (List.reverse_perm files)⟩

end SimVision
