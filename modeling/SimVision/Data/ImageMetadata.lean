import SimVision.Data.MessageDecoding
import SimVision.DataSource.ImageKind
import SimVision.Foundation.JsonObject

/-! # What the image metadata of a message says

The entry of `parts[]` for a stereo pair carries the left image's metadata and, of
the right image, the channels and the layout. A consumer can tell both images from
it only where nothing else that can be loaded has the same entry.
-/

namespace SimVision

open Foundation

/-! ## What a description gives away -/

section Kinds

variable {w h c : Int} {k : ImageKind}

theorem defaultChannels_eq_four : defaultChannels c 4 = 4 ↔ c ≤ 0 ∨ c = 4 := by
  unfold defaultChannels
  split
  next hpos => exact ⟨.inr, fun h => h.resolve_left (by omega)⟩
  next hneg => exact iff_of_true rfl (.inl (by omega))

/-- Only an unrecognised file is described by the layout of the configured images. -/
theorem info_code_bgra : (k.info w h c).code = lit "BGRA" ↔ k = .raw ∧ defaultChannels c 4 = 4 := by
  have hmono : lit "Mono" ≠ lit "BGRA" := by decide
  have hrgb : lit "RGB" ≠ lit "BGRA" := by decide
  have hgraya : lit "GRAYA" ≠ lit "BGRA" := by decide
  have hrgba : lit "RGBA" ≠ lit "BGRA" := by decide
  cases k with
  | simRaw _ _ => simp [ImageKind.info, hrgb]
  | jpeg _ _ n =>
      simp only [ImageKind.info]
      split <;> simp [hmono, hrgb]
  | jpegUnsized =>
      simp only [ImageKind.info]
      split <;> simp [hmono, hrgb]
  | png _ _ t =>
      simp only [ImageKind.info, pngLayout]
      split_ifs <;> simp [hmono, hrgb, hgraya, hrgba]
  | tiff => simp [ImageKind.info, hrgb]
  | raw =>
      simp only [ImageKind.info]
      split
      next heq => simp [heq]
      next hne => simp [hne, hrgb]

theorem kind_of_tiff (hformat : (k.info w h c).format = lit "TIFF") : k = .tiff := by
  cases k with
  | tiff => rfl
  | simRaw _ _ =>
      simp only [ImageKind.info] at hformat
      exact absurd hformat (by decide)
  | jpeg _ _ _ =>
      simp only [ImageKind.info] at hformat
      exact absurd hformat (by decide)
  | jpegUnsized =>
      simp only [ImageKind.info] at hformat
      exact absurd hformat (by decide)
  | png _ _ _ =>
      simp only [ImageKind.info] at hformat
      exact absurd hformat (by decide)
  | raw =>
      simp only [ImageKind.info] at hformat
      exact absurd hformat (by decide)

theorem kind_of_jpg (hformat : (k.info w h c).format = lit "JPG") :
    k = .jpegUnsized ∨ ∃ w h n, k = .jpeg w h n := by
  cases k with
  | jpegUnsized => exact .inl rfl
  | jpeg w h n => exact .inr ⟨w, h, n, rfl⟩
  | simRaw _ _ =>
      simp only [ImageKind.info] at hformat
      exact absurd hformat (by decide)
  | png _ _ _ =>
      simp only [ImageKind.info] at hformat
      exact absurd hformat (by decide)
  | tiff =>
      simp only [ImageKind.info] at hformat
      exact absurd hformat (by decide)
  | raw =>
      simp only [ImageKind.info] at hformat
      exact absurd hformat (by decide)

end Kinds

/-- A number other than the given one. -/
def otherSize (w : Int) : Nat := if w = 1 then 2 else 1

theorem otherSize_ne (w : Int) : (otherSize w : Int) ≠ w := by
  unfold otherSize
  split
  next heq =>
    rw [heq]
    decide
  next hne => exact fun heq => hne heq.symm

/-- Unless a file is unrecognised and the configured images have four channels,
another file has the same channels and layout and a different description. -/
theorem exists_lookalike (buf : Bytes) (w h c : Int)
    (hother : ¬ (kindOf buf = .raw ∧ defaultChannels c 4 = 4)) :
    ∃ file, ((kindOf file).info w h c).channels = ((kindOf buf).info w h c).channels ∧
      ((kindOf file).info w h c).code = ((kindOf buf).info w h c).code ∧
      (kindOf file).info w h c ≠ (kindOf buf).info w h c := by
  have hformat : ∀ {i j : ImageInfo}, i.format ≠ j.format → i ≠ j :=
    fun hne heq => hne (congrArg ImageInfo.format heq)
  have hwidth : ∀ {i j : ImageInfo}, i.width ≠ j.width → i ≠ j :=
    fun hne heq => hne (congrArg ImageInfo.width heq)
  cases hkind : kindOf buf with
  | simRaw _ _ =>
      refine ⟨pngFile 1 2, ?_⟩
      rw [kindOf_pngFile]
      exact ⟨rfl, rfl, hformat (by simp only [ImageKind.info]; decide)⟩
  | jpeg wide high n =>
      obtain ⟨_, hhigh, hcount⟩ := kindOf_jpeg_lt hkind
      have hsize : otherSize wide ≤ 65535 := by
        unfold otherSize
        split <;> decide
      refine ⟨jpegFile (otherSize wide) high n, ?_⟩
      rw [kindOf_jpegFile hsize hhigh hcount]
      exact ⟨rfl, rfl, hwidth (otherSize_ne wide)⟩
  | jpegUnsized =>
      by_cases hone : defaultChannels c 3 = 1
      · refine ⟨pngFile 1 0, ?_⟩
        rw [kindOf_pngFile]
        refine ⟨hone.symm, ?_, hformat (by simp only [ImageKind.info]; decide)⟩
        simp only [ImageKind.info]
        rw [if_pos hone]
        rfl
      · refine ⟨tiffFile, ?_⟩
        rw [kindOf_tiffFile]
        refine ⟨rfl, ?_, hformat (by simp only [ImageKind.info]; decide)⟩
        simp only [ImageKind.info]
        rw [if_neg hone]
  | png wide high t =>
      refine ⟨pngFile (UInt8.ofNat (otherSize wide)) t, ?_⟩
      rw [kindOf_pngFile]
      refine ⟨rfl, rfl, hwidth ?_⟩
      have hsmall : (UInt8.ofNat (otherSize wide)).toNat = otherSize wide := by
        unfold otherSize
        split <;> rfl
      change ((UInt8.ofNat (otherSize wide)).toNat : Int) ≠ wide
      rw [hsmall]
      exact otherSize_ne wide
  | tiff =>
      by_cases hone : defaultChannels c 3 = 1
      · have hchannels : defaultChannels c 4 = 1 := by
          unfold defaultChannels at hone ⊢
          split at hone
          next hpos => rw [if_pos hpos, hone]
          next => contradiction
        refine ⟨[], ?_⟩
        rw [kindOf_empty]
        refine ⟨hchannels.trans hone.symm, ?_, hformat (by simp only [ImageKind.info]; decide)⟩
        simp only [ImageKind.info]
        rw [hchannels]
        rfl
      · refine ⟨unsizedJpegFile, ?_⟩
        rw [kindOf_unsizedJpegFile]
        refine ⟨rfl, ?_, hformat (by simp only [ImageKind.info]; decide)⟩
        simp only [ImageKind.info]
        rw [if_neg hone]
  | raw =>
      have hfour : defaultChannels c 4 ≠ 4 := fun heq => hother ⟨hkind, heq⟩
      have hchannels : defaultChannels c 3 = defaultChannels c 4 := by
        unfold defaultChannels at hfour ⊢
        split at hfour
        next hpos => rw [if_pos hpos, if_pos hpos]
        next => contradiction
      refine ⟨tiffFile, ?_⟩
      rw [kindOf_tiffFile]
      refine ⟨hchannels, ?_, hformat (by simp only [ImageKind.info]; decide)⟩
      simp only [ImageKind.info]
      rw [if_neg hfour]

/-! ## The entry of a pair -/

/-- The entry of `parts[]` that is published for a pair. -/
def stereoEntry (pair : StereoPair) : Json := partJson (CaptureEngine.stereoBundle 0 0 pair)

/-- Entries that differ at most in their size. -/
def SameButSize (a b : Json) : Prop := ∀ key, key ≠ lit "size" → a.lookup key = b.lookup key

theorem lookup_partJson_eq (b : DataBundle) (key : Bytes) :
    (partJson b).lookup key = Json.findMember key (partMembers b) := by
  by_cases hkey : key ∈ (partMembers b).map Prod.fst
  · obtain ⟨⟨_, value⟩, hmem, rfl⟩ := List.mem_map.mp hkey
    rw [lookup_partJson hmem, Json.findMember_of_mem (partMembers_keys b) hmem]
  · rw [partJson_eq, Json.lookup_ofAssignments_of_notMem hkey, Json.findMember,
      List.find?_eq_none.mpr]
    · rfl
    · intro m hm hfound
      exact hkey (List.mem_map.mpr ⟨m, hm, of_decide_eq_true hfound⟩)

/-- The members that only an image of positive width has. -/
def imageMembers (info : ImageInfo) : List (Bytes × Json) :=
  [(lit "is_encoded", .boolean info.isEncoded), (lit "channels", .integer info.channels),
    (lit "channel_layout", .string info.code), (lit "width", .integer info.width),
    (lit "height", .integer info.height)]

/-- The members that say something about the right image. -/
def rightMembers (info : ImageInfo) : List (Bytes × Json) :=
  (if 0 < info.channels then [(lit "right_channels", .integer info.channels)] else []) ++
    if info.code ≠ [] then [(lit "right_channel_layout", .string info.code)] else []

/-- The members of an entry that is published for a pair. -/
def stereoMembers (size : Nat) (left right : ImageInfo) : List (Bytes × Json) :=
  [(lit "id", .string (lit "stereo_image")), (lit "size", .unsigned size),
    (lit "format", .string left.format)] ++
  if 0 < left.width then imageMembers left ++ rightMembers right else []

theorem lookup_stereoEntry (pair : StereoPair) (key : Bytes) : (stereoEntry pair).lookup key =
    Json.findMember key (stereoMembers (CaptureEngine.stereoData pair).length pair.leftInfo
      pair.rightInfo) := by
  rw [stereoEntry, lookup_partJson_eq]
  rfl

/-- A member that only an image of positive width has is found in its entry. -/
theorem find_imageMember (size : Nat) {left : ImageInfo} (right : ImageInfo) {key : Bytes}
    {value : Json} (hmem : (key, value) ∈ imageMembers left) :
    Json.findMember key (stereoMembers size left right) =
      if 0 < left.width then some value else none := by
  simp only [imageMembers, List.mem_cons, Prod.mk.injEq, List.not_mem_nil, or_false] at hmem
  unfold stereoMembers
  rcases hmem with ⟨rfl, rfl⟩ | ⟨rfl, rfl⟩ | ⟨rfl, rfl⟩ | ⟨rfl, rfl⟩ | ⟨rfl, rfl⟩ <;> split <;> rfl

theorem find_rightChannels (size : Nat) {left right : ImageInfo} (hwidth : 0 < left.width) :
    Json.findMember (lit "right_channels") (stereoMembers size left right) =
      if 0 < right.channels then some (.integer right.channels) else none := by
  rw [stereoMembers, if_pos hwidth, rightMembers]
  split
  next => rfl
  next => split <;> rfl

theorem find_rightLayout (size : Nat) {left right : ImageInfo} (hwidth : 0 < left.width) :
    Json.findMember (lit "right_channel_layout") (stereoMembers size left right) =
      if right.code ≠ [] then some (.string right.code) else none := by
  rw [stereoMembers, if_pos hwidth, rightMembers]
  split
  next => split <;> rfl
  next => split <;> rfl

/-- The size shows only under its own key. -/
theorem find_other_size (size size' : Nat) (left right : ImageInfo) {key : Bytes}
    (hkey : key ≠ lit "size") : Json.findMember key (stereoMembers size left right) =
      Json.findMember key (stereoMembers size' left right) := by
  unfold stereoMembers Json.findMember
  by_cases hid : key = lit "id"
  · subst hid
    rfl
  · simp [List.find?_cons, Ne.symm hid, Ne.symm hkey]

/-- An entry with a positive width gives away all of the left description and, of
the right one, the channels and the layout. -/
theorem visible_of_find {size size' : Nat} {left left' right right' : ImageInfo}
    (hfind : ∀ key, key ≠ lit "size" → Json.findMember key (stereoMembers size left right) =
      Json.findMember key (stereoMembers size' left' right')) (hwidth : 0 < left.width) :
    left' = left ∧ (0 < right.channels → right'.channels = right.channels) ∧
      (right.code ≠ [] → right'.code = right.code) := by
  have hwide : 0 < left'.width := by
    have hfound := hfind (lit "width") (by decide)
    rw [@find_imageMember size left right (lit "width") (.integer left.width)
        (by simp [imageMembers]),
      @find_imageMember size' left' right' (lit "width") (.integer left'.width)
        (by simp [imageMembers]),
      if_pos hwidth] at hfound
    split at hfound
    next hpos => exact hpos
    next => contradiction
  have hsame : ∀ key value value', key ≠ lit "size" → (key, value) ∈ imageMembers left →
      (key, value') ∈ imageMembers left' → value' = value := by
    intro key value value' hkey hmem hmem'
    have hfound := hfind key hkey
    rw [find_imageMember size right hmem, find_imageMember size' right' hmem', if_pos hwidth,
      if_pos hwide] at hfound
    exact (Option.some.inj hfound).symm
  have hformat : left'.format = left.format := by
    have hfound := hfind (lit "format") (by decide)
    exact (Json.string.inj (Option.some.inj hfound)).symm
  have hencoded : left'.isEncoded = left.isEncoded :=
    Json.boolean.inj (hsame (lit "is_encoded") _ _ (by decide) (by simp [imageMembers])
      (by simp [imageMembers]))
  have hchannels : left'.channels = left.channels :=
    Json.integer.inj (hsame (lit "channels") _ _ (by decide) (by simp [imageMembers])
      (by simp [imageMembers]))
  have hcode : left'.code = left.code :=
    Json.string.inj (hsame (lit "channel_layout") _ _ (by decide) (by simp [imageMembers])
      (by simp [imageMembers]))
  have hwidthSame : left'.width = left.width :=
    Json.integer.inj (hsame (lit "width") _ _ (by decide) (by simp [imageMembers])
      (by simp [imageMembers]))
  have hheight : left'.height = left.height :=
    Json.integer.inj (hsame (lit "height") _ _ (by decide) (by simp [imageMembers])
      (by simp [imageMembers]))
  refine ⟨?_, ?_, ?_⟩
  · cases left
    cases left'
    rw [ImageInfo.mk.injEq]
    exact ⟨hformat, hencoded, hchannels, hcode, hwidthSame, hheight⟩
  · intro hpos
    have hfound := hfind (lit "right_channels") (by decide)
    rw [find_rightChannels size hwidth, find_rightChannels size' hwide, if_pos hpos] at hfound
    split at hfound
    next => exact (Json.integer.inj (Option.some.inj hfound)).symm
    next => contradiction
  · intro hsome
    have hfound := hfind (lit "right_channel_layout") (by decide)
    rw [find_rightLayout size hwidth, find_rightLayout size' hwide, if_pos hsome] at hfound
    split at hfound
    next => exact (Json.string.inj (Option.some.inj hfound)).symm
    next => contradiction

theorem SameButSize.visible {pair other : StereoPair}
    (hsame : SameButSize (stereoEntry pair) (stereoEntry other))
    (hwidth : 0 < pair.leftInfo.width) :
    other.leftInfo = pair.leftInfo ∧
      (0 < pair.rightInfo.channels → other.rightInfo.channels = pair.rightInfo.channels) ∧
      (pair.rightInfo.code ≠ [] → other.rightInfo.code = pair.rightInfo.code) := by
  have hfind : ∀ key, key ≠ lit "size" → Json.findMember key
      (stereoMembers (CaptureEngine.stereoData pair).length pair.leftInfo pair.rightInfo) =
      Json.findMember key
        (stereoMembers (CaptureEngine.stereoData other).length other.leftInfo other.rightInfo) := by
    intro key hkey
    rw [← lookup_stereoEntry, ← lookup_stereoEntry]
    exact hsame key hkey
  exact visible_of_find hfind hwidth

/-- What the entry does not say may differ. -/
theorem sameButSize_of_visible {pair other : StereoPair} (hleft : other.leftInfo = pair.leftInfo)
    (hchannels : other.rightInfo.channels = pair.rightInfo.channels)
    (hcode : other.rightInfo.code = pair.rightInfo.code) :
    SameButSize (stereoEntry pair) (stereoEntry other) := by
  intro key hkey
  have hright : rightMembers other.rightInfo = rightMembers pair.rightInfo := by
    rw [rightMembers, hchannels, hcode]
    rfl
  rw [lookup_stereoEntry, lookup_stereoEntry,
    find_other_size _ (CaptureEngine.stereoData other).length _ _ hkey, hleft]
  unfold stereoMembers
  rw [hright]

/-! ## What a consumer can tell -/

/-- The configured size and channel count are of type `int`. -/
def SimDataSource.Configured (source : SimDataSource) : Prop :=
  ∀ n ∈ [source.width, source.height, source.channels], -2 ^ 31 ≤ n ∧ n < 2 ^ 31

/-- A pair that `load` makes of some directory under some configuration. -/
def Loaded (pair : StereoPair) : Prop :=
  ∃ (source : SimDataSource) (stereoDir : Bytes) (dir : List DirEntry), source.Configured ∧
    stereoDir ≠ [] ∧ pair ∈ (source.load stereoDir (some dir)).1.pairs

/-- The entry of the pair carries the image metadata, and no pair with another
description on either side has the same entry apart from the size. -/
structure DeterminesImages (pair : StereoPair) : Prop where
  carries : ∀ key ∈ [lit "is_encoded", lit "channels", lit "channel_layout", lit "width",
    lit "height"], (stereoEntry pair).contains key = true
  determines : ∀ other, Loaded other → SameButSize (stereoEntry pair) (stereoEntry other) →
    other.leftInfo = pair.leftInfo ∧ other.rightInfo = pair.rightInfo

/-- The right file is unrecognised and taken for an image of the configured size
with four channels, and the left file is one that must have that size too. -/
def Pinned (w h c : Int) (left right : ImageKind) : Prop :=
  0 < w ∧ right = .raw ∧ (c ≤ 0 ∨ c = 4) ∧
    (left = .raw ∨ left = .tiff ∨
      left = .jpegUnsized ∧ (65535 < w ∨ h < 0 ∨ 65535 < h))

section Pair

variable {source : SimDataSource} {dir : List DirEntry} {pair : StereoPair}

/-- A pair that can be loaded and has the same entry has the same descriptions. -/
theorem DeterminesImages.unique (hdetermines : DeterminesImages pair)
    (hsource : source.Configured) {left right : Bytes}
    (hleft : probeImage left source.width source.height source.channels = pair.leftInfo)
    (hchannels : (probeImage right source.width source.height source.channels).channels =
      pair.rightInfo.channels)
    (hcode : (probeImage right source.width source.height source.channels).code =
      pair.rightInfo.code) :
    probeImage right source.width source.height source.channels = pair.rightInfo := by
  have hloaded : Loaded (source.pairOfFiles left right) := by
    have hdir : lit "StereoImage" ≠ [] := by decide
    exact ⟨source, _, _, hsource, hdir, source.pairOfFiles_loaded hdir left right⟩
  exact (hdetermines.determines _ hloaded (sameButSize_of_visible hleft hchannels hcode)).2

/-- The same configuration with another width. -/
def SimDataSource.resized (source : SimDataSource) : SimDataSource :=
  { source with width := otherSize source.width }

theorem SimDataSource.Configured.resized (hsource : source.Configured) :
    source.resized.Configured := by
  have hsize : -2 ^ 31 ≤ (otherSize source.width : Int) ∧
      (otherSize source.width : Int) < 2 ^ 31 := by
    unfold otherSize
    split <;> decide
  intro n hn
  rcases List.mem_cons.mp hn with rfl | hrest
  · exact hsize
  · exact hsource n (List.mem_cons_of_mem _ hrest)

theorem DeterminesImages.pinned (hsource : source.Configured)
    (hpair : pair ∈ source.loadedPairs dir) (hdetermines : DeterminesImages pair) :
    Pinned source.width source.height source.channels (kindOf pair.left) (kindOf pair.right) := by
  obtain ⟨hleftInfo, hrightInfo⟩ := SimDataSource.loadedPairs_info hpair
  have hright : kindOf pair.right = .raw ∧ defaultChannels source.channels 4 = 4 := by
    by_contra hother
    obtain ⟨file, hchannels, hcode, hne⟩ :=
      exists_lookalike pair.right source.width source.height source.channels hother
    rw [← probeImage_eq, ← probeImage_eq, ← hrightInfo] at hchannels hcode hne
    exact hne (hdetermines.unique hsource hleftInfo.symm hchannels hcode)
  obtain ⟨hraw, hfour⟩ := hright
  -- under another width the right file would have the same channels and layout
  have hsized : ∀ left, probeImage left source.resized.width source.height source.channels ≠
      pair.leftInfo := by
    intro left hleft
    have hsame := @DeterminesImages.unique source.resized pair hdetermines hsource.resized left
      pair.right hleft (by rw [hrightInfo, probeImage_eq, probeImage_eq, hraw]; rfl)
      (by rw [hrightInfo, probeImage_eq, probeImage_eq, hraw]; rfl)
    rw [hrightInfo, probeImage_eq, probeImage_eq, hraw] at hsame
    exact otherSize_ne source.width (congrArg ImageInfo.width hsame)
  have hwidth : 0 < pair.leftInfo.width := by
    have hcarried := hdetermines.carries (lit "width") (by simp)
    rw [Json.contains, lookup_stereoEntry,
      @find_imageMember _ _ _ (lit "width") (.integer pair.leftInfo.width)
        (by simp [imageMembers])] at hcarried
    split at hcarried
    next hpos => exact hpos
    next => contradiction
  rw [hleftInfo, probeImage_eq] at hwidth
  have hfixed : ∀ file k, kindOf file = k →
      k.info source.resized.width source.height source.channels =
        (kindOf pair.left).info source.width source.height source.channels → False := by
    intro file k hkind hsame
    refine hsized file ?_
    rw [hleftInfo, probeImage_eq, probeImage_eq, hkind]
    exact hsame
  have hchannels := defaultChannels_eq_four.mp hfour
  cases hkind : kindOf pair.left with
  | simRaw w h => exact (hfixed pair.left _ hkind (by rw [hkind]; rfl)).elim
  | jpeg w h n => exact (hfixed pair.left _ hkind (by rw [hkind]; rfl)).elim
  | png w h t => exact (hfixed pair.left _ hkind (by rw [hkind]; rfl)).elim
  | tiff =>
      rw [hkind] at hwidth
      exact ⟨hwidth, hraw, hchannels, .inr (.inl rfl)⟩
  | raw =>
      rw [hkind] at hwidth
      exact ⟨hwidth, hraw, hchannels, .inl rfl⟩
  | jpegUnsized =>
      rw [hkind] at hwidth
      have hpos : 0 < source.width := hwidth
      refine ⟨hpos, hraw, hchannels, .inr (.inr ⟨rfl, ?_⟩)⟩
      -- a size of two bytes each could come from a frame header
      by_contra hsmall
      push Not at hsmall
      obtain ⟨hwide, hnonneg, hhigh⟩ := hsmall
      have hcount : 3 ≤ defaultChannels source.channels 3 ∧
          defaultChannels source.channels 3 ≤ 4 := by
        unfold defaultChannels
        split <;> omega
      refine hfixed _ _ (@kindOf_jpegFile source.width.toNat source.height.toNat
        (defaultChannels source.channels 3).toNat (by omega) (by omega) (by omega)) ?_
      rw [hkind, ImageKind.info, ImageKind.info, if_neg (by omega), if_neg (by omega),
        Int.toNat_of_nonneg (by omega), Int.toNat_of_nonneg (by omega), Int.toNat_of_nonneg hnonneg]

/-- Where the size is pinned, the entry leaves nothing open. -/
theorem determinesImages_of_pinned (hpair : pair ∈ source.loadedPairs dir)
    (hpinned : Pinned source.width source.height source.channels (kindOf pair.left)
      (kindOf pair.right)) : DeterminesImages pair := by
  obtain ⟨hleftInfo, hrightInfo⟩ := SimDataSource.loadedPairs_info hpair
  rw [probeImage_eq] at hleftInfo hrightInfo
  obtain ⟨hpos, hraw, hchannels, hleft⟩ := hpinned
  have hfour := defaultChannels_eq_four.mpr hchannels
  have hwidth : pair.leftInfo.width = source.width ∧ pair.leftInfo.height = source.height := by
    rw [hleftInfo]
    rcases hleft with hkind | hkind | ⟨hkind, _⟩ <;> rw [hkind] <;> exact ⟨rfl, rfl⟩
  have hwide : 0 < pair.leftInfo.width := hwidth.1 ▸ hpos
  rw [hraw] at hrightInfo
  refine ⟨?_, ?_⟩
  · have hfound : ∀ m ∈ imageMembers pair.leftInfo, (stereoEntry pair).contains m.1 = true := by
      intro m hm
      rw [Json.contains, lookup_stereoEntry, find_imageMember _ _ hm, if_pos hwide]
      rfl
    simpa [imageMembers] using hfound
  · rintro other ⟨source', stereoDir', dir', _, hdir', hother⟩ hsame
    rw [source'.load_pairs hdir'] at hother
    obtain ⟨hleftInfo', hrightInfo'⟩ := SimDataSource.loadedPairs_info hother
    rw [probeImage_eq] at hleftInfo' hrightInfo'
    obtain ⟨hsameLeft, _, hsameCode⟩ := hsame.visible hwide
    refine ⟨hsameLeft, ?_⟩
    have hcode : pair.rightInfo.code = lit "BGRA" := by
      rw [hrightInfo]
      exact info_code_bgra.mpr ⟨rfl, hfour⟩
    have hlayout := hsameCode (by rw [hcode]; decide)
    rw [hcode, hrightInfo'] at hlayout
    obtain ⟨hraw', hfour'⟩ := info_code_bgra.mp hlayout
    -- the left file of the other pair has the configured size as well
    have hsize : source'.width = source.width ∧ source'.height = source.height := by
      rw [← hwidth.1, ← hwidth.2, ← hsameLeft, hleftInfo']
      have hleftSame : (kindOf other.left).info source'.width source'.height source'.channels =
          (kindOf pair.left).info source.width source.height source.channels := by
        rw [← hleftInfo', hsameLeft, hleftInfo]
      rcases hleft with hkind | hkind | ⟨hkind, hlarge⟩
      · rw [hkind] at hleftSame
        have hlayoutLeft : (ImageKind.raw.info source.width source.height source.channels).code =
            lit "BGRA" := info_code_bgra.mpr ⟨rfl, hfour⟩
        rw [← hleftSame] at hlayoutLeft
        rw [(info_code_bgra.mp hlayoutLeft).1]
        exact ⟨rfl, rfl⟩
      · rw [hkind] at hleftSame
        rw [kind_of_tiff (congrArg ImageInfo.format hleftSame)]
        exact ⟨rfl, rfl⟩
      · rw [hkind] at hleftSame
        rcases kind_of_jpg (congrArg ImageInfo.format hleftSame) with hkind' | ⟨w, h, n, hkind'⟩
        · rw [hkind']
          exact ⟨rfl, rfl⟩
        · obtain ⟨hsmallWidth, hsmallHeight, _⟩ := kindOf_jpeg_lt hkind'
          rw [hkind'] at hleftSame
          have hw : (w : Int) = source.width := congrArg ImageInfo.width hleftSame
          have hh : (h : Int) = source.height := congrArg ImageInfo.height hleftSame
          omega
    rw [hrightInfo', hrightInfo, hraw', ImageKind.info, ImageKind.info, hfour, hfour', hsize.1,
      hsize.2]

/-- For every pair loaded under any configuration, the published entry determines
the descriptions of both images if and only if the size of the right one is pinned. -/
theorem determinesImages_iff (hsource : source.Configured) {stereoDir : Bytes}
    (hdir : stereoDir ≠ []) (hpair : pair ∈ (source.load stereoDir (some dir)).1.pairs) :
    DeterminesImages pair ↔ Pinned source.width source.height source.channels (kindOf pair.left)
      (kindOf pair.right) := by
  rw [source.load_pairs hdir] at hpair
  exact ⟨fun hdetermines => hdetermines.pinned hsource hpair, determinesImages_of_pinned hpair⟩

end Pair

theorem defaultSource_configured : ({} : SimDataSource).Configured := by
  unfold SimDataSource.Configured
  decide

/-- Raw pixels on both sides have the configured size. -/
theorem rawPair_determined :
    DeterminesImages (SimDataSource.pairOfFiles {} [0, 0, 0, 0] [255, 255, 255, 255]) := by
  have hdir : lit "StereoImage" ≠ [] := by decide
  have hloaded := SimDataSource.pairOfFiles_loaded {} hdir [0, 0, 0, 0] [255, 255, 255, 255]
  have hleft : kindOf [0, 0, 0, 0] = .raw := by decide
  have hright : kindOf [255, 255, 255, 255] = .raw := by decide
  refine (determinesImages_iff defaultSource_configured hdir hloaded).mpr ?_
  exact ⟨by decide, hright, by decide, .inl hleft⟩

/-- Beside one left JPEG, a right JPEG and a right PNG have the same entry. -/
theorem mixedPair_not_determined :
    ¬ ∀ (source : SimDataSource) (stereoDir : Bytes) (dir : List DirEntry) (pair : StereoPair),
      source.Configured → stereoDir ≠ [] → pair ∈ (source.load stereoDir (some dir)).1.pairs →
      DeterminesImages pair := by
  intro hclaim
  have hdir : lit "StereoImage" ≠ [] := by decide
  have hloaded :=
    SimDataSource.pairOfFiles_loaded {} hdir (jpegFile 640 480 3) (jpegFile 640 480 3)
  have hdetermines := hclaim {} _ _ _ defaultSource_configured hdir hloaded
  have hjpeg : kindOf (jpegFile 640 480 3) = .jpeg 640 480 3 :=
    kindOf_jpegFile (by decide) (by decide) (by decide)
  have hsame : probeImage (pngFile 200 2) 1280 720 4 =
      (SimDataSource.pairOfFiles {} (jpegFile 640 480 3) (jpegFile 640 480 3)).rightInfo := by
    refine @DeterminesImages.unique {} _ hdetermines defaultSource_configured (jpegFile 640 480 3)
      (pngFile 200 2) rfl ?_ ?_
    · dsimp only [SimDataSource.pairOfFiles]
      rw [probeImage_eq, probeImage_eq, hjpeg, kindOf_pngFile]
      rfl
    · dsimp only [SimDataSource.pairOfFiles]
      rw [probeImage_eq, probeImage_eq, hjpeg, kindOf_pngFile]
      rfl
  dsimp only [SimDataSource.pairOfFiles] at hsame
  rw [probeImage_eq, probeImage_eq, hjpeg, kindOf_pngFile] at hsame
  have hformat : lit "PNG" = lit "JPG" := congrArg ImageInfo.format hsame
  exact absurd hformat (by decide)

end SimVision
