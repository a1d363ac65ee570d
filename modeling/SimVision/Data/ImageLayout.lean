import SimVision.Data.ImageMetadata

/-! # Channel counts and layouts

A consumer allocates an image by its channel count and interprets it by its layout.
`probe_image` sets the two by rules of their own in each branch. For the right
image of a pair, the entry in `parts[]` is meant to carry them where they differ
from the left image's.
-/

namespace SimVision

open Foundation

/-! ## One image -/

/-- A channel count and a layout say the same. -/
structure LayoutAgrees (channels : Int) (code : Bytes) : Prop where
  known : 1 ≤ channels ∧ channels ≤ 4
  mono : code = lit "Mono" ↔ channels = 1
  graya : code = lit "GRAYA" ↔ channels = 2
  rgb : code = lit "RGB" ↔ channels = 3
  alpha : (code = lit "RGBA" ∨ code = lit "BGRA") ↔ channels = 4

/-- The number of channels that a layout stands for. -/
def layoutChannels (code : Bytes) : Option Int :=
  if code = lit "Mono" then some 1
  else if code = lit "GRAYA" then some 2
  else if code = lit "RGB" then some 3
  else if code = lit "RGBA" ∨ code = lit "BGRA" then some 4
  else none

theorem layoutAgrees_iff_channels {channels : Int} {code : Bytes} :
    LayoutAgrees channels code ↔ layoutChannels code = some channels := by
  constructor
  · intro hagrees
    obtain ⟨hlow, hhigh⟩ := hagrees.known
    have hcases : channels = 1 ∨ channels = 2 ∨ channels = 3 ∨ channels = 4 := by omega
    rcases hcases with hone | htwo | hthree | hfour
    · rw [hone, hagrees.mono.mpr hone]
      rfl
    · rw [htwo, hagrees.graya.mpr htwo]
      rfl
    · rw [hthree, hagrees.rgb.mpr hthree]
      rfl
    · rw [hfour]
      rcases hagrees.alpha.mpr hfour with rfl | rfl <;> rfl
  · intro hchannels
    unfold layoutChannels at hchannels
    split_ifs at hchannels with hmono hgraya hrgb halpha
    · obtain rfl := Option.some.inj hchannels
      subst hmono
      constructor <;> decide
    · obtain rfl := Option.some.inj hchannels
      subst hgraya
      constructor <;> decide
    · obtain rfl := Option.some.inj hchannels
      subst hrgb
      constructor <;> decide
    · obtain rfl := Option.some.inj hchannels
      rcases halpha with rfl | rfl <;> constructor <;> decide

/-- The kinds of file, under a configured channel count, for which `probe_image`
sets a layout of as many channels as it reports. -/
def ImageKind.LayoutFollows (defCh : Int) : ImageKind → Prop
  | .simRaw _ _ => True
  | .jpeg _ _ components => components = 1 ∨ components = 3
  | .jpegUnsized => defCh ≤ 0 ∨ defCh = 1 ∨ defCh = 3
  | .png _ _ _ => True
  | .tiff => defCh ≤ 0 ∨ defCh = 3
  | .raw => defCh ≤ 0 ∨ defCh = 3 ∨ defCh = 4

theorem layoutChannels_pngLayout (colorType : UInt8) :
    layoutChannels (pngLayout colorType).2 = some (pngLayout colorType).1 := by
  unfold pngLayout
  split_ifs <;> rfl

/-- A layout that is `Mono` for one channel and `RGB` for every other count. -/
theorem layoutChannels_monoOrRgb (channels : Int) :
    layoutChannels (if channels = 1 then lit "Mono" else lit "RGB") = some channels ↔
      channels = 1 ∨ channels = 3 := by
  split
  next hone =>
    rw [hone]
    decide
  next hmany =>
    have hrgb : layoutChannels (lit "RGB") = some 3 := rfl
    rw [hrgb, Option.some.injEq, or_iff_right hmany, eq_comm]

theorem defaultChannels_eq {defCh other n : Int} :
    defaultChannels defCh other = n ↔ (0 < defCh ∧ defCh = n) ∨ (defCh ≤ 0 ∧ other = n) := by
  unfold defaultChannels
  split <;> omega

/-- For every byte buffer and all defaults, the reported channels and layout agree
if and only if the branch that recognises the file derives one from the other. -/
theorem layoutAgrees_iff (buf : Bytes) (defW defH defCh : Int) :
    LayoutAgrees (probeImage buf defW defH defCh).channels (probeImage buf defW defH defCh).code ↔
      (kindOf buf).LayoutFollows defCh := by
  rw [layoutAgrees_iff_channels, probeImage_eq]
  cases kindOf buf with
  | simRaw width height => exact iff_of_true rfl trivial
  | jpeg width height components =>
      have hone : components = 1 ↔ (components : Int) = 1 := by omega
      simp only [ImageKind.info, ImageKind.LayoutFollows, hone]
      rw [layoutChannels_monoOrRgb]
      omega
  | jpegUnsized =>
      simp only [ImageKind.info, ImageKind.LayoutFollows]
      rw [layoutChannels_monoOrRgb, defaultChannels_eq, defaultChannels_eq]
      omega
  | png width height colorType => exact iff_of_true (layoutChannels_pngLayout colorType) trivial
  | tiff =>
      have hrgb : layoutChannels (lit "RGB") = some 3 := rfl
      simp only [ImageKind.info, ImageKind.LayoutFollows, hrgb, Option.some.injEq]
      rw [eq_comm, defaultChannels_eq]
      omega
  | raw =>
      simp only [ImageKind.info, ImageKind.LayoutFollows]
      split
      next hfour =>
        refine iff_of_true (by rw [hfour]; rfl) ?_
        rw [defaultChannels_eq_four] at hfour
        omega
      next hother =>
        have hrgb : layoutChannels (lit "RGB") = some 3 := rfl
        rw [hrgb, Option.some.injEq, eq_comm, defaultChannels_eq]
        rw [defaultChannels_eq] at hother
        omega

/-- Raw pixels of one configured channel are reported as `RGB`. -/
theorem grayPixels_disagree :
    ¬ ∀ (buf : Bytes) (defW defH defCh : Int),
      LayoutAgrees (probeImage buf defW defH defCh).channels
        (probeImage buf defW defH defCh).code := by
  intro hclaim
  have hmono := (hclaim [0, 0, 0, 0] 1280 720 1).mono.mpr (by decide)
  exact absurd hmono (by decide)

/-! ## The right image of a pair -/

/-- The entry carries the right image's channel count exactly where it differs from
the left one's, and its layout exactly where that differs. -/
structure MarksDifferences (entry : Json) (left right : ImageInfo) : Prop where
  channels : entry.contains (lit "right_channels") = true ↔ right.channels ≠ left.channels
  channels_value : ∀ value, entry.lookup (lit "right_channels") = some value →
    value = .integer right.channels
  layout : entry.contains (lit "right_channel_layout") = true ↔ right.code ≠ left.code
  layout_value : ∀ value, entry.lookup (lit "right_channel_layout") = some value →
    value = .string right.code

section Kinds

variable {w h c : Int} {k : ImageKind}

theorem info_code_ne_nil : (k.info w h c).code ≠ [] := by
  have hmono : lit "Mono" ≠ [] := by decide
  have hrgb : lit "RGB" ≠ [] := by decide
  have hbgra : lit "BGRA" ≠ [] := by decide
  cases k with
  | simRaw _ _ => exact hrgb
  | jpeg _ _ components =>
      simp only [ImageKind.info]
      split <;> assumption
  | jpegUnsized =>
      simp only [ImageKind.info]
      split <;> assumption
  | png _ _ colorType =>
      simp only [ImageKind.info, pngLayout]
      split_ifs <;> decide
  | tiff => exact hrgb
  | raw =>
      simp only [ImageKind.info]
      split <;> assumption

theorem defaultChannels_pos {other : Int} (hother : 0 < other) : 0 < defaultChannels c other := by
  unfold defaultChannels
  split <;> assumption

/-- Only a JPEG whose frame header announces no component is described without
channels. -/
theorem info_code_of_channels_le (hnone : (k.info w h c).channels ≤ 0) :
    (k.info w h c).code = lit "RGB" := by
  cases k with
  | simRaw _ _ => rfl
  | jpeg _ _ components =>
      simp only [ImageKind.info] at hnone ⊢
      rw [if_neg (by omega)]
  | jpegUnsized => exact absurd (defaultChannels_pos (by decide)) (not_lt.mpr hnone)
  | png _ _ colorType =>
      simp only [ImageKind.info, pngLayout] at hnone
      split_ifs at hnone <;> omega
  | tiff => rfl
  | raw => exact absurd (defaultChannels_pos (by decide)) (not_lt.mpr hnone)

end Kinds

section Entry

variable {pair : StereoPair}

theorem lookup_rightChannels (hwidth : 0 < pair.leftInfo.width) :
    (stereoEntry pair).lookup (lit "right_channels") =
      if 0 < pair.rightInfo.channels then some (.integer pair.rightInfo.channels) else none := by
  rw [lookup_stereoEntry, find_rightChannels _ hwidth]

theorem lookup_rightLayout (hwidth : 0 < pair.leftInfo.width) (hcode : pair.rightInfo.code ≠ []) :
    (stereoEntry pair).lookup (lit "right_channel_layout") =
      some (.string pair.rightInfo.code) := by
  rw [lookup_stereoEntry, find_rightLayout _ hwidth, if_pos hcode]

/-- The right image's count is in the entry whether or not it differs. -/
theorem contains_rightChannels (hwidth : 0 < pair.leftInfo.width) :
    (stereoEntry pair).contains (lit "right_channels") = true ↔ 0 < pair.rightInfo.channels := by
  rw [Json.contains, lookup_rightChannels hwidth]
  split
  next hpos => exact iff_of_true rfl hpos
  next hnone => exact iff_of_false Bool.false_ne_true hnone

/-- So is its layout. -/
theorem contains_rightLayout (hwidth : 0 < pair.leftInfo.width) (hcode : pair.rightInfo.code ≠ []) :
    (stereoEntry pair).contains (lit "right_channel_layout") = true := by
  rw [Json.contains, lookup_rightLayout hwidth hcode]
  rfl

end Entry

/-- For every pair loaded from a directory, mirrored ones included, whose left width
is positive, the published entry marks the differences if and only if both the
channel count and the layout differ and the right count is not zero. -/
theorem marksDifferences_iff {source : SimDataSource} {stereoDir : Bytes} (hdir : stereoDir ≠ [])
    {dir : List DirEntry} {pair : StereoPair}
    (hpair : pair ∈ (source.load stereoDir (some dir)).1.pairs) (hwidth : 0 < pair.leftInfo.width)
    (tsSec tsNsec : Int) :
    MarksDifferences (partJson (CaptureEngine.stereoBundle tsSec tsNsec pair)) pair.leftInfo
        pair.rightInfo ↔
      0 < pair.rightInfo.channels ∧ pair.rightInfo.channels ≠ pair.leftInfo.channels ∧
        pair.rightInfo.code ≠ pair.leftInfo.code := by
  rw [source.load_pairs hdir] at hpair
  obtain ⟨hleft, hright⟩ := SimDataSource.loadedPairs_info hpair
  rw [probeImage_eq] at hleft hright
  have hentry : partJson (CaptureEngine.stereoBundle tsSec tsNsec pair) = stereoEntry pair := rfl
  have hsome : pair.rightInfo.code ≠ [] := by
    rw [hright]
    exact info_code_ne_nil
  have hcontains := contains_rightChannels hwidth
  rw [hentry]
  constructor
  · intro hmarks
    have hcode : pair.rightInfo.code ≠ pair.leftInfo.code :=
      hmarks.layout.mp (contains_rightLayout hwidth hsome)
    have hcount := hcontains.symm.trans hmarks.channels
    by_cases hpos : 0 < pair.rightInfo.channels
    · exact ⟨hpos, hcount.mp hpos, hcode⟩
    · have hsame : pair.rightInfo.channels = pair.leftInfo.channels :=
        not_not.mp (hcount.not.mp hpos)
      have hnone := not_lt.mp hpos
      -- neither image has channels, so both are described by the same layout
      have hrgbRight : pair.rightInfo.code = lit "RGB" := by
        rw [hright] at hnone ⊢
        exact info_code_of_channels_le hnone
      have hrgbLeft : pair.leftInfo.code = lit "RGB" := by
        rw [hsame, hleft] at hnone
        rw [hleft]
        exact info_code_of_channels_le hnone
      exact absurd (hrgbRight.trans hrgbLeft.symm) hcode
  · rintro ⟨hpos, hdifferent, hcode⟩
    constructor
    case channels => exact hcontains.trans (iff_of_true hpos hdifferent)
    case channels_value =>
      intro value hvalue
      rw [lookup_rightChannels hwidth, if_pos hpos] at hvalue
      exact (Option.some.inj hvalue).symm
    case layout => exact iff_of_true (contains_rightLayout hwidth hsome) hcode
    case layout_value =>
      intro value hvalue
      rw [lookup_rightLayout hwidth hsome] at hvalue
      exact (Option.some.inj hvalue).symm

/-- Beside a left JPEG in colour, a right PNG in grey is marked. -/
theorem colourAndGrey_marked :
    MarksDifferences
      (stereoEntry (SimDataSource.pairOfFiles {} (jpegFile 640 480 3) (pngFile 200 0)))
      (probeImage (jpegFile 640 480 3) 1280 720 4) (probeImage (pngFile 200 0) 1280 720 4) := by
  have hdir : lit "StereoImage" ≠ [] := by decide
  have hjpeg : kindOf (jpegFile 640 480 3) = .jpeg 640 480 3 :=
    kindOf_jpegFile (by decide) (by decide) (by decide)
  have hloaded := SimDataSource.pairOfFiles_loaded {} hdir (jpegFile 640 480 3) (pngFile 200 0)
  apply (marksDifferences_iff hdir hloaded ?_ 0 0).mpr
  · dsimp only [SimDataSource.pairOfFiles]
    rw [probeImage_eq, probeImage_eq, hjpeg, kindOf_pngFile]
    decide
  · dsimp only [SimDataSource.pairOfFiles]
    rw [probeImage_eq, hjpeg]
    decide

/-- Two equal images have an entry that names the right one's channels. -/
theorem equalImages_marked :
    ¬ ∀ (source : SimDataSource) (stereoDir : Bytes) (dir : List DirEntry) (pair : StereoPair)
      (tsSec tsNsec : Int), stereoDir ≠ [] →
      pair ∈ (source.load stereoDir (some dir)).1.pairs → 0 < pair.leftInfo.width →
      MarksDifferences (partJson (CaptureEngine.stereoBundle tsSec tsNsec pair)) pair.leftInfo
        pair.rightInfo := by
  intro hclaim
  have hdir : lit "StereoImage" ≠ [] := by decide
  have hmarks := hclaim {} (lit "StereoImage") (twoFiles [0, 0, 0, 0] [0, 0, 0, 0]) _ 0 0 hdir
    (SimDataSource.pairOfFiles_loaded _ hdir _ _) (by decide)
  exact hmarks.channels.mp (by decide) rfl

end SimVision
