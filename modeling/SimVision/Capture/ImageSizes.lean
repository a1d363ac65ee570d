import SimVision.Capture.Timestamps
import SimVision.Common.ConfigDocument

/-! # Image sizes from the configuration

The generators take the configured width and height as signed numbers and size
their buffers by them as unsigned ones. Loading checks neither, so an accepted
configuration may make every depth, disparity and confidence map throw.
-/

namespace SimVision

open Foundation

/-- `set_image_size`. -/
def SimDataSource.setImageSize (source : SimDataSource) (w h : Int) : SimDataSource :=
  { source with width := w, height := h }

/-- The types whose payload is a raster of the configured size. -/
def rasterTypes : List DataType := [.depthMap, .disparityMap, .confidenceMap]

/-- Whatever is active in whatever tick, no generator throws, each builds rows of
a length that is an `int` and returns four bytes a pixel. -/
structure GeneratesImages (samples : Samples) (source : SimDataSource) : Prop where
  row_length : sizeOfInt source.width ≤ 2 ^ 31 - 1
  returns : ∀ (group : DataGroup) (tsSec tsNsec : Int) (frameIndex : Nat) (pubId : Bytes)
    (isActive : DataType → Bool) (depthMode : Option Parameter),
    ∃ frame, (CaptureEngine.buildFrame samples group tsSec tsNsec frameIndex pubId isActive
        depthMode source).2 = .ok frame ∧
      ∀ bundle ∈ frame.bundles, bundle.type ∈ rasterTypes →
        (bundle.data.length : Int) = 4 * source.width * source.height

/-- The sizes that the generators can handle. -/
def SizeFits (w h : Int) : Prop := 0 ≤ w ∧ (w = 0 ∨ 0 ≤ h ∧ 4 * w * h < 2 ^ 63)

namespace SimDataSource

variable {width height : Int}

/-- Pieces of one length, put end to end. -/
theorem length_pieces {α β : Type} {items : List α} {f : α → List β} {n : Nat}
    (hlength : ∀ a ∈ items, (f a).length = n) : (items.flatMap f).length = items.length * n := by
  rw [List.length_flatMap, List.map_congr_left hlength, List.map_const', List.sum_replicate_nat]

theorem generateRows_length {sample : Nat → Nat → UInt32} {data : Bytes}
    (hrows : generateRows width height sample = .ok data) :
    data.length = height.toNat * (width.toNat * 4) := by
  unfold generateRows at hrows
  split at hrows
  next => contradiction
  next =>
    split at hrows
    next => contradiction
    next =>
      rw [← Except.ok.inj hrows]
      have hrow : ∀ y ∈ List.range height.toNat,
          ((List.range width.toNat).flatMap fun x => leBytes (sample x y)).length =
            width.toNat * 4 := by
        intro y _
        rw [length_pieces (n := 4) fun x _ => rfl, List.length_range]
      rw [length_pieces hrow, List.length_range]

theorem sizeOfInt_nonneg {i : Int} (hlow : 0 ≤ i) (hhigh : i < 2 ^ 31) : sizeOfInt i = i.toNat := by
  rw [sizeOfInt, Int.emod_eq_of_lt hlow (by unfold wordSize; omega)]

/-- A negative `int` becomes an enormous `size_t`. -/
theorem sizeOfInt_neg {i : Int} (hlow : -2 ^ 31 ≤ i) (hhigh : i < 0) :
    2 ^ 64 - 2 ^ 31 ≤ sizeOfInt i := by
  have hmod : i % (wordSize : Int) = i + 2 ^ 64 := by
    rw [← Int.add_emod_right]
    exact Int.emod_eq_of_lt (by unfold wordSize; omega) (by unfold wordSize; omega)
  rw [sizeOfInt, hmod]
  omega

/-- With sizes that fit, a raster has four bytes a pixel. -/
theorem generateRows_of_fits (hfits : SizeFits width height) (hwidth : width < 2 ^ 31)
    (hheight : -2 ^ 31 ≤ height ∧ height < 2 ^ 31) (sample : Nat → Nat → UInt32) :
    ∃ data, generateRows width height sample = .ok data ∧
      (data.length : Int) = 4 * width * height := by
  obtain ⟨hnonneg, hfit⟩ := hfits
  have hsize := sizeOfInt_nonneg hnonneg hwidth
  have hreserve : ¬ 2 ^ 63 ≤ sizeOfInt width * sizeOfInt height * 4 % wordSize := by
    rcases hfit with rfl | ⟨hrows, hbytes⟩
    · simp [sizeOfInt]
    · rw [hsize, sizeOfInt_nonneg hrows hheight.2]
      have hproduct : ((width.toNat * height.toNat * 4 : Nat) : Int) = 4 * width * height := by
        push_cast
        rw [Int.toNat_of_nonneg hnonneg, Int.toNat_of_nonneg hrows]
        ring
      have hle := Nat.mod_le (width.toNat * height.toNat * 4) wordSize
      omega
  have hrow : ¬ 2 ^ 61 ≤ sizeOfInt width := by
    rw [hsize]
    omega
  have hok : ∃ data, generateRows width height sample = .ok data := by
    rw [generateRows, if_neg hreserve, if_neg hrow]
    exact ⟨_, rfl⟩
  obtain ⟨data, hrows⟩ := hok
  refine ⟨data, hrows, ?_⟩
  rw [generateRows_length hrows]
  rcases hfit with rfl | ⟨hheightNonneg, _⟩
  · simp
  · push_cast
    rw [Int.toNat_of_nonneg hnonneg, Int.toNat_of_nonneg hheightNonneg]
    ring

/-- A generator that returns four bytes a pixel, with rows that fit an `int`, was
given sizes that fit. -/
theorem fits_of_generateRows (hwidth : -2 ^ 31 ≤ width ∧ width < 2 ^ 31)
    (hheight : -2 ^ 31 ≤ height ∧ height < 2 ^ 31) (hrow : sizeOfInt width ≤ 2 ^ 31 - 1)
    {sample : Nat → Nat → UInt32} {data : Bytes}
    (hrows : generateRows width height sample = .ok data)
    (hlength : (data.length : Int) = 4 * width * height) : SizeFits width height := by
  have hnonneg : 0 ≤ width := by
    by_contra hneg
    have hhuge := sizeOfInt_neg hwidth.1 (by omega)
    omega
  refine ⟨hnonneg, ?_⟩
  rcases Int.lt_or_eq_of_le hnonneg with hpos | hzero
  · right
    have hheightNonneg : 0 ≤ height := by
      by_contra hneg
      have hproduct : 4 * width * height < 0 :=
        Int.mul_neg_of_pos_of_neg (by omega) (by omega)
      omega
    refine ⟨hheightNonneg, ?_⟩
    by_contra hbig
    -- the reservation exceeds what a vector may hold, and it does not wrap
    have hproduct : ((sizeOfInt width * sizeOfInt height * 4 : Nat) : Int) =
        4 * width * height := by
      rw [sizeOfInt_nonneg hnonneg hwidth.2, sizeOfInt_nonneg hheightNonneg hheight.2]
      push_cast
      rw [Int.toNat_of_nonneg hnonneg, Int.toNat_of_nonneg hheightNonneg]
      ring
    have hbound : 4 * width * height < 2 ^ 64 := by nlinarith
    have hlt : sizeOfInt width * sizeOfInt height * 4 < wordSize := by
      unfold wordSize
      omega
    unfold generateRows at hrows
    rw [if_pos (by rw [Nat.mod_eq_of_lt hlt]; omega)] at hrows
    contradiction
  · exact .inl hzero.symm

end SimDataSource

namespace CaptureEngine

variable {samples : Samples} {tsSec tsNsec : Int} {frameIndex : Nat} {depthMode : Bytes}
  {source : SimDataSource}

/-- What the bundles of a frame promise when the sizes are `w` and `h`. -/
def RastersOf (w h : Int) (bundles : List DataBundle) : Prop :=
  ∀ bundle ∈ bundles, bundle.type ∈ rasterTypes → (bundle.data.length : Int) = 4 * w * h

theorem rasterBundle_ok {t : DataType} {partId format : Bytes} {w h : Int}
    {data : Except Bytes Bytes}
    (hdata : ∃ bytes, data = .ok bytes ∧ (bytes.length : Int) = 4 * w * h) :
    ∃ bundle, generatedBundle tsSec tsNsec t partId format data = .ok bundle ∧
      RastersOf w h bundle.toList := by
  obtain ⟨bytes, rfl, hlength⟩ := hdata
  refine ⟨_, rfl, ?_⟩
  intro bundle hbundle _
  obtain rfl := List.mem_singleton.mp hbundle
  exact hlength

theorem otherBundle_ok {t : DataType} (hother : t ∉ rasterTypes) (partId format bytes : Bytes)
    (w h : Int) :
    ∃ bundle, generatedBundle tsSec tsNsec t partId format (.ok bytes) = .ok bundle ∧
      RastersOf w h bundle.toList := by
  refine ⟨_, rfl, ?_⟩
  intro bundle hbundle hraster
  obtain rfl := List.mem_singleton.mp hbundle
  exact absurd hraster hother

/-- With sizes that fit, no case of the switch throws, and the sizes stay. -/
theorem buildBundle_ok (hfits : SizeFits source.width source.height)
    (hwidth : source.width < 2 ^ 31) (hheight : -2 ^ 31 ≤ source.height ∧ source.height < 2 ^ 31)
    (t : DataType) :
    (buildBundle samples tsSec tsNsec frameIndex depthMode source t).1.width = source.width ∧
      (buildBundle samples tsSec tsNsec frameIndex depthMode source t).1.height = source.height ∧
      ∃ bundle, (buildBundle samples tsSec tsNsec frameIndex depthMode source t).2 = .ok bundle ∧
        RastersOf source.width source.height bundle.toList := by
  have hrows := SimDataSource.generateRows_of_fits hfits hwidth hheight
  cases t with
  | stereoImage =>
      have hkept : source.nextStereo.1.width = source.width ∧
          source.nextStereo.1.height = source.height := by
        unfold SimDataSource.nextStereo
        split
        next => exact ⟨rfl, rfl⟩
        next => exact ⟨rfl, rfl⟩
      refine ⟨hkept.1, hkept.2, _, rfl, ?_⟩
      intro bundle hbundle hraster
      obtain ⟨pair, _, rfl⟩ := Option.map_eq_some_iff.mp (Option.mem_toList.mp hbundle)
      have hnot : DataType.stereoImage ∉ rasterTypes := by decide
      exact absurd hraster hnot
  | depthMap => exact ⟨rfl, rfl, rasterBundle_ok (hrows _)⟩
  | disparityMap => exact ⟨rfl, rfl, rasterBundle_ok (hrows _)⟩
  | confidenceMap => exact ⟨rfl, rfl, rasterBundle_ok (hrows _)⟩
  | pointCloud => exact ⟨rfl, rfl, otherBundle_ok (by decide) _ _ _ _ _⟩
  | imu => exact ⟨rfl, rfl, otherBundle_ok (by decide) _ _ _ _ _⟩
  | temperature => exact ⟨rfl, rfl, otherBundle_ok (by decide) _ _ _ _ _⟩
  | magnetometer => exact ⟨rfl, rfl, otherBundle_ok (by decide) _ _ _ _ _⟩
  | barometer => exact ⟨rfl, rfl, otherBundle_ok (by decide) _ _ _ _ _⟩

/-- The loop over the members of a group. -/
theorem buildBundles_ok (isActive : DataType → Bool) (types : List DataType)
    (hfits : SizeFits source.width source.height) (hwidth : source.width < 2 ^ 31)
    (hheight : -2 ^ 31 ≤ source.height ∧ source.height < 2 ^ 31) :
    ∃ bundles, (buildBundles samples tsSec tsNsec frameIndex depthMode isActive source types).2 =
        .ok bundles ∧ RastersOf source.width source.height bundles := by
  induction types generalizing source with
  | nil => exact ⟨[], rfl, fun _ hmem => absurd hmem List.not_mem_nil⟩
  | cons t rest ih =>
      rw [buildBundles]
      split
      next =>
        have hok := @buildBundle_ok samples tsSec tsNsec frameIndex depthMode source hfits hwidth
          hheight t
        rcases hbuilt : buildBundle samples tsSec tsNsec frameIndex depthMode source t
          with ⟨next, outcome⟩
        rw [hbuilt] at hok
        obtain ⟨hnextWidth, hnextHeight, bundle, rfl, hraster⟩ := hok
        dsimp only at hnextWidth hnextHeight ⊢
        have hlater := @ih next
        rw [hnextWidth, hnextHeight] at hlater
        obtain ⟨later, hlaterOk, hlaterRaster⟩ := hlater hfits hwidth hheight
        refine ⟨bundle.toList ++ later, ?_, ?_⟩
        · rw [Prod.map_snd, hlaterOk]
          rfl
        · intro member hmember
          rcases List.mem_append.mp hmember with hfirst | hrest
          · exact hraster member hfirst
          · exact hlaterRaster member hrest
      next => exact ih hfits hwidth hheight

/-- Where images are generated, the depth generator alone returns one. -/
theorem depth_of_generates (hgenerates : GeneratesImages samples source) :
    ∃ data, SimDataSource.generateDepth samples source.width source.height 0 = .ok data ∧
      (data.length : Int) = 4 * source.width * source.height := by
  obtain ⟨frame, hframe, hraster⟩ :=
    hgenerates.returns .visual2D 0 0 0 [] (fun t => t = .depthMap) none
  have hmembers : groupMembers .visual2D = [.stereoImage, .depthMap] := by decide
  rw [buildFrame_snd, hmembers, buildBundles, if_neg (by decide), buildBundles,
    if_pos (by decide), buildBundle] at hframe
  cases hdepth : SimDataSource.generateDepth samples source.width source.height 0 with
  | error what =>
      rw [hdepth] at hframe
      contradiction
  | ok data =>
      rw [hdepth] at hframe
      obtain rfl := Except.ok.inj hframe
      have hdepthMap : DataType.depthMap ∈ rasterTypes := by decide
      exact ⟨data, rfl, hraster _ (List.mem_singleton_self _) hdepthMap⟩

end CaptureEngine

/-- The converted field of an accepted document is an `int`. -/
theorem ConfigLoader.fieldOr_range {lib : JsonLibrary} (hlib : lib.ConvertsInts) (j : Json)
    (key : Bytes) {default : Int} (hdefault : -2 ^ 31 ≤ default ∧ default < 2 ^ 31) :
    -2 ^ 31 ≤ fieldOr lib.getInt j key default ∧ fieldOr lib.getInt j key default < 2 ^ 31 := by
  unfold fieldOr
  split
  next => exact hdefault
  next value _ =>
    split
    next converted hget => exact hlib.getInt_range value converted hget
    next => exact hdefault

/-- For every accepted document, the configured image size is safe for the
generators if and only if the size that the document gives is zero wide, or not
negative and of less than `2 ^ 63` bytes. -/
theorem generatesImages_iff {lib : JsonLibrary} (hlib : lib.ConvertsInts) {configDir : Bytes}
    {file : Option Bytes} {j : Json} {cfg : Config}
    (hparse : ConfigLoader.loadJsonFile lib (configDir ++ lit "/config.json") file = .ok j)
    (hload : ConfigLoader.load lib configDir file = (cfg, [])) (samples : Samples)
    (source : SimDataSource) :
    GeneratesImages samples (source.setImageSize cfg.capture.imageWidth cfg.capture.imageHeight) ↔
      SizeFits (ConfigLoader.documentSettings lib j).imageWidth
        (ConfigLoader.documentSettings lib j).imageHeight := by
  obtain ⟨_, hwidth, hheight, _⟩ := ConfigLoader.load_settings hparse hload
  rw [hwidth, hheight]
  have hwidthRange : -2 ^ 31 ≤ (ConfigLoader.documentSettings lib j).imageWidth ∧
      (ConfigLoader.documentSettings lib j).imageWidth < 2 ^ 31 :=
    ConfigLoader.fieldOr_range hlib _ _ (by decide)
  have hheightRange : -2 ^ 31 ≤ (ConfigLoader.documentSettings lib j).imageHeight ∧
      (ConfigLoader.documentSettings lib j).imageHeight < 2 ^ 31 :=
    ConfigLoader.fieldOr_range hlib _ _ (by decide)
  generalize (ConfigLoader.documentSettings lib j).imageWidth = w at hwidthRange ⊢
  generalize (ConfigLoader.documentSettings lib j).imageHeight = h at hheightRange ⊢
  constructor
  · intro hgenerates
    obtain ⟨data, hrows, hlength⟩ := CaptureEngine.depth_of_generates hgenerates
    exact SimDataSource.fits_of_generateRows hwidthRange hheightRange hgenerates.row_length hrows
      hlength
  · intro hfits
    refine ⟨?_, ?_⟩
    · change sizeOfInt w ≤ _
      rw [SimDataSource.sizeOfInt_nonneg hfits.1 hwidthRange.2]
      omega
    · intro group tsSec tsNsec frameIndex pubId isActive depthMode
      obtain ⟨bundles, hbundles, hraster⟩ := @CaptureEngine.buildBundles_ok samples tsSec tsNsec
        frameIndex (CaptureEngine.depthModeOf depthMode) (source.setImageSize w h) isActive
        (groupMembers group) hfits hwidthRange.2 hheightRange
      refine ⟨CaptureEngine.frameOf group tsSec tsNsec frameIndex pubId bundles, ?_, hraster⟩
      rw [CaptureEngine.buildFrame_snd, hbundles]
      rfl

/-- A document with an image size and three endpoints. -/
def sizedDocument (w h : Int) : Json :=
  Json.ofAssignments
    [(lit "admin_server", Json.emptyObject),
      (lit "capture", Json.ofAssignments
        [(lit "image_width", .integer w), (lit "image_height", .integer h)]),
      (lit "zmq", Json.ofAssignments [(lit "endpoints", Json.ofAssignments
        (["visual_2d", "visual_3d", "sensor_data"].map fun name =>
          (lit name, .string (lit "ipc:///tmp/sv"))))])]

/-- The configuration loaded from such a document. -/
def sizedConfig (w h : Int) : Config :=
  (ConfigLoader.load (.casting (sizedDocument w h)) (lit "config")
    (some (sizedDocument w h).text)).1

theorem sizedDocument_parsed (w h : Int) :
    ConfigLoader.loadJsonFile (.casting (sizedDocument w h)) (lit "config" ++ lit "/config.json")
      (some (sizedDocument w h).text) = .ok (sizedDocument w h) := by
  rw [ConfigLoader.loadJsonFile, JsonLibrary.casting, JsonLibrary.reading]
  simp

theorem sizedDocument_loaded {w h : Int} (haccepted : (ConfigLoader.load
      (.casting (sizedDocument w h)) (lit "config") (some (sizedDocument w h).text)).2 = []) :
    ConfigLoader.load (.casting (sizedDocument w h)) (lit "config")
      (some (sizedDocument w h).text) = (sizedConfig w h, []) := by
  rw [sizedConfig, ← haccepted]

theorem fullHd_generatesImages :
    GeneratesImages zeroSamples (SimDataSource.setImageSize {}
      (sizedConfig 1920 1080).capture.imageWidth (sizedConfig 1920 1080).capture.imageHeight) := by
  refine (generatesImages_iff (JsonLibrary.casting_convertsInts _) (sizedDocument_parsed 1920 1080)
    (sizedDocument_loaded (by decide +kernel)) zeroSamples {}).mpr ?_
  have hwidth : (ConfigLoader.documentSettings (.casting (sizedDocument 1920 1080))
      (sizedDocument 1920 1080)).imageWidth = 1920 := by decide +kernel
  have hheight : (ConfigLoader.documentSettings (.casting (sizedDocument 1920 1080))
      (sizedDocument 1920 1080)).imageHeight = 1080 := by decide +kernel
  rw [hwidth, hheight]
  exact ⟨by decide, .inr ⟨by decide, by decide⟩⟩

/-- A width of -1 is accepted, and then the depth generator throws. -/
theorem negativeWidth_accepted :
    ¬ ∀ (lib : JsonLibrary), lib.ConvertsInts →
      ∀ (configDir : Bytes) (file : Option Bytes) (j : Json) (cfg : Config),
        ConfigLoader.loadJsonFile lib (configDir ++ lit "/config.json") file = .ok j →
        ConfigLoader.load lib configDir file = (cfg, []) →
        ∀ (samples : Samples) (source : SimDataSource), GeneratesImages samples
          (source.setImageSize cfg.capture.imageWidth cfg.capture.imageHeight) := by
  intro hclaim
  have hwidth : (sizedConfig (-1) 720).capture.imageWidth = -1 := by decide +kernel
  have hgenerates := hclaim _ (JsonLibrary.casting_convertsInts _) _ _ _ _
    (sizedDocument_parsed (-1) 720) (sizedDocument_loaded (by decide +kernel)) zeroSamples {}
  rw [hwidth] at hgenerates
  generalize (sizedConfig (-1) 720).capture.imageHeight = height at hgenerates
  obtain ⟨data, hdata, _⟩ := CaptureEngine.depth_of_generates hgenerates
  have hthrows : ∃ what,
      SimDataSource.generateDepth zeroSamples (-1) height 0 = .error what := by
    rw [SimDataSource.generateDepth, SimDataSource.generateRows]
    split
    next => exact ⟨_, rfl⟩
    next => exact ⟨_, if_pos (by decide)⟩
  obtain ⟨what, hthrow⟩ := hthrows
  have hboth : Except.error what = Except.ok data := hthrow.symm.trans hdata
  cases hboth

end SimVision
