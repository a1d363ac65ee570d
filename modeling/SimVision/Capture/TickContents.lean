import SimVision.Capture.ImageSizes
import SimVision.Data.ChannelManager

/-! # What a tick pushes

While no command runs, a tick sees one state of the channels. It pushes a frame for
every group of which it captures something, with the captured members in table
order, unless a raster generator throws on the image size.
-/

namespace SimVision

open Foundation

/-- What a tick reads while the channels stay as they are. -/
def ChannelManager.tickReads (m : ChannelManager) (secClock nsecClock : Int)
    (depthMode : DataGroup → Option Parameter) : TickReads where
  secClock := secClock
  nsecClock := nsecClock
  groupActive := m.groupActive
  isActive := m.isActive
  depthMode := depthMode

namespace SimDataSource

/-- The types that the source has data for: stereo images need loaded pairs. -/
def supplies (source : SimDataSource) (t : DataType) : Bool :=
  t ≠ .stereoImage || source.pairs ≠ []

/-- The image size makes no raster generator throw: the reservation and the row
stay within what a vector may hold. -/
def RastersFit (source : SimDataSource) : Prop :=
  sizeOfInt source.width * sizeOfInt source.height * 4 % wordSize < 2 ^ 63 ∧
    sizeOfInt source.width < 2 ^ 61

/-- The source after the types were captured: stereo images take the next pair. -/
def advance (source : SimDataSource) (types : List DataType) : SimDataSource :=
  types.foldl (fun s t => if t = .stereoImage then s.nextStereo.1 else s) source

variable {source : SimDataSource} {types : List DataType} {t : DataType}

theorem nextStereo_of_nil (hpairs : source.pairs = []) : source.nextStereo = (source, none) :=
  if_pos hpairs

/-- The pair at the cursor exists. -/
theorem nextStereo_of_ne_nil (hpairs : source.pairs ≠ []) :
    ∃ pair, source.nextStereo = ({ source with cursor := wordSucc source.cursor }, some pair) := by
  have hlt : source.cursor % source.pairs.length < source.pairs.length :=
    Nat.mod_lt _ (List.length_pos_iff.mpr hpairs)
  refine ⟨source.pairs[source.cursor % source.pairs.length], ?_⟩
  rw [nextStereo, if_neg hpairs, List.getElem?_eq_getElem hlt]

/-- Taking the next pair moves the cursor alone. -/
theorem nextStereo_kept (source : SimDataSource) :
    source.nextStereo.1 = { source with cursor := source.nextStereo.1.cursor } := by
  unfold nextStereo
  split <;> rfl

theorem advance_cons (t : DataType) (types : List DataType) :
    source.advance (t :: types) = (source.advance [t]).advance types := rfl

theorem advance_append (first second : List DataType) :
    source.advance (first ++ second) = (source.advance first).advance second :=
  List.foldl_append

/-- Capturing moves the cursor alone. -/
theorem advance_kept (source : SimDataSource) (types : List DataType) :
    source.advance types = { source with cursor := (source.advance types).cursor } := by
  induction types generalizing source with
  | nil => rfl
  | cons t rest ih =>
      rw [advance_cons]
      by_cases ht : t = .stereoImage
      · have hone : source.advance [t] = source.nextStereo.1 := if_pos ht
        rw [hone, nextStereo_kept]
        exact ih _
      · have hone : source.advance [t] = source := if_neg ht
        rw [hone]
        exact ih source

@[simp] theorem advance_pairs : (source.advance types).pairs = source.pairs := by
  rw [advance_kept]

@[simp] theorem advance_width : (source.advance types).width = source.width := by
  rw [advance_kept]

@[simp] theorem advance_height : (source.advance types).height = source.height := by
  rw [advance_kept]

@[simp] theorem advance_supplies : (source.advance types).supplies = source.supplies := by
  funext t
  simp [supplies]

@[simp] theorem advance_rastersFit : (source.advance types).RastersFit ↔ source.RastersFit := by
  simp [RastersFit]

theorem advance_of_notMem (hfree : DataType.stereoImage ∉ types) :
    source.advance types = source := by
  induction types with
  | nil => rfl
  | cons t rest ih =>
      obtain ⟨hne, hrest⟩ := not_or.mp (List.mem_cons.not.mp hfree)
      rw [advance_cons, show source.advance [t] = source from if_neg (Ne.symm hne)]
      exact ih hrest

theorem generateRows_ok_of_fits (hfits : source.RastersFit) (sample : Nat → Nat → UInt32) :
    ∃ data, generateRows source.width source.height sample = .ok data := by
  rw [generateRows, if_neg (Nat.not_le.mpr hfits.1), if_neg (Nat.not_le.mpr hfits.2)]
  exact ⟨_, rfl⟩

theorem generateRows_throws (hunfit : ¬ source.RastersFit) (sample : Nat → Nat → UInt32) :
    ∃ what, generateRows source.width source.height sample = .error what := by
  unfold generateRows
  split
  next => exact ⟨_, rfl⟩
  next hreserve =>
    split
    next => exact ⟨_, rfl⟩
    next hrow => exact absurd ⟨Nat.not_le.mp hreserve, Nat.not_le.mp hrow⟩ hunfit

/-- A size for which every raster has its four bytes a pixel fits. -/
theorem RastersFit.of_sizeFits (hsize : SizeFits source.width source.height)
    (hwidth : source.width < 2 ^ 31) (hheight : -2 ^ 31 ≤ source.height ∧ source.height < 2 ^ 31) :
    source.RastersFit := by
  by_contra hunfit
  obtain ⟨data, hok, _⟩ := generateRows_of_fits hsize hwidth hheight fun _ _ => 0
  obtain ⟨what, hthrows⟩ := generateRows_throws hunfit fun _ _ => 0
  rw [hok] at hthrows
  contradiction

end SimDataSource

namespace CaptureEngine

variable {samples : Samples} {tsSec tsNsec : Int} {frameIndex : Nat} {depthMode : Bytes}
  {isActive : DataType → Bool} {source : SimDataSource} {t : DataType} {types : List DataType}

/-! ## One member -/

theorem buildBundle_fst :
    (buildBundle samples tsSec tsNsec frameIndex depthMode source t).1 = source.advance [t] := by
  cases t <;> rfl

theorem generatedBundle_type {partId format : Bytes} {data : Except Bytes Bytes}
    (hdata : ∃ bytes, data = .ok bytes) (hsupplied : source.supplies t = true) :
    ∃ bundle, generatedBundle tsSec tsNsec t partId format data = .ok bundle ∧
      bundle.toList.map DataBundle.type = [t].filter source.supplies := by
  obtain ⟨bytes, rfl⟩ := hdata
  rw [List.filter_cons_of_pos hsupplied]
  exact ⟨_, rfl, rfl⟩

/-- The switch makes a bundle of the type, if the source has data for it. -/
theorem buildBundle_type (hfits : t ∈ rasterTypes → source.RastersFit) :
    ∃ bundle, (buildBundle samples tsSec tsNsec frameIndex depthMode source t).2 = .ok bundle ∧
      bundle.toList.map DataBundle.type = [t].filter source.supplies := by
  cases t with
  | stereoImage =>
      refine ⟨source.nextStereo.2.map (stereoBundle tsSec tsNsec), rfl, ?_⟩
      by_cases hpairs : source.pairs = []
      · have hmissing : ¬ source.supplies .stereoImage = true := by
          simp [SimDataSource.supplies, hpairs]
        rw [SimDataSource.nextStereo_of_nil hpairs, List.filter_cons_of_neg hmissing]
        rfl
      · have hsupplied : source.supplies .stereoImage = true := by
          simp [SimDataSource.supplies, hpairs]
        obtain ⟨pair, hpair⟩ := SimDataSource.nextStereo_of_ne_nil hpairs
        rw [hpair, List.filter_cons_of_pos hsupplied]
        rfl
  | depthMap =>
      exact generatedBundle_type (SimDataSource.generateRows_ok_of_fits (hfits (by decide)) _) rfl
  | disparityMap =>
      exact generatedBundle_type (SimDataSource.generateRows_ok_of_fits (hfits (by decide)) _) rfl
  | confidenceMap =>
      exact generatedBundle_type (SimDataSource.generateRows_ok_of_fits (hfits (by decide)) _) rfl
  | pointCloud => exact generatedBundle_type ⟨_, rfl⟩ rfl
  | imu => exact generatedBundle_type ⟨_, rfl⟩ rfl
  | temperature => exact generatedBundle_type ⟨_, rfl⟩ rfl
  | magnetometer => exact generatedBundle_type ⟨_, rfl⟩ rfl
  | barometer => exact generatedBundle_type ⟨_, rfl⟩ rfl

theorem generatedBundle_throws {partId format : Bytes} {data : Except Bytes Bytes}
    (hdata : ∃ what, data = .error what) :
    ∃ what, generatedBundle tsSec tsNsec t partId format data = .error what := by
  obtain ⟨what, rfl⟩ := hdata
  exact ⟨what, rfl⟩

theorem buildBundle_throws (hraster : t ∈ rasterTypes) (hunfit : ¬ source.RastersFit) :
    ∃ what, (buildBundle samples tsSec tsNsec frameIndex depthMode source t).2 = .error what := by
  have hrows := SimDataSource.generateRows_throws hunfit
  rcases List.mem_cons.mp hraster with rfl | hraster
  · exact generatedBundle_throws (hrows _)
  rcases List.mem_cons.mp hraster with rfl | hraster
  · exact generatedBundle_throws (hrows _)
  obtain rfl := List.mem_singleton.mp hraster
  exact generatedBundle_throws (hrows _)

/-! ## The members of a group -/

/-- The loop makes a bundle of each active member that the source has data for. -/
theorem buildBundles_types
    (hfits : ∀ t ∈ types, isActive t = true → t ∈ rasterTypes → source.RastersFit) :
    (buildBundles samples tsSec tsNsec frameIndex depthMode isActive source types).1 =
        source.advance (types.filter isActive) ∧
      ∃ bundles, (buildBundles samples tsSec tsNsec frameIndex depthMode isActive source types).2 =
          .ok bundles ∧
        bundles.map DataBundle.type = (types.filter isActive).filter source.supplies := by
  induction types generalizing source with
  | nil => exact ⟨rfl, [], rfl, rfl⟩
  | cons t rest ih =>
      obtain ⟨hfirst, hrest⟩ := List.forall_mem_cons.mp hfits
      rw [buildBundles]
      by_cases hactive : isActive t = true
      · obtain ⟨bundle, hbuilt, htype⟩ :=
          @buildBundle_type samples tsSec tsNsec frameIndex depthMode source t (hfirst hactive)
        obtain ⟨hsource, bundles, hlater, htypes⟩ := @ih (source.advance [t]) (by
          simpa only [SimDataSource.advance_rastersFit] using hrest)
        have hstep : buildBundle samples tsSec tsNsec frameIndex depthMode source t =
            (source.advance [t], .ok bundle) := Prod.ext buildBundle_fst hbuilt
        rw [if_pos hactive, hstep, List.filter_cons_of_pos hactive]
        refine ⟨?_, bundle.toList ++ bundles, ?_, ?_⟩
        · exact hsource.trans (SimDataSource.advance_cons t _).symm
        · rw [Prod.map_snd, hlater]
          rfl
        · rw [List.map_append, htype, htypes, SimDataSource.advance_supplies, ← List.filter_append]
          rfl
      · rw [if_neg hactive, List.filter_cons_of_neg hactive]
        exact ih hrest

/-- An active raster member whose size does not fit ends the loop. -/
theorem buildBundles_throws (hmem : t ∈ types) (hactive : isActive t = true)
    (hraster : t ∈ rasterTypes) (hunfit : ¬ source.RastersFit) :
    ∃ what, (buildBundles samples tsSec tsNsec frameIndex depthMode isActive source types).2 =
      .error what := by
  induction types generalizing source with
  | nil => contradiction
  | cons u rest ih =>
      have hfst := @buildBundle_fst samples tsSec tsNsec frameIndex depthMode source u
      rw [buildBundles]
      rcases hbuilt : buildBundle samples tsSec tsNsec frameIndex depthMode source u
        with ⟨next, outcome⟩
      rw [hbuilt] at hfst
      dsimp only at hfst
      rcases List.mem_cons.mp hmem with rfl | hrest
      · obtain ⟨what, hthrows⟩ :=
          @buildBundle_throws samples tsSec tsNsec frameIndex depthMode source t hraster hunfit
        rw [hbuilt] at hthrows
        dsimp only at hthrows
        rw [if_pos hactive, hthrows]
        exact ⟨what, rfl⟩
      · split
        next =>
          cases outcome with
          | error what => exact ⟨what, rfl⟩
          | ok bundle =>
              obtain ⟨what, hthrows⟩ := @ih next hrest (by
                rw [hfst, SimDataSource.advance_rastersFit]
                exact hunfit)
              refine ⟨what, ?_⟩
              rw [Prod.map_snd, hthrows]
              rfl
        next => exact ih hrest hunfit

/-! ## The groups -/

/-- The group of a frame and the types of its bundles, in order. -/
def frameContents (frame : ChannelFrame) : DataGroup × List DataType :=
  (frame.group, frame.bundles.map DataBundle.type)

/-- What a group contributes: its active members that the source has data for. -/
def capturedTypes (isActive : DataType → Bool) (source : SimDataSource) (g : DataGroup) :
    List DataType :=
  ((groupMembers g).filter isActive).filter source.supplies

variable {reads : TickReads} {groups : List DataGroup}

theorem buildFrame_contents {g : DataGroup} {pubId : Bytes} {mode : Option Parameter}
    (hfits : ∀ t ∈ groupMembers g, isActive t = true → t ∈ rasterTypes → source.RastersFit) :
    ∃ frame, buildFrame samples g tsSec tsNsec frameIndex pubId isActive mode source =
        (source.advance ((groupMembers g).filter isActive), .ok frame) ∧
      frameContents frame = (g, capturedTypes isActive source g) := by
  obtain ⟨hsource, bundles, hbundles, htypes⟩ :=
    @buildBundles_types samples tsSec tsNsec frameIndex (depthModeOf mode) isActive source _ hfits
  refine ⟨frameOf g tsSec tsNsec frameIndex pubId bundles, Prod.ext hsource ?_, ?_⟩
  · rw [buildFrame_snd, hbundles]
    rfl
  · rw [capturedTypes, ← htypes]
    rfl

/-- A group without an active member contributes nothing. -/
theorem filter_of_inactive {g : DataGroup} (hinactive : ¬ (groupMembers g).any isActive = true) :
    (groupMembers g).filter isActive = [] := by
  rw [List.filter_eq_nil_iff]
  intro t ht hactive
  exact hinactive (List.any_eq_true.mpr ⟨t, ht, hactive⟩)

/-- The loop over the groups pushes a frame for each group that contributes, and the
source has been read once for each active member. -/
theorem tickGroups_contents
    (hgroups : ∀ g, reads.groupActive g = (groupMembers g).any reads.isActive)
    (hfits : ∀ g ∈ groups, ∀ t ∈ groupMembers g, reads.isActive t = true → t ∈ rasterTypes →
      source.RastersFit) :
    (tickGroups samples reads frameIndex source groups).2 =
        .ok (source.advance ((groups.flatMap groupMembers).filter reads.isActive)) ∧
      (tickGroups samples reads frameIndex source groups).1.map frameContents =
        (groups.map fun g => (g, capturedTypes reads.isActive source g)).filter
          fun e => e.2 ≠ [] := by
  induction groups generalizing source with
  | nil => exact ⟨rfl, rfl⟩
  | cons g rest ih =>
      obtain ⟨hfirst, hrest⟩ := List.forall_mem_cons.mp hfits
      rw [tickGroups, hgroups, List.flatMap_cons, List.filter_append, SimDataSource.advance_append,
        List.map_cons]
      by_cases hactive : (groupMembers g).any reads.isActive = true
      · obtain ⟨frame, hframe, hcontents⟩ := @buildFrame_contents samples
          (nowUnixSec reads.secClock) (nowUnixNsec reads.nsecClock) frameIndex reads.isActive source
          g [] (reads.depthMode g) hfirst
        obtain ⟨hsource, hpushed⟩ :=
          @ih (source.advance ((groupMembers g).filter reads.isActive)) (by
            simpa only [SimDataSource.advance_rastersFit] using hrest)
        have hcaptured : capturedTypes reads.isActive
            (source.advance ((groupMembers g).filter reads.isActive)) =
              capturedTypes reads.isActive source := by
          funext h
          rw [capturedTypes, SimDataSource.advance_supplies]
          rfl
        rw [hcaptured] at hpushed
        rw [if_pos hactive, hframe]
        refine ⟨congrArg id hsource, ?_⟩
        rw [Prod.map_fst]
        have hbundles : frame.bundles = [] ↔ capturedTypes reads.isActive source g = [] := by
          have htypes : frame.bundles.map DataBundle.type = capturedTypes reads.isActive source g :=
            congrArg Prod.snd hcontents
          rw [← htypes, List.map_eq_nil_iff]
        by_cases hempty : capturedTypes reads.isActive source g = []
        · rw [if_pos (hbundles.mpr hempty), hpushed,
            List.filter_cons_of_neg (by simpa using hempty)]
        · rw [if_neg (hbundles.not.mpr hempty), List.map_cons, hcontents, hpushed,
            List.filter_cons_of_pos (by simpa using hempty)]
      · have hnone := filter_of_inactive hactive
        have hempty : capturedTypes reads.isActive source g = [] := by
          rw [capturedTypes, hnone]
          rfl
        rw [if_neg hactive, hnone, List.filter_cons_of_neg (by simpa using hempty)]
        exact ih hrest

/-- An active raster member whose size does not fit ends the tick. -/
theorem tickGroups_throws (hgroups : ∀ g, reads.groupActive g = (groupMembers g).any reads.isActive)
    {g : DataGroup} (hgroup : g ∈ groups) (hmem : t ∈ groupMembers g)
    (hactive : reads.isActive t = true) (hraster : t ∈ rasterTypes) (hunfit : ¬ source.RastersFit) :
    ∃ what, (tickGroups samples reads frameIndex source groups).2 = .error what := by
  induction groups generalizing source with
  | nil => contradiction
  | cons head rest ih =>
      rw [tickGroups, hgroups]
      by_cases hthrows : ∃ u ∈ groupMembers head, reads.isActive u = true ∧ u ∈ rasterTypes
      · obtain ⟨u, hu, huActive, huRaster⟩ := hthrows
        obtain ⟨what, hwhat⟩ := @buildBundles_throws samples (nowUnixSec reads.secClock)
          (nowUnixNsec reads.nsecClock) frameIndex (depthModeOf (reads.depthMode head))
          reads.isActive source u _ hu huActive huRaster hunfit
        have hframe : buildFrame samples head (nowUnixSec reads.secClock)
            (nowUnixNsec reads.nsecClock) frameIndex [] reads.isActive (reads.depthMode head)
            source =
              ((buildFrame samples head (nowUnixSec reads.secClock) (nowUnixNsec reads.nsecClock)
                frameIndex [] reads.isActive (reads.depthMode head) source).1, .error what) := by
          refine Prod.ext rfl ?_
          rw [buildFrame_snd, hwhat]
          rfl
        rw [if_pos (List.any_eq_true.mpr ⟨u, hu, huActive⟩), hframe]
        exact ⟨what, rfl⟩
      · have hlater : g ∈ rest := by
          rcases List.mem_cons.mp hgroup with rfl | hlater
          · exact absurd ⟨t, hmem, hactive, hraster⟩ hthrows
          · exact hlater
        split
        next =>
          obtain ⟨frame, hframe, _⟩ := @buildFrame_contents samples (nowUnixSec reads.secClock)
            (nowUnixNsec reads.nsecClock) frameIndex reads.isActive source head []
            (reads.depthMode head)
            fun u hu huActive huRaster => absurd ⟨u, hu, huActive, huRaster⟩ hthrows
          obtain ⟨what, hwhat⟩ := @ih
            (source.advance ((groupMembers head).filter reads.isActive)) hlater (by
              rw [SimDataSource.advance_rastersFit]
              exact hunfit)
          refine ⟨what, ?_⟩
          rw [hframe, Prod.map_snd, hwhat]
          rfl
        next => exact ih hlater hunfit

theorem tickGroups_frameIndex : ∀ frame ∈ (tickGroups samples reads frameIndex source groups).1,
    frame.frameIndex = frameIndex := by
  induction groups generalizing source with
  | nil => exact fun _ hmem => absurd hmem List.not_mem_nil
  | cons g rest ih =>
      intro frame hframe
      unfold tickGroups at hframe
      split at hframe
      next =>
        split at hframe
        next => exact absurd hframe List.not_mem_nil
        next next built hbuilt =>
          rw [Prod.map_fst] at hframe
          split at hframe
          next => exact ih frame hframe
          next =>
            rcases List.mem_cons.mp hframe with rfl | hlater
            · have hsnd := congrArg Prod.snd hbuilt
              rw [buildFrame_snd] at hsnd
              cases hbundles : (buildBundles samples (nowUnixSec reads.secClock)
                  (nowUnixNsec reads.nsecClock) frameIndex (depthModeOf (reads.depthMode g))
                  reads.isActive source (groupMembers g)).2 with
              | error what =>
                  rw [hbundles] at hsnd
                  contradiction
              | ok bundles =>
                  rw [hbundles] at hsnd
                  exact congrArg ChannelFrame.frameIndex (Except.ok.inj hsnd).symm
            · exact ih frame hlater
      next => exact ih frame hframe

/-! ## The tick -/

/-- What a tick pushes is what is subscribed: a frame for each group that
contributes, with its active members in table order. Stereo images are left out
while no pair is loaded, and take the next pair otherwise. -/
structure ProducesSubscribed (samples : Samples) (m : ChannelManager) (reads : TickReads)
    (s : CaptureState) : Prop where
  one_per_group : ((tick samples reads s).1.map ChannelFrame.group).Nodup
  types : ∀ frame ∈ (tick samples reads s).1, frame.bundles.map DataBundle.type =
    (groupMembers frame.group).filter fun t =>
      m.isActive t && (t ≠ .stereoImage || s.source.pairs ≠ [])
  types_nodup : ∀ frame ∈ (tick samples reads s).1, (frame.bundles.map DataBundle.type).Nodup
  nonempty : ∀ frame ∈ (tick samples reads s).1, frame.bundles ≠ []
  complete : ∀ g, ∀ t ∈ groupMembers g, m.isActive t = true →
    (t = .stereoImage → s.source.pairs ≠ []) → ∃ frame ∈ (tick samples reads s).1, frame.group = g
  stamped : ∀ frame ∈ (tick samples reads s).1,
    frame.Stamped (nowUnixSec reads.secClock) (nowUnixNsec reads.nsecClock) ∧
      frame.frameIndex = s.frameIndex
  cursor : ∃ next, (tick samples reads s).2 = .ok next ∧
    next.source.cursor =
      if m.isActive .stereoImage = true ∧ s.source.pairs ≠ [] then wordSucc s.source.cursor
      else s.source.cursor

theorem groupMembers_nodup (g : DataGroup) : (groupMembers g).Nodup := by
  cases g <;> decide

/-- All members of all groups, in the order in which a tick captures them. -/
theorem tickOrder_members : tickOrder.flatMap groupMembers =
    .stereoImage :: [.depthMap, .pointCloud, .disparityMap, .confidenceMap, .imu, .temperature,
      .magnetometer, .barometer] := by
  decide

/-- Over a tick, the source is asked for one stereo pair if the type is active. -/
theorem advance_tick (isActive : DataType → Bool) (source : SimDataSource) :
    (source.advance ((tickOrder.flatMap groupMembers).filter isActive)).cursor =
      if isActive .stereoImage = true ∧ source.pairs ≠ [] then wordSucc source.cursor
      else source.cursor := by
  have hothers : ∀ s : SimDataSource, s.advance (([.depthMap, .pointCloud, .disparityMap,
      .confidenceMap, .imu, .temperature, .magnetometer, .barometer] : List DataType).filter
        isActive) = s :=
    fun s => SimDataSource.advance_of_notMem fun hmem =>
      absurd (List.mem_of_mem_filter hmem) (by decide)
  rw [tickOrder_members]
  by_cases hactive : isActive .stereoImage = true
  · rw [List.filter_cons_of_pos hactive, SimDataSource.advance_cons, hothers]
    change source.nextStereo.1.cursor = _
    by_cases hpairs : source.pairs = []
    · rw [SimDataSource.nextStereo_of_nil hpairs, if_neg fun h => h.2 hpairs]
    · obtain ⟨pair, hpair⟩ := SimDataSource.nextStereo_of_ne_nil hpairs
      rw [hpair, if_pos ⟨hactive, hpairs⟩]
  · rw [List.filter_cons_of_neg hactive, hothers, if_neg fun h => hactive h.1]

theorem capturedTypes_eq (isActive : DataType → Bool) (source : SimDataSource) (g : DataGroup) :
    capturedTypes isActive source g =
      (groupMembers g).filter fun t => isActive t && (t ≠ .stereoImage || source.pairs ≠ []) := by
  rw [capturedTypes, List.filter_filter]
  exact List.filter_congr fun t _ => Bool.and_comm _ _

/-- The frames of a tick that does not throw. -/
theorem ProducesSubscribed.of_contents {m : ChannelManager} {s : CaptureState}
    (hreads : reads.isActive = m.isActive)
    (hsource : (tickGroups samples reads s.frameIndex s.source tickOrder).2 =
      .ok (s.source.advance ((tickOrder.flatMap groupMembers).filter reads.isActive)))
    (hcontents : (tick samples reads s).1.map frameContents =
      (tickOrder.map fun g => (g, capturedTypes reads.isActive s.source g)).filter
        fun e => e.2 ≠ []) :
    ProducesSubscribed samples m reads s := by
  have hmem : ∀ e, e ∈ (tick samples reads s).1.map frameContents ↔
      e.2 = capturedTypes m.isActive s.source e.1 ∧ e.2 ≠ [] := by
    intro e
    rw [hcontents, hreads, List.mem_filter, List.mem_map]
    constructor
    · rintro ⟨⟨g, _, rfl⟩, hne⟩
      exact ⟨rfl, of_decide_eq_true hne⟩
    · rintro ⟨htypes, hne⟩
      refine ⟨⟨e.1, by cases e.1 <;> decide, Prod.ext rfl htypes.symm⟩, decide_eq_true hne⟩
  have hframes : ∀ frame ∈ (tick samples reads s).1,
      frame.bundles.map DataBundle.type = capturedTypes m.isActive s.source frame.group ∧
        frame.bundles ≠ [] := by
    intro frame hframe
    obtain ⟨htypes, hne⟩ := (hmem (frameContents frame)).mp (List.mem_map_of_mem hframe)
    exact ⟨htypes, fun hnil => hne (by rw [frameContents, hnil]; rfl)⟩
  constructor
  case one_per_group =>
    have hsame : (tick samples reads s).1.map ChannelFrame.group =
        ((tick samples reads s).1.map frameContents).map Prod.fst := by
      rw [List.map_map]
      rfl
    rw [hsame, hcontents]
    have hsub := (List.filter_sublist (p := fun e => decide (e.2 ≠ []))
      (l := tickOrder.map fun g => (g, capturedTypes reads.isActive s.source g))).map Prod.fst
    refine hsub.nodup ?_
    rw [List.map_map]
    exact (by decide : tickOrder.Nodup)
  case types =>
    intro frame hframe
    rw [(hframes frame hframe).1, capturedTypes_eq]
  case types_nodup =>
    intro frame hframe
    rw [(hframes frame hframe).1]
    exact ((groupMembers_nodup frame.group).filter _).filter _
  case nonempty => exact fun frame hframe => (hframes frame hframe).2
  case complete =>
    intro g t ht hactive hsupplied
    have hcaptured : t ∈ capturedTypes m.isActive s.source g := by
      rw [capturedTypes_eq, List.mem_filter]
      refine ⟨ht, ?_⟩
      by_cases hstereo : t = .stereoImage
      · simp [hactive, hsupplied hstereo]
      · simp [hactive, hstereo]
    obtain ⟨frame, hframe, heq⟩ := List.mem_map.mp
      ((hmem (g, capturedTypes m.isActive s.source g)).mpr ⟨rfl, List.ne_nil_of_mem hcaptured⟩)
    exact ⟨frame, hframe, congrArg Prod.fst heq⟩
  case stamped =>
    intro frame hframe
    exact ⟨tick_stamped reads s frame hframe,
      @tickGroups_frameIndex samples s.frameIndex s.source reads tickOrder frame hframe⟩
  case cursor =>
    refine ⟨_, by rw [tick, Prod.map_snd, hsource]; rfl, ?_⟩
    rw [hreads]
    exact advance_tick m.isActive s.source

/-- While no command runs, a tick produces what is subscribed if and only if no
raster type is active or the image size fits the generators. -/
theorem producesSubscribed_iff (samples : Samples) (m : ChannelManager) (secClock nsecClock : Int)
    (depthMode : DataGroup → Option Parameter) (s : CaptureState) :
    ProducesSubscribed samples m (m.tickReads secClock nsecClock depthMode) s ↔
      (∀ t ∈ rasterTypes, m.isActive t = false) ∨ s.source.RastersFit := by
  have hgroups : ∀ g, (m.tickReads secClock nsecClock depthMode).groupActive g =
      (groupMembers g).any (m.tickReads secClock nsecClock depthMode).isActive := fun _ => rfl
  constructor
  · intro hproduces
    by_contra hneither
    obtain ⟨hactive, hunfit⟩ := not_or.mp hneither
    simp only [not_forall, Bool.not_eq_false] at hactive
    obtain ⟨t, hraster, hactive⟩ := hactive
    obtain ⟨what, hthrows⟩ := @tickGroups_throws samples s.frameIndex s.source t
      (m.tickReads secClock nsecClock depthMode) tickOrder hgroups (dataTypeToGroup t)
      (by cases dataTypeToGroup t <;> decide) ((mem_groupMembers t _).mpr rfl)
      hactive hraster hunfit
    obtain ⟨next, hnext, _⟩ := hproduces.cursor
    rw [tick, Prod.map_snd, hthrows] at hnext
    contradiction
  · intro hcondition
    have hfits : ∀ g ∈ tickOrder, ∀ t ∈ groupMembers g, m.isActive t = true → t ∈ rasterTypes →
        s.source.RastersFit := by
      intro g _ t _ hactive hraster
      rcases hcondition with hinactive | hfits
      · exact absurd hactive (by rw [hinactive t hraster]; decide)
      · exact hfits
    obtain ⟨hsource, hcontents⟩ := @tickGroups_contents samples s.frameIndex s.source
      (m.tickReads secClock nsecClock depthMode) tickOrder hgroups hfits
    exact .of_contents rfl hsource hcontents

/-- An image size that an accepted configuration may give stops the depth map. -/
theorem negativeWidth_stopsTick :
    ¬ ∀ (samples : Samples) (m : ChannelManager) (secClock nsecClock : Int)
      (depthMode : DataGroup → Option Parameter) (s : CaptureState),
      ProducesSubscribed samples m (m.tickReads secClock nsecClock depthMode) s := by
  intro hclaim
  let m : ChannelManager := (ChannelManager.activateChannel {} .depthMap).1
  let source : SimDataSource := SimDataSource.setImageSize {} (-1) 720
  have hproduces := hclaim zeroSamples m 0 0 (fun _ => none) { source := source }
  obtain ⟨frame, hframe, _⟩ := hproduces.complete
    .visual2D .depthMap (by decide) (by decide) (by decide)
  have hpushed :
      (tick zeroSamples (m.tickReads 0 0 fun _ => none) { source := source }).1 = [] := by
    decide
  rw [hpushed] at hframe
  contradiction

end CaptureEngine

end SimVision
