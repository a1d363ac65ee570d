import Mathlib.Data.List.Rotate
import SimVision.Capture.TickContents
import SimVision.DataSource.StereoDirectory

/-! # Stereo pairs in turn

The source hands out its pairs at a cursor that moves on with every bundle. Whatever
is active in the ticks in between, the bundles show the loaded pairs in the order of
their indexes, over and over.
-/

namespace SimVision

open Foundation

namespace CaptureEngine

/-! ## The bundles that are built -/

section Built

variable (samples : Samples)

/-- The bundles that the loop over the members of a group has made when it ends, be
it by an exception. -/
def builtBundles (tsSec tsNsec : Int) (frameIndex : Nat) (depthMode : Bytes)
    (isActive : DataType → Bool) : SimDataSource → List DataType → List DataBundle
  | _, [] => []
  | source, t :: rest =>
      if isActive t then
        match buildBundle samples tsSec tsNsec frameIndex depthMode source t with
        | (_, .error _) => []
        | (next, .ok bundle) => bundle.toList ++
            builtBundles tsSec tsNsec frameIndex depthMode isActive next rest
      else builtBundles tsSec tsNsec frameIndex depthMode isActive source rest

/-- The bundles that are made for a group. -/
def builtForGroup (reads : TickReads) (frameIndex : Nat) (source : SimDataSource)
    (g : DataGroup) : List DataBundle :=
  builtBundles samples (nowUnixSec reads.secClock) (nowUnixNsec reads.nsecClock) frameIndex
    (depthModeOf (reads.depthMode g)) reads.isActive source (groupMembers g)

/-- The bundles that are made in the loop over the groups. -/
def builtForGroups (reads : TickReads) (frameIndex : Nat) :
    SimDataSource → List DataGroup → List DataBundle
  | _, [] => []
  | source, g :: rest =>
      if reads.groupActive g then
        builtForGroup samples reads frameIndex source g ++
          match buildFrame samples g (nowUnixSec reads.secClock) (nowUnixNsec reads.nsecClock)
              frameIndex [] reads.isActive (reads.depthMode g) source with
          | (_, .error _) => []
          | (next, .ok _) => builtForGroups reads frameIndex next rest
      else builtForGroups reads frameIndex source rest

/-- The bundles that are made in a run, in order. -/
def builtInRun : CaptureState → List TickReads → List DataBundle
  | _, [] => []
  | s, reads :: rest =>
      builtForGroups samples reads s.frameIndex s.source tickOrder ++
        match (tick samples reads s).2 with
        | .ok next => builtInRun next rest
        | .error _ => []

/-- The ticks that a run begins: all of them, up to one that ends by an exception. -/
def begunTicks : CaptureState → List TickReads → List TickReads
  | _, [] => []
  | s, reads :: rest =>
      reads ::
        match (tick samples reads s).2 with
        | .ok next => begunTicks next rest
        | .error _ => []

end Built

/-- A tick that reads the group of the stereo pair and the stereo pair itself active. -/
def takesStereo (reads : TickReads) : Bool :=
  reads.groupActive .visual2D && reads.isActive .stereoImage

/-- The bundle carries the seconds and the nanoseconds that the tick has read. -/
def Stamped (reads : TickReads) (bundle : DataBundle) : Prop :=
  bundle.tsSec = nowUnixSec reads.secClock ∧ bundle.tsNsec = nowUnixNsec reads.nsecClock

/-! ## Every bundle that is pushed was built -/

section Pushed

variable {samples : Samples} {tsSec tsNsec : Int} {frameIndex : Nat} {depthMode : Bytes}
  {isActive : DataType → Bool} {source : SimDataSource}

theorem builtBundles_of_ok {types : List DataType} {bundles : List DataBundle}
    (hok : (buildBundles samples tsSec tsNsec frameIndex depthMode isActive source types).2 =
      .ok bundles) :
    builtBundles samples tsSec tsNsec frameIndex depthMode isActive source types = bundles := by
  induction types generalizing source bundles with
  | nil => exact Except.ok.inj hok
  | cons t rest ih =>
      unfold buildBundles at hok
      unfold builtBundles
      by_cases hactive : isActive t = true
      · rw [if_pos hactive] at hok ⊢
        rcases hbuilt : buildBundle samples tsSec tsNsec frameIndex depthMode source t
          with ⟨next, outcome⟩
        rw [hbuilt] at hok
        cases outcome with
        | error what => contradiction
        | ok bundle =>
            dsimp only at hok ⊢
            rw [Prod.map_snd] at hok
            obtain ⟨later, hlater, rfl⟩ := map_eq_ok.mp hok
            rw [ih hlater]
      · rw [if_neg hactive] at hok ⊢
        exact ih hok

variable {reads : TickReads}

theorem bundles_of_pushed (frame : ChannelFrame) (later : List ChannelFrame) :
    (if frame.bundles = [] then later else frame :: later).flatMap ChannelFrame.bundles =
      frame.bundles ++ later.flatMap ChannelFrame.bundles := by
  split
  next hempty => rw [hempty, List.nil_append]
  next => rw [List.flatMap_cons]

theorem builtForGroup_of_ok {g : DataGroup} {next : SimDataSource} {frame : ChannelFrame}
    (hframe : buildFrame samples g (nowUnixSec reads.secClock) (nowUnixNsec reads.nsecClock)
      frameIndex [] reads.isActive (reads.depthMode g) source = (next, .ok frame)) :
    builtForGroup samples reads frameIndex source g = frame.bundles := by
  have hok := congrArg Prod.snd hframe
  rw [buildFrame_snd] at hok
  obtain ⟨bundles, hbundles, rfl⟩ := map_eq_ok.mp hok
  exact builtBundles_of_ok hbundles

/-- A loop over the groups that ends normally has pushed all bundles in its frames;
one that throws, the first of them. -/
theorem tickGroups_built (groups : List DataGroup) :
    ((tickGroups samples reads frameIndex source groups).1.flatMap ChannelFrame.bundles <+:
      builtForGroups samples reads frameIndex source groups) ∧
    ∀ final, (tickGroups samples reads frameIndex source groups).2 = .ok final →
      (tickGroups samples reads frameIndex source groups).1.flatMap ChannelFrame.bundles =
        builtForGroups samples reads frameIndex source groups := by
  induction groups generalizing source with
  | nil => exact ⟨List.prefix_rfl, fun _ _ => rfl⟩
  | cons g rest ih =>
      unfold tickGroups builtForGroups
      split
      next =>
        rcases hframe : buildFrame samples g (nowUnixSec reads.secClock)
          (nowUnixNsec reads.nsecClock) frameIndex [] reads.isActive (reads.depthMode g) source
          with ⟨next, outcome⟩
        cases outcome with
        | error what => exact ⟨List.nil_prefix, fun _ hfinal => by contradiction⟩
        | ok frame =>
            obtain ⟨hlater, hall⟩ := @ih next
            dsimp only
            rw [Prod.map_fst, Prod.map_snd, bundles_of_pushed, builtForGroup_of_ok hframe]
            refine ⟨(List.prefix_append_right_inj _).mpr hlater, fun final hfinal => ?_⟩
            rw [hall final hfinal]
      next => exact ih

/-- The bundles of the pushed frames are the first ones that were built, and all of
them unless an exception ended the run. -/
theorem run_built (s : CaptureState) (ticks : List TickReads) :
    ((run samples s ticks).flatMap fun e => e.2.bundles) <+: builtInRun samples s ticks := by
  induction ticks generalizing s with
  | nil => exact List.prefix_rfl
  | cons reads rest ih =>
      obtain ⟨hfirst, hall⟩ :=
        @tickGroups_built samples s.frameIndex s.source reads tickOrder
      have hpushed : ((tick samples reads s).1.map (Prod.mk reads)).flatMap
          (fun e => e.2.bundles) =
            (tickGroups samples reads s.frameIndex s.source tickOrder).1.flatMap
              ChannelFrame.bundles := by
        rw [List.flatMap_map]
        rfl
      have hrun : run samples s (reads :: rest) =
          (tick samples reads s).1.map (Prod.mk reads) ++
            match (tick samples reads s).2 with
            | .ok next => run samples next rest
            | .error _ => [] := rfl
      rw [hrun, builtInRun, List.flatMap_append, hpushed]
      cases houtcome : (tick samples reads s).2 with
      | error what =>
          simp only [List.flatMap_nil, List.append_nil]
          exact hfirst
      | ok next =>
          have hsource := houtcome
          rw [tick, Prod.map_snd] at hsource
          obtain ⟨final, hfinal, _⟩ := map_eq_ok.mp hsource
          rw [hall final hfinal]
          exact (List.prefix_append_right_inj _).mpr (ih next)

end Pushed

/-! ## The pairs that they show -/

def stereoOf (bundles : List DataBundle) : List DataBundle :=
  bundles.filter fun b => b.type = .stereoImage

theorem stereoOf_append (first second : List DataBundle) :
    stereoOf (first ++ second) = stereoOf first ++ stereoOf second :=
  List.filter_append ..

/-- Between two states of the source, the stereo bundles show the pairs from the
cursor on, one after the other. -/
structure Serves (before after : SimDataSource) (bundles : List DataBundle) : Prop where
  cursor_lt : before.cursor < wordSize
  pairs_eq : after.pairs = before.pairs
  cursor_eq : after.cursor = (before.cursor + (stereoOf bundles).length) % wordSize
  shown : ∀ k bundle, (stereoOf bundles)[k]? = some bundle → ∃ pair,
    before.pairs[(before.cursor + k) % wordSize % before.pairs.length]? = some pair ∧
      bundle.data = stereoData pair

namespace Serves

variable {source middle after : SimDataSource} {first second bundles : List DataBundle}

/-- Nothing is shown without a stereo bundle. -/
theorem of_none (hcursor : source.cursor < wordSize) (hnone : stereoOf bundles = []) :
    Serves source source bundles where
  cursor_lt := hcursor
  pairs_eq := rfl
  cursor_eq := by
    rw [hnone]
    exact (Nat.mod_eq_of_lt hcursor).symm
  shown := by
    intro k bundle hbundle
    rw [hnone] at hbundle
    contradiction

theorem after_lt (hserves : Serves source after bundles) : after.cursor < wordSize := by
  rw [hserves.cursor_eq]
  exact Nat.mod_lt _ (by decide)

theorem trans (hfirst : Serves source middle first) (hsecond : Serves middle after second) :
    Serves source after (first ++ second) where
  cursor_lt := hfirst.cursor_lt
  pairs_eq := hsecond.pairs_eq.trans hfirst.pairs_eq
  cursor_eq := by
    rw [hsecond.cursor_eq, hfirst.cursor_eq, Nat.mod_add_mod, stereoOf_append, List.length_append,
      Nat.add_assoc]
  shown := by
    intro k bundle hbundle
    rw [stereoOf_append] at hbundle
    rcases Nat.lt_or_ge k (stereoOf first).length with hearly | hlate
    · rw [List.getElem?_append_left hearly] at hbundle
      exact hfirst.shown k bundle hbundle
    · rw [List.getElem?_append_right hlate] at hbundle
      obtain ⟨pair, hpair, hdata⟩ := hsecond.shown _ bundle hbundle
      rw [hfirst.pairs_eq, hfirst.cursor_eq, Nat.mod_add_mod, Nat.add_assoc,
        Nat.add_sub_cancel' hlate] at hpair
      exact ⟨pair, hpair, hdata⟩

/-- Without pairs there is nothing to show. -/
theorem of_nil (hserves : Serves source after bundles) (hpairs : source.pairs = []) :
    stereoOf bundles = [] := by
  rw [List.eq_nil_iff_forall_not_mem]
  intro bundle hmem
  obtain ⟨k, hk, rfl⟩ := List.getElem_of_mem hmem
  obtain ⟨pair, hpair, _⟩ := hserves.shown k _ (List.getElem?_eq_getElem hk)
  rw [hpairs] at hpair
  contradiction

end Serves

section Runs

variable {samples : Samples} {tsSec tsNsec : Int} {frameIndex : Nat} {depthMode : Bytes}
  {isActive : DataType → Bool} {source : SimDataSource}

/-- What a case of the switch adds to the frame. -/
def added : Except Bytes (Option DataBundle) → List DataBundle
  | .ok bundle => bundle.toList
  | .error _ => []

theorem generatedBundle_added {t : DataType} (ht : t ≠ .stereoImage) (partId format : Bytes)
    (data : Except Bytes Bytes) :
    stereoOf (added (generatedBundle tsSec tsNsec t partId format data)) = [] := by
  cases data with
  | error what => rfl
  | ok bytes => exact List.filter_cons_of_neg fun hstereo => ht (of_decide_eq_true hstereo)

/-- The other cases of the switch leave the source alone and add no stereo bundle. -/
theorem buildBundle_other {t : DataType} (ht : t ≠ .stereoImage) :
    (buildBundle samples tsSec tsNsec frameIndex depthMode source t).1 = source ∧
      stereoOf (added (buildBundle samples tsSec tsNsec frameIndex depthMode source t).2) = [] := by
  cases t with
  | stereoImage => exact absurd rfl ht
  | depthMap => exact ⟨rfl, generatedBundle_added ht _ _ _⟩
  | disparityMap => exact ⟨rfl, generatedBundle_added ht _ _ _⟩
  | confidenceMap => exact ⟨rfl, generatedBundle_added ht _ _ _⟩
  | pointCloud => exact ⟨rfl, rfl⟩
  | imu => exact ⟨rfl, rfl⟩
  | temperature => exact ⟨rfl, rfl⟩
  | magnetometer => exact ⟨rfl, rfl⟩
  | barometer => exact ⟨rfl, rfl⟩

/-- The stereo case takes the pair at the cursor and moves the cursor on. -/
theorem buildBundle_stereo (hpairs : source.pairs ≠ []) :
    ∃ pair, source.pairs[source.cursor % source.pairs.length]? = some pair ∧
      buildBundle samples tsSec tsNsec frameIndex depthMode source .stereoImage =
        ({ source with cursor := wordSucc source.cursor },
          .ok (some (stereoBundle tsSec tsNsec pair))) := by
  have hlt : source.cursor % source.pairs.length < source.pairs.length :=
    Nat.mod_lt _ (List.length_pos_iff.mpr hpairs)
  refine ⟨source.pairs[source.cursor % source.pairs.length], List.getElem?_eq_getElem hlt, ?_⟩
  rw [buildBundle, SimDataSource.nextStereo, if_neg hpairs, List.getElem?_eq_getElem hlt]
  rfl

/-- Only a stereo bundle moves the cursor, and it shows the pair that is there. -/
theorem buildBundle_serves (hcursor : source.cursor < wordSize) (t : DataType) :
    Serves source (buildBundle samples tsSec tsNsec frameIndex depthMode source t).1
      (added (buildBundle samples tsSec tsNsec frameIndex depthMode source t).2) := by
  by_cases ht : t = .stereoImage
  · subst ht
    by_cases hpairs : source.pairs = []
    · have hnone : buildBundle samples tsSec tsNsec frameIndex depthMode source .stereoImage =
          (source, .ok none) := by
        rw [buildBundle, SimDataSource.nextStereo_of_nil hpairs]
        rfl
      rw [hnone]
      exact .of_none hcursor rfl
    · obtain ⟨pair, hpair, hbuilt⟩ := @buildBundle_stereo samples tsSec tsNsec frameIndex
        depthMode source hpairs
      rw [hbuilt]
      constructor
      case cursor_lt => exact hcursor
      case pairs_eq => rfl
      case cursor_eq => rfl
      case shown =>
        intro k bundle hbundle
        cases k with
        | zero =>
            obtain rfl := Option.some.inj hbundle
            refine ⟨pair, ?_, rfl⟩
            rwa [Nat.add_zero, Nat.mod_eq_of_lt hcursor]
        | succ k => contradiction
  · obtain ⟨hsource, hnone⟩ := @buildBundle_other samples tsSec tsNsec frameIndex depthMode
      source t ht
    rw [hsource]
    exact .of_none hcursor hnone

theorem builtBundles_serves (hcursor : source.cursor < wordSize) (types : List DataType) :
    Serves source
      (buildBundles samples tsSec tsNsec frameIndex depthMode isActive source types).1
      (builtBundles samples tsSec tsNsec frameIndex depthMode isActive source types) := by
  induction types generalizing source with
  | nil => exact .of_none hcursor rfl
  | cons t rest ih =>
      unfold buildBundles builtBundles
      split
      next =>
        have hone := @buildBundle_serves samples tsSec tsNsec frameIndex depthMode source hcursor t
        rcases hbuilt : buildBundle samples tsSec tsNsec frameIndex depthMode source t
          with ⟨next, outcome⟩
        rw [hbuilt] at hone
        cases outcome with
        | error what => exact hone
        | ok bundle => exact hone.trans (ih hone.after_lt)
      next => exact ih hcursor

variable {reads : TickReads}

theorem builtForGroups_serves (hcursor : source.cursor < wordSize) (groups : List DataGroup) :
    ∃ after, Serves source after (builtForGroups samples reads frameIndex source groups) ∧
      ∀ final, (tickGroups samples reads frameIndex source groups).2 = .ok final →
        final = after := by
  induction groups generalizing source with
  | nil => exact ⟨source, .of_none hcursor rfl, fun _ hfinal => (Except.ok.inj hfinal).symm⟩
  | cons g rest ih =>
      unfold builtForGroups tickGroups
      split
      next =>
        have hgroup : Serves source (buildFrame samples g (nowUnixSec reads.secClock)
            (nowUnixNsec reads.nsecClock) frameIndex [] reads.isActive (reads.depthMode g) source).1
            (builtForGroup samples reads frameIndex source g) :=
          builtBundles_serves hcursor (groupMembers g)
        rcases hframe : buildFrame samples g (nowUnixSec reads.secClock)
          (nowUnixNsec reads.nsecClock) frameIndex [] reads.isActive (reads.depthMode g) source
          with ⟨next, outcome⟩
        rw [hframe] at hgroup
        cases outcome with
        | error what =>
            dsimp only
            rw [List.append_nil]
            exact ⟨next, hgroup, fun _ hfinal => by contradiction⟩
        | ok frame =>
            obtain ⟨after, hlater, hafter⟩ := ih hgroup.after_lt
            exact ⟨after, hgroup.trans hlater, hafter⟩
      next => exact ih hcursor

/-- Over a whole run, the stereo bundles show the pairs from the cursor on. -/
theorem builtInRun_serves (s : CaptureState) (hcursor : s.source.cursor < wordSize)
    (ticks : List TickReads) : ∃ after, Serves s.source after (builtInRun samples s ticks) := by
  induction ticks generalizing s with
  | nil => exact ⟨s.source, .of_none hcursor rfl⟩
  | cons reads rest ih =>
      obtain ⟨middle, hfirst, hmiddle⟩ :=
        @builtForGroups_serves samples s.frameIndex s.source reads hcursor tickOrder
      unfold builtInRun
      cases houtcome : (tick samples reads s).2 with
      | error what =>
          dsimp only
          rw [List.append_nil]
          exact ⟨middle, hfirst⟩
      | ok next =>
          rw [tick, Prod.map_snd] at houtcome
          obtain ⟨final, hfinal, rfl⟩ := map_eq_ok.mp houtcome
          obtain rfl := hmiddle final hfinal
          obtain ⟨after, hlater⟩ := ih
            { source := final
              frameIndex := wordSucc s.frameIndex
              framesProduced := wordSucc s.framesProduced } hfirst.after_lt
          exact ⟨after, hfirst.trans hlater⟩

/-! ## One bundle for each tick that takes one -/

/-- The members after the stereo pair add no stereo bundle. -/
theorem stereoOf_builtBundles {types : List DataType} (hother : ∀ t ∈ types, t ≠ .stereoImage) :
    stereoOf (builtBundles samples tsSec tsNsec frameIndex depthMode isActive source types) =
      [] := by
  induction types generalizing source with
  | nil => rfl
  | cons t rest ih =>
      obtain ⟨hfirst, hrest⟩ := List.forall_mem_cons.mp hother
      unfold builtBundles
      split
      next =>
        obtain ⟨_, hnone⟩ := @buildBundle_other samples tsSec tsNsec frameIndex depthMode source t
          hfirst
        rcases hbuilt : buildBundle samples tsSec tsNsec frameIndex depthMode source t
          with ⟨next, outcome⟩
        rw [hbuilt] at hnone
        cases outcome with
        | error what => rfl
        | ok bundle =>
            dsimp only
            rw [stereoOf_append, ih hrest, List.append_nil]
            exact hnone
      next => exact ih hrest

/-- The groups after the first one add no stereo bundle. -/
theorem stereoOf_builtForGroups {groups : List DataGroup} (hother : ∀ g ∈ groups, g ≠ .visual2D) :
    stereoOf (builtForGroups samples reads frameIndex source groups) = [] := by
  induction groups generalizing source with
  | nil => rfl
  | cons g rest ih =>
      obtain ⟨hfirst, hrest⟩ := List.forall_mem_cons.mp hother
      have hmembers : ∀ t ∈ groupMembers g, t ≠ .stereoImage := by
        rintro t ht rfl
        exact hfirst ((mem_groupMembers _ _).mp ht).symm
      unfold builtForGroups
      split
      next =>
        rw [stereoOf_append, builtForGroup, stereoOf_builtBundles hmembers, List.nil_append]
        rcases hframe : buildFrame samples g (nowUnixSec reads.secClock)
          (nowUnixNsec reads.nsecClock) frameIndex [] reads.isActive (reads.depthMode g) source
          with ⟨next, outcome⟩
        cases outcome with
        | error what => rfl
        | ok frame => exact ih hrest
      next => exact ih hrest

/-- The stereo pair comes first in its group, before anything that may throw. -/
theorem stereoOf_builtForGroup (hpairs : source.pairs ≠ []) :
    ∃ pair, stereoOf (builtForGroup samples reads frameIndex source .visual2D) =
      if reads.isActive .stereoImage then
        [stereoBundle (nowUnixSec reads.secClock) (nowUnixNsec reads.nsecClock) pair]
      else [] := by
  have hmembers : groupMembers .visual2D = [.stereoImage, .depthMap] := by decide
  have hlater : ∀ t ∈ [DataType.depthMap], t ≠ .stereoImage := by decide
  obtain ⟨pair, _, hbuilt⟩ := @buildBundle_stereo samples (nowUnixSec reads.secClock)
    (nowUnixNsec reads.nsecClock) frameIndex (depthModeOf (reads.depthMode .visual2D)) source hpairs
  refine ⟨pair, ?_⟩
  rw [builtForGroup, hmembers, builtBundles, hbuilt]
  split
  next =>
    dsimp only
    rw [stereoOf_append, stereoOf_builtBundles hlater, List.append_nil]
    rfl
  next => exact stereoOf_builtBundles hlater

/-- A tick builds one stereo bundle with its own time if it takes one, and none otherwise. -/
theorem stereoOf_tick (hpairs : source.pairs ≠ []) :
    ∃ pair, stereoOf (builtForGroups samples reads frameIndex source tickOrder) =
      if takesStereo reads then
        [stereoBundle (nowUnixSec reads.secClock) (nowUnixNsec reads.nsecClock) pair]
      else [] := by
  have hlater : ∀ g ∈ [DataGroup.visual3D, .sensorData], g ≠ .visual2D := by decide
  obtain ⟨pair, hgroup⟩ := @stereoOf_builtForGroup samples frameIndex source reads hpairs
  refine ⟨pair, ?_⟩
  rw [tickOrder, builtForGroups, takesStereo]
  by_cases hactive : reads.groupActive .visual2D = true
  · rw [if_pos hactive, hactive, Bool.true_and, stereoOf_append, hgroup]
    rcases hframe : buildFrame samples .visual2D (nowUnixSec reads.secClock)
      (nowUnixNsec reads.nsecClock) frameIndex [] reads.isActive (reads.depthMode .visual2D) source
      with ⟨next, outcome⟩
    cases outcome with
    | error what => exact List.append_nil _
    | ok frame =>
        dsimp only
        rw [stereoOf_builtForGroups hlater, List.append_nil]
  · rw [if_neg hactive, Bool.eq_false_iff.mpr hactive, Bool.false_and, if_neg Bool.false_ne_true]
    exact stereoOf_builtForGroups hlater

/-- The bundle of a tick that takes one comes before those of the later ticks. -/
theorem stamped_cons {pair : StereoPair} {bundles later : List DataBundle} {ticks : List TickReads}
    (htick : stereoOf bundles =
      if takesStereo reads then
        [stereoBundle (nowUnixSec reads.secClock) (nowUnixNsec reads.nsecClock) pair]
      else [])
    (hlater : List.Forall₂ Stamped (ticks.filter takesStereo) (stereoOf later)) :
    List.Forall₂ Stamped ((reads :: ticks).filter takesStereo) (stereoOf (bundles ++ later)) := by
  rw [stereoOf_append, htick, List.filter_cons]
  split
  next => exact .cons ⟨rfl, rfl⟩ hlater
  next => exact hlater

/-- With pairs to show, the stereo bundles of a run are those of its ticks that take
one, each with the time of its tick. -/
theorem builtInRun_stamped (s : CaptureState) (hcursor : s.source.cursor < wordSize)
    (hpairs : s.source.pairs ≠ []) (ticks : List TickReads) :
    List.Forall₂ Stamped ((begunTicks samples s ticks).filter takesStereo)
      (stereoOf (builtInRun samples s ticks)) := by
  induction ticks generalizing s with
  | nil => exact .nil
  | cons reads rest ih =>
      obtain ⟨middle, hfirst, hmiddle⟩ :=
        @builtForGroups_serves samples s.frameIndex s.source reads hcursor tickOrder
      obtain ⟨pair, htick⟩ := @stereoOf_tick samples s.frameIndex s.source reads hpairs
      unfold builtInRun begunTicks
      refine stamped_cons htick ?_
      cases houtcome : (tick samples reads s).2 with
      | error what => exact .nil
      | ok next =>
          rw [tick, Prod.map_snd] at houtcome
          obtain ⟨final, hfinal, rfl⟩ := map_eq_ok.mp houtcome
          obtain rfl := hmiddle final hfinal
          exact ih _ hfirst.after_lt fun hnil => hpairs (hfirst.pairs_eq.symm.trans hnil)

end Runs

/-! ## In the order of the indexes -/

/-- The number of pairs with a smaller index. -/
def rank (pairs : List StereoPair) (pair : StereoPair) : Nat :=
  (pairs.filter fun p => p.pairIndex < pair.pairIndex).length

theorem rank_getElem {pairs : List StereoPair}
    (hsorted : pairs.Pairwise fun a b => a.pairIndex < b.pairIndex) {i : Nat}
    (hi : i < pairs.length) : rank pairs pairs[i] = i := by
  induction pairs generalizing i with
  | nil => contradiction
  | cons first rest ih =>
      obtain ⟨hfirst, hrest⟩ := List.pairwise_cons.mp hsorted
      cases i with
      | zero =>
          unfold rank
          rw [List.length_eq_zero_iff, List.filter_eq_nil_iff]
          intro p hp hless
          have hless := of_decide_eq_true hless
          rcases List.mem_cons.mp hp with rfl | hlater
          · exact absurd hless (Nat.lt_irrefl _)
          · exact absurd hless (Nat.lt_asymm (hfirst p hlater))
      | succ i =>
          have hbound : i < rest.length := Nat.lt_of_succ_lt_succ hi
          have hcounted : decide (first.pairIndex < rest[i].pairIndex) = true :=
            decide_eq_true (hfirst _ (List.getElem_mem hbound))
          unfold rank
          rw [List.getElem_cons_succ, List.filter_cons, if_pos hcounted, List.length_cons]
          exact congrArg (· + 1) (ih hrest hbound)

/-- The `k`-th of the bundles holds the left and the right bytes of the pair with the
`k`-th smallest index, counted round and round; any as many bundles in a row as there
are pairs hold each pair once. -/
structure RoundRobin (pairs : List StereoPair) (bundles : List DataBundle) : Prop where
  in_turn : ∀ k < wordSize, ∀ bundle, bundles[k]? = some bundle →
    ∃ pair ∈ pairs, rank pairs pair = k % pairs.length ∧ bundle.data = stereoData pair
  each_once : ∀ start, start + pairs.length ≤ bundles.length →
    start + pairs.length ≤ wordSize → ∃ round : List StereoPair, round.Perm pairs ∧
      ((bundles.drop start).take pairs.length).map DataBundle.data = round.map stereoData

theorem Serves.roundRobin {source after : SimDataSource} {bundles : List DataBundle}
    (hserves : Serves source after bundles) (hfresh : source.cursor = 0)
    (hsorted : source.pairs.Pairwise fun a b => a.pairIndex < b.pairIndex) :
    RoundRobin source.pairs (stereoOf bundles) := by
  have hshown : ∀ k < wordSize, ∀ bundle, (stereoOf bundles)[k]? = some bundle →
      ∃ pair, source.pairs[k % source.pairs.length]? = some pair ∧
        bundle.data = stereoData pair := by
    intro k hk bundle hbundle
    have hpair := hserves.shown k bundle hbundle
    rwa [hfresh, Nat.zero_add, Nat.mod_eq_of_lt hk] at hpair
  constructor
  case in_turn =>
    intro k hk bundle hbundle
    obtain ⟨pair, hpair, hdata⟩ := hshown k hk bundle hbundle
    obtain ⟨hindex, rfl⟩ := List.getElem?_eq_some_iff.mp hpair
    exact ⟨_, List.getElem_mem hindex, rank_getElem hsorted hindex, hdata⟩
  case each_once =>
    intro start hlong hrange
    refine ⟨source.pairs.rotate start, List.rotate_perm _ _, ?_⟩
    apply List.ext_getElem?
    intro j
    rcases Nat.lt_or_ge j source.pairs.length with hj | hj
    · have hindex : start + j < (stereoOf bundles).length := by omega
      have hbundle := List.getElem?_eq_getElem hindex
      obtain ⟨pair, hpair, hdata⟩ := hshown (start + j) (by omega) _ hbundle
      rw [List.getElem?_map, List.getElem?_take_of_lt hj, List.getElem?_drop, hbundle,
        List.getElem?_map, List.getElem?_rotate hj, Nat.add_comm j, hpair]
      exact congrArg some hdata
    · rw [List.getElem?_eq_none, List.getElem?_eq_none]
      · rwa [List.length_map, List.length_rotate]
      · rw [List.length_map]
        exact (List.length_take_le _ _).trans hj

theorem load_cursor (source : SimDataSource) (stereoDir : Bytes) (dir : Option (List DirEntry)) :
    (source.load stereoDir dir).1.cursor = source.cursor := by
  unfold SimDataSource.load
  split
  next => rfl
  next => cases dir <;> rfl

/-- For every directory and every run of ticks, whatever is active in each of them, the
stereo bundles that are built show the loaded pairs round robin in the order of their
indexes. With pairs to show, each tick that is begun and takes one builds one; without
any, none is built. The bundles of the pushed frames are the first of those that are
built. -/
theorem stereo_roundRobin (samples : Samples) {source : SimDataSource}
    (hfresh : source.cursor = 0) {stereoDir : Bytes} (hdir : stereoDir ≠ [])
    (dir : List DirEntry) (frameIndex framesProduced : Nat) (ticks : List TickReads) :
    let loaded := (source.load stereoDir (some dir)).1
    let start : CaptureState := ⟨loaded, frameIndex, framesProduced⟩
    let built := builtInRun samples start ticks
    RoundRobin loaded.pairs (stereoOf built) ∧
      (loaded.pairs ≠ [] → List.Forall₂ Stamped
        ((begunTicks samples start ticks).filter takesStereo) (stereoOf built)) ∧
      (loaded.pairs = [] → stereoOf built = []) ∧
      ((run samples start ticks).flatMap fun e => e.2.bundles) <+: built := by
  intro loaded start built
  have hcursor : loaded.cursor = 0 := (load_cursor source stereoDir _).trans hfresh
  have hsorted : loaded.pairs.Pairwise fun a b => a.pairIndex < b.pairIndex := by
    rw [source.load_pairs hdir]
    exact source.loadedPairs_increasing dir
  have hlt : loaded.cursor < wordSize := by
    rw [hcursor]
    decide
  obtain ⟨after, hserves⟩ := @builtInRun_serves samples start hlt ticks
  refine ⟨hserves.roundRobin hcursor hsorted, fun hpairs => ?_, hserves.of_nil, run_built _ ticks⟩
  exact builtInRun_stamped start hlt hpairs ticks

/-- Two pairs, listed out of order. -/
def twoPairs : List DirEntry :=
  [{ name := lit "R_007.raw", content := some [70, 71] },
    { name := lit "L_002.raw", content := some [20] },
    { name := lit "L_007.raw", content := some [72] },
    { name := lit "R_002.raw", content := some [21] }]

theorem twoPairs_loaded :
    (SimDataSource.load {} (lit "StereoImage") (some twoPairs)).1 =
      { pairs := [{ left := [20], right := [21], leftInfo := probeImage [20] 1280 720 4,
                    rightInfo := probeImage [21] 1280 720 4, pairIndex := 2 },
          { left := [72], right := [70, 71], leftInfo := probeImage [72] 1280 720 4,
            rightInfo := probeImage [70, 71] 1280 720 4, pairIndex := 7 }] } := by
  have hslots : twoPairs.foldl addEntry [] =
      [(2, ⟨some { name := lit "L_002.raw", content := some [20] },
        some { name := lit "R_002.raw", content := some [21] }⟩),
        (7, ⟨some { name := lit "L_007.raw", content := some [72] },
          some { name := lit "R_007.raw", content := some [70, 71] }⟩)] := by
    have hnames : twoPairs.map (fun entry => parseName entry.name) =
        [some (7, 114), some (2, 108), some (7, 108), some (2, 114)] := by decide
    simp only [twoPairs, List.map_cons, List.map_nil, List.cons.injEq, and_true] at hnames
    obtain ⟨hright₇, hleft₂, hleft₇, hright₂⟩ := hnames
    simp [twoPairs, addEntry, hright₇, hleft₂, hleft₇, hright₂, updateSlot]
  rw [SimDataSource.load, if_neg (by decide)]
  dsimp only
  rw [SimDataSource.loadedPairs_eq, hslots]
  rfl

/-- Two pairs in turn over six ticks, of which three take one: the one with index 2, the
one with index 7, and the first one again. -/
theorem twoPairs_roundRobin :
    let active (clock : Int) :=
      (ChannelManager.activateChannel {} .stereoImage).1.tickReads clock clock fun _ => none
    let idle (clock : Int) := ChannelManager.tickReads {} clock clock fun _ => none
    let loaded := (SimDataSource.load {} (lit "StereoImage") (some twoPairs)).1
    let ticks := [active 0, idle 1, idle 2, active 3, idle 4, active 5]
    let built := builtInRun zeroSamples ⟨loaded, 0, 0⟩ ticks
    (stereoOf built).map DataBundle.data =
        [[1, 0, 0, 0, 20, 21], [1, 0, 0, 0, 72, 70, 71], [1, 0, 0, 0, 20, 21]] ∧
      (stereoOf built).map DataBundle.tsNsec = [0, 3, 5] ∧
      RoundRobin loaded.pairs (stereoOf built) ∧
      List.Forall₂ Stamped ((begunTicks zeroSamples ⟨loaded, 0, 0⟩ ticks).filter takesStereo)
        (stereoOf built) := by
  intro active idle loaded ticks built
  have hdir : lit "StereoImage" ≠ [] := by decide
  obtain ⟨hturn, hbuilt, _⟩ := @stereo_roundRobin zeroSamples {} rfl _ hdir twoPairs 0 0 ticks
  refine ⟨?_, ?_, hturn, hbuilt ?_⟩
  · simp only [built, loaded, twoPairs_loaded]
    decide +kernel
  · simp only [built, loaded, twoPairs_loaded]
    decide +kernel
  · rw [twoPairs_loaded]
    exact List.cons_ne_nil _ _

end CaptureEngine

end SimVision
