import SimVision.Api.AdminServer
import SimVision.Capture.CaptureEngine

/-! # Timestamps

A frame carries the time of its tick and a header the time of its publication.
Both take the seconds from one clock read and the nanoseconds from a later one,
unlike a reply, whose stamps take both from one read.
-/

namespace SimVision

open Foundation

/-! ## Stamps of a tick -/

/-- The frame and its bundles carry one time. -/
structure ChannelFrame.Stamped (sec nsec : Int) (frame : ChannelFrame) : Prop where
  sec_eq : frame.tsSec = sec
  nsec_eq : frame.tsNsec = nsec
  bundles : ∀ b ∈ frame.bundles, b.tsSec = sec ∧ b.tsNsec = nsec

namespace CaptureEngine

variable {samples : Samples} {tsSec tsNsec : Int} {frameIndex : Nat}

theorem buildBundle_stamped {depthMode : Bytes} {source : SimDataSource} {t : DataType}
    {bundle : Option DataBundle}
    (hbuild : (buildBundle samples tsSec tsNsec frameIndex depthMode source t).2 = .ok bundle) :
    ∀ b ∈ bundle, b.tsSec = tsSec ∧ b.tsNsec = tsNsec := by
  have hgenerated : ∀ (partId format : Bytes) (data : Except Bytes Bytes),
      generatedBundle tsSec tsNsec t partId format data = .ok bundle →
      ∀ b ∈ bundle, b.tsSec = tsSec ∧ b.tsNsec = tsNsec := by
    intro partId format data hdata b hb
    cases data with
    | error what => contradiction
    | ok bytes =>
        obtain rfl := Except.ok.inj hdata
        obtain rfl := Option.some.inj hb
        exact ⟨rfl, rfl⟩
  cases t with
  | stereoImage =>
      obtain rfl := Except.ok.inj hbuild
      intro b hb
      obtain ⟨pair, _, rfl⟩ := Option.map_eq_some_iff.mp hb
      exact ⟨rfl, rfl⟩
  | depthMap => exact hgenerated _ _ _ hbuild
  | disparityMap => exact hgenerated _ _ _ hbuild
  | confidenceMap => exact hgenerated _ _ _ hbuild
  | pointCloud => exact hgenerated _ _ (.ok _) hbuild
  | imu => exact hgenerated _ _ (.ok _) hbuild
  | temperature => exact hgenerated _ _ (.ok _) hbuild
  | magnetometer => exact hgenerated _ _ (.ok _) hbuild
  | barometer => exact hgenerated _ _ (.ok _) hbuild

theorem buildBundles_stamped {depthMode : Bytes} {isActive : DataType → Bool}
    {types : List DataType} {source : SimDataSource} {bundles : List DataBundle}
    (hbuild : (buildBundles samples tsSec tsNsec frameIndex depthMode isActive source types).2 =
      .ok bundles) : ∀ b ∈ bundles, b.tsSec = tsSec ∧ b.tsNsec = tsNsec := by
  induction types generalizing source bundles with
  | nil =>
      obtain rfl := Except.ok.inj hbuild
      simp
  | cons t rest ih =>
      unfold buildBundles at hbuild
      split at hbuild
      next =>
        split at hbuild
        next => contradiction
        next next bundle hbundle =>
          cases hrest : (buildBundles samples tsSec tsNsec frameIndex depthMode isActive next
              rest).2 with
          | error what =>
              simp only [Prod.map_snd, hrest] at hbuild
              contradiction
          | ok later =>
              simp only [Prod.map_snd, hrest] at hbuild
              obtain rfl := Except.ok.inj hbuild
              intro b hb
              rcases List.mem_append.mp hb with hb | hb
              · exact buildBundle_stamped (congrArg Prod.snd hbundle) b (Option.mem_toList.mp hb)
              · exact ih hrest b hb
      next => exact ih hbuild

theorem buildFrame_stamped {group : DataGroup} {pubId : Bytes} {isActive : DataType → Bool}
    {depthMode : Option Parameter} {source : SimDataSource} {frame : ChannelFrame}
    (hbuild : (buildFrame samples group tsSec tsNsec frameIndex pubId isActive depthMode source).2 =
      .ok frame) : frame.Stamped tsSec tsNsec := by
  unfold buildFrame at hbuild
  cases hbundles : (buildBundles samples tsSec tsNsec frameIndex (depthModeOf depthMode) isActive
      source (groupMembers group)).2 with
  | error what =>
      simp only [Prod.map_snd, hbundles] at hbuild
      contradiction
  | ok bundles =>
      simp only [Prod.map_snd, hbundles] at hbuild
      obtain rfl := Except.ok.inj hbuild
      exact ⟨rfl, rfl, buildBundles_stamped hbundles⟩

/-- Every frame of a tick carries the seconds of its first clock read and the
nanoseconds of its second. -/
theorem tick_stamped (reads : TickReads) (s : CaptureState) :
    ∀ frame ∈ (tick samples reads s).1,
      frame.Stamped (nowUnixSec reads.secClock) (nowUnixNsec reads.nsecClock) := by
  have hgroups : ∀ (groups : List DataGroup) (source : SimDataSource),
      ∀ frame ∈ (tickGroups samples reads s.frameIndex source groups).1,
        frame.Stamped (nowUnixSec reads.secClock) (nowUnixNsec reads.nsecClock) := by
    intro groups
    induction groups with
    | nil => simp [tickGroups]
    | cons g rest ih =>
        intro source frame hframe
        unfold tickGroups at hframe
        split at hframe
        next =>
          split at hframe
          next => simp at hframe
          next next built hbuilt =>
            rw [Prod.map_fst] at hframe
            split at hframe
            next => exact ih next frame hframe
            next =>
              rcases List.mem_cons.mp hframe with rfl | hframe
              · exact buildFrame_stamped (congrArg Prod.snd hbuilt)
              · exact ih next frame hframe
        next => exact ih source frame hframe
  exact hgroups tickOrder s.source

/-! ## Stamps of a run -/

/-- The clock reads of a run, from `past` on, never decrease. -/
def ClockRuns : Int → List TickReads → Prop
  | _, [] => True
  | past, reads :: rest =>
      past ≤ reads.secClock ∧ reads.secClock ≤ reads.nsecClock ∧ ClockRuns reads.nsecClock rest

/-- Two pushes of one tick, or of ticks that follow each other on the clock. -/
def InOrder (earlier later : TickReads × ChannelFrame) : Prop :=
  earlier.1 = later.1 ∨ earlier.1.nsecClock ≤ later.1.secClock

theorem run_stamped (start : CaptureState) (ticks : List TickReads) :
    ∀ push ∈ run samples start ticks,
      push.2.stamp = stampNs (nowUnixSec push.1.secClock) (nowUnixNsec push.1.nsecClock) := by
  induction ticks generalizing start with
  | nil => simp [run]
  | cons reads rest ih =>
      intro push hpush
      unfold run at hpush
      rcases List.mem_append.mp hpush with hpush | hpush
      · obtain ⟨frame, hframe, rfl⟩ := List.mem_map.mp hpush
        have hstamped := tick_stamped reads start frame hframe
        rw [ChannelFrame.stamp, hstamped.sec_eq, hstamped.nsec_eq]
      · split at hpush
        next next _ => exact ih next push hpush
        next => simp at hpush

/-- The pushes of a run are no earlier than it and in the order of the clock. -/
theorem run_clock {past : Int} {ticks : List TickReads} (hclock : ClockRuns past ticks)
    (start : CaptureState) :
    (∀ push ∈ run samples start ticks,
      past ≤ push.1.secClock ∧ push.1.secClock ≤ push.1.nsecClock) ∧
      (run samples start ticks).Pairwise InOrder := by
  induction ticks generalizing past start with
  | nil => simp [run]
  | cons reads rest ih =>
      obtain ⟨hpast, hreads, hrest⟩ := hclock
      have hlater : ∃ later, run samples start (reads :: rest) =
            (tick samples reads start).1.map (Prod.mk reads) ++ later ∧
          (∀ push ∈ later,
            reads.nsecClock ≤ push.1.secClock ∧ push.1.secClock ≤ push.1.nsecClock) ∧
          later.Pairwise InOrder := by
        cases houtcome : (tick samples reads start).2 with
        -- an exception ends the run with the frames the tick had pushed
        | error what => exact ⟨[], by simp [run, houtcome], by simp, .nil⟩
        | ok next => exact ⟨run samples next rest, by simp [run, houtcome], ih hrest next⟩
      obtain ⟨later, hrun, hbounds, horder⟩ := hlater
      rw [hrun]
      constructor
      · intro push hpush
        rcases List.mem_append.mp hpush with hpush | hpush
        · obtain ⟨frame, _, rfl⟩ := List.mem_map.mp hpush
          exact ⟨hpast, hreads⟩
        · obtain ⟨hsec, hnsec⟩ := hbounds push hpush
          exact ⟨hpast.trans (hreads.trans hsec), hnsec⟩
      · refine List.pairwise_append.mpr ⟨?_, horder, ?_⟩
        · exact List.pairwise_map.mpr (List.pairwise_of_forall fun _ _ => .inl rfl)
        · intro earlier hearlier later hmem
          obtain ⟨frame, _, rfl⟩ := List.mem_map.mp hearlier
          exact .inr (hbounds later hmem).1

/-- A push whose two clock reads are in order is stamped between them exactly
when the second read is not at an earlier part of its second. -/
theorem run_between_iff {ticks : List TickReads} (hclock : ClockRuns 0 ticks) (start : CaptureState)
    {push : TickReads × ChannelFrame} (hpush : push ∈ run samples start ticks) :
    (push.1.secClock ≤ push.2.stamp ∧ push.2.stamp ≤ push.1.nsecClock) ↔
      push.1.secClock % 1000000000 ≤ push.1.nsecClock % 1000000000 := by
  obtain ⟨hpast, hreads⟩ := (run_clock hclock start).1 push hpush
  rw [run_stamped start ticks push hpush]
  exact stampNs_between_iff hpast hreads

end CaptureEngine

/-! ## Stamps of a header -/

theorem header_pubStamp (pubId : Bytes) (frame : ChannelFrame) (sec nsec : Int) :
    (headerJson pubId frame sec nsec).lookup (lit "pub_ts_sec") = some (.integer sec) ∧
      (headerJson pubId frame sec nsec).lookup (lit "pub_ts_nsec") = some (.integer nsec) := by
  unfold headerJson Json.ofAssignments
  simp only [List.foldl_cons, List.foldl_nil, Json.lookup_set]
  exact ⟨rfl, rfl⟩

/-- The header of a call shows a publication time between its two clock reads. -/
def PublishCall.Honest (call : PublishCall) (pubId : Bytes) : Prop :=
  ∃ sec nsec, (call.header pubId).lookup (lit "pub_ts_sec") = some (.integer sec) ∧
    (call.header pubId).lookup (lit "pub_ts_nsec") = some (.integer nsec) ∧
    call.secClock ≤ stampNs sec nsec ∧ stampNs sec nsec ≤ call.nsecClock

theorem PublishCall.honest_iff {call : PublishCall} (hfirst : 0 ≤ call.secClock)
    (hreads : call.secClock ≤ call.nsecClock) (pubId : Bytes) :
    call.Honest pubId ↔ call.secClock % 1000000000 ≤ call.nsecClock % 1000000000 := by
  rw [← stampNs_between_iff hfirst hreads]
  have hstamp := header_pubStamp pubId call.frame (nowUnixSec call.secClock)
    (nowUnixNsec call.nsecClock)
  constructor
  · rintro ⟨sec, nsec, hsec, hnsec, hbounds⟩
    rw [PublishCall.header, hstamp.1] at hsec
    rw [PublishCall.header, hstamp.2] at hnsec
    cases hsec
    cases hnsec
    exact hbounds
  · intro hbounds
    exact ⟨_, _, hstamp.1, hstamp.2, hbounds⟩

/-! ## Stamps of a reply -/

/-- A reply shows exactly the clock values that were read for it. -/
theorem completeResponse_stamps (cfg : AdminServerConfig) (clientId : Bytes) (clocks : ReplyClocks)
    (r : Response) :
    stampNs (completeResponse cfg clientId clocks r).recvSec
        (completeResponse cfg clientId clocks r).recvNsec = clocks.recv ∧
      stampNs (completeResponse cfg clientId clocks r).sendSec
        (completeResponse cfg clientId clocks r).sendNsec = clocks.send :=
  ⟨stampNs_of_one_read clocks.recv, stampNs_of_one_read clocks.send⟩

/-! ## Honest timestamps -/

/-- What timestamps promise of a run of the engine and of the publisher's calls:
they lie between the two reads they are made of, and never decrease. -/
structure TimestampsHonest (samples : Samples) (start : CaptureState) (ticks : List TickReads)
    (pubId : Bytes) (calls : List PublishCall) : Prop where
  frames : ∀ push ∈ CaptureEngine.run samples start ticks,
    push.1.secClock ≤ push.2.stamp ∧ push.2.stamp ≤ push.1.nsecClock
  monotone : (CaptureEngine.run samples start ticks).Pairwise fun earlier later =>
    earlier.2.stamp ≤ later.2.stamp
  headers : ∀ call ∈ calls, call.Honest pubId

/-- Timestamps are honest and monotone if and only if no clock was read for its
nanoseconds at an earlier part of a later second. -/
theorem timestampsHonest_iff (samples : Samples) (start : CaptureState) {ticks : List TickReads}
    (hclock : CaptureEngine.ClockRuns 0 ticks) (pubId : Bytes) {calls : List PublishCall}
    (hcalls : ∀ call ∈ calls, 0 ≤ call.secClock ∧ call.secClock ≤ call.nsecClock) :
    TimestampsHonest samples start ticks pubId calls ↔
      (∀ push ∈ CaptureEngine.run samples start ticks,
        push.1.secClock % 1000000000 ≤ push.1.nsecClock % 1000000000) ∧
      ∀ call ∈ calls, call.secClock % 1000000000 ≤ call.nsecClock % 1000000000 := by
  have hframes : ∀ push ∈ CaptureEngine.run samples start ticks,
      (push.1.secClock ≤ push.2.stamp ∧ push.2.stamp ≤ push.1.nsecClock) ↔
        push.1.secClock % 1000000000 ≤ push.1.nsecClock % 1000000000 :=
    fun _ hpush => CaptureEngine.run_between_iff hclock start hpush
  have hheaders : ∀ call ∈ calls, call.Honest pubId ↔
      call.secClock % 1000000000 ≤ call.nsecClock % 1000000000 :=
    fun call hcall => PublishCall.honest_iff (hcalls call hcall).1 (hcalls call hcall).2 pubId
  constructor
  · intro hhonest
    exact ⟨fun push hpush => (hframes push hpush).mp (hhonest.frames push hpush),
      fun call hcall => (hheaders call hcall).mp (hhonest.headers call hcall)⟩
  · rintro ⟨hticks, hpublished⟩
    have hbetween : ∀ push ∈ CaptureEngine.run samples start ticks,
        push.1.secClock ≤ push.2.stamp ∧ push.2.stamp ≤ push.1.nsecClock :=
      fun push hpush => (hframes push hpush).mpr (hticks push hpush)
    refine ⟨hbetween, ?_, fun call hcall => (hheaders call hcall).mpr (hpublished call hcall)⟩
    apply (CaptureEngine.run_clock hclock start).2.imp_of_mem
    intro earlier later hearlier hlater horder
    -- frames of one tick share their stamp; between ticks the clock reads separate them
    rcases horder with hsame | hbefore
    · rw [CaptureEngine.run_stamped start ticks earlier hearlier,
        CaptureEngine.run_stamped start ticks later hlater, hsame]
    · calc
        earlier.2.stamp ≤ earlier.1.nsecClock := (hbetween earlier hearlier).2
        _ ≤ later.1.secClock := hbefore
        _ ≤ later.2.stamp := (hbetween later hlater).1

/-- Samples that are all zero. -/
def zeroSamples : Samples where
  depth := fun _ _ _ _ _ => 0
  disparity := fun _ _ _ => 0
  confidence := fun _ _ _ => 0
  point := fun _ _ _ _ => 0
  imu := fun _ => []
  temperature := fun _ => []
  magnetometer := fun _ => []
  barometer := fun _ => []

/-- A tick that reads the clock at two instants while only the IMU is subscribed. -/
def imuTick (secClock nsecClock : Int) : TickReads where
  secClock := secClock
  nsecClock := nsecClock
  groupActive := fun g => g = .sensorData
  isActive := fun t => t = .imu
  depthMode := fun _ => none

theorem ticksInOrder_honest :
    TimestampsHonest zeroSamples { source := {} }
      [imuTick 1500000000 1500000200, imuTick 1533000000 1533000100] (lit "sim_pub")
      [⟨{ group := .sensorData }, 1600000000, 1600000300, fun _ => true⟩] := by
  apply (timestampsHonest_iff _ _ (by simp [CaptureEngine.ClockRuns, imuTick]) _ (by simp)).mpr
  constructor
  · decide
  · simp

/-- Reads on both sides of a second boundary make a stamp nearly a second early. -/
theorem secondBoundary_dishonest :
    ¬ ∀ (samples : Samples) (start : CaptureState) (ticks : List TickReads),
      CaptureEngine.ClockRuns 0 ticks → ∀ (pubId : Bytes) (calls : List PublishCall),
        (∀ call ∈ calls, 0 ≤ call.secClock ∧ call.secClock ≤ call.nsecClock) →
        TimestampsHonest samples start ticks pubId calls := by
  intro hclaim
  have hhonest := hclaim zeroSamples { source := {} } [imuTick 999999999 1000000000]
    (by simp [CaptureEngine.ClockRuns, imuTick]) [] [] (by simp)
  have hpush : ∃ push ∈ CaptureEngine.run zeroSamples { source := {} }
      [imuTick 999999999 1000000000], push.1.secClock = 999999999 ∧ push.2.stamp = 0 := by
    decide
  obtain ⟨push, hmem, hclock, hstamp⟩ := hpush
  have hbetween := (hhonest.frames push hmem).1
  omega

end SimVision
