import SimVision.Common.Parameter
import SimVision.DataSource.SimDataSource

/-! # The capture loop

Every tick reads the clock twice and builds one frame for each active group. What
a tick reads from the stores that other threads change is part of its input.
-/

namespace SimVision

open Foundation

/-- What one iteration of `run` reads: the clock in `now_unix_sec` and in
`now_unix_nsec`, the activity of groups and types, and `depth_mode` once a group. -/
structure TickReads where
  secClock : Int
  nsecClock : Int
  groupActive : DataGroup → Bool
  isActive : DataType → Bool
  depthMode : DataGroup → Option Parameter

/-- The members of the engine and the local `frame_index`. -/
structure CaptureState where
  source : SimDataSource
  frameIndex : Nat := 0
  framesProduced : Nat := 0

namespace CaptureEngine

/-- `depth_mode`, unless the parameter is missing or not an enumeration. -/
def depthModeOf : Option Parameter → Bytes
  | some p =>
      match p.value with
      | .enum mode => mode
      | _ => lit "NEURAL"
  | none => lit "NEURAL"

section BuildFrame

variable (samples : Samples)

/- The arguments of `build_frame` that every bundle carries or is generated from. -/
variable (tsSec tsNsec : Int) (frameIndex : Nat) (depthMode : Bytes)

def makeBundle (t : DataType) (partId : Bytes) : DataBundle where
  type := t
  partId := partId
  tsSec := tsSec
  tsNsec := tsNsec
  source := versionTag

/-- The left size in four bytes, then both images. -/
def stereoData (pair : StereoPair) : Bytes :=
  leBytes (UInt32.ofNat pair.left.length) ++ pair.left ++ pair.right

def stereoBundle (pair : StereoPair) : DataBundle :=
  { makeBundle tsSec tsNsec .stereoImage (lit "stereo_image") with
    data := stereoData pair
    format := pair.leftInfo.format
    isEncoded := pair.leftInfo.isEncoded
    channels := pair.leftInfo.channels
    code := pair.leftInfo.code
    rightChannels := pair.rightInfo.channels
    rightCode := pair.rightInfo.code
    width := pair.leftInfo.width
    height := pair.leftInfo.height }

/-- A generated bundle, unless its generator threw. -/
def generatedBundle (t : DataType) (partId format : Bytes) (data : Except Bytes Bytes) :
    Except Bytes (Option DataBundle) :=
  data.map fun bytes =>
    some { makeBundle tsSec tsNsec t partId with data := bytes, format := format }

/-- One case of the switch in `build_frame`. -/
def buildBundle (source : SimDataSource) (t : DataType) :
    SimDataSource × Except Bytes (Option DataBundle) :=
  let w := source.width
  let h := source.height
  let generated := generatedBundle tsSec tsNsec t
  match t with
  | .stereoImage => source.nextStereo.map id fun pair =>
      .ok (pair.map (stereoBundle tsSec tsNsec))
  | .depthMap => (source, generated (lit "depth_map") (lit "raw_f32")
      (SimDataSource.generateDepth samples w h frameIndex))
  | .disparityMap => (source, generated (lit "disparity_map") (lit "raw_f32")
      (SimDataSource.generateDisparity samples w h frameIndex))
  | .confidenceMap => (source, generated (lit "confidence_map") (lit "raw_f32")
      (SimDataSource.generateConfidence samples w h frameIndex))
  | .pointCloud => (source, generated (lit "point_cloud") (lit "raw_f32x4")
      (.ok (SimDataSource.generatePointcloud samples depthMode frameIndex)))
  | .imu => (source, generated (lit "imu") (lit "json")
      (.ok (SimDataSource.generateImu samples frameIndex)))
  | .temperature => (source, generated (lit "temperature") (lit "json")
      (.ok (SimDataSource.generateTemperature samples frameIndex)))
  | .magnetometer => (source, generated (lit "magnetometer") (lit "json")
      (.ok (SimDataSource.generateMagnetometer samples frameIndex)))
  | .barometer => (source, generated (lit "barometer") (lit "json")
      (.ok (SimDataSource.generateBarometer samples frameIndex)))

/-- The loop over the members of a group, left by the first exception. -/
def buildBundles (isActive : DataType → Bool) :
    SimDataSource → List DataType → SimDataSource × Except Bytes (List DataBundle)
  | source, [] => (source, .ok [])
  | source, t :: rest =>
      if isActive t then
        match buildBundle samples tsSec tsNsec frameIndex depthMode source t with
        | (next, .error what) => (next, .error what)
        | (next, .ok bundle) =>
            (buildBundles isActive next rest).map id fun later =>
              later.map fun bundles => bundle.toList ++ bundles
      else buildBundles isActive source rest

end BuildFrame

def buildFrame (samples : Samples) (group : DataGroup) (tsSec tsNsec : Int) (frameIndex : Nat)
    (pubId : Bytes) (isActive : DataType → Bool) (depthMode : Option Parameter)
    (source : SimDataSource) : SimDataSource × Except Bytes ChannelFrame :=
  (buildBundles samples tsSec tsNsec frameIndex (depthModeOf depthMode) isActive source
    (groupMembers group)).map id fun result =>
      result.map fun bundles =>
        { group := group
          tsSec := tsSec
          tsNsec := tsNsec
          frameIndex := frameIndex
          pairId := frameIndex
          pubId := pubId
          bundles := bundles }

/-- The frame that `build_frame` fills with its bundles. -/
def frameOf (group : DataGroup) (tsSec tsNsec : Int) (frameIndex : Nat) (pubId : Bytes)
    (bundles : List DataBundle) : ChannelFrame where
  group := group
  tsSec := tsSec
  tsNsec := tsNsec
  frameIndex := frameIndex
  pairId := frameIndex
  pubId := pubId
  bundles := bundles

theorem buildFrame_snd (samples : Samples) (group : DataGroup) (tsSec tsNsec : Int)
    (frameIndex : Nat) (pubId : Bytes) (isActive : DataType → Bool) (depthMode : Option Parameter)
    (source : SimDataSource) :
    (buildFrame samples group tsSec tsNsec frameIndex pubId isActive depthMode source).2 =
      (buildBundles samples tsSec tsNsec frameIndex (depthModeOf depthMode) isActive source
        (groupMembers group)).2.map (frameOf group tsSec tsNsec frameIndex pubId) := rfl

/-- The order in which a tick visits the groups. -/
def tickOrder : List DataGroup := [.visual2D, .visual3D, .sensorData]

/-- The loop over the groups: the frames pushed, and whether an exception ended it. -/
def tickGroups (samples : Samples) (reads : TickReads) (frameIndex : Nat) :
    SimDataSource → List DataGroup → List ChannelFrame × Except Bytes SimDataSource
  | source, [] => ([], .ok source)
  | source, g :: rest =>
      if reads.groupActive g then
        match buildFrame samples g (nowUnixSec reads.secClock) (nowUnixNsec reads.nsecClock)
            frameIndex [] reads.isActive (reads.depthMode g) source with
        | (_, .error what) => ([], .error what)
        | (next, .ok frame) =>
            (tickGroups samples reads frameIndex next rest).map
              -- a frame without bundles is not pushed
              (fun pushed => if frame.bundles = [] then pushed else frame :: pushed) id
      else tickGroups samples reads frameIndex source rest

/-- One iteration of `run` up to the pacing. -/
def tick (samples : Samples) (reads : TickReads) (s : CaptureState) :
    List ChannelFrame × Except Bytes CaptureState :=
  (tickGroups samples reads s.frameIndex s.source tickOrder).map id fun result =>
    result.map fun source =>
      { source := source
        frameIndex := wordSucc s.frameIndex
        framesProduced := wordSucc s.framesProduced }

/-- `run`: every frame pushed, with the tick that pushed it. An exception ends
the thread. -/
def run (samples : Samples) : CaptureState → List TickReads → List (TickReads × ChannelFrame)
  | _, [] => []
  | s, reads :: rest =>
      let (pushed, outcome) := tick samples reads s
      pushed.map (Prod.mk reads) ++
        match outcome with
        | .ok next => run samples next rest
        | .error _ => []

end CaptureEngine

end SimVision
