import SimVision.Foundation.Cpp

/-! # Data types, groups, timestamps and frames

The table `kTable` fixes the name and the group of each data type; all
conversions read it. Clock values are nanoseconds since the epoch.
-/

namespace SimVision

open Foundation

inductive DataType where
  | stereoImage
  | depthMap
  | pointCloud
  | imu
  | disparityMap
  | confidenceMap
  | temperature
  | magnetometer
  | barometer
  deriving DecidableEq

inductive DataGroup where
  | visual2D
  | visual3D
  | sensorData
  deriving DecidableEq

/-- One row of the conversion table. -/
structure Entry where
  type : DataType
  name : Bytes
  group : DataGroup

def kTable : List Entry := [
  ⟨.stereoImage, lit "stereo_image", .visual2D⟩,
  ⟨.depthMap, lit "depth_map", .visual2D⟩,
  ⟨.pointCloud, lit "point_cloud", .visual3D⟩,
  ⟨.imu, lit "imu", .sensorData⟩,
  ⟨.disparityMap, lit "disparity_map", .visual3D⟩,
  ⟨.confidenceMap, lit "confidence_map", .visual3D⟩,
  ⟨.temperature, lit "temperature", .sensorData⟩,
  ⟨.magnetometer, lit "magnetometer", .sensorData⟩,
  ⟨.barometer, lit "barometer", .sensorData⟩]

def dataTypeToString (t : DataType) : Bytes :=
  match kTable.find? fun e => e.type = t with
  | some e => e.name
  | none => lit "unknown"

def dataTypeFromString (s : Bytes) : Option DataType :=
  (kTable.find? fun e => s = e.name).map Entry.type

def dataTypeToGroup (t : DataType) : DataGroup :=
  match kTable.find? fun e => e.type = t with
  | some e => e.group
  | none => .sensorData

def groupToString : DataGroup → Bytes
  | .visual2D => lit "visual_2d"
  | .visual3D => lit "visual_3d"
  | .sensorData => lit "sensor_data"

def groupMembers (g : DataGroup) : List DataType :=
  (kTable.filter fun e => e.group = g).map Entry.type

/-- All data types, by ascending value: the order of a map that is keyed by them. -/
def allDataTypes : List DataType := kTable.map Entry.type

@[simp] theorem mem_allDataTypes (t : DataType) : t ∈ allDataTypes := by
  cases t <;> decide

theorem allDataTypes_nodup : allDataTypes.Nodup := by decide

theorem mem_groupMembers (t : DataType) (g : DataGroup) :
    t ∈ groupMembers g ↔ dataTypeToGroup t = g := by
  cases t <;> cases g <;> decide

/-- A name read back gives the type it was written for. -/
theorem dataTypeFromString_toString (t : DataType) :
    dataTypeFromString (dataTypeToString t) = some t := by
  cases t <;> decide

/-! ## Timestamps -/

/-- `duration_cast<seconds>` of the clock value, truncating. -/
def nowUnixSec (now : Int) : Int := now.tdiv 1000000000

/-- Nanoseconds past the truncated second of the clock value. -/
def nowUnixNsec (now : Int) : Int := now - now.tdiv 1000000000 * 1000000000

/-- The time in nanoseconds that a pair of fields stands for. -/
def stampNs (sec nsec : Int) : Int := sec * 1000000000 + nsec

/-- Both fields from one read give the clock value back. -/
theorem stampNs_of_one_read (now : Int) : stampNs (nowUnixSec now) (nowUnixNsec now) = now := by
  unfold stampNs nowUnixSec nowUnixNsec
  exact add_sub_cancel _ _

/-- Fields from two reads give a time between them exactly when the second read
is not at an earlier part of its second than the first. -/
theorem stampNs_between_iff {first second : Int} (hfirst : 0 ≤ first) (hle : first ≤ second) :
    (first ≤ stampNs (nowUnixSec first) (nowUnixNsec second) ∧
      stampNs (nowUnixSec first) (nowUnixNsec second) ≤ second) ↔
      first % 1000000000 ≤ second % 1000000000 := by
  unfold stampNs nowUnixSec nowUnixNsec
  rw [Int.tdiv_eq_ediv_of_nonneg hfirst, Int.tdiv_eq_ediv_of_nonneg (hfirst.trans hle)]
  omega

/-! ## Bundles and frames -/

structure DataBundle where
  type : DataType
  partId : Bytes
  data : Bytes := []
  tsSec : Int := 0
  tsNsec : Int := 0
  source : Bytes := []
  format : Bytes := []
  isEncoded : Bool := false
  channels : Int := 0
  code : Bytes := []
  rightChannels : Int := 0
  rightCode : Bytes := []
  width : Int := 0
  height : Int := 0
  deriving DecidableEq

structure ChannelFrame where
  group : DataGroup
  tsSec : Int := 0
  tsNsec : Int := 0
  pairId : Nat := 0
  frameIndex : Nat := 0
  pubId : Bytes := []
  bundles : List DataBundle := []
  deriving DecidableEq

/-- The time that a frame carries. -/
def ChannelFrame.stamp (frame : ChannelFrame) : Int := stampNs frame.tsSec frame.tsNsec

end SimVision
