import SimVision.Common.Types

/-! # The simulated data source

Stereo pairs are handed out round robin from memory. The other payloads are
generated: the values of their floating-point formulas are a parameter, the
buffers they fill are not.
-/

namespace SimVision

open Foundation

structure ImageInfo where
  format : Bytes := lit "raw_u8"
  isEncoded : Bool := false
  channels : Int := 0
  code : Bytes := []
  width : Int := 0
  height : Int := 0
  deriving DecidableEq

structure StereoPair where
  left : Bytes := []
  right : Bytes := []
  leftInfo : ImageInfo := {}
  rightInfo : ImageInfo := {}
  pairIndex : Nat := 0
  deriving DecidableEq

structure SimDataSource where
  pairs : List StereoPair := []
  cursor : Nat := 0
  width : Int := 1280
  height : Int := 720
  channels : Int := 4

/-- `SimDataSource::version_tag`. -/
def versionTag : Bytes := lit "SimVisionSDK/1.0"

/-- The values that the generators compute in floating point: the bits of each
`float` sample, and the texts that are dumped for the sensors. -/
structure Samples where
  depth : (width height : Int) → (frameIndex x y : Nat) → UInt32
  disparity : (frameIndex x y : Nat) → UInt32
  confidence : (frameIndex x y : Nat) → UInt32
  point : (points frameIndex i coordinate : Nat) → UInt32
  imu : (frameIndex : Nat) → Bytes
  temperature : (frameIndex : Nat) → Bytes
  magnetometer : (frameIndex : Nat) → Bytes
  barometer : (frameIndex : Nat) → Bytes

/-- The four bytes of a 32-bit value, least significant first. -/
def leBytes (v : UInt32) : Bytes :=
  [v.toUInt8, (v >>> 8).toUInt8, (v >>> 16).toUInt8, (v >>> 24).toUInt8]

theorem leBytes_value {n : Nat} (hn : n < 2 ^ 32) :
    ∃ b₀ b₁ b₂ b₃, leBytes (UInt32.ofNat n) = [b₀, b₁, b₂, b₃] ∧
      b₀.toNat + 2 ^ 8 * b₁.toNat + 2 ^ 16 * b₂.toNat + 2 ^ 24 * b₃.toNat = n := by
  refine ⟨_, _, _, _, rfl, ?_⟩
  simp only [UInt32.toNat_toUInt8, UInt32.toNat_shiftRight, UInt32.toNat_ofNat', UInt32.reduceToNat,
    Nat.shiftRight_eq_div_pow, Nat.reduceMod, Nat.reducePow]
  omega

/-- Conversion of an `int` to `size_t`. -/
def sizeOfInt (i : Int) : Nat := (i % wordSize).toNat

namespace SimDataSource

/-- `next_stereo`; without pairs it leaves the cursor alone. -/
def nextStereo (source : SimDataSource) : SimDataSource × Option StereoPair :=
  if source.pairs = [] then (source, none)
  else
    ({ source with cursor := wordSucc source.cursor },
      source.pairs[source.cursor % source.pairs.length]?)

def pairCount (source : SimDataSource) : Nat := source.pairs.length

/-- A raster filled row by row. The reservation and the row buffer throw when
the sizes converted from the signed dimensions exceed what a vector may hold. -/
def generateRows (width height : Int) (sample : Nat → Nat → UInt32) : Except Bytes Bytes :=
  if 2 ^ 63 ≤ sizeOfInt width * sizeOfInt height * 4 % wordSize then .error (lit "vector::reserve")
  else if 2 ^ 61 ≤ sizeOfInt width then
    .error (lit "cannot create std::vector larger than max_size()")
  else
    .ok <| (List.range height.toNat).flatMap fun y =>
      (List.range width.toNat).flatMap fun x => leBytes (sample x y)

variable (samples : Samples)

def generateDepth (width height : Int) (frameIndex : Nat) : Except Bytes Bytes :=
  generateRows width height (samples.depth width height frameIndex)

def generateDisparity (width height : Int) (frameIndex : Nat) : Except Bytes Bytes :=
  generateRows width height (samples.disparity frameIndex)

def generateConfidence (width height : Int) (frameIndex : Nat) : Except Bytes Bytes :=
  generateRows width height (samples.confidence frameIndex)

/-- The number of points that a depth mode stands for. -/
def pointCount (depthMode : Bytes) : Nat :=
  if depthMode = lit "NONE" then 0
  else if depthMode = lit "PERFORMANCE" then 5000
  else if depthMode = lit "NEURAL_LIGHT" then 10000
  else if depthMode = lit "QUALITY" then 20000
  else if depthMode = lit "NEURAL" then 40000
  else if depthMode = lit "ULTRA" then 60000
  else if depthMode = lit "NEURAL_PLUS" then 80000
  else 40000

def generatePointcloud (depthMode : Bytes) (frameIndex : Nat) : Bytes :=
  (List.range (pointCount depthMode)).flatMap fun i =>
    (List.range 4).flatMap fun k => leBytes (samples.point (pointCount depthMode) frameIndex i k)

def generateImu (frameIndex : Nat) : Bytes := samples.imu frameIndex

def generateTemperature (frameIndex : Nat) : Bytes := samples.temperature frameIndex

def generateMagnetometer (frameIndex : Nat) : Bytes := samples.magnetometer frameIndex

def generateBarometer (frameIndex : Nat) : Bytes := samples.barometer frameIndex

end SimDataSource

end SimVision
