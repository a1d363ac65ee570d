import Mathlib.Data.List.GetD
import SimVision.DataSource.StereoLoading

/-! # The scan for the frame header of a JPEG

The scan of `probe_image` moves from one marker segment to the next by their
announced lengths. It stays on segment boundaries whatever the payloads are, so
the first SOF0 or SOF2 marker that it sees is a segment of its own.
-/

namespace SimVision

open Foundation

/-! ## Offsets behind a prefix -/

section Offsets

variable (first second : Bytes) (i : Nat)

theorem byteAt_append : byteAt (first ++ second) (first.length + i) = byteAt second i := by
  unfold byteAt
  rw [List.getD_append_right _ _ _ _ (Nat.le_add_right _ _), Nat.add_sub_cancel_left]

theorem be16_append : be16 (first ++ second) (first.length + i) = be16 second i := by
  unfold be16
  rw [Nat.add_assoc, byteAt_append, byteAt_append]

end Offsets

/-- The two bytes of a 16-bit value, most significant first. -/
def bigEndian (n : Nat) : Bytes := [UInt8.ofNat (n / 2 ^ 8), UInt8.ofNat n]

theorem be16_bigEndian {n : Nat} (hn : n < 2 ^ 16) (rest : Bytes) :
    be16 (bigEndian n ++ rest) 0 = n := by
  simp only [be16, byteAt, bigEndian, List.cons_append, List.getD_cons_succ, List.getD_cons_zero,
    UInt8.toNat_ofNat']
  omega

/-! ## Segments -/

/-- A marker segment that the scan passes over. -/
structure MarkerSegment where
  marker : UInt8
  payload : Bytes
  skipped : marker ≠ 0xC0 ∧ marker ≠ 0xC2 ∧ marker ≠ 0xFF
  length_lt : payload.length + 2 < 2 ^ 16

/-- The segment as it stands in the file. Its length counts its own two bytes. -/
def MarkerSegment.bytes (segment : MarkerSegment) : Bytes :=
  [0xFF, segment.marker] ++ (bigEndian (segment.payload.length + 2) ++ segment.payload)

/-- A SOF0 or SOF2 segment up to its component count. -/
structure FrameSegment where
  marker : UInt8
  length : Nat
  precision : UInt8
  height : Nat
  width : Nat
  components : UInt8
  sof : marker = 0xC0 ∨ marker = 0xC2
  height_lt : height < 2 ^ 16
  width_lt : width < 2 ^ 16

def FrameSegment.bytes (frame : FrameSegment) : Bytes :=
  [0xFF, frame.marker] ++ (bigEndian frame.length ++ ([frame.precision] ++
    (bigEndian frame.height ++ (bigEndian frame.width ++ [frame.components]))))

/-- The scan goes on behind a segment. -/
theorem sofScan_skip (before : Bytes) (segment : MarkerSegment) (rest : Bytes) :
    sofScan (before ++ (segment.bytes ++ rest)) before.length =
      sofScan (before ++ (segment.bytes ++ rest)) (before.length + segment.bytes.length) := by
  have hlength : segment.bytes.length = segment.payload.length + 4 := by
    simp [MarkerSegment.bytes, bigEndian]
  have hstart : byteAt (before ++ (segment.bytes ++ rest)) before.length = 0xFF :=
    byteAt_append before _ 0
  have hmarker : byteAt (before ++ (segment.bytes ++ rest)) (before.length + 1) = segment.marker :=
    byteAt_append before _ 1
  have hsize : be16 (before ++ (segment.bytes ++ rest)) (before.length + 2) =
      segment.payload.length + 2 := by
    rw [be16_append]
    have hregroup : segment.bytes ++ rest = [0xFF, segment.marker] ++
        (bigEndian (segment.payload.length + 2) ++ (segment.payload ++ rest)) := by
      simp [MarkerSegment.bytes]
    rw [hregroup]
    exact (be16_append [0xFF, segment.marker] _ 0).trans (be16_bigEndian segment.length_lt _)
  obtain ⟨hsof0, hsof2, _⟩ := segment.skipped
  rw [sofScan, hstart, hmarker, hsize]
  rw [if_pos, if_neg (not_not_intro rfl), if_neg, hlength]
  · congr 1
    omega
  · rintro ⟨hsof | hsof, _⟩
    · exact hsof0 hsof
    · exact hsof2 hsof
  · simp only [List.length_append, hlength]
    omega

/-- The scan goes on behind any number of segments. -/
theorem sofScan_segments (before : Bytes) (segments : List MarkerSegment) (rest : Bytes) :
    sofScan (before ++ (segments.flatMap MarkerSegment.bytes ++ rest)) before.length =
      sofScan (before ++ (segments.flatMap MarkerSegment.bytes ++ rest))
        (before.length + (segments.flatMap MarkerSegment.bytes).length) := by
  induction segments generalizing before with
  | nil => rfl
  | cons segment segments ih =>
      rw [List.flatMap_cons, List.append_assoc, sofScan_skip]
      have hnext := ih (before ++ segment.bytes)
      rw [List.append_assoc, List.length_append] at hnext
      rw [hnext, List.length_append, Nat.add_assoc]

/-- The scan stops at a frame header. -/
theorem sofScan_frame (before : Bytes) (frame : FrameSegment) (rest : Bytes) :
    sofScan (before ++ (frame.bytes ++ rest)) before.length = some before.length := by
  have hlength : frame.bytes.length = 10 := by simp [FrameSegment.bytes, bigEndian]
  have hstart : byteAt (before ++ (frame.bytes ++ rest)) before.length = 0xFF :=
    byteAt_append before _ 0
  have hmarker : byteAt (before ++ (frame.bytes ++ rest)) (before.length + 1) = frame.marker :=
    byteAt_append before _ 1
  have hroom : before.length + 9 < (before ++ (frame.bytes ++ rest)).length := by
    simp only [List.length_append, hlength]
    omega
  rw [sofScan, hstart, hmarker, if_pos (by omega), if_neg (not_not_intro rfl),
    if_pos ⟨frame.sof, hroom⟩]

/-! ## The image information -/

/-- What a JPEG with a frame header is probed to be. -/
def FrameSegment.info (frame : FrameSegment) : ImageInfo where
  format := lit "JPG"
  isEncoded := true
  height := frame.height
  width := frame.width
  channels := frame.components.toNat
  code := if frame.components = 1 then lit "Mono" else lit "RGB"

/-- A JPEG of any marker segments, then a frame header, then anything. -/
def jpegBytes (segments : List MarkerSegment) (frame : FrameSegment) (rest : Bytes) : Bytes :=
  [0xFF, 0xD8] ++ (segments.flatMap MarkerSegment.bytes ++ (frame.bytes ++ rest))

/-- What the frame header says is read at its offsets. -/
theorem frame_fields (before : Bytes) (frame : FrameSegment) (rest : Bytes) :
    be16 (before ++ (frame.bytes ++ rest)) (before.length + 5) = frame.height ∧
      be16 (before ++ (frame.bytes ++ rest)) (before.length + 7) = frame.width ∧
      byteAt (before ++ (frame.bytes ++ rest)) (before.length + 9) = frame.components := by
  rw [be16_append, be16_append, byteAt_append]
  refine ⟨?_, ?_, rfl⟩
  · have hregroup : frame.bytes ++ rest = ([0xFF, frame.marker] ++ bigEndian frame.length ++
        [frame.precision]) ++ (bigEndian frame.height ++
          (bigEndian frame.width ++ ([frame.components] ++ rest))) := by
      simp [FrameSegment.bytes]
    rw [hregroup]
    exact (be16_append _ _ 0).trans (be16_bigEndian frame.height_lt _)
  · have hregroup : frame.bytes ++ rest = ([0xFF, frame.marker] ++ bigEndian frame.length ++
        [frame.precision] ++ bigEndian frame.height) ++
          (bigEndian frame.width ++ ([frame.components] ++ rest)) := by
      simp [FrameSegment.bytes]
    rw [hregroup]
    exact (be16_append _ _ 0).trans (be16_bigEndian frame.width_lt _)

/-- A file whose scan stops at a frame header is described by it. -/
theorem probeImage_of_frame {before : Bytes} (frame : FrameSegment) (rest : Bytes)
    (defW defH defCh : Int) (hsoi : (before ++ (frame.bytes ++ rest)).take 2 = [0xFF, 0xD8])
    (hscan : sofScan (before ++ (frame.bytes ++ rest)) 2 = some before.length) :
    probeImage (before ++ (frame.bytes ++ rest)) defW defH defCh = frame.info := by
  have hlong : 4 ≤ (before ++ (frame.bytes ++ rest)).length := by
    simp only [FrameSegment.bytes, bigEndian, List.length_append, List.length_cons]
    omega
  have hsim : (before ++ (frame.bytes ++ rest)).take 4 ≠ lit "SIMR" := by
    intro hmagic
    have hfirst := congrArg (List.take 2) hmagic
    rw [List.take_take, show min 2 4 = 2 from rfl, hsoi] at hfirst
    exact absurd hfirst (by decide)
  have hmono : frame.components.toNat = 1 ↔ frame.components = 1 := by
    rw [← UInt8.toNat_inj]
    rfl
  obtain ⟨hheight, hwidth, hcount⟩ := frame_fields before frame rest
  rw [probeImage, if_neg fun h => hsim h.2, if_pos ⟨hlong, hsoi⟩, hscan]
  dsimp only
  rw [hheight, hwidth, hcount]
  simp only [FrameSegment.info, hmono]

theorem jpegBytes_eq (segments : List MarkerSegment) (frame : FrameSegment) (rest : Bytes) :
    jpegBytes segments frame rest =
      ([0xFF, 0xD8] ++ segments.flatMap MarkerSegment.bytes) ++ (frame.bytes ++ rest) :=
  (List.append_assoc _ _ _).symm

/-- The scan of a JPEG stops at its frame header. -/
theorem sofScan_jpegBytes (segments : List MarkerSegment) (frame : FrameSegment) (rest : Bytes) :
    sofScan (jpegBytes segments frame rest) 2 =
      some ([0xFF, 0xD8] ++ segments.flatMap MarkerSegment.bytes).length := by
  refine (sofScan_segments [0xFF, 0xD8] segments (frame.bytes ++ rest)).trans ?_
  rw [← List.length_append, ← List.append_assoc]
  exact sofScan_frame _ frame rest

/-- A JPEG is described by its own frame header, whatever its other segments
contain and whatever the defaults are. -/
theorem probeImage_jpeg (segments : List MarkerSegment) (frame : FrameSegment) (rest : Bytes)
    (defW defH defCh : Int) :
    probeImage (jpegBytes segments frame rest) defW defH defCh = frame.info := by
  have hscan := sofScan_jpegBytes segments frame rest
  rw [jpegBytes_eq] at hscan ⊢
  exact probeImage_of_frame frame rest defW defH defCh rfl hscan

end SimVision
