import SimVision.DataSource.JpegScan

/-! # Generated test images

The script `gen_test_images.py` writes files for the test format that `probe_image`
recognises by its magic. The size in their headers is read back as it was written;
the pixels behind them are one byte each, while three channels are reported.
-/

namespace SimVision

open Foundation

/-! ## The writer -/

/-- `bytes.ljust`. -/
def ljust (s : Bytes) (width : Nat) (fill : UInt8) : Bytes :=
  s ++ List.replicate (width - s.length) fill

/-- One row of pixels. -/
def testRow (width : Nat) : Bytes := (List.range width).map fun x => UInt8.ofNat (x &&& 0xFF)

/-- `write_ppm_or_raw`: the file that it leaves, with `none` for a size that
`struct.pack` refuses. -/
def writePpmOrRaw (width height : Int) : Option Bytes :=
  if (0 ≤ width ∧ width < 2 ^ 32) ∧ (0 ≤ height ∧ height < 2 ^ 32) then
    some (ljust (lit "SIMRAW1\n") 16 0 ++
      (leBytes (UInt32.ofNat width.toNat) ++ (leBytes (UInt32.ofNat height.toNat) ++
        (List.replicate height.toNat (testRow width.toNat)).flatten)))
  else none

/-! ## The header read back -/

theorem le32_append (first second : Bytes) (i : Nat) :
    le32 (first ++ second) (first.length + i) = le32 second i := by
  unfold le32
  simp only [Nat.add_assoc, byteAt_append]

theorem le32_leBytes {n : Nat} (hn : n < 2 ^ 32) (rest : Bytes) :
    le32 (leBytes (UInt32.ofNat n) ++ rest) 0 = n := by
  obtain ⟨b₀, b₁, b₂, b₃, hbytes, hvalue⟩ := leBytes_value hn
  rw [hbytes]
  simp only [le32, byteAt, List.cons_append, List.getD_cons_succ, List.getD_cons_zero]
  omega

theorem leBytes_length (v : UInt32) : (leBytes v).length = 4 := rfl

theorem pixels_length (width height : Nat) :
    (List.replicate height (testRow width)).flatten.length = height * width := by
  rw [List.length_flatten, List.map_replicate, List.sum_replicate_nat, testRow, List.length_map,
    List.length_range]

/-- Every file that is written is recognised, with the size that was asked for. -/
theorem probeImage_written {width height : Nat} (hwidth : width < 2 ^ 31)
    (hheight : height < 2 ^ 31) (defW defH defCh : Int) {file : Bytes}
    (hfile : writePpmOrRaw width height = some file) :
    file.length = 24 + width * height ∧ probeImage file defW defH defCh =
      { format := lit "raw_u8"
        isEncoded := false
        width := width
        height := height
        channels := 3
        code := lit "RGB" } := by
  have hmagic : (ljust (lit "SIMRAW1\n") 16 0).length = 16 := by decide
  rw [writePpmOrRaw, if_pos (by omega), Int.toNat_natCast, Int.toNat_natCast] at hfile
  obtain rfl := Option.some.inj hfile
  refine ⟨?_, ?_⟩
  · simp only [List.length_append, hmagic, leBytes_length, pixels_length, Nat.mul_comm height]
    omega
  · have hstart : ∀ rest : Bytes, (ljust (lit "SIMRAW1\n") 16 0 ++ rest).take 4 = lit "SIMR" := by
      intro rest
      rw [List.take_append_of_le_length (by omega)]
      decide
    have hlong : ∀ rest : Bytes, 24 ≤ (ljust (lit "SIMRAW1\n") 16 0 ++
        (leBytes (UInt32.ofNat width) ++ (leBytes (UInt32.ofNat height) ++ rest))).length := by
      intro rest
      simp only [List.length_append, hmagic, leBytes_length]
      omega
    have hreadWidth : ∀ rest : Bytes, le32 (ljust (lit "SIMRAW1\n") 16 0 ++
        (leBytes (UInt32.ofNat width) ++ rest)) 16 = width := by
      intro rest
      refine (le32_append (ljust (lit "SIMRAW1\n") 16 0) _ 0).trans ?_
      exact le32_leBytes (by omega) rest
    have hreadHeight : ∀ rest : Bytes, le32 (ljust (lit "SIMRAW1\n") 16 0 ++
        (leBytes (UInt32.ofNat width) ++ (leBytes (UInt32.ofNat height) ++ rest))) 20 = height := by
      intro rest
      rw [← List.append_assoc]
      have hskip := le32_append (ljust (lit "SIMRAW1\n") 16 0 ++ leBytes (UInt32.ofNat width))
      refine (hskip _ 0).trans ?_
      exact le32_leBytes (by omega) rest
    rw [probeImage, if_pos ⟨hlong _, hstart _⟩, hreadWidth, hreadHeight, intOfWord_of_lt hwidth,
      intOfWord_of_lt hheight]

/-! ## The pixels -/

/-- The file is probed to be raw pixels of the given size, and behind its header
it has one byte for each channel of each of them. -/
structure DescribesFile (info : ImageInfo) (file : Bytes) (width height : Int) : Prop where
  format : info.format = lit "raw_u8"
  isEncoded : info.isEncoded = false
  width_eq : info.width = width
  height_eq : info.height = height
  header : 24 ≤ file.length
  pixels : ((file.length - 24 : Nat) : Int) = width * height * info.channels

/-- For every size below `2 ^ 31`, a file is written and described as what it is if
and only if it has no pixels. -/
theorem writtenFile_described_iff {width height : Int} (hwidth : width < 2 ^ 31)
    (hheight : height < 2 ^ 31) (defW defH defCh : Int) :
    (∃ file, writePpmOrRaw width height = some file ∧
        DescribesFile (probeImage file defW defH defCh) file width height) ↔
      (0 ≤ width ∧ 0 ≤ height) ∧ (width = 0 ∨ height = 0) := by
  constructor
  · rintro ⟨file, hfile, hdescribes⟩
    have hnonneg : 0 ≤ width ∧ 0 ≤ height := by
      rw [writePpmOrRaw] at hfile
      split at hfile
      next hsize => exact ⟨hsize.1.1, hsize.2.1⟩
      next => contradiction
    lift width to Nat using hnonneg.1
    lift height to Nat using hnonneg.2
    obtain ⟨hlength, hinfo⟩ :=
      probeImage_written (by omega) (by omega) defW defH defCh hfile
    have hpixels := hdescribes.pixels
    rw [hinfo, hlength, Nat.add_sub_cancel_left, Int.natCast_mul] at hpixels
    dsimp only at hpixels
    refine ⟨hnonneg, mul_eq_zero.mp ?_⟩
    omega
  · rintro ⟨⟨hwidthNonneg, hheightNonneg⟩, hempty⟩
    lift width to Nat using hwidthNonneg
    lift height to Nat using hheightNonneg
    obtain ⟨file, hfile⟩ : ∃ file, writePpmOrRaw width height = some file := by
      rw [writePpmOrRaw, if_pos (by omega)]
      exact ⟨_, rfl⟩
    obtain ⟨hlength, hinfo⟩ :=
      probeImage_written (by omega) (by omega) defW defH defCh hfile
    refine ⟨file, hfile, ?_⟩
    rw [hinfo]
    constructor
    case format => rfl
    case isEncoded => rfl
    case width_eq => rfl
    case height_eq => rfl
    case header => omega
    case pixels =>
      rw [hlength, Nat.add_sub_cancel_left, Int.natCast_mul, mul_eq_zero.mpr hempty, zero_mul]

/-- An image without rows. -/
theorem emptyFile_described : ∃ file, writePpmOrRaw 1280 0 = some file ∧
    DescribesFile (probeImage file 0 0 0) file 1280 0 :=
  (writtenFile_described_iff (by decide) (by decide) 0 0 0).mpr ⟨by decide, .inr rfl⟩

/-- One pixel is written as one byte and described as three. -/
theorem onePixel_undescribed :
    ¬ ∀ (width height : Int), 0 ≤ width → width < 2 ^ 31 → 0 ≤ height → height < 2 ^ 31 →
      ∀ defW defH defCh, ∃ file, writePpmOrRaw width height = some file ∧
        DescribesFile (probeImage file defW defH defCh) file width height := by
  intro hclaim
  obtain ⟨file, hfile, hdescribes⟩ :=
    hclaim 1 1 (by decide) (by decide) (by decide) (by decide) 1280 720 4
  obtain ⟨hlength, hinfo⟩ := @probeImage_written 1 1 (by decide) (by decide) 1280 720 4 _ hfile
  have hpixels := hdescribes.pixels
  rw [hinfo, hlength] at hpixels
  exact absurd hpixels (by decide)

end SimVision
