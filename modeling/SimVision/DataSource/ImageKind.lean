import SimVision.DataSource.StereoLoading

/-! # Kinds of image

`probe_image` first tells from the bytes what kind of file it has and what that file
says of itself. The configured defaults only fill in what the kind leaves open.
-/

namespace SimVision

open Foundation

/-! ## What the prober recognises -/

/-- What `probe_image` recognises, with what it reads from the bytes. -/
inductive ImageKind where
  | simRaw (width height : Int)
  | jpeg (width height components : Nat)
  | jpegUnsized
  | png (width height : Int) (colorType : UInt8)
  | tiff
  | raw
  deriving DecidableEq

def kindOf (buf : Bytes) : ImageKind :=
  if 24 ≤ buf.length ∧ buf.take 4 = lit "SIMR" then
    .simRaw (intOfWord (le32 buf 16)) (intOfWord (le32 buf 20))
  else if 4 ≤ buf.length ∧ buf.take 2 = [0xFF, 0xD8] then
    match sofScan buf 2 with
    | some i => .jpeg (be16 buf (i + 7)) (be16 buf (i + 5)) (byteAt buf (i + 9)).toNat
    | none => .jpegUnsized
  else if 24 ≤ buf.length ∧ buf.take 8 = kPngSig then
    .png (intOfWord (be32 buf 16)) (intOfWord (be32 buf 20))
      (if 25 < buf.length then byteAt buf 25 else 6)
  else if 4 ≤ buf.length ∧ (buf.take 2 = lit "II" ∨ buf.take 2 = lit "MM") then .tiff
  else .raw

/-- The description of an image of a kind under configured defaults. -/
def ImageKind.info (defW defH defCh : Int) : ImageKind → ImageInfo
  | .simRaw w h => ⟨lit "raw_u8", false, 3, lit "RGB", w, h⟩
  | .jpeg w h n => ⟨lit "JPG", true, n, if n = 1 then lit "Mono" else lit "RGB", w, h⟩
  | .jpegUnsized =>
      ⟨lit "JPG", true, defaultChannels defCh 3,
        if defaultChannels defCh 3 = 1 then lit "Mono" else lit "RGB", defW, defH⟩
  | .png w h t => ⟨lit "PNG", true, (pngLayout t).1, (pngLayout t).2, w, h⟩
  | .tiff => ⟨lit "TIFF", true, defaultChannels defCh 3, lit "RGB", defW, defH⟩
  | .raw =>
      ⟨lit "raw_u8", false, defaultChannels defCh 4,
        if defaultChannels defCh 4 = 4 then lit "BGRA" else lit "RGB", defW, defH⟩

theorem probeImage_eq (buf : Bytes) (defW defH defCh : Int) :
    probeImage buf defW defH defCh = (kindOf buf).info defW defH defCh := by
  unfold probeImage kindOf
  split
  next => rfl
  next =>
    split
    next => cases sofScan buf 2 <;> rfl
    next =>
      split
      next => rfl
      next => split <;> rfl

/-- The numbers of a JPEG come from two bytes each. -/
theorem kindOf_jpeg_lt {buf : Bytes} {w h n : Nat} (hkind : kindOf buf = .jpeg w h n) :
    w ≤ 65535 ∧ h ≤ 65535 ∧ n ≤ 255 := by
  have hbe : ∀ i, be16 buf i ≤ 65535 := by
    intro i
    have hhigh := (byteAt buf i).toNat_lt
    have hlow := (byteAt buf (i + 1)).toNat_lt
    unfold be16
    omega
  unfold kindOf at hkind
  split at hkind
  next => contradiction
  next =>
    split at hkind
    next =>
      split at hkind
      next =>
        simp only [ImageKind.jpeg.injEq] at hkind
        obtain ⟨rfl, rfl, rfl⟩ := hkind
        exact ⟨hbe _, hbe _, Nat.le_of_lt_succ (UInt8.toNat_lt _)⟩
      next => contradiction
    next =>
      split at hkind
      next => contradiction
      next => split at hkind <;> contradiction

/-! ## Images of each kind -/

/-- A JPEG of a start marker and a frame header. -/
def jpegFile (w h n : Nat) : Bytes :=
  [0xFF, 0xD8, 0xFF, 0xC0, 0, 11, 8, UInt8.ofNat (h / 256), UInt8.ofNat h, UInt8.ofNat (w / 256),
    UInt8.ofNat w, UInt8.ofNat n]

theorem kindOf_jpegFile {w h n : Nat} (hw : w ≤ 65535) (hh : h ≤ 65535) (hn : n ≤ 255) :
    kindOf (jpegFile w h n) = .jpeg w h n := by
  have hscan : sofScan (jpegFile w h n) 2 = some 2 := by
    unfold sofScan
    simp [jpegFile, byteAt]
  have hwidth : be16 (jpegFile w h n) 9 = w := by
    simp only [be16, byteAt, jpegFile, List.getD_cons_succ, List.getD_cons_zero, UInt8.toNat_ofNat']
    omega
  have hheight : be16 (jpegFile w h n) 7 = h := by
    simp only [be16, byteAt, jpegFile, List.getD_cons_succ, List.getD_cons_zero, UInt8.toNat_ofNat']
    omega
  have hcount : (byteAt (jpegFile w h n) 11).toNat = n := by
    simp only [byteAt, jpegFile, List.getD_cons_succ, List.getD_cons_zero, UInt8.toNat_ofNat']
    omega
  have hshort : ¬ (24 ≤ (jpegFile w h n).length ∧ (jpegFile w h n).take 4 = lit "SIMR") := by
    simp [jpegFile]
  have hstart : 4 ≤ (jpegFile w h n).length ∧ (jpegFile w h n).take 2 = [0xFF, 0xD8] := by
    simp [jpegFile]
  unfold kindOf
  rw [if_neg hshort, if_pos hstart, hscan]
  dsimp only
  rw [hwidth, hheight, hcount]

/-- A JPEG without a frame header. -/
def unsizedJpegFile : Bytes := [0xFF, 0xD8, 0, 0]

theorem kindOf_unsizedJpegFile : kindOf unsizedJpegFile = .jpegUnsized := by
  have hscan : sofScan unsizedJpegFile 2 = none := by
    unfold sofScan
    rw [if_neg (by decide)]
  unfold kindOf
  rw [if_neg (by decide), if_pos (by decide), hscan]

/-- A PNG header of one row. -/
def pngFile (w colorType : UInt8) : Bytes :=
  kPngSig ++ [0, 0, 0, 13, 0x49, 0x48, 0x44, 0x52, 0, 0, 0, w, 0, 0, 0, 1, 8, colorType]

theorem kindOf_pngFile (w colorType : UInt8) :
    kindOf (pngFile w colorType) = .png w.toNat 1 colorType := by
  have hlength : (pngFile w colorType).length = 26 := by simp [pngFile, kPngSig]
  have hsim : (pngFile w colorType).take 4 ≠ lit "SIMR" := by
    have hmagic : lit "SIMR" = [0x53, 0x49, 0x4D, 0x52] := by decide
    simp [pngFile, kPngSig, hmagic]
  have hjpeg : (pngFile w colorType).take 2 ≠ [0xFF, 0xD8] := by simp [pngFile, kPngSig]
  have hpng : (pngFile w colorType).take 8 = kPngSig := by simp [pngFile, kPngSig]
  have hwidth : be32 (pngFile w colorType) 16 = w.toNat := by
    simp [be32, be16, byteAt, pngFile, kPngSig]
  have hheight : be32 (pngFile w colorType) 20 = 1 := by simp [be32, be16, byteAt, pngFile, kPngSig]
  have hcolor : byteAt (pngFile w colorType) 25 = colorType := by simp [byteAt, pngFile, kPngSig]
  have hsmall := w.toNat_lt
  unfold kindOf
  rw [if_neg fun h => hsim h.2, if_neg fun h => hjpeg h.2, if_pos ⟨by omega, hpng⟩, hwidth, hheight,
    if_pos (by omega), hcolor, intOfWord_of_lt (by omega), intOfWord_of_lt (by omega)]
  rfl

def tiffFile : Bytes := lit "II" ++ [0x2A, 0]

theorem kindOf_tiffFile : kindOf tiffFile = .tiff := by decide

theorem kindOf_empty : kindOf [] = .raw := by decide

end SimVision
