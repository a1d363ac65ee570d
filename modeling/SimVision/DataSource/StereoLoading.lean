import SimVision.DataSource.SimDataSource

/-! # Loading stereo images

A directory of files becomes a list of stereo pairs: the name of a file says its
side and its index, its contents say what image it holds. A side that is missing
mirrors the other.
-/

namespace SimVision

open Foundation

/-! ## Probing an image -/

/-- The byte at an offset, for offsets within the buffer. -/
def byteAt (buf : Bytes) (i : Nat) : UInt8 := buf.getD i 0

def be16 (buf : Bytes) (i : Nat) : Nat := (byteAt buf i).toNat * 2 ^ 8 + (byteAt buf (i + 1)).toNat

def be32 (buf : Bytes) (i : Nat) : Nat := be16 buf i * 2 ^ 16 + be16 buf (i + 2)

def le32 (buf : Bytes) (i : Nat) : Nat :=
  (byteAt buf i).toNat + (byteAt buf (i + 1)).toNat * 2 ^ 8 + (byteAt buf (i + 2)).toNat * 2 ^ 16 +
    (byteAt buf (i + 3)).toNat * 2 ^ 24

/-- `static_cast<int>` of a 32-bit unsigned value. -/
def intOfWord (n : Nat) : Int := (n : Int).bmod (2 ^ 32)

theorem intOfWord_of_lt {n : Nat} (hn : n < 2 ^ 31) : intOfWord n = n := by
  unfold intOfWord
  exact Int.bmod_eq_of_le (by omega) (by omega)

/-- The loop over the JPEG markers from an offset on: where it finds SOF0 or SOF2. -/
def sofScan (buf : Bytes) (i : Nat) : Option Nat :=
  if i + 3 < buf.length then
    if byteAt buf i ≠ 0xFF then sofScan buf (i + 1)
    else if (byteAt buf (i + 1) = 0xC0 ∨ byteAt buf (i + 1) = 0xC2) ∧ i + 9 < buf.length then some i
    -- skip the segment of another marker, or of a SOF that is cut off
    else sofScan buf (i + 2 + be16 buf (i + 2))
  else none
termination_by buf.length - i

/-- The channel count that the configuration gives, or another default. -/
def defaultChannels (defCh other : Int) : Int := if 0 < defCh then defCh else other

def kPngSig : Bytes := [0x89, 0x50, 0x4E, 0x47, 0x0D, 0x0A, 0x1A, 0x0A]

/-- The channels and the layout of a PNG colour type. -/
def pngLayout (colorType : UInt8) : Int × Bytes :=
  if colorType = 0 then (1, lit "Mono")
  else if colorType = 2 then (3, lit "RGB")
  else if colorType = 3 then (1, lit "Mono")
  else if colorType = 4 then (2, lit "GRAYA")
  else (4, lit "RGBA")

/-- `probe_image`. The extension that it is given as well is not read. -/
def probeImage (buf : Bytes) (defW defH defCh : Int) : ImageInfo :=
  if 24 ≤ buf.length ∧ buf.take 4 = lit "SIMR" then
    { format := lit "raw_u8"
      isEncoded := false
      width := intOfWord (le32 buf 16)
      height := intOfWord (le32 buf 20)
      channels := 3
      code := lit "RGB" }
  else if 4 ≤ buf.length ∧ buf.take 2 = [0xFF, 0xD8] then
    match sofScan buf 2 with
    | some i =>
        { format := lit "JPG"
          isEncoded := true
          height := be16 buf (i + 5)
          width := be16 buf (i + 7)
          channels := (byteAt buf (i + 9)).toNat
          code := if (byteAt buf (i + 9)).toNat = 1 then lit "Mono" else lit "RGB" }
    | none =>
        { format := lit "JPG"
          isEncoded := true
          channels := defaultChannels defCh 3
          code := if defaultChannels defCh 3 = 1 then lit "Mono" else lit "RGB"
          width := defW
          height := defH }
  else if 24 ≤ buf.length ∧ buf.take 8 = kPngSig then
    let colorType := if 25 < buf.length then byteAt buf 25 else 6
    { format := lit "PNG"
      isEncoded := true
      width := intOfWord (be32 buf 16)
      height := intOfWord (be32 buf 20)
      channels := (pngLayout colorType).1
      code := (pngLayout colorType).2 }
  else if 4 ≤ buf.length ∧ (buf.take 2 = lit "II" ∨ buf.take 2 = lit "MM") then
    { format := lit "TIFF"
      isEncoded := true
      channels := defaultChannels defCh 3
      code := lit "RGB"
      width := defW
      height := defH }
  else
    { format := lit "raw_u8"
      isEncoded := false
      channels := defaultChannels defCh 4
      code := if defaultChannels defCh 4 = 4 then lit "BGRA" else lit "RGB"
      width := defW
      height := defH }

/-! ## The directory -/

/-- An entry of the directory, with `none` for contents that cannot be read. -/
structure DirEntry where
  name : Bytes
  isRegular : Bool := true
  content : Option Bytes

/-- What `read_file` leaves in an empty buffer. -/
def readFile (entry : DirEntry) : Bytes := entry.content.getD []

/-- `find_last_of` a single character. -/
def findLast (c : UInt8) (s : Bytes) : Option Nat :=
  (s.reverse.findIdx? fun d => d = c).map fun k => s.length - 1 - k

def extOf (fn : Bytes) : Bytes :=
  match findLast 46 fn with
  | none => []
  | some pos => toLower (fn.drop (pos + 1))

/-- `stem` of a path: a dot in front is not the start of an extension. -/
def stemOf (fn : Bytes) : Bytes :=
  match findLast 46 fn with
  | none => fn
  | some 0 => fn
  | some pos => fn.take pos

/-- The index and the lower-case initial that the name of an image file gives. -/
def parseName (fn : Bytes) : Option (Nat × UInt8) :=
  if extOf fn ∉ [lit "jpg", lit "jpeg", lit "png", lit "raw"] then none
  else
    match findLast 95 (stemOf fn) with
    | none => none
    | some us =>
        let camid := (stemOf fn).take us
        let idxs := (stemOf fn).drop (us + 1)
        if idxs = [] then none
        else (stoul idxs).map fun idx => (idx, (toLower camid).headD 32)

/-- The files of the two sides of an index. -/
structure Slot where
  left : Option DirEntry := none
  right : Option DirEntry := none

/-- `by_index[idx]`, assigned to through `f`; the map is kept in ascending order. -/
def updateSlot (idx : Nat) (f : Slot → Slot) : List (Nat × Slot) → List (Nat × Slot)
  | [] => [(idx, f {})]
  | (k, slot) :: rest =>
      if idx = k then (k, f slot) :: rest
      else if idx < k then (idx, f {}) :: (k, slot) :: rest
      else (k, slot) :: updateSlot idx f rest

/-- One iteration over the directory. -/
def addEntry (slots : List (Nat × Slot)) (entry : DirEntry) : List (Nat × Slot) :=
  if !entry.isRegular then slots
  else
    match parseName entry.name with
    | none => slots
    | some (idx, side) =>
        updateSlot idx (fun slot =>
          if side = 108 then { slot with left := some entry }
          else if side = 114 then { slot with right := some entry }
          else slot) slots

/-- A directory with one file for each side. -/
def twoFiles (left right : Bytes) : List DirEntry :=
  [{ name := lit "L_001.raw", content := some left },
    { name := lit "R_001.raw", content := some right }]

namespace SimDataSource

/-- The pair of an index, unless both sides are missing. -/
def pairOf (source : SimDataSource) (idx : Nat) (slot : Slot) : Option StereoPair :=
  let probe := fun buf => probeImage buf source.width source.height source.channels
  match slot.left, slot.right with
  | none, none => none
  | some l, none =>
      some { left := readFile l, right := readFile l, leftInfo := probe (readFile l),
             rightInfo := probe (readFile l), pairIndex := idx }
  | none, some r =>
      some { left := readFile r, right := readFile r, leftInfo := probe (readFile r),
             rightInfo := probe (readFile r), pairIndex := idx }
  | some l, some r =>
      some { left := readFile l, right := readFile r, leftInfo := probe (readFile l),
             rightInfo := probe (readFile r), pairIndex := idx }

/-- The pairs that a directory is loaded into. -/
def loadedPairs (source : SimDataSource) (dir : List DirEntry) : List StereoPair :=
  ((dir.foldl addEntry []).filterMap fun slot => source.pairOf slot.1 slot.2).mergeSort
    fun a b => a.pairIndex ≤ b.pairIndex

/-- `load`, with `none` for a directory that does not exist. -/
def load (source : SimDataSource) (stereoDir : Bytes) (dir : Option (List DirEntry)) :
    SimDataSource × Except Bytes Unit :=
  if stereoDir = [] then (source, .error (lit "stereo_image_dir is empty"))
  else
    match dir with
    | none => (source, .ok ())
    | some entries => ({ source with pairs := source.loadedPairs entries }, .ok ())

theorem load_pairs (source : SimDataSource) {stereoDir : Bytes} (hdir : stereoDir ≠ [])
    (entries : List DirEntry) :
    (source.load stereoDir (some entries)).1.pairs = source.loadedPairs entries := by
  rw [load, if_neg hdir]

/-- Each image of a pair is described by what its bytes are probed to be. -/
theorem loadedPairs_info {source : SimDataSource} {dir : List DirEntry} {pair : StereoPair}
    (hpair : pair ∈ source.loadedPairs dir) :
    pair.leftInfo = probeImage pair.left source.width source.height source.channels ∧
      pair.rightInfo = probeImage pair.right source.width source.height source.channels := by
  rw [loadedPairs, List.mem_mergeSort, List.mem_filterMap] at hpair
  obtain ⟨⟨idx, left, right⟩, _, hbuilt⟩ := hpair
  cases left with
  | none =>
      cases right with
      | none => contradiction
      | some r =>
          obtain rfl := Option.some.inj hbuilt
          exact ⟨rfl, rfl⟩
  | some l =>
      cases right with
      | none =>
          obtain rfl := Option.some.inj hbuilt
          exact ⟨rfl, rfl⟩
      | some r =>
          obtain rfl := Option.some.inj hbuilt
          exact ⟨rfl, rfl⟩

/-- The pair that two files with these contents are loaded into. -/
def pairOfFiles (source : SimDataSource) (left right : Bytes) : StereoPair where
  left := left
  right := right
  leftInfo := probeImage left source.width source.height source.channels
  rightInfo := probeImage right source.width source.height source.channels
  pairIndex := 1

/-- Any two contents are loaded as a pair from a directory of two files. -/
theorem twoFiles_loaded (source : SimDataSource) (left right : Bytes) :
    source.loadedPairs (twoFiles left right) = [source.pairOfFiles left right] := by
  have hleft : parseName (lit "L_001.raw") = some (1, 108) := by decide
  have hright : parseName (lit "R_001.raw") = some (1, 114) := by decide
  have hslots : (twoFiles left right).foldl addEntry [] =
      [(1, ⟨some { name := lit "L_001.raw", content := some left },
        some { name := lit "R_001.raw", content := some right }⟩)] := by
    simp [twoFiles, addEntry, hleft, hright, updateSlot]
  rw [loadedPairs, hslots]
  exact List.mergeSort_singleton _

theorem pairOfFiles_loaded (source : SimDataSource) {stereoDir : Bytes} (hdir : stereoDir ≠ [])
    (left right : Bytes) : source.pairOfFiles left right ∈
      (source.load stereoDir (some (twoFiles left right))).1.pairs := by
  rw [source.load_pairs hdir, twoFiles_loaded]
  exact List.mem_singleton_self _

end SimDataSource

end SimVision
