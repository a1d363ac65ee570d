import SimVision.DataSource.JpegScan

/-! # Fill bytes in front of a marker

A JPEG may have any number of `FF` bytes in front of a marker. The scan takes the
first of them and the next for a marker, and the two bytes behind these for a
length. Within a run of fill bytes this is a jump over 65537 bytes. A run is passed
over by such jumps if its length is a multiple of that; behind the last jump over any
other run the scan is somewhere behind the marker, of which it sees nothing.
-/

namespace SimVision

open Foundation

/-! ## Runs of fill bytes -/

/-- Some fill bytes, and the bytes behind them. -/
def withFill (fill : Nat) (bytes : Bytes) : Bytes := List.replicate fill 0xFF ++ bytes

@[simp] theorem length_withFill (fill : Nat) (bytes : Bytes) :
    (withFill fill bytes).length = fill + bytes.length := by
  simp [withFill]

theorem withFill_add (first second : Nat) (bytes : Bytes) :
    withFill (first + second) bytes = withFill first (withFill second bytes) := by
  rw [withFill, List.replicate_add, List.append_assoc]
  rfl

theorem withFill_append (fill : Nat) (bytes rest : Bytes) :
    withFill fill bytes ++ rest = withFill fill (bytes ++ rest) :=
  List.append_assoc _ _ _

theorem byteAt_fill {fill j : Nat} (hj : j < fill) (bytes : Bytes) :
    byteAt (withFill fill bytes) j = 0xFF := by
  unfold byteAt withFill
  rw [List.getD_append _ _ _ _ (by simpa using hj), List.getD_eq_getElem _ _ (by simpa using hj),
    List.getElem_replicate]

theorem byteAt_behind_fill (fill j : Nat) (bytes : Bytes) :
    byteAt (withFill fill bytes) (fill + j) = byteAt bytes j := by
  have hbehind := byteAt_append (List.replicate fill 0xFF) bytes j
  rwa [List.length_replicate] at hbehind

/-- At `FF FF` the scan takes the two bytes that follow for a length. -/
theorem sofScan_jump {buf : Bytes} {i : Nat} (hroom : i + 3 < buf.length)
    (hfirst : byteAt buf i = 0xFF) (hsecond : byteAt buf (i + 1) = 0xFF) :
    sofScan buf i = sofScan buf (i + 2 + be16 buf (i + 2)) := by
  rw [sofScan, if_pos hroom, hfirst, hsecond, if_neg (not_not_intro rfl), if_neg]
  rintro ⟨hsof | hsof, _⟩ <;> exact absurd hsof (by decide)

/-- A run of four fill bytes or more is entered by a jump over 65537 bytes. -/
theorem sofScan_long (before : Bytes) {fill : Nat} (hfill : 4 ≤ fill) (rest : Bytes) :
    sofScan (before ++ withFill fill rest) before.length =
      sofScan (before ++ withFill fill rest) (before.length + 65537) := by
  have hbyte : ∀ j, j < 4 → byteAt (before ++ withFill fill rest) (before.length + j) = 0xFF := by
    intro j hj
    rw [byteAt_append, byteAt_fill (by omega)]
  have hlength : be16 (before ++ withFill fill rest) (before.length + 2) = 65535 := by
    unfold be16
    rw [hbyte 2 (by decide), hbyte 3 (by decide)]
    rfl
  have hroom : before.length + 3 < (before ++ withFill fill rest).length := by
    simp only [List.length_append, length_withFill]
    omega
  refine (sofScan_jump hroom (hbyte 0 (by decide)) (hbyte 1 (by decide))).trans (congrArg _ ?_)
  omega

/-- A run whose length is a multiple of 65537 is passed over. -/
theorem sofScan_fill (before : Bytes) (jumps : Nat) (rest : Bytes) :
    sofScan (before ++ withFill (65537 * jumps) rest) before.length =
      sofScan (before ++ withFill (65537 * jumps) rest) (before.length + 65537 * jumps) := by
  induction jumps generalizing before with
  | zero => rfl
  | succ jumps ih =>
      rw [sofScan_long before (by omega)]
      have hnext := ih (before ++ List.replicate 65537 0xFF)
      have hsplit : before ++ withFill (65537 * (jumps + 1)) rest =
          before ++ List.replicate 65537 0xFF ++ withFill (65537 * jumps) rest := by
        rw [show 65537 * (jumps + 1) = 65537 + 65537 * jumps by omega, withFill_add,
          List.append_assoc, withFill]
      rw [List.length_append, List.length_replicate] at hnext
      rw [hsplit, hnext]
      congr 1
      omega

/-- Without any `FF` from a position on there is no frame header. -/
theorem sofScan_none {buf : Bytes} {i : Nat} (hnone : ∀ j, i ≤ j → byteAt buf j ≠ 0xFF) :
    sofScan buf i = none := by
  induction hleft : buf.length - i generalizing i with
  | zero => rw [sofScan, if_neg (by omega)]
  | succ left ih =>
      rw [sofScan]
      split
      next =>
        rw [if_pos (hnone i le_rfl)]
        exact ih (fun j hj => hnone j (by omega)) (by omega)
      next => rfl

/-! ## Files with fill bytes -/

/-- The segments of a file, each with its number of fill bytes, and what follows. -/
def filledSegments (segments : List (Nat × MarkerSegment)) (fill : Nat) (frame : FrameSegment)
    (rest : Bytes) : Bytes :=
  segments.flatMap (fun s => withFill s.1 s.2.bytes) ++ (withFill fill frame.bytes ++ rest)

/-- `jpegBytes` with a number of fill bytes inserted in front of each marker. -/
def filledJpeg (segments : List (Nat × MarkerSegment)) (fill : Nat) (frame : FrameSegment)
    (rest : Bytes) : Bytes :=
  [0xFF, 0xD8] ++ filledSegments segments fill frame rest

theorem filledSegments_cons (fewer : Nat) (segment : MarkerSegment)
    (segments : List (Nat × MarkerSegment)) (fill : Nat) (frame : FrameSegment) (rest : Bytes) :
    filledSegments ((fewer, segment) :: segments) fill frame rest =
      withFill fewer (segment.bytes ++ filledSegments segments fill frame rest) := by
  simp [filledSegments, withFill]

/-- Over runs of such lengths the scan comes to the frame header. -/
theorem sofScan_filledSegments (before : Bytes) (segments : List (Nat × MarkerSegment))
    (fill : Nat) (frame : FrameSegment) (rest : Bytes) (hsegments : ∀ s ∈ segments, 65537 ∣ s.1)
    (hfill : 65537 ∣ fill) :
    ∃ front, filledSegments segments fill frame rest = front ++ (frame.bytes ++ rest) ∧
      sofScan (before ++ filledSegments segments fill frame rest) before.length =
        some (before ++ front).length := by
  induction segments generalizing before with
  | nil =>
      obtain ⟨jumps, rfl⟩ := hfill
      refine ⟨List.replicate (65537 * jumps) 0xFF, List.append_assoc _ _ _, ?_⟩
      have hframe := sofScan_frame (before ++ List.replicate (65537 * jumps) 0xFF) frame rest
      have hrun := sofScan_fill before jumps (frame.bytes ++ rest)
      rw [filledSegments, List.flatMap_nil, List.nil_append, withFill_append, hrun]
      rw [List.length_append, List.length_replicate, List.append_assoc] at hframe
      rwa [List.length_append, List.length_replicate]
  | cons first segments ih =>
      obtain ⟨count, segment⟩ := first
      obtain ⟨⟨jumps, rfl⟩, hlater⟩ := List.forall_mem_cons.mp hsegments
      obtain ⟨front, hfront, hscan⟩ :=
        ih (before ++ List.replicate (65537 * jumps) 0xFF ++ segment.bytes) hlater
      refine ⟨List.replicate (65537 * jumps) 0xFF ++ segment.bytes ++ front, ?_, ?_⟩
      · rw [filledSegments_cons, hfront, withFill]
        simp only [List.append_assoc]
      · have hskip := sofScan_skip (before ++ List.replicate (65537 * jumps) 0xFF) segment
          (filledSegments segments fill frame rest)
        have hrun := sofScan_fill before jumps
          (segment.bytes ++ filledSegments segments fill frame rest)
        rw [filledSegments_cons, hrun]
        simp only [List.append_assoc, List.length_append, List.length_replicate, withFill,
          Nat.add_assoc] at hskip hscan ⊢
        rw [hskip, hscan]

/-- Over such runs the frame header describes the file, as it does without them. -/
theorem probeImage_filledJpeg (segments : List (Nat × MarkerSegment)) (fill : Nat)
    (frame : FrameSegment) (rest : Bytes) (defW defH defCh : Int)
    (hsegments : ∀ s ∈ segments, 65537 ∣ s.1) (hfill : 65537 ∣ fill) :
    probeImage (filledJpeg segments fill frame rest) defW defH defCh = frame.info := by
  obtain ⟨front, hfront, hscan⟩ :=
    sofScan_filledSegments [0xFF, 0xD8] segments fill frame rest hsegments hfill
  rw [filledJpeg]
  rw [hfront, ← List.append_assoc] at hscan ⊢
  exact probeImage_of_frame frame rest defW defH defCh rfl hscan

/-- A JPEG in which no frame header is found has the configured width. -/
theorem probeImage_of_none {rest : Bytes} (defW defH defCh : Int) (hlong : 2 ≤ rest.length)
    (hscan : sofScan ([0xFF, 0xD8] ++ rest) 2 = none) :
    (probeImage ([0xFF, 0xD8] ++ rest) defW defH defCh).width = defW := by
  have hsim : ([0xFF, 0xD8] ++ rest).take 4 ≠ lit "SIMR" := by
    intro hmagic
    have hfirst := congrArg List.head? hmagic
    rw [List.head?_take] at hfirst
    exact absurd hfirst (by simp; decide)
  have hsize : 4 ≤ ([0xFF, 0xD8] ++ rest).length := by
    rw [List.length_append]
    change 4 ≤ 2 + rest.length
    omega
  rw [probeImage, if_neg fun h => hsim h.2, if_pos ⟨hsize, rfl⟩, hscan]

/-- A frame header of 480 rows of 640 pixels in colour. -/
def colourFrame : FrameSegment where
  marker := 0xC0
  length := 11
  precision := 8
  height := 480
  width := 640
  components := 3
  sof := .inl rfl
  height_lt := by decide
  width_lt := by decide

/-- Only the first byte of this frame header is `FF`. -/
theorem byteAt_colourFrame {j : Nat} (hj : 1 ≤ j) : byteAt colourFrame.bytes j ≠ 0xFF := by
  by_cases hinside : j < 10
  · exact (by decide : ∀ k < 10, 1 ≤ k → byteAt colourFrame.bytes k ≠ 0xFF) j hinside hj
  · have hlength : colourFrame.bytes.length ≤ j := not_lt.mp hinside
    rw [byteAt, List.getD_eq_default _ _ hlength]
    decide

/-- From a shorter run the scan jumps over the first byte of this frame header. -/
theorem sofScan_remainder (before : Bytes) {fill : Nat} (hpos : 0 < fill) (hlt : fill < 65537) :
    sofScan (before ++ withFill fill colourFrame.bytes) before.length = none := by
  have hbyte : ∀ j, j < fill + 1 →
      byteAt (before ++ withFill fill colourFrame.bytes) (before.length + j) = 0xFF := by
    intro j hj
    rw [byteAt_append]
    by_cases hrun : j < fill
    · exact byteAt_fill hrun _
    · obtain rfl : j = fill := by omega
      exact byteAt_behind_fill j 0 _
  have hjump : fill ≤
      1 + be16 (before ++ withFill fill colourFrame.bytes) (before.length + 2) := by
    rw [be16_append]
    by_cases hone : fill = 1
    · subst hone
      decide
    · by_cases htwo : fill = 2
      · subst htwo
        decide
      · have hlength : be16 (withFill fill colourFrame.bytes) 2 = 65535 := by
          have hthird := hbyte 2 (by omega)
          have hfourth := hbyte 3 (by omega)
          rw [byteAt_append] at hthird hfourth
          rw [be16, hthird, hfourth]
          rfl
        omega
  have hroom : before.length + 3 < (before ++ withFill fill colourFrame.bytes).length := by
    have hlength : colourFrame.bytes.length = 10 := rfl
    simp only [List.length_append, length_withFill, hlength]
    omega
  rw [sofScan_jump hroom (hbyte 0 (by omega)) (hbyte 1 (by omega))]
  refine sofScan_none fun j hj => ?_
  obtain ⟨offset, rfl⟩ : ∃ offset, j = before.length + (fill + (1 + offset)) :=
    ⟨j - (before.length + fill + 1), by omega⟩
  rw [byteAt_append, byteAt_behind_fill]
  exact byteAt_colourFrame (by omega)

/-- Any other number of fill bytes hides this frame header. -/
theorem probeImage_hidden {fill : Nat} (hfill : ¬ 65537 ∣ fill) (defW defH defCh : Int) :
    (probeImage (filledJpeg [] fill colourFrame []) defW defH defCh).width = defW := by
  have hlong : 2 ≤ (filledSegments [] fill colourFrame []).length := by
    simp only [filledSegments, List.flatMap_nil, List.nil_append, List.append_nil, length_withFill]
    exact le_trans (by decide) (Nat.le_add_left colourFrame.bytes.length fill)
  refine probeImage_of_none defW defH defCh hlong ?_
  have hdivide : 65537 * (fill / 65537) + fill % 65537 = fill := Nat.div_add_mod fill 65537
  have hpos : 0 < fill % 65537 :=
    Nat.pos_of_ne_zero fun hzero => hfill (Nat.dvd_of_mod_eq_zero hzero)
  have hshort := sofScan_remainder ([0xFF, 0xD8] ++ List.replicate (65537 * (fill / 65537)) 0xFF)
    hpos (Nat.mod_lt fill (by decide))
  have hrun := sofScan_fill [0xFF, 0xD8] (fill / 65537)
    (withFill (fill % 65537) colourFrame.bytes)
  have hfile : filledSegments [] fill colourFrame [] =
      withFill (65537 * (fill / 65537)) (withFill (fill % 65537) colourFrame.bytes) := by
    rw [← withFill_add, hdivide]
    simp [filledSegments]
  rw [hfile]
  refine hrun.trans ?_
  rwa [List.length_append, List.length_replicate, List.append_assoc] at hshort

/-! ## When they are harmless -/

/-- Numbers of fill bytes may be inserted in front of the markers of any JPEG, with any
bytes behind its frame header and whatever the defaults are, without a change if and only
if all of them are multiples of 65537. -/
theorem fillBytes_harmless_iff (allowed : Set Nat) :
    (∀ (segments : List (Nat × MarkerSegment)) (fill : Nat) (frame : FrameSegment)
      (rest filledRest : Bytes) (defW defH defCh : Int),
      (∀ s ∈ segments, s.1 ∈ allowed) → fill ∈ allowed →
        probeImage (filledJpeg segments fill frame filledRest) defW defH defCh =
          probeImage (jpegBytes (segments.map Prod.snd) frame rest) defW defH defCh) ↔
      ∀ count ∈ allowed, 65537 ∣ count := by
  have hplain : ∀ (segments : List MarkerSegment) (frame : FrameSegment) (rest : Bytes)
      (defW defH defCh : Int),
      probeImage (jpegBytes segments frame rest) defW defH defCh = frame.info := by
    intro segments frame rest defW defH defCh
    have hscan := sofScan_jpegBytes segments frame rest
    rw [jpegBytes_eq] at hscan ⊢
    exact probeImage_of_frame frame rest defW defH defCh rfl hscan
  constructor
  · intro hharmless count hcount
    by_contra hother
    have hsame := hharmless [] count colourFrame [] [] 1280 720 4 (by simp) hcount
    rw [List.map_nil, hplain] at hsame
    have hwidth := probeImage_hidden hother 1280 720 4
    rw [hsame] at hwidth
    exact absurd hwidth (by decide)
  · intro hmultiples segments fill frame rest filledRest defW defH defCh hsegments hfill
    rw [hplain]
    exact probeImage_filledJpeg segments fill frame filledRest defW defH defCh
      (fun s hs => hmultiples s.1 (hsegments s hs)) (hmultiples fill hfill)

/-- One fill byte in front of the frame header hides it. -/
theorem oneFillByte_hidesFrame :
    ¬ ∀ (segments : List (Nat × MarkerSegment)) (fill : Nat) (frame : FrameSegment)
      (rest filledRest : Bytes) (defW defH defCh : Int),
      probeImage (filledJpeg segments fill frame filledRest) defW defH defCh =
        probeImage (jpegBytes (segments.map Prod.snd) frame rest) defW defH defCh := by
  intro hclaim
  have hsame := hclaim [] 1 colourFrame [] [] 1280 720 4
  have hshown : probeImage (jpegBytes [] colourFrame []) 1280 720 4 = colourFrame.info :=
    @probeImage_of_frame [0xFF, 0xD8] colourFrame [] 1280 720 4 rfl
      (sofScan_jpegBytes [] colourFrame [])
  have hhidden := @probeImage_hidden 1 (by decide) 1280 720 4
  rw [hsame, List.map_nil, hshown] at hhidden
  exact absurd hhidden (by decide)

end SimVision
