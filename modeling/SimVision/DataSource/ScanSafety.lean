import Mathlib.Data.List.GetD
import SimVision.DataSource.ImageKind

/-! # The reads of the image prober

`probe_image` reads through subscripts and pointers that nothing checks, at
positions that it takes from the bytes themselves. It is given here once more with
every read checked and its loop cut off after a number of rounds: `none` stands for
a read outside of the buffer and for a loop that has not ended.
-/

namespace SimVision

open Foundation

/-! ## Checked reads -/

section Reads

variable (buf : Bytes) (i : Nat)

def byteAt? : Option UInt8 := buf[i]?

def be16? : Option Nat := do
  let high ← byteAt? buf i
  let low ← byteAt? buf (i + 1)
  some (high.toNat * 2 ^ 8 + low.toNat)

def be32? : Option Nat := do
  let high ← be16? buf i
  let low ← be16? buf (i + 2)
  some (high * 2 ^ 16 + low)

def le32? : Option Nat := do
  let first ← byteAt? buf i
  let second ← byteAt? buf (i + 1)
  let third ← byteAt? buf (i + 2)
  let fourth ← byteAt? buf (i + 3)
  some (first.toNat + second.toNat * 2 ^ 8 + third.toNat * 2 ^ 16 + fourth.toNat * 2 ^ 24)

/-- The first bytes, all of which are read to compare them. -/
def start? : Nat → Option Bytes
  | 0 => some []
  | k + 1 => do
      let first ← start? k
      let last ← byteAt? buf k
      some (first ++ [last])

end Reads

/-- How an iteration of the loop over the JPEG markers ends. -/
inductive ScanStep where
  | next (i : Nat)
  | found (height width : Nat) (components : UInt8)
  | ended

/-- One iteration of the loop, from its condition on. -/
def scanStep? (buf : Bytes) (i : Nat) : Option ScanStep :=
  if i + 3 < buf.length then do
    let start ← byteAt? buf i
    if start ≠ 0xFF then some (.next (i + 1))
    else do
      let marker ← byteAt? buf (i + 1)
      if (marker = 0xC0 ∨ marker = 0xC2) ∧ i + 9 < buf.length then do
        let height ← be16? buf (i + 5)
        let width ← be16? buf (i + 7)
        let components ← byteAt? buf (i + 9)
        some (.found height width components)
      else if i + 3 < buf.length then do
        let seg ← be16? buf (i + 2)
        some (.next (i + 2 + seg))
      else some .ended
  else some .ended

/-- At most `rounds` iterations: the frame header that they find, if any. -/
def scanLoop? (buf : Bytes) : Nat → Nat → Option (Option (Nat × Nat × UInt8))
  | 0, _ => none
  | rounds + 1, i => do
      match ← scanStep? buf i with
      | .next j => scanLoop? buf rounds j
      | .found height width components => some (some (height, width, components))
      | .ended => some none

/-- The guard on the size, and then a comparison of the first bytes. -/
def startsWith? (buf : Bytes) (least : Nat) (magic : Bytes) : Option Bool :=
  if least ≤ buf.length then do
    let first ← start? buf magic.length
    some (decide (first = magic))
  else some false

/-- The branches of `probe_image` with all that they read. -/
def kindOf? (rounds : Nat) (buf : Bytes) : Option ImageKind := do
  if ← startsWith? buf 24 (lit "SIMR") then
    let width ← le32? buf 16
    let height ← le32? buf 20
    some (.simRaw (intOfWord width) (intOfWord height))
  else if ← startsWith? buf 4 [0xFF, 0xD8] then
    match ← scanLoop? buf rounds 2 with
    | some (height, width, components) => some (.jpeg width height components.toNat)
    | none => some .jpegUnsized
  else if ← startsWith? buf 24 kPngSig then
    let width ← be32? buf 16
    let height ← be32? buf 20
    let colorType ← if 25 < buf.length then byteAt? buf 25 else some 6
    some (.png (intOfWord width) (intOfWord height) colorType)
  else if ← startsWith? buf 4 (lit "II") then some .tiff
  else if ← startsWith? buf 4 (lit "MM") then some .tiff
  else some .raw

/-- `probe_image` with checked reads and at most `rounds` iterations. -/
def probeImage? (rounds : Nat) (buf : Bytes) (defW defH defCh : Int) : Option ImageInfo := do
  let kind ← kindOf? rounds buf
  some (kind.info defW defH defCh)

/-! ## Reads within the buffer -/

section InBounds

variable {buf : Bytes} {i : Nat}

theorem byteAt?_eq (hi : i < buf.length) : byteAt? buf i = some (byteAt buf i) := by
  unfold byteAt? byteAt
  rw [List.getD_eq_getElem?_getD, List.getElem?_eq_getElem hi, Option.getD_some]

theorem be16?_eq (hi : i + 1 < buf.length) : be16? buf i = some (be16 buf i) := by
  unfold be16?
  rw [byteAt?_eq (by omega), byteAt?_eq hi]
  rfl

theorem be32?_eq (hi : i + 3 < buf.length) : be32? buf i = some (be32 buf i) := by
  unfold be32?
  rw [be16?_eq (by omega), be16?_eq (by omega)]
  rfl

theorem le32?_eq (hi : i + 3 < buf.length) : le32? buf i = some (le32 buf i) := by
  unfold le32?
  rw [byteAt?_eq (by omega), byteAt?_eq (by omega), byteAt?_eq (by omega), byteAt?_eq hi]
  rfl

theorem start?_eq {k : Nat} (hk : k ≤ buf.length) : start? buf k = some (buf.take k) := by
  induction k with
  | zero => rfl
  | succ k ih =>
      unfold start?
      rw [ih (by omega), byteAt?_eq (by omega), byteAt, List.getD_eq_getElem _ _ (by omega),
        List.take_succ_eq_append_getElem]
      rfl

theorem startsWith?_eq {least : Nat} {magic : Bytes} (hmagic : magic.length ≤ least) :
    startsWith? buf least magic =
      some (decide (least ≤ buf.length ∧ buf.take magic.length = magic)) := by
  unfold startsWith?
  split
  next hlong =>
    rw [start?_eq (hmagic.trans hlong)]
    simp [hlong]
  next hshort => simp [hshort]

/-- What an iteration does when its reads succeed. -/
def scanStep (buf : Bytes) (i : Nat) : ScanStep :=
  if i + 3 < buf.length then
    if byteAt buf i ≠ 0xFF then .next (i + 1)
    else if (byteAt buf (i + 1) = 0xC0 ∨ byteAt buf (i + 1) = 0xC2) ∧ i + 9 < buf.length then
      .found (be16 buf (i + 5)) (be16 buf (i + 7)) (byteAt buf (i + 9))
    else .next (i + 2 + be16 buf (i + 2))
  else .ended

/-- The reads of an iteration succeed at every position. -/
theorem scanStep?_eq (buf : Bytes) (i : Nat) : scanStep? buf i = some (scanStep buf i) := by
  unfold scanStep? scanStep
  split
  next hmore =>
    rw [byteAt?_eq (by omega), byteAt?_eq (by omega)]
    simp only [Option.bind_eq_bind, Option.bind_some]
    split
    next => rfl
    next =>
      split
      next hsof =>
        obtain ⟨_, hroom⟩ := hsof
        rw [be16?_eq (by omega), be16?_eq (by omega), byteAt?_eq hroom]
        rfl
      next =>
        rw [be16?_eq (by omega)]
        rfl
  next => rfl

end InBounds

/-! ## The loop -/

theorem be16_lt (buf : Bytes) (i : Nat) : be16 buf i < 2 ^ 16 := by
  have hhigh := (byteAt buf i).toNat_lt
  have hlow := (byteAt buf (i + 1)).toNat_lt
  unfold be16
  omega

/-- The position moves forward, and not far enough to leave the range of `size_t`
for a buffer that is smaller than half of it. -/
theorem scanStep_next {buf : Bytes} {i j : Nat} (hstep : scanStep buf i = .next j) :
    i + 3 < buf.length ∧ i < j ∧ j < i + 2 + 2 ^ 16 := by
  have hlength := be16_lt buf (i + 2)
  unfold scanStep at hstep
  split at hstep
  next hmore =>
    split at hstep
    next =>
      obtain rfl := ScanStep.next.inj hstep
      omega
    next =>
      split at hstep
      next => contradiction
      next =>
        obtain rfl := ScanStep.next.inj hstep
        omega
  next => contradiction

/-- The frame header that the scan stops at, as it is read there. -/
def frameAt (buf : Bytes) (i : Nat) : Nat × Nat × UInt8 :=
  (be16 buf (i + 5), be16 buf (i + 7), byteAt buf (i + 9))

/-- The scan is its iterations. -/
theorem sofScan_step (buf : Bytes) (i : Nat) : (sofScan buf i).map (frameAt buf) =
    match scanStep buf i with
    | .next j => (sofScan buf j).map (frameAt buf)
    | .found height width components => some (height, width, components)
    | .ended => none := by
  rw [sofScan, scanStep]
  split
  next =>
    split
    next => rfl
    next =>
      split
      next => rfl
      next => rfl
  next => rfl

/-- The loop ends within as many rounds as there are positions left. -/
theorem scanLoop?_eq {buf : Bytes} {i rounds : Nat} (hrounds : buf.length ≤ i + rounds) :
    scanLoop? buf (rounds + 1) i = some ((sofScan buf i).map (frameAt buf)) := by
  induction rounds generalizing i with
  | zero =>
      rw [scanLoop?, scanStep?_eq, sofScan_step]
      cases hstep : scanStep buf i with
      | next j =>
          obtain ⟨hmore, _, _⟩ := scanStep_next hstep
          omega
      | found height width components => rfl
      | ended => rfl
  | succ rounds ih =>
      rw [scanLoop?, scanStep?_eq, sofScan_step]
      cases hstep : scanStep buf i with
      | next j =>
          obtain ⟨_, hforward, _⟩ := scanStep_next hstep
          exact ih (by omega)
      | found height width components => rfl
      | ended => rfl

theorem kindOf?_eq {buf : Bytes} {rounds : Nat} (hrounds : buf.length ≤ rounds) :
    kindOf? rounds buf = some (kindOf buf) := by
  unfold kindOf? kindOf
  have hsim : (lit "SIMR").length = 4 := by decide
  have hpng : kPngSig.length = 8 := by decide
  have hii : (lit "II").length = 2 := by decide
  have hmm : (lit "MM").length = 2 := by decide
  rw [startsWith?_eq (by omega), startsWith?_eq (by decide), startsWith?_eq (by omega),
    startsWith?_eq (by omega), startsWith?_eq (by omega), hsim, hpng, hii, hmm]
  simp only [Option.bind_eq_bind, Option.bind_some, decide_eq_true_eq, List.length_cons,
    List.length_nil]
  split
  next hmagic =>
    rw [le32?_eq (by omega), le32?_eq (by omega)]
    rfl
  next =>
    split
    next hmagic =>
      obtain ⟨hlong, _⟩ := hmagic
      obtain ⟨fewer, rfl⟩ : ∃ fewer, rounds = fewer + 1 := ⟨rounds - 1, by omega⟩
      rw [scanLoop?_eq (by omega)]
      cases sofScan buf 2 <;> rfl
    next =>
      split
      next hmagic =>
        rw [be32?_eq (by omega), be32?_eq (by omega)]
        split
        next hcolor =>
          rw [byteAt?_eq hcolor]
          rfl
        next => rfl
      next =>
        split
        next hii => rw [if_pos ⟨hii.1, .inl hii.2⟩]
        next hii =>
          split
          next hmm => rw [if_pos ⟨hmm.1, .inr hmm.2⟩]
          next hmm =>
            rw [if_neg]
            rintro ⟨hlong, hi | hm⟩
            · exact hii ⟨hlong, hi⟩
            · exact hmm ⟨hlong, hm⟩

/-- For every buffer and all defaults, the function returns after at most as many
iterations as the buffer has bytes, having read inside the buffer only; and each
iteration moves the position forward, whatever lengths the file announces. -/
theorem probeImage_safe (buf : Bytes) (defW defH defCh : Int) :
    probeImage? buf.length buf defW defH defCh = some (probeImage buf defW defH defCh) ∧
      ∀ i, ∃ step, scanStep? buf i = some step ∧ ∀ j, step = .next j → i < j ∧
        j < buf.length + 2 ^ 16 := by
  refine ⟨?_, fun i => ⟨scanStep buf i, scanStep?_eq buf i, ?_⟩⟩
  · rw [probeImage?, kindOf?_eq (Nat.le_refl _), probeImage_eq]
    rfl
  · intro j hnext
    obtain ⟨hmore, hforward, hnear⟩ := scanStep_next hnext
    omega

end SimVision
