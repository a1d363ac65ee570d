import SimVision.Api.RequestReading

/-! # When the reading loops return

Both loops call `SSL_read` again after `WANT_READ` and `WANT_WRITE`, as often as
these come. They return exactly when a call fails or the client has sent enough, so
a client that falls silent holds its worker for ever.
-/

namespace SimVision

open Foundation

/-- The loops of a worker that call `SSL_read`, with the parameters of the second. -/
inductive ReadLoop where
  | untilHeaders
  | body (buf : Bytes) (want : Nat)

/-- The first bytes of an endless stream. -/
def firstBytes (stream : Nat → UInt8) (count : Nat) : Bytes := (List.range count).map stream

/-- The bytes that calls with room for `size` return of a stream that goes on. -/
def delivered (size : Nat) (script : List ReadOutcome) : Nat :=
  (script.map (ReadOutcome.delivers size)).sum

/-- `read_until_headers` stops at a blank line or past its limit. -/
def HeadDone (buf : Bytes) : Prop :=
  (find buf (crlf ++ crlf) 0).isSome = true ∨ 64 * 1024 < buf.length

namespace ReadLoop

/-- The room that a call of `SSL_read` has. -/
def room : ReadLoop → Nat
  | .untilHeaders => 2048
  | .body _ _ => 4096

/-- The loop returns after finitely many outcomes of its calls. -/
def Returns (script : Nat → ReadOutcome) (stream : Nat → UInt8) : ReadLoop → Prop
  | .untilHeaders => ∃ calls, (readUntilHeaders ((List.range calls).map script)
      (firstBytes stream (2048 * calls)) []).isSome = true
  | .body buf want => ∃ calls, (readBody want ((List.range calls).map script)
      (firstBytes stream (4096 * calls)) buf).isSome = true

/-- The bytes received are all that the loop waits for. -/
def Served (received : Bytes) : ReadLoop → Prop
  | .untilHeaders => HeadDone received
  | .body buf want => want ≤ buf.length + received.length

end ReadLoop

theorem HeadDone.append {first : Bytes} (hdone : HeadDone first) (second : Bytes) :
    HeadDone (first ++ second) := by
  rcases hdone with hfound | hlong
  · obtain ⟨i, hi⟩ := Option.isSome_iff_exists.mp hfound
    rw [find_zero] at hi
    left
    rw [find_zero, findFirst_append_of_some hi (by decide)]
    rfl
  · right
    rw [List.length_append]
    omega

theorem not_headDone_nil : ¬ HeadDone [] := by
  rintro (hfound | hlong)
  · contradiction
  · contradiction

section Delivered

variable {size : Nat} {script : List ReadOutcome} {stream : Bytes}

@[simp] theorem delivered_nil : delivered size [] = 0 := rfl

@[simp] theorem delivered_cons (outcome : ReadOutcome) :
    delivered size (outcome :: script) = outcome.delivers size + delivered size script := rfl

/-- No call returns more bytes than it has room for. -/
theorem delivered_le (size : Nat) (script : List ReadOutcome) :
    delivered size script ≤ size * script.length := by
  induction script with
  | nil => exact Nat.zero_le _
  | cons outcome rest ih =>
      have hone : outcome.delivers size ≤ size := by
        cases outcome with
        | bytes extra => exact Nat.min_le_right _ _
        | wantRead => exact Nat.zero_le _
        | wantWrite => exact Nat.zero_le _
        | failed => exact Nat.zero_le _
      rw [delivered_cons, List.length_cons, Nat.mul_succ]
      omega

/-- A call that returns bytes returns at least one. -/
theorem countP_le_delivered (hsize : 0 < size) (script : List ReadOutcome) :
    script.countP ReadOutcome.isBytes ≤ delivered size script := by
  induction script with
  | nil => exact Nat.zero_le _
  | cons outcome rest ih =>
      rw [List.countP_cons, delivered_cons]
      cases outcome with
      | bytes extra =>
          simp only [ReadOutcome.isBytes, ReadOutcome.delivers, if_true]
          omega
      | wantRead => simpa [ReadOutcome.isBytes] using ih.trans (Nat.le_add_left _ _)
      | wantWrite => simpa [ReadOutcome.isBytes] using ih.trans (Nat.le_add_left _ _)
      | failed => simpa [ReadOutcome.isBytes] using ih.trans (Nat.le_add_left _ _)

theorem length_readChunk {extra : Nat} (hstream : min (extra + 1) size ≤ stream.length) :
    (readChunk extra size stream).length = min (extra + 1) size := by
  rw [readChunk, List.length_take]
  omega

/-- The first loop is still waiting if no call failed and the head is not done. -/
theorem readUntilHeaders_eq_none_iff {buf : Bytes} (hwaiting : ¬ HeadDone buf)
    (hstream : delivered 2048 script ≤ stream.length) :
    readUntilHeaders script stream buf = none ↔
      .failed ∉ script ∧ ¬ HeadDone (buf ++ stream.take (delivered 2048 script)) := by
  induction script generalizing stream buf with
  | nil => simpa [readUntilHeaders] using hwaiting
  | cons outcome rest ih =>
      cases outcome with
      | bytes extra =>
          simp only [delivered_cons, ReadOutcome.delivers] at hstream ⊢
          have hlength : (readChunk extra 2048 stream).length = min (extra + 1) 2048 :=
            length_readChunk (by omega)
          have hsome : readChunk extra 2048 stream ≠ [] := List.ne_nil_of_length_pos (by omega)
          have hwhole : buf ++ stream.take (min (extra + 1) 2048 + delivered 2048 rest) =
              (buf ++ readChunk extra 2048 stream) ++
                (stream.drop (readChunk extra 2048 stream).length).take (delivered 2048 rest) := by
            rw [hlength, List.append_assoc, readChunk, List.take_add]
          have hfails : (.failed ∉ (.bytes extra :: rest : List ReadOutcome)) ↔ .failed ∉ rest := by
            simp
          rw [hwhole, hfails]
          simp only [readUntilHeaders, if_neg hsome]
          by_cases hdone : HeadDone (buf ++ readChunk extra 2048 stream)
          · have hended := hdone.append
              ((stream.drop (readChunk extra 2048 stream).length).take (delivered 2048 rest))
            refine iff_of_false ?_ fun h => h.2 hended
            split
            next => exact Option.some_ne_none _
            next hmissing =>
              rw [if_pos (hdone.resolve_left hmissing)]
              exact Option.some_ne_none _
          · obtain ⟨hmissing, hshort⟩ := not_or.mp hdone
            rw [if_neg hmissing, if_neg hshort]
            apply ih hdone
            rw [List.length_drop, hlength]
            omega
      | wantRead =>
          rw [readUntilHeaders, ih hwaiting (by simpa [ReadOutcome.delivers] using hstream)]
          simp [ReadOutcome.delivers]
      | wantWrite =>
          rw [readUntilHeaders, ih hwaiting (by simpa [ReadOutcome.delivers] using hstream)]
          simp [ReadOutcome.delivers]
      | failed => simp [readUntilHeaders]

/-- The second loop is still waiting if no call failed and bytes are missing. -/
theorem readBody_eq_none_iff {buf : Bytes} {want : Nat}
    (hstream : delivered 4096 script ≤ stream.length) :
    readBody want script stream buf = none ↔
      .failed ∉ script ∧ ¬ want ≤ buf.length + delivered 4096 script := by
  induction script generalizing stream buf with
  | nil =>
      unfold readBody
      split
      next hwhole => simpa using hwhole
      next hmissing => simpa using hmissing
  | cons outcome rest ih =>
      unfold readBody
      by_cases hwhole : want ≤ buf.length
      · rw [if_pos hwhole]
        exact iff_of_false (Option.some_ne_none _)
          fun h => h.2 (hwhole.trans (Nat.le_add_right _ _))
      · rw [if_neg hwhole]
        simp only [delivered_cons] at hstream ⊢
        cases outcome with
        | bytes extra =>
            simp only [ReadOutcome.delivers] at hstream ⊢
            have hlength : (readChunk extra (min 4096 (want - buf.length)) stream).length =
                min (extra + 1) (min 4096 (want - buf.length)) := length_readChunk (by omega)
            have hsome : readChunk extra (min 4096 (want - buf.length)) stream ≠ [] :=
              List.ne_nil_of_length_pos (by omega)
            have hfails : (.failed ∉ (.bytes extra :: rest : List ReadOutcome)) ↔
                .failed ∉ rest := by
              simp
            rw [if_neg hsome, hfails, ih (by rw [List.length_drop, hlength]; omega),
              List.length_append, hlength]
            -- the call that completes the body is cut to what is missing
            refine and_congr_right fun _ => ?_
            omega
        | wantRead =>
            dsimp only
            rw [ih (by simpa [ReadOutcome.delivers] using hstream)]
            simp [ReadOutcome.delivers]
        | wantWrite =>
            dsimp only
            rw [ih (by simpa [ReadOutcome.delivers] using hstream)]
            simp [ReadOutcome.delivers]
        | failed => simp

end Delivered

/-! ## Endless scripts -/

section Endless

variable {script : Nat → ReadOutcome} {stream : Nat → UInt8}

theorem firstBytes_take {count total : Nat} (hle : count ≤ total) :
    (firstBytes stream total).take count = firstBytes stream count := by
  rw [firstBytes, ← List.map_take, List.take_range, Nat.min_eq_left hle]
  rfl

theorem length_firstBytes (count : Nat) : (firstBytes stream count).length = count := by
  rw [firstBytes, List.length_map, List.length_range]

theorem delivered_range_le (size calls : Nat) :
    delivered size ((List.range calls).map script) ≤ size * calls := by
  have hle := delivered_le size ((List.range calls).map script)
  rwa [List.length_map, List.length_range] at hle

namespace ReadLoop

/-- After some calls, the loop still waits if and only if none of them failed and
what they returned does not serve it. -/
def WaitsAfter (script : Nat → ReadOutcome) (stream : Nat → UInt8) (loop : ReadLoop) (calls : Nat) :
    Prop :=
  .failed ∉ (List.range calls).map script ∧
    ¬ loop.Served (firstBytes stream (delivered loop.room ((List.range calls).map script)))

theorem returns_iff_not_waits (loop : ReadLoop) :
    loop.Returns script stream ↔ ∃ calls, ¬ loop.WaitsAfter script stream calls := by
  cases loop with
  | untilHeaders =>
      refine exists_congr fun calls => ?_
      have hroom := @delivered_range_le script 2048 calls
      have hnone := @readUntilHeaders_eq_none_iff ((List.range calls).map script)
        (firstBytes stream (2048 * calls)) [] not_headDone_nil (by rwa [length_firstBytes])
      rw [List.nil_append, firstBytes_take hroom] at hnone
      exact Option.isSome_iff_ne_none.trans hnone.not
  | body buf want =>
      refine exists_congr fun calls => ?_
      have hnone := @readBody_eq_none_iff ((List.range calls).map script)
        (firstBytes stream (4096 * calls)) buf want
        (by rw [length_firstBytes]; exact delivered_range_le 4096 calls)
      have hserved : (body buf want).Served (firstBytes stream
          (delivered 4096 ((List.range calls).map script))) ↔
          want ≤ buf.length + delivered 4096 ((List.range calls).map script) := by
        rw [Served, length_firstBytes]
      have hwaits := hnone.trans (and_congr_right fun _ => hserved.not.symm)
      exact Option.isSome_iff_ne_none.trans hwaits.not

end ReadLoop

/-- A loop returns if and only if a call fails, or the bytes of finitely many calls
are all that it waits for. -/
theorem readLoop_returns_iff (script : Nat → ReadOutcome) (stream : Nat → UInt8) (loop : ReadLoop) :
    loop.Returns script stream ↔
      (∃ call, script call = .failed) ∨
        ∃ calls, loop.Served
          (firstBytes stream (delivered loop.room ((List.range calls).map script))) := by
  rw [loop.returns_iff_not_waits]
  constructor
  · rintro ⟨calls, hends⟩
    by_cases hfails : .failed ∈ (List.range calls).map script
    · obtain ⟨call, _, hcall⟩ := List.mem_map.mp hfails
      exact .inl ⟨call, hcall⟩
    · exact .inr ⟨calls, by_contra fun hwaiting => hends ⟨hfails, hwaiting⟩⟩
  · rintro (⟨call, hcall⟩ | ⟨calls, hserved⟩)
    · refine ⟨call + 1, fun hwaits => hwaits.1 ?_⟩
      exact List.mem_map.mpr ⟨call, List.mem_range.mpr (Nat.lt_succ_self call), hcall⟩
    · exact ⟨calls, fun hwaits => hwaits.2 hserved⟩

/-- A client that sends nothing holds the worker that waits for its request. -/
theorem silentClient_waits :
    ¬ ∀ (script : Nat → ReadOutcome) (stream : Nat → UInt8) (loop : ReadLoop),
      loop.Returns script stream := by
  intro hclaim
  obtain ⟨calls, hends⟩ := (ReadLoop.returns_iff_not_waits .untilHeaders).mp
    (hclaim (fun _ => .wantRead) (fun _ => 0) .untilHeaders)
  have hscript : (List.range calls).map (fun _ => ReadOutcome.wantRead) =
      List.replicate calls .wantRead := by
    rw [List.map_const', List.length_range]
  have hnothing : delivered 2048 (List.replicate calls .wantRead) = 0 := by
    simp [delivered, ReadOutcome.delivers]
  refine hends ⟨?_, ?_⟩
  · rw [hscript, List.mem_replicate]
    exact fun h => absurd h.2 (by decide)
  · rw [hscript]
    change ¬ HeadDone (firstBytes _ (delivered 2048 _))
    rw [hnothing]
    exact not_headDone_nil

/-- A client that keeps sending, however slowly, is waited for only finitely long. -/
theorem ReadLoop.returns_of_bytes (hbytes : ∀ n, ∃ m ≥ n, (script m).isBytes = true)
    (loop : ReadLoop) : loop.Returns script stream := by
  rw [loop.returns_iff_not_waits]
  have henough : ∀ count, ∃ calls, count ≤ delivered loop.room ((List.range calls).map script) := by
    intro count
    obtain ⟨calls, hcalls⟩ := exists_calls hbytes count
    refine ⟨calls, (hcalls calls (Nat.le_refl _)).trans (countP_le_delivered ?_ _)⟩
    cases loop with
    | untilHeaders => exact Nat.succ_pos _
    | body buf want => exact Nat.succ_pos _
  cases loop with
  | untilHeaders =>
      obtain ⟨calls, hcalls⟩ := henough (64 * 1024 + 1)
      refine ⟨calls, fun hwaits => hwaits.2 (.inr ?_)⟩
      rw [length_firstBytes]
      exact hcalls
  | body buf want =>
      obtain ⟨calls, hcalls⟩ := henough want
      refine ⟨calls, fun hwaits => hwaits.2 ?_⟩
      rw [Served, length_firstBytes]
      exact hcalls.trans (Nat.le_add_left _ _)

end Endless

end SimVision
