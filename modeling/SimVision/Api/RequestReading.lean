import SimVision.Api.AdminServer
import SimVision.Foundation.ByteSearch

/-! # Reading a request

`SSL_read` hands over the bytes of the client in pieces of its own choosing. The
two loops of the server put them together again, whatever the pieces are.
-/

namespace SimVision

open Foundation

/-! ## The loops -/

/-- How a call of `SSL_read` returns: with bytes, at most as many as are asked
for and as have been sent, or without. -/
inductive ReadOutcome where
  | bytes (extra : Nat)
  | wantRead
  | wantWrite
  | failed
  deriving DecidableEq

/-- The bytes that a call for at most `size` returns of a stream. -/
def readChunk (extra size : Nat) (stream : Bytes) : Bytes := stream.take (min (extra + 1) size)

/-- `read_until_headers`: its verdict, `buf`, and what is left of the outcomes and
of the stream. There is no result while a call of `SSL_read` is outstanding. -/
def readUntilHeaders : List ReadOutcome → Bytes → Bytes →
    Option (Bool × Bytes × List ReadOutcome × Bytes)
  | [], _, _ => none
  | .bytes extra :: script, stream, buf =>
      let chunk := readChunk extra 2048 stream
      let stream' := stream.drop chunk.length
      if chunk = [] then some (false, buf, script, stream')
      else if (find (buf ++ chunk) (crlf ++ crlf) 0).isSome then
        some (true, buf ++ chunk, script, stream')
      else if 64 * 1024 < (buf ++ chunk).length then some (false, buf ++ chunk, script, stream')
      else readUntilHeaders script stream' (buf ++ chunk)
  | .wantRead :: script, stream, buf => readUntilHeaders script stream buf
  | .wantWrite :: script, stream, buf => readUntilHeaders script stream buf
  | .failed :: script, stream, buf => some (false, buf, script, stream)

/-- `read_body`: its verdict and what it has appended, which its caller keeps in
both cases. -/
def readBody (want : Nat) : List ReadOutcome → Bytes → Bytes → Option (Bool × Bytes)
  | script, stream, buf =>
      if want ≤ buf.length then some (true, buf)
      else
        match script with
        | [] => none
        | .bytes extra :: script =>
            let chunk := readChunk extra (min 4096 (want - buf.length)) stream
            if chunk = [] then some (false, buf)
            else readBody want script (stream.drop chunk.length) (buf ++ chunk)
        | .wantRead :: script => readBody want script stream buf
        | .wantWrite :: script => readBody want script stream buf
        | .failed :: _ => some (false, buf)

/-- What `handle_connection` reads before it parses the body: `buf` with the head,
and what `read_body` adds to the body. An inner `none` is a connection it drops. -/
def readRequest (script : List ReadOutcome) (stream : Bytes) : Option (Option (Bytes × Bytes)) :=
  match readUntilHeaders script stream [] with
  | none => none
  | some (false, _) => some none
  | some (true, buf, script, stream) =>
      let head := parseRequestLine buf
      let first := if head.headerEnd + 4 ≤ buf.length then buf.drop (head.headerEnd + 4) else []
      if first.length < head.contentLength then
        (readBody head.contentLength script stream first).map fun (_, whole) =>
          some (buf, whole.drop first.length)
      else some (some (buf, []))

/-! ## Outcomes with bytes -/

def ReadOutcome.isBytes : ReadOutcome → Bool
  | .bytes _ => true
  | _ => false

theorem readChunk_append (extra size : Nat) (stream : Bytes) :
    readChunk extra size stream ++ stream.drop (readChunk extra size stream).length = stream :=
  List.prefix_iff_eq_append.mp (List.take_prefix _ _)

theorem readChunk_ne_nil {extra size : Nat} {stream : Bytes} (hsize : 0 < size)
    (hstream : stream ≠ []) : readChunk extra size stream ≠ [] := by
  rw [readChunk, Ne, List.take_eq_nil_iff, not_or]
  exact ⟨by omega, hstream⟩

/-- The bytes that a call with room for `size` returns of a stream that goes on. -/
def ReadOutcome.delivers (size : Nat) : ReadOutcome → Nat
  | .bytes extra => min (extra + 1) size
  | _ => 0

/-! ## Running totals -/

/-- How many bytes have arrived before the first call and after each. -/
def runningTotals (total : Nat) : List ReadOutcome → List Nat
  | [] => [total]
  | outcome :: script => total :: runningTotals (total + outcome.delivers 2048) script

/-- The limit of `read_until_headers` is passed before a head of `size` bytes is
complete. -/
def Overruns (size : Nat) (totals : List Nat) : Prop :=
  ∃ total ∈ totals, 64 * 1024 < total ∧ total < size

/-- How many bytes have arrived when a head of `size` bytes is complete. -/
def arrival (size : Nat) (totals : List Nat) : Nat :=
  (totals.find? fun total => size ≤ total).getD 0

section Totals

variable {size total : Nat} {totals : List Nat} {script : List ReadOutcome}

instance : Decidable (Overruns size totals) :=
  inferInstanceAs (Decidable (∃ total ∈ totals, 64 * 1024 < total ∧ total < size))

theorem le_of_mem_runningTotals {later : Nat} (hmem : later ∈ runningTotals total script) :
    total ≤ later := by
  induction script generalizing total with
  | nil => exact (List.mem_singleton.mp hmem).ge
  | cons outcome script ih =>
      rcases List.mem_cons.mp hmem with rfl | hmem
      · exact Nat.le_refl _
      · exact (Nat.le_add_right _ _).trans (ih hmem)

theorem mem_runningTotals_self (total : Nat) (script : List ReadOutcome) :
    total ∈ runningTotals total script := by
  cases script with
  | nil => exact List.mem_singleton_self _
  | cons outcome script => exact List.mem_cons_self

/-- Totals that start past the head do not overrun it. -/
theorem not_overruns_of_le (hle : size ≤ total) : ¬ Overruns size (runningTotals total script) := by
  rintro ⟨later, hmem, _, hlt⟩
  exact absurd (hle.trans (le_of_mem_runningTotals hmem)) (Nat.not_le.mpr hlt)

theorem overruns_cons (hwithin : total ≤ 64 * 1024) :
    Overruns size (total :: totals) ↔ Overruns size totals := by
  unfold Overruns
  rw [List.exists_mem_cons_iff, or_iff_right]
  omega

theorem arrival_cons (hlt : total < size) :
    arrival size (total :: totals) = arrival size totals := by
  rw [arrival, List.find?_cons_of_neg (by simpa using hlt)]
  rfl

theorem arrival_of_le (hle : size ≤ total) : arrival size (runningTotals total script) = total := by
  cases script with
  | nil => simp [runningTotals, arrival, hle]
  | cons outcome script => simp [runningTotals, arrival, hle]

end Totals

/-! ## The loops over a longer stream -/

section Loops

variable {script : List ReadOutcome} {stream buf whole : Bytes}

/-- A string cut at a place, which may lie behind its end. -/
theorem cut_of_append {first second : Bytes} {n : Nat} (hwhole : first ++ second = whole)
    (hlength : first.length = min n whole.length) :
    whole.take n = first ∧ whole.drop n = second := by
  subst hwhole
  rcases Nat.le_total n (first ++ second).length with hle | hge
  · rw [Nat.min_eq_left hle] at hlength
    subst hlength
    exact ⟨List.take_left, List.drop_left⟩
  · rw [Nat.min_eq_right hge, List.length_append] at hlength
    have hsecond : second = [] := List.length_eq_zero_iff.mp (by omega)
    rw [hsecond, List.append_nil] at hge ⊢
    exact ⟨List.take_of_length_le hge, List.drop_of_length_le hge⟩

/-- The head arrives with what the last call returned behind it, or the limit is
passed before. -/
theorem readUntilHeaders_arrival {terminator : Nat}
    (hend : findFirst (crlf ++ crlf) whole = some terminator) (hwhole : buf ++ stream = whole)
    (hbuf : buf.length < terminator + 4) (hlimit : buf.length ≤ 64 * 1024)
    (hfails : .failed ∉ script) (hcalls : stream.length ≤ script.countP ReadOutcome.isBytes) :
    ∃ script' stream', .failed ∉ script' ∧ stream'.length ≤ script'.countP ReadOutcome.isBytes ∧
      ((Overruns (terminator + 4) (runningTotals buf.length script) ∧
          ∃ buf', readUntilHeaders script stream buf = some (false, buf', script', stream')) ∨
        (¬ Overruns (terminator + 4) (runningTotals buf.length script) ∧
          ∃ arrived, arrived = arrival (terminator + 4) (runningTotals buf.length script) ∧
            terminator + 4 ≤ arrived ∧ stream' = whole.drop arrived ∧
            readUntilHeaders script stream buf =
              some (true, whole.take arrived, script', stream'))) := by
  have hblank : (crlf ++ crlf).length = 4 := rfl
  have hwithin := (findFirst_some hend).1.length_le (by decide)
  rw [hblank] at hwithin
  induction script generalizing stream buf with
  | nil =>
      have hstream : stream = [] := List.length_eq_zero_iff.mp (Nat.le_zero.mp hcalls)
      rw [hstream, List.append_nil] at hwhole
      rw [hwhole] at hbuf
      omega
  | cons outcome script ih =>
      rw [List.mem_cons, not_or] at hfails
      rw [runningTotals, overruns_cons hlimit, arrival_cons hbuf]
      cases outcome with
      | failed => exact absurd rfl hfails.1
      | wantRead => exact ih hwhole hbuf hlimit hfails.2 hcalls
      | wantWrite => exact ih hwhole hbuf hlimit hfails.2 hcalls
      | bytes extra =>
          have hstream : stream ≠ [] := by
            rintro rfl
            rw [List.append_nil] at hwhole
            rw [hwhole] at hbuf
            omega
          have hsome : readChunk extra 2048 stream ≠ [] := readChunk_ne_nil (by omega) hstream
          have hpieces := readChunk_append extra 2048 stream
          have hnext : (buf ++ readChunk extra 2048 stream) ++
              stream.drop (readChunk extra 2048 stream).length = whole := by
            rw [List.append_assoc, hpieces, hwhole]
          have hrest : (stream.drop (readChunk extra 2048 stream).length).length ≤
              script.countP ReadOutcome.isBytes := by
            have hpos := List.length_pos_iff.mpr hsome
            simp only [List.countP_cons, ReadOutcome.isBytes, if_true] at hcalls
            rw [List.length_drop]
            omega
          have htotal : (buf ++ readChunk extra 2048 stream).length =
              min (buf.length + min (extra + 1) 2048) whole.length := by
            rw [← hwhole, readChunk, List.length_append, List.length_append, List.length_take]
            omega
          have hfound := findFirst_isSome_iff hend (by decide) ⟨_, hnext⟩
          rw [hblank, ← find_zero] at hfound
          simp only [readUntilHeaders, if_neg hsome, ReadOutcome.delivers]
          generalize hchunk : readChunk extra 2048 stream = chunk at *
          by_cases harrived : terminator + 4 ≤ (buf ++ chunk).length
          · have hle : terminator + 4 ≤ buf.length + min (extra + 1) 2048 := by omega
            rw [if_pos (hfound.mpr harrived)]
            refine ⟨script, stream.drop chunk.length, hfails.2, hrest, .inr ?_⟩
            obtain ⟨htake, hdrop⟩ := cut_of_append hnext htotal
            refine ⟨not_overruns_of_le hle, _, (arrival_of_le hle).symm, hle, hdrop.symm, ?_⟩
            rw [htake]
          · have hmissing := hfound.not.mpr harrived
            have hsame : (buf ++ chunk).length = buf.length + min (extra + 1) 2048 := by omega
            rw [if_neg hmissing, ← hsame]
            by_cases hlong : 64 * 1024 < (buf ++ chunk).length
            · rw [if_pos hlong]
              refine ⟨script, stream.drop chunk.length, hfails.2, hrest, .inl ⟨?_, _, rfl⟩⟩
              exact ⟨_, mem_runningTotals_self _ _, hlong, Nat.not_le.mp harrived⟩
            · rw [if_neg hlong]
              exact ih hnext (Nat.not_le.mp harrived) (Nat.not_lt.mp hlong) hfails.2 hrest

/-- The body is filled up to its length, whatever follows it. -/
theorem readBody_fills {want : Nat} (hfails : .failed ∉ script) (hbuf : buf.length ≤ want)
    (hwhole : want ≤ (buf ++ stream).length)
    (hcalls : want - buf.length ≤ script.countP ReadOutcome.isBytes) :
    readBody want script stream buf = some (true, (buf ++ stream).take want) := by
  induction script generalizing stream buf with
  | nil =>
      have hfull : buf.length = want := by
        simp only [List.countP_nil] at hcalls
        omega
      unfold readBody
      rw [if_pos hfull.ge, ← hfull, List.take_left]
  | cons outcome script ih =>
      rw [List.mem_cons, not_or] at hfails
      unfold readBody
      by_cases hfull : want ≤ buf.length
      · rw [if_pos hfull, ← Nat.le_antisymm hbuf hfull, List.take_left]
      · rw [if_neg hfull]
        cases outcome with
        | failed => exact absurd rfl hfails.1
        | wantRead => exact ih hfails.2 hbuf hwhole hcalls
        | wantWrite => exact ih hfails.2 hbuf hwhole hcalls
        | bytes extra =>
            rw [List.length_append] at hwhole
            have hstream : stream ≠ [] := List.ne_nil_of_length_pos (by omega)
            have hsome : readChunk extra (min 4096 (want - buf.length)) stream ≠ [] :=
              readChunk_ne_nil (by omega) hstream
            have hpieces := readChunk_append extra (min 4096 (want - buf.length)) stream
            have hshort : (readChunk extra (min 4096 (want - buf.length)) stream).length ≤
                want - buf.length := by
              rw [readChunk, List.length_take]
              omega
            dsimp only
            rw [if_neg hsome]
            generalize readChunk extra (min 4096 (want - buf.length)) stream = chunk at *
            have hpos := List.length_pos_iff.mpr hsome
            have hlength := congrArg List.length hpieces
            rw [List.length_append] at hlength
            simp only [List.countP_cons, ReadOutcome.isBytes, if_true] at hcalls
            rw [ih hfails.2 (by rw [List.length_append]; omega)
              (by rw [List.length_append, List.length_append]; omega)
              (by rw [List.length_append]; omega), List.append_assoc, hpieces]

theorem headerEnd_append {block : Bytes}
    (hend : findFirst (crlf ++ crlf) block = some (block.length - 4)) (more : Bytes) :
    (parseRequestLine (block ++ more)).headerEnd + 4 = block.length := by
  have hfound : find (block ++ more) (crlf ++ crlf) 0 = some (block.length - 4) := by
    rw [find_zero]
    exact findFirst_append_of_some hend (by decide) more
  have hwithin := (findFirst_some hend).1.length_le (by decide)
  have hblank : (crlf ++ crlf).length = 4 := rfl
  simp only [parseRequestLine, hfound, Option.getD_some]
  omega

/-- With the head and a part of what follows it in `buf`, the body is what has been
announced, or what has arrived if that is more. -/
theorem readRequest_handed {block rest stream' : Bytes} {script' : List ReadOutcome}
    {want arrived : Nat} (hend : findFirst (crlf ++ crlf) block = some (block.length - 4))
    (hlength : ∀ more, (parseRequestLine (block ++ more)).contentLength = want)
    (hwant : want ≤ rest.length) (hfails : .failed ∉ script')
    (hcalls : stream'.length ≤ script'.countP ReadOutcome.isBytes)
    (hstream : stream' = rest.drop arrived)
    (hread : readUntilHeaders script stream [] =
      some (true, block ++ rest.take arrived, script', stream')) :
    ∃ more, readRequest script stream = some (some (block ++ rest.take arrived, more)) ∧
      bodyRaw (block ++ rest.take arrived) more = rest.take (max arrived want) := by
  have hpieces : rest.take arrived ++ stream' = rest := by rw [hstream, List.take_append_drop]
  have hin : block.length ≤ (block ++ rest.take arrived).length := by
    rw [List.length_append]
    omega
  have hfirst : (rest.take arrived).length = min arrived rest.length := List.length_take
  simp only [readRequest, hread, bodyRaw, headerEnd_append hend, hlength, if_pos hin,
    List.drop_left]
  by_cases hmissing : (rest.take arrived).length < want
  · -- the call that completed the head stays within the body
    have hwithin : arrived < want := by omega
    have hsum := congrArg List.length hpieces
    rw [List.length_append] at hsum
    have hfills : readBody want script' stream' (rest.take arrived) =
        some (true, rest.take want) := by
      rw [readBody_fills hfails hmissing.le (by rw [hpieces]; exact hwant) (by omega), hpieces]
    rw [if_pos hmissing, hfills]
    refine ⟨_, rfl, ?_⟩
    have hprior : rest.take arrived = (rest.take want).take arrived := by
      rw [List.take_take, Nat.min_eq_left hwithin.le]
    have hgrown : rest.take arrived ++ (rest.take want).drop (rest.take arrived).length =
        rest.take want := by
      rw [hfirst, Nat.min_eq_left (by omega), hprior, List.take_append_drop]
    rw [if_pos hmissing, hgrown, List.take_take, Nat.min_self, Nat.max_eq_right hwithin.le]
  · have hpast : want ≤ arrived := by omega
    rw [if_neg hmissing]
    refine ⟨_, rfl, ?_⟩
    rw [if_neg hmissing, Nat.max_eq_left hpast]

/-- How a stream is read that starts with a head whose length does not depend on
what follows it. -/
theorem readRequest_block {block rest : Bytes} {want : Nat}
    (hend : findFirst (crlf ++ crlf) block = some (block.length - 4))
    (hlength : ∀ more, (parseRequestLine (block ++ more)).contentLength = want)
    (hwant : want ≤ rest.length) (hfails : .failed ∉ script)
    (hcalls : (block ++ rest).length ≤ script.countP ReadOutcome.isBytes) :
    (Overruns block.length (runningTotals 0 script) ∧
        readRequest script (block ++ rest) = some none) ∨
      (¬ Overruns block.length (runningTotals 0 script) ∧
        ∃ arrived more, arrived = arrival block.length (runningTotals 0 script) - block.length ∧
          readRequest script (block ++ rest) = some (some (block ++ rest.take arrived, more)) ∧
          bodyRaw (block ++ rest.take arrived) more = rest.take (max arrived want)) := by
  have hwithin := (findFirst_some hend).1.length_le (by decide)
  have hblank : (crlf ++ crlf).length = 4 := rfl
  have hfour : block.length - 4 + 4 = block.length := by omega
  have hwhole : findFirst (crlf ++ crlf) (block ++ rest) = some (block.length - 4) :=
    findFirst_append_of_some hend (by decide) rest
  obtain ⟨script', stream', hfails', hcalls', hread⟩ := readUntilHeaders_arrival hwhole
    (List.nil_append _) (Nat.succ_pos _) (Nat.zero_le _) hfails hcalls
  rw [hfour, List.length_nil] at hread
  rcases hread with ⟨hdropped, buf', hread⟩ | ⟨hkept, arrived, harrived, hle, hstream, hread⟩
  · refine .inl ⟨hdropped, ?_⟩
    rw [readRequest, hread]
  · refine .inr ⟨hkept, ?_⟩
    rw [List.take_append, List.take_of_length_le hle] at hread
    rw [List.drop_append, List.drop_of_length_le hle, List.nil_append] at hstream
    obtain ⟨more, hhanded⟩ :=
      readRequest_handed hend hlength hwant hfails' hcalls' hstream hread
    exact ⟨_, more, by rw [harrived], hhanded⟩

end Loops

/-! ## Requests -/

/-- A request as a client writes it, with the header lines before and after the
one that announces the length of the body. -/
structure HttpRequest where
  method : Bytes
  target : Bytes
  version : Bytes
  before : List Bytes
  name : Bytes
  space : Bytes
  digits : Bytes
  after : List Bytes
  body : Bytes

namespace HttpRequest

variable (q : HttpRequest)

def requestLine : Bytes := q.method ++ lit " " ++ q.target ++ lit " " ++ q.version

def lengthLine : Bytes := q.name ++ q.space ++ q.digits

/-- Header lines, each with the line break in front of it. -/
def joined (lines : List Bytes) : Bytes := lines.flatMap (crlf ++ ·)

/-- What comes before the line with the length. -/
def opening : Bytes := q.requestLine ++ joined q.before ++ crlf

/-- The head without the line break of its last line and the blank line. -/
def head : Bytes := q.opening ++ q.lengthLine ++ joined q.after

def text : Bytes := q.head ++ crlf ++ crlf ++ q.body

/-- Tokens have no blanks and lines no line breaks, and the first
`content-length:` of the head, in any letter case, announces the body. -/
structure WellFormed : Prop where
  token : ∀ c ∈ q.method ++ q.target ++ q.version, c ≠ 32 ∧ c ≠ 13 ∧ c ≠ 10
  lines : ∀ line ∈ q.before ++ q.after, line ≠ [] ∧ ∀ c ∈ line, c ≠ 13 ∧ c ≠ 10
  name : toLower q.name = lit "content-length:"
  space : ∀ c ∈ q.space, c = 32 ∨ c = 9
  digits : q.digits ≠ [] ∧ ∀ c ∈ q.digits, isDigit c = true
  length : decimalValue q.digits = q.body.length
  length_lt : q.body.length < wordSize
  first : ∀ i < q.opening.length, ¬ OccursAt (lit "content-length:") (toLower q.head) i
  head_le : (q.head ++ crlf ++ crlf).length ≤ 64 * 1024

/-! ## What the head parses to -/

/-- All header lines. -/
def fields : List Bytes := q.before ++ q.lengthLine :: q.after

theorem head_eq : q.head = q.requestLine ++ joined q.fields := by
  simp [head, opening, fields, joined]

theorem joined_cons (line : Bytes) (lines : List Bytes) :
    joined (line :: lines) = crlf ++ (line ++ joined lines) := by
  simp [joined]

variable {q}

/-- A blank line ends the lines, and nothing before it does. -/
theorem findFirst_blank {first : Bytes} {lines : List Bytes} (hfirst : 13 ∉ first)
    (hlines : ∀ line ∈ lines, line ≠ [] ∧ 13 ∉ line) (more : Bytes) :
    findFirst (crlf ++ crlf) (first ++ joined lines ++ crlf ++ crlf ++ more) =
      some (first ++ joined lines).length := by
  induction lines generalizing first with
  | nil =>
      simp only [joined, List.flatMap_nil, List.append_nil, List.append_assoc]
      change findFirst (13 :: [10, 13, 10]) _ = _
      rw [findFirst_append hfirst]
      simp [crlf, findFirst, List.isPrefixOf]
  | cons line rest ih =>
      obtain ⟨⟨hsome, hreturn⟩, hrest⟩ := List.forall_mem_cons.mp hlines
      have hskip : ∀ after : Bytes, findFirst (crlf ++ crlf) (crlf ++ (line ++ after)) =
          (findFirst (crlf ++ crlf) (line ++ after)).map (· + 2) := by
        intro after
        cases line with
        | nil => contradiction
        | cons c line =>
            rw [List.mem_cons, not_or] at hreturn
            simp [crlf, findFirst, List.isPrefixOf, hreturn.1, Option.map_map]
      have hregroup : first ++ joined (line :: rest) ++ crlf ++ crlf ++ more =
          first ++ (crlf ++ (line ++ (joined rest ++ crlf ++ crlf ++ more))) := by
        simp [joined_cons]
      have hblank : findFirst (crlf ++ crlf) (line ++ (joined rest ++ crlf ++ crlf ++ more)) =
          some (line ++ joined rest).length := by
        simpa only [List.append_assoc] using ih hreturn hrest
      rw [hregroup]
      change findFirst (13 :: [10, 13, 10]) _ = _
      rw [findFirst_append hfirst]
      change (findFirst (crlf ++ crlf) _).map _ = _
      rw [hskip, hblank]
      simp only [Option.map_some, joined_cons, List.length_append, Option.some.injEq]
      have hbreak : crlf.length = 2 := rfl
      omega

/-- Line breaks in front of a text without any. -/
theorem findFirst_break {first : Bytes} (hfirst : 13 ∉ first) (more : Bytes) :
    findFirst crlf (first ++ (crlf ++ more)) = some first.length := by
  change findFirst (13 :: [10]) _ = _
  rw [findFirst_append hfirst]
  simp [crlf, findFirst, List.isPrefixOf]

namespace WellFormed

theorem name_return (hwf : q.WellFormed) : 13 ∉ q.name := by
  intro hmem
  have hlower : toLowerByte 13 ∈ toLower q.name := List.mem_map_of_mem hmem
  rw [hwf.name] at hlower
  exact absurd hlower (by decide)

theorem lengthLine_return (hwf : q.WellFormed) : 13 ∉ q.lengthLine := by
  intro hmem
  rcases List.mem_append.mp hmem with hmem | hmem
  · rcases List.mem_append.mp hmem with hmem | hmem
    · exact hwf.name_return hmem
    · exact absurd (hwf.space 13 hmem) (by decide)
  · exact absurd (hwf.digits.2 13 hmem) (by decide)

theorem fields_lines (hwf : q.WellFormed) : ∀ line ∈ q.fields, line ≠ [] ∧ 13 ∉ line := by
  intro line hline
  have hother : line ∈ q.before ++ q.after → line ≠ [] ∧ 13 ∉ line := by
    intro hmem
    obtain ⟨hsome, hbytes⟩ := hwf.lines line hmem
    exact ⟨hsome, fun hreturn => (hbytes 13 hreturn).1 rfl⟩
  rcases List.mem_append.mp hline with hmem | hmem
  · exact hother (List.mem_append_left _ hmem)
  · rcases List.mem_cons.mp hmem with rfl | hmem
    · refine ⟨?_, hwf.lengthLine_return⟩
      exact List.append_ne_nil_of_right_ne_nil _ hwf.digits.1
    · exact hother (List.mem_append_right _ hmem)

theorem requestLine_return (hwf : q.WellFormed) : 13 ∉ q.requestLine := by
  intro hmem
  have htoken := hwf.token 13
  simp only [requestLine, List.mem_append] at hmem htoken
  have hblank : 13 ∉ lit " " := by decide
  tauto

/-- The blank line is found where the head ends. -/
theorem headEnd (hwf : q.WellFormed) (more : Bytes) :
    find (q.head ++ crlf ++ crlf ++ more) (crlf ++ crlf) 0 = some q.head.length := by
  rw [find_zero, q.head_eq]
  exact findFirst_blank hwf.requestLine_return hwf.fields_lines more

/-- The line that is parsed into method and target. -/
theorem firstLine (hwf : q.WellFormed) (more : Bytes) :
    find (q.head ++ crlf ++ crlf ++ more) crlf 0 = some q.requestLine.length := by
  obtain ⟨rest, hrest⟩ : ∃ rest, joined q.fields = crlf ++ rest := by
    unfold fields
    cases q.before with
    | nil => exact ⟨_, joined_cons _ _⟩
    | cons line lines => exact ⟨_, joined_cons _ _⟩
  have hregroup : q.head ++ crlf ++ crlf ++ more =
      q.requestLine ++ (crlf ++ (rest ++ crlf ++ crlf ++ more)) := by
    rw [q.head_eq, hrest]
    simp only [List.append_assoc]
  rw [find_zero, hregroup]
  exact findFirst_break hwf.requestLine_return _

/-- The blanks of the request line stand after the method and after the target. -/
theorem blanks (hwf : q.WellFormed) :
    find q.requestLine [32] 0 = some q.method.length ∧
      find q.requestLine [32] (q.method.length + 1) =
        some (q.method.length + 1 + q.target.length) := by
  have hmethod : (32 : UInt8) ∉ q.method := by
    intro hmem
    exact (hwf.token 32 (by simp [hmem])).1 rfl
  have htarget : (32 : UInt8) ∉ q.target := by
    intro hmem
    exact (hwf.token 32 (by simp [hmem])).1 rfl
  have hline : q.requestLine = q.method ++ (32 :: (q.target ++ (32 :: q.version))) := by
    have hblank : lit " " = [32] := by decide
    simp [requestLine, hblank]
  constructor
  · rw [find_zero, hline, findFirst_append hmethod]
    simp [findFirst, List.isPrefixOf]
  · have hlength : q.method.length + 1 ≤ q.requestLine.length := by
      rw [hline]
      simp only [List.length_append, List.length_cons]
      omega
    have hdrop : q.requestLine.drop (q.method.length + 1) = q.target ++ (32 :: q.version) := by
      rw [hline, List.drop_append, List.drop_eq_nil_of_le (by omega)]
      simp
    rw [find, if_pos hlength, hdrop, findFirst_append htarget]
    simp [findFirst, List.isPrefixOf]
    omega

/-- The first announcement of a length stands where the opening ends, however
much of the body has arrived with the head. -/
theorem announcement (hwf : q.WellFormed) (more : Bytes) :
    find (toLower (q.head ++ crlf ++ crlf ++ more)) (lit "content-length:") 0 =
      some q.opening.length := by
  have hneedle : (lit "content-length:").length = 15 := by decide
  have hhead : q.opening.length + 15 ≤ q.head.length := by
    have hname := congrArg List.length hwf.name
    rw [length_toLower, hneedle] at hname
    simp only [head, lengthLine, List.length_append]
    omega
  have hwithin : ∀ i ≤ q.opening.length,
      OccursAt (lit "content-length:") (toLower (q.head ++ crlf ++ crlf ++ more)) i ↔
        OccursAt (lit "content-length:") (toLower q.head) i := by
    intro i hi
    rw [List.append_assoc, List.append_assoc, toLower_append]
    apply OccursAt.append_iff
    rw [length_toLower, hneedle]
    omega
  rw [find_zero]
  apply findFirst_eq_some
  · rw [hwithin _ (Nat.le_refl _), OccursAt, head, List.append_assoc, toLower_append,
      List.drop_left' (length_toLower _)]
    simp only [lengthLine, toLower_append, hwf.name, List.append_assoc]
    exact List.prefix_append _ _
  · decide
  · intro i hi
    rw [hwithin i (Nat.le_of_lt hi)]
    exact hwf.first i hi

/-- The lowered text around the announced length. -/
theorem lowered (hwf : q.WellFormed) (more : Bytes) :
    ∃ rest, toLower (q.head ++ crlf ++ crlf ++ more) =
      toLower q.opening ++
        (lit "content-length:" ++ ((q.space ++ q.digits) ++ (crlf ++ rest))) := by
  obtain ⟨rest, hrest⟩ : ∃ rest, joined q.after ++ crlf ++ crlf ++ more = crlf ++ rest := by
    cases q.after with
    | nil => exact ⟨crlf ++ more, rfl⟩
    | cons line lines =>
        rw [joined_cons]
        simp only [List.append_assoc]
        exact ⟨_, rfl⟩
  have hspace : toLower q.space = q.space := by
    apply toLower_eq_self
    intro c hc
    rcases hwf.space c hc with rfl | rfl
    · decide
    · decide
  have hdigits : toLower q.digits = q.digits := by
    apply toLower_eq_self
    intro c hc hcapital
    obtain ⟨_, hhigh⟩ := isDigit_iff.mp (hwf.digits.2 c hc)
    have hlow : 65 ≤ c.toNat := UInt8.le_iff_toNat_le.mp hcapital.1
    omega
  have hbreak : toLower crlf = crlf := by decide
  have hregroup : q.head ++ crlf ++ crlf ++ more =
      q.opening ++ (q.name ++ ((q.space ++ q.digits) ++ (crlf ++ rest))) := by
    rw [← hrest]
    simp [head, lengthLine]
  refine ⟨toLower rest, ?_⟩
  rw [hregroup]
  simp only [toLower_append, hwf.name, hspace, hdigits, hbreak]

theorem contentLength (hwf : q.WellFormed) (more : Bytes) :
    parseContentLength (toLower (q.head ++ crlf ++ crlf ++ more)) = q.body.length := by
  obtain ⟨rest, hlower⟩ := hwf.lowered more
  have hannounced := hwf.announcement more
  have hneedle : (lit "content-length:").length = 15 := by decide
  have hvalue : 13 ∉ lit "content-length:" ++ (q.space ++ q.digits) := by
    rw [List.mem_append, List.mem_append]
    rintro (hmem | hmem | hmem)
    · exact absurd hmem (by decide)
    · exact absurd (hwf.space 13 hmem) (by decide)
    · exact absurd (hwf.digits.2 13 hmem) (by decide)
  rw [hlower] at hannounced ⊢
  generalize hstart : toLower q.opening = opening at hannounced ⊢
  have hlength : opening.length = q.opening.length := by rw [← hstart, length_toLower]
  have heol : find (opening ++ (lit "content-length:" ++ ((q.space ++ q.digits) ++ (crlf ++ rest))))
      crlf q.opening.length =
      some (15 + (q.space ++ q.digits).length + q.opening.length) := by
    rw [find, if_pos (by rw [List.length_append]; omega), List.drop_left' hlength,
      ← List.append_assoc (lit "content-length:"), findFirst_break hvalue, List.length_append,
      hneedle]
    rfl
  have hval : substr (opening ++
        (lit "content-length:" ++ ((q.space ++ q.digits) ++ (crlf ++ rest))))
      (q.opening.length + 15)
      (15 + (q.space ++ q.digits).length + q.opening.length - (q.opening.length + 15)) =
        q.space ++ q.digits := by
    have hprefix : (opening ++ lit "content-length:").length = q.opening.length + 15 := by
      rw [List.length_append, hneedle, hlength]
    have hcount : 15 + (q.space ++ q.digits).length + q.opening.length - (q.opening.length + 15) =
        (q.space ++ q.digits).length := by omega
    rw [← List.append_assoc opening, ← hprefix, hprefix, hcount, ← hprefix]
    exact substr_append _ _ _
  have hspaces : ∀ c ∈ q.space, isSpace c = true := by
    intro c hc
    rcases hwf.space c hc with rfl | rfl
    · decide
    · decide
  have hstoul := stoul_digits hspaces hwf.digits.2 hwf.digits.1
    (by rw [hwf.length]; exact hwf.length_lt)
  simp only [parseContentLength, hannounced, heol, hval, hstoul, Option.getD_some]
  exact hwf.length

/-- What a head parses to, however much of the body follows it in the buffer. -/
theorem parseRequestLine_eq (hwf : q.WellFormed) (more : Bytes) :
    parseRequestLine (q.head ++ crlf ++ crlf ++ more) =
      ⟨q.method, q.target.takeWhile fun c => c ≠ 63, q.head.length, q.body.length⟩ := by
  have hline := hwf.firstLine more
  have hend := hwf.headEnd more
  have hlength := hwf.contentLength more
  obtain ⟨hfirst, hsecond⟩ := hwf.blanks
  have hcut : substr (q.head ++ crlf ++ crlf ++ more) 0 q.requestLine.length = q.requestLine := by
    rw [q.head_eq, List.append_assoc, List.append_assoc, List.append_assoc]
    exact substr_zero _ _
  have hblank : lit " " = [32] := by decide
  have hmethod : substr q.requestLine 0 q.method.length = q.method := by
    rw [requestLine, List.append_assoc, List.append_assoc, List.append_assoc]
    exact substr_zero _ _
  have htarget : substr q.requestLine (q.method.length + 1)
      (q.method.length + 1 + q.target.length - q.method.length - 1) = q.target := by
    have hprefix : (q.method ++ lit " ").length = q.method.length + 1 := by
      rw [hblank, List.length_append, List.length_singleton]
    have hcount : q.method.length + 1 + q.target.length - q.method.length - 1 =
        q.target.length := by
      omega
    rw [hcount, ← hprefix, requestLine, List.append_assoc, List.append_assoc]
    exact substr_append _ _ _
  have hmark : lit "?" = [63] := by decide
  have hquery : find q.target (lit "?") 0 =
      if 63 ∈ q.target then some (q.target.takeWhile fun c => c ≠ 63).length else none := by
    rw [find_zero, hmark, findFirst_byte]
  simp only [parseRequestLine, hline, hcut, hfirst, Option.map_some, Option.getD_some, hsecond,
    hmethod, htarget, hquery, hend, hlength]
  by_cases hmem : 63 ∈ q.target
  · rw [if_pos hmem]
    have hpath : (q.target.takeWhile fun c => decide (c ≠ 63)) =
        q.target.take (q.target.takeWhile fun c => decide (c ≠ 63)).length :=
      List.prefix_iff_eq_take.mp (List.takeWhile_prefix _)
    dsimp only [substr]
    rw [List.drop_zero, ← hpath]
  · rw [if_neg hmem]
    have hpath : (q.target.takeWhile fun c => decide (c ≠ 63)) = q.target := by
      rw [List.takeWhile_eq_self_iff]
      exact fun c hc => decide_eq_true fun heq => hmem (heq ▸ hc)
    rw [hpath]

end WellFormed

end HttpRequest

/-! ## Putting the pieces together -/

/-- With enough calls that return bytes, the head and the body are read as they
were written. -/
theorem readRequest_whole {q : HttpRequest} (hwf : q.WellFormed) {script : List ReadOutcome}
    (hfails : .failed ∉ script) (hcalls : q.text.length ≤ script.countP ReadOutcome.isBytes) :
    ∃ buf more, readRequest script q.text = some (some (buf, more)) ∧
      parseRequestLine buf =
        ⟨q.method, q.target.takeWhile fun c => c ≠ 63, q.head.length, q.body.length⟩ ∧
      bodyRaw buf more = q.body := by
  have hblock : (q.head ++ crlf ++ crlf).length = q.head.length + 4 := by
    simp only [List.length_append]
    rfl
  have hend : findFirst (crlf ++ crlf) (q.head ++ crlf ++ crlf) =
      some ((q.head ++ crlf ++ crlf).length - 4) := by
    have hhead := hwf.headEnd []
    rwa [List.append_nil, find_zero, ← Nat.add_sub_cancel q.head.length 4, ← hblock] at hhead
  have hlength : ∀ more, (parseRequestLine (q.head ++ crlf ++ crlf ++ more)).contentLength =
      q.body.length := by
    intro more
    rw [hwf.parseRequestLine_eq]
  rcases readRequest_block hend hlength (Nat.le_refl _) hfails hcalls with
    ⟨⟨total, _, hlimit, hshort⟩, _⟩ | ⟨_, arrived, more, _, hread, hbody⟩
  · have hfits := hwf.head_le
    omega
  · refine ⟨_, more, hread, hwf.parseRequestLine_eq _, ?_⟩
    rw [hbody, List.take_of_length_le (Nat.le_max_right _ _)]

/-- Calls that keep returning bytes return bytes as often as one likes. -/
theorem exists_calls {script : Nat → ReadOutcome}
    (hbytes : ∀ n, ∃ m ≥ n, (script m).isBytes = true) (count : Nat) :
    ∃ calls, ∀ n ≥ calls, count ≤ ((List.range n).map script).countP ReadOutcome.isBytes := by
  induction count with
  | zero => exact ⟨0, fun _ _ => Nat.zero_le _⟩
  | succ count ih =>
      obtain ⟨calls, hcalls⟩ := ih
      obtain ⟨call, hlater, hcall⟩ := hbytes calls
      refine ⟨call + 1, fun n hn => ?_⟩
      have hprior := hcalls call hlater
      have hnext : count + 1 ≤ ((List.range (call + 1)).map script).countP ReadOutcome.isBytes := by
        rw [List.range_succ, List.map_append, List.countP_append]
        simp only [List.map_singleton, List.countP_singleton, hcall, if_true]
        omega
      have hsub := (List.range_sublist.mpr hn).map script
      exact hnext.trans hsub.countP_le

/-- However the bytes of a well-formed request are split, and whatever calls
return without bytes in between, method, path and body come out as written. -/
theorem request_reassembled {q : HttpRequest} (hwf : q.WellFormed) {script : Nat → ReadOutcome}
    (hfails : ∀ n, script n ≠ .failed) (hbytes : ∀ n, ∃ m ≥ n, (script m).isBytes = true) :
    ∃ calls, ∀ n ≥ calls, ∃ buf more,
      readRequest ((List.range n).map script) q.text = some (some (buf, more)) ∧
        (parseRequestLine buf).method = q.method ∧
        (parseRequestLine buf).path = (q.target.takeWhile fun c => c ≠ 63) ∧
        bodyRaw buf more = q.body := by
  obtain ⟨calls, hcalls⟩ := exists_calls hbytes q.text.length
  refine ⟨calls, fun n hn => ?_⟩
  have hnever : .failed ∉ (List.range n).map script := by
    rw [List.mem_map]
    rintro ⟨m, _, hm⟩
    exact hfails m hm
  obtain ⟨buf, more, hread, hparse, hbody⟩ := readRequest_whole hwf hnever (hcalls n hn)
  refine ⟨buf, more, hread, ?_, ?_, hbody⟩
  · rw [hparse]
  · rw [hparse]

/-- A request whose body has a blank line and a header of its own. -/
def sampleRequest : HttpRequest where
  method := lit "POST"
  target := lit "/api/connect?x=1"
  version := lit "HTTP/1.1"
  before := [lit "Host: sim"]
  name := lit "content-LENGTH:"
  space := lit " "
  digits := lit "25"
  after := [lit "Accept: */*"]
  body := lit "a\r\n\r\nContent-Length: 99\r\n"

/-- Single bytes, with a `WANT_READ` before each. -/
def byteByByte (n : Nat) : ReadOutcome := if n % 2 = 0 then .wantRead else .bytes 0

theorem sampleRequest_reassembled :
    ∃ calls, ∀ n ≥ calls, ∃ buf more,
      readRequest ((List.range n).map byteByByte) sampleRequest.text = some (some (buf, more)) ∧
        (parseRequestLine buf).method = lit "POST" ∧
        (parseRequestLine buf).path = lit "/api/connect" ∧
          bodyRaw buf more = sampleRequest.body := by
  have hwf : sampleRequest.WellFormed :=
    { token := by decide +kernel
      lines := by decide +kernel
      name := by decide +kernel
      space := by decide +kernel
      digits := by decide +kernel
      length := by decide +kernel
      length_lt := by decide +kernel
      first := by decide +kernel
      head_le := by decide +kernel }
  have hfails : ∀ n, byteByByte n ≠ .failed := by
    intro n
    unfold byteByByte
    split <;> nofun
  have hbytes : ∀ n, ∃ m ≥ n, (byteByByte m).isBytes = true := by
    intro n
    refine ⟨2 * n + 1, by omega, ?_⟩
    rw [byteByByte, if_neg (by omega)]
    rfl
  have hpath : (sampleRequest.target.takeWhile fun c => c ≠ 63) = lit "/api/connect" := by
    decide +kernel
  have hwhole := request_reassembled hwf hfails hbytes
  rw [hpath] at hwhole
  exact hwhole

end SimVision
