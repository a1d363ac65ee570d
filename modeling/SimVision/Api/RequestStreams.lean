import SimVision.Api.ContentLength
import SimVision.Api.RequestReading

/-! # What follows a request

A client may send more than the request it announces. What `SSL_read` returns
together with the end of the head goes into the body, up to the announced length
and past it.
-/

namespace SimVision

open Foundation

/-! ## Requests in a stream -/

/-- A head with its blank line, and the body that it announces. The first mention
of a length in the head is the header line, whose value is that of the body. -/
structure FramedRequest where
  block : Bytes
  body : Bytes
  lengthLine : Bytes
  ends : findFirst (crlf ++ crlf) block = some (block.length - 4)
  announced : (headerLines block).find? isLengthLine = some lengthLine
  mentioned : ((requestLines block).find? fun line => (mention line).isSome) = some lengthLine
  decimal : isDecimal (fieldValue lengthLine) = true
  length : decimalValue (fieldValue lengthLine) = body.length
  length_lt : body.length < wordSize

namespace FramedRequest

variable (q : FramedRequest)

def text : Bytes := q.block ++ q.body

theorem four_le : 4 ≤ q.block.length := by
  have hwithin := (findFirst_some q.ends).1.length_le (by decide)
  have hblank : (crlf ++ crlf).length = 4 := rfl
  omega

/-- The lines of the head stay the same when more follows it. -/
theorem block_lines :
    ∃ lines, ∀ more, requestLines (q.block ++ more) = lines ++ requestLines more := by
  obtain ⟨front, hfront⟩ : ∃ front, q.block = front ++ (crlf ++ crlf) := by
    have hoccurs := (findFirst_some q.ends).1
    refine ⟨q.block.take (q.block.length - 4), ?_⟩
    have hblank : q.block.drop (q.block.length - 4) = crlf ++ crlf := by
      refine (hoccurs.eq_of_length ?_).symm
      have hfour := q.four_le
      rw [List.length_drop]
      change 4 = _
      omega
    rw [← hblank, List.take_append_drop]
  refine ⟨linesBy 13 10 (front ++ crlf), fun more => ?_⟩
  rw [hfront, ← List.append_assoc front, List.append_assoc (front ++ crlf)]
  exact linesBy_append (by decide) (front ++ crlf) more

theorem mentioned_append (more : Bytes) :
    ((requestLines (q.block ++ more)).find? fun line => (mention line).isSome) =
      some q.lengthLine := by
  obtain ⟨lines, hlines⟩ := q.block_lines
  have hblock := q.mentioned
  have hempty : ([[]].find? fun line : Bytes => (mention line).isSome) = none := by decide
  have hnothing : requestLines [] = [[]] := rfl
  rw [← List.append_nil q.block, hlines, List.find?_append, hnothing, hempty,
    Option.or_none] at hblock
  rw [hlines, List.find?_append, hblock]
  rfl

/-- The announced length is read, whatever follows the head. -/
theorem contentLength_append (more : Bytes) :
    (parseRequestLine (q.block ++ more)).contentLength = q.body.length := by
  have hline : isLengthLine q.lengthLine = true := List.find?_some q.announced
  rw [contentLength_lines, q.mentioned_append]
  apply (lengthLine_read_iff hline).mpr (.inl q.decimal)
  rw [lineLength, if_pos q.decimal, if_pos (by rw [q.length]; exact q.length_lt), q.length]

/-- The path is read from the first line, whatever follows the head. -/
theorem path_append (more : Bytes) :
    (parseRequestLine (q.block ++ more)).path = (parseRequestLine q.block).path := by
  obtain ⟨lineEnd, hbreak⟩ : ∃ i, findFirst crlf q.block = some i := by
    have hoccurs : OccursAt crlf q.block (q.block.length - 4) :=
      (List.prefix_append crlf crlf).trans (findFirst_some q.ends).1
    exact Option.ne_none_iff_exists'.mp (findFirst_ne_none hoccurs (by decide))
  have hwithin := (findFirst_some hbreak).1.length_le (by decide)
  have hblock : find q.block crlf 0 = some lineEnd := by rw [find_zero, hbreak]
  have hmore : find (q.block ++ more) crlf 0 = some lineEnd := by
    rw [find_zero]
    exact findFirst_append_of_some hbreak (by decide) more
  have hline : substr (q.block ++ more) 0 lineEnd = substr q.block 0 lineEnd := by
    rw [substr, substr, List.drop_zero, List.drop_zero, List.take_append_of_le_length (by omega)]
  simp only [parseRequestLine, hblock, hmore, hline]

end FramedRequest

/-- The outcomes of `SSL_read` that split a whole stream into chunks. -/
structure Split (stream : Bytes) where
  script : List ReadOutcome
  unfailed : .failed ∉ script
  covers : stream.length ≤ script.countP ReadOutcome.isBytes

namespace Split

variable {stream : Bytes} (split : Split stream)

/-- What is handed over of the request: its path and the bytes of its body, which
the command is computed from, or nothing if the connection is dropped. -/
def request : Option (Option (Bytes × Bytes)) :=
  (readRequest split.script stream).map fun read =>
    read.map fun (buf, more) => ((parseRequestLine buf).path, bodyRaw buf more)

end Split

namespace FramedRequest

variable (q : FramedRequest) {extra : Bytes}

/-- The connection is dropped before the head is complete. -/
def Dropped (split : Split (q.text ++ extra)) : Prop :=
  Overruns q.block.length (runningTotals 0 split.script)

/-- The bytes behind the request that arrive with the end of its head. -/
def surplus (split : Split (q.text ++ extra)) : Bytes :=
  extra.take (arrival q.block.length (runningTotals 0 split.script) - q.text.length)

instance (split : Split (q.text ++ extra)) : Decidable (q.Dropped split) :=
  inferInstanceAs (Decidable (Overruns _ _))

/-- What a stream is read as: the body goes on with the surplus. -/
theorem request_eq (split : Split (q.text ++ extra)) :
    split.request = some (if q.Dropped split then none
      else some ((parseRequestLine q.block).path, q.body ++ q.surplus split)) := by
  have hwhole : q.text ++ extra = q.block ++ (q.body ++ extra) := List.append_assoc _ _ _
  have hcovers : (q.block ++ (q.body ++ extra)).length ≤
      split.script.countP ReadOutcome.isBytes := by
    rw [← hwhole]
    exact split.covers
  have hwant : q.body.length ≤ (q.body ++ extra).length := by
    rw [List.length_append]
    omega
  rcases readRequest_block q.ends q.contentLength_append hwant split.unfailed hcovers with
    ⟨hdropped, hread⟩ | ⟨hkept, arrived, more, harrived, hread, hbody⟩
  · have hdropped : q.Dropped split := hdropped
    rw [← hwhole] at hread
    rw [if_pos hdropped, Split.request, hread]
    rfl
  · have hkept : ¬ q.Dropped split := hkept
    have hsurplus : q.surplus split =
        extra.take (max arrived q.body.length - q.body.length) := by
      have htext : q.text.length = q.block.length + q.body.length := List.length_append
      rw [surplus, htext, harrived]
      congr 1
      omega
    rw [← hwhole] at hread
    rw [if_neg hkept, Split.request, hread, hsurplus]
    simp only [Option.map_some, q.path_append, hbody]
    rw [List.take_append, List.take_of_length_le (Nat.le_max_right _ _)]

end FramedRequest

/-- Two streams are read as one request: both are dropped, or path and body agree. -/
def SameRequest {first second : Bytes} (a : Split first) (b : Split second) : Prop :=
  ∃ outcome, a.request = some outcome ∧ b.request = some outcome

/-- Streams that go on differently behind one request are read as the same request
if and only if both are dropped, or neither is and the same bytes behind the request
arrive with the end of its head. -/
theorem sameRequest_iff (q : FramedRequest) {first second : Bytes} (a : Split (q.text ++ first))
    (b : Split (q.text ++ second)) :
    SameRequest a b ↔
      (q.Dropped a ↔ q.Dropped b) ∧ (¬ q.Dropped a → q.surplus a = q.surplus b) := by
  have hsame : SameRequest a b ↔ a.request = b.request := by
    constructor
    · rintro ⟨outcome, ha, hb⟩
      exact ha.trans hb.symm
    · intro heq
      exact ⟨_, q.request_eq a, heq ▸ q.request_eq a⟩
  rw [hsame, q.request_eq a, q.request_eq b, Option.some.injEq]
  by_cases ha : q.Dropped a
  · by_cases hb : q.Dropped b
    · simp [ha, hb]
    · simp [ha, hb]
  · by_cases hb : q.Dropped b
    · simp [ha, hb]
    · simp [ha, hb]

/-- A request without a body. -/
def emptyBody : FramedRequest where
  block := lit "POST / HTTP/1.1\r\nContent-Length: 0\r\n\r\n"
  body := []
  lengthLine := lit "Content-Length: 0"
  ends := by decide
  announced := by decide
  mentioned := by decide
  decimal := by decide
  length := by decide
  length_lt := by decide

/-- A command behind the request. -/
def pipelined : Bytes := lit "\x7b\"command\":\"connect\"\x7d"

/-- Everything in one chunk, and the head in a chunk of its own. -/
def oneChunk : Split (emptyBody.text ++ pipelined) where
  script := .bytes 2000 :: List.replicate 60 (.bytes 0)
  unfailed := by decide
  covers := by decide +kernel

def twoChunks : Split (emptyBody.text ++ pipelined) where
  script := .bytes 37 :: List.replicate 60 (.bytes 0)
  unfailed := by decide
  covers := by decide +kernel

/-- A command that arrives with the head of an empty request becomes its body. -/
theorem pipelined_becomesBody :
    ¬ ∀ (q : FramedRequest) (first second : Bytes) (a : Split (q.text ++ first))
      (b : Split (q.text ++ second)), SameRequest a b := by
  intro hclaim
  obtain ⟨outcome, ha, hb⟩ := hclaim emptyBody pipelined pipelined oneChunk twoChunks
  rw [emptyBody.request_eq oneChunk, if_neg (by decide)] at ha
  rw [emptyBody.request_eq twoChunks, if_neg (by decide)] at hb
  have hbody := congrArg (Option.map (Option.map Prod.snd)) (ha.trans hb.symm)
  exact absurd hbody (by decide)

end SimVision
