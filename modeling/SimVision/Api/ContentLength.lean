import SimVision.Api.AdminServer
import SimVision.Foundation.Lines

/-! # The announced length of a body

`parse_request_line` takes the length from the first `content-length:` in the whole
buffer, wherever it stands. What the header declares is found line by line, and the
two agree when that first mention is the header line, or happens to read as it.
-/

namespace SimVision

open Foundation

/-! ## What a header declares -/

/-- The lines of a request. -/
def requestLines (buf : Bytes) : List Bytes := linesBy 13 10 buf

/-- The lines between the request line and the first empty line. -/
def headerLines (buf : Bytes) : List Bytes :=
  (requestLines buf).tail.takeWhile fun line => line ≠ []

/-- The field name in front of the colon is `Content-Length`, in any letter case. -/
def isLengthLine (line : Bytes) : Bool :=
  58 ∈ line && toLower (line.takeWhile fun c => c ≠ 58) = lit "content-length"

def isBlank (c : UInt8) : Bool := c = 32 || c = 9

/-- The text without the blanks around it. -/
def trimBlanks (s : Bytes) : Bytes := ((s.dropWhile isBlank).reverse.dropWhile isBlank).reverse

/-- The value of a header line. -/
def fieldValue (line : Bytes) : Bytes := trimBlanks ((line.dropWhile fun c => c ≠ 58).drop 1)

def isDecimal (value : Bytes) : Bool := value ≠ [] && value.all isDigit

/-- The length that the line stands for: 0 unless its value is a number, and
unspecified if that is too large for `size_t`. -/
def lineLength (line : Bytes) : Option Nat :=
  if isDecimal (fieldValue line) then
    if decimalValue (fieldValue line) < wordSize then some (decimalValue (fieldValue line))
    else none
  else some 0

/-- The length that the first header line of this name declares. -/
def declaredLength (buf : Bytes) : Option Nat :=
  match (headerLines buf).find? isLengthLine with
  | none => some 0
  | some line => lineLength line

/-- The length comes from the header line alone. -/
def LengthFromHeader (buf : Bytes) : Prop :=
  ∀ length, declaredLength buf = some length → (parseRequestLine buf).contentLength = length

/-! ## What is read -/

/-- Where the line first mentions a length, in any letter case. -/
def mention (line : Bytes) : Option Nat := findFirst (lit "content-length:") (toLower line)

/-- The line mentions a length, and this number is read behind its first mention:
0 if there is none that `std::stoul` accepts. -/
def ReadsAs (line : Bytes) (length : Nat) : Prop :=
  ∃ i, mention line = some i ∧ (stoul ((toLower line).drop (i + 15))).getD 0 = length

/-- No line mentions a length. Or the first that does is the header line, and its
value is a decimal number or reads as 0. Or that line is another, and the same
number stands behind its mention. -/
def MentionsAgree (buf : Bytes) : Prop :=
  match (requestLines buf).find? fun line => (mention line).isSome with
  | none => True
  | some line =>
      match (headerLines buf).find? isLengthLine with
      | none => ReadsAs line 0
      | some declared =>
          if line = declared then isDecimal (fieldValue line) = true ∨ ReadsAs line 0
          else ∀ length, lineLength declared = some length → ReadsAs line length

/-! ## The search, line by line -/

variable {s needle buf line value : Bytes}

/-- The number behind the first mention in a text that is lower-cased. -/
def numberIn (line : Bytes) : Nat :=
  match findFirst (lit "content-length:") line with
  | none => 0
  | some i => (stoul (line.drop (i + 15))).getD 0

theorem parseContentLength_line (hbreak : findFirst crlf s = none) :
    parseContentLength s = numberIn s := by
  unfold parseContentLength numberIn
  rw [find_zero]
  cases findFirst (lit "content-length:") s with
  | none => rfl
  | some pos =>
      dsimp only
      rw [find_eq_none hbreak (by decide)]

/-- Lines without a mention do not matter. -/
theorem parseContentLength_skip {first second : Bytes}
    (hskip : findFirst (lit "content-length:") (first ++ second) =
      (findFirst (lit "content-length:") second).map (· + first.length)) :
    parseContentLength (first ++ second) = parseContentLength second := by
  unfold parseContentLength
  rw [find_zero, find_zero, hskip]
  cases findFirst (lit "content-length:") second with
  | none => rfl
  | some pos =>
      have heol : find (first ++ second) crlf (pos + first.length) =
          (find second crlf pos).map (· + first.length) := by
        rw [Nat.add_comm, find_append_right]
      have hdrop : (first ++ second).drop (pos + first.length + 15) = second.drop (pos + 15) := by
        rw [show pos + first.length + 15 = first.length + (pos + 15) by omega,
          List.drop_length_add_append]
      simp only [Option.map_some, heol]
      cases find second crlf pos with
      | none => rw [Option.map_none, hdrop]
      | some eol =>
          simp only [Option.map_some, substr, hdrop]
          rw [show eol + first.length - (pos + first.length + 15) = eol - (pos + 15) by omega]

/-- A mention in the first line is read to the end of the line. -/
theorem parseContentLength_first {first rest : Bytes} {i : Nat}
    (hbreak : findFirst crlf (first ++ crlf ++ rest) = some first.length)
    (hmention : findFirst (lit "content-length:") first = some i)
    (hfound : findFirst (lit "content-length:") (first ++ crlf ++ rest) = some i) :
    parseContentLength (first ++ crlf ++ rest) = (stoul (first.drop (i + 15))).getD 0 := by
  have hwithin := (findFirst_some hmention).1.length_le (by decide)
  have hneedle : (lit "content-length:").length = 15 := by decide
  rw [hneedle] at hwithin
  unfold parseContentLength
  rw [find_zero, hfound]
  dsimp only
  rw [find_of_le hbreak (by decide) (by omega)]
  dsimp only
  rw [substr, List.append_assoc, List.drop_append_of_le_length hwithin]
  have hlength : first.length - (i + 15) = (first.drop (i + 15)).length := by rw [List.length_drop]
  rw [hlength, List.take_left]

/-- A string is cut at its first line break. -/
theorem cut_at_break {i : Nat} (hbreak : findFirst crlf s = some i) :
    s.take i ++ crlf ++ s.drop (i + 2) = s ∧ (s.take i).length = i := by
  have hoccurs := (findFirst_some hbreak).1
  have hwithin : i + 2 ≤ s.length := hoccurs.length_le (by decide)
  obtain ⟨rest, hrest⟩ := hoccurs
  constructor
  · rw [List.append_assoc, ← List.drop_drop, ← hrest]
    change s.take i ++ (crlf ++ rest) = s
    rw [hrest, List.take_append_drop]
  · rw [List.length_take]
    omega

/-- A mention is in the first line or behind the line break. -/
theorem findFirst_mention (first rest : Bytes) :
    findFirst (lit "content-length:") (first ++ crlf ++ rest) =
      (findFirst (lit "content-length:") first).or
        ((findFirst (lit "content-length:") rest).map (· + (first.length + 2))) := by
  have hneedle : lit "content-length:" ≠ [] := by decide
  have hreturn : 13 ∉ lit "content-length:" := by decide
  have hfeed : 10 ∉ lit "content-length:" := by decide
  have hrest : findFirst (lit "content-length:") (10 :: rest) =
      (findFirst (lit "content-length:") rest).map (· + 1) :=
    @findFirst_append_cons 10 (lit "content-length:") [] rest hneedle hfeed
  rw [List.append_assoc]
  change findFirst _ (first ++ 13 :: 10 :: rest) = _
  rw [findFirst_append_cons hneedle hreturn, hrest, Option.map_map]
  refine congrArg (Option.or _) (congrArg (Option.map · _) (funext fun i => ?_))
  simp only [Function.comp_apply]
  omega

/-- The length is read from the first line that mentions one. -/
theorem parseContentLength_lines (s : Bytes) : parseContentLength s =
    (((linesBy 13 10 s).find? fun line => (findFirst (lit "content-length:") line).isSome).map
      numberIn).getD 0 := by
  induction hlength : s.length using Nat.strong_induction_on generalizing s with
  | _ n ih =>
      cases hbreak : findFirst crlf s with
      | none =>
          rw [parseContentLength_line hbreak, linesBy_of_none hbreak, List.find?_singleton]
          cases hmention : findFirst (lit "content-length:") s with
          | none => simp [numberIn, hmention]
          | some i => simp
      | some i =>
          obtain ⟨hcut, hfirst⟩ := cut_at_break hbreak
          have hshorter : (s.drop (i + 2)).length < n := by
            have hwithin := (findFirst_some hbreak).1.length_le (by decide)
            have htwo : crlf.length = 2 := rfl
            rw [List.length_drop]
            omega
          have hmention := findFirst_mention (s.take i) (s.drop (i + 2))
          rw [linesBy_of_some hbreak, List.find?_cons]
          cases hline : findFirst (lit "content-length:") (s.take i) with
          | some j =>
              have hread : parseContentLength (s.take i ++ crlf ++ s.drop (i + 2)) =
                  (stoul ((s.take i).drop (j + 15))).getD 0 := by
                apply parseContentLength_first _ hline
                · rw [hmention, hline]
                  rfl
                · rw [hcut, hfirst]
                  exact hbreak
              rw [hcut] at hread
              simp only [Option.isSome_some, Option.map_some, Option.getD_some, numberIn, hline]
              exact hread
          | none =>
              rw [hline, Option.none_or] at hmention
              have hskip : parseContentLength (s.take i ++ crlf ++ s.drop (i + 2)) =
                  parseContentLength (s.drop (i + 2)) := by
                apply parseContentLength_skip
                rw [hmention, List.length_append]
                rfl
              rw [hcut] at hskip
              rw [hskip, ih _ hshorter _ rfl]
              rfl

/-- The length of a request is read from the first line that mentions one. -/
theorem contentLength_lines (buf : Bytes) : (parseRequestLine buf).contentLength =
    (((requestLines buf).find? fun line => (mention line).isSome).map
      fun line => numberIn (toLower line)).getD 0 := by
  change parseContentLength (toLower buf) = _
  rw [parseContentLength_lines, toLower, linesBy_map (fun _ => toLowerByte_eq_iff (by decide))
    (fun _ => toLowerByte_eq_iff (by decide)), List.find?_map, Option.map_map]
  rfl

/-! ## The header line -/

theorem colon_notMem {name : Bytes} (hname : toLower name = lit "content-length") : 58 ∉ name := by
  rw [← mem_toLower_iff (by decide), hname]
  decide

/-- The field name and the rest of a line with a colon. -/
theorem span_colon {name : Bytes} (hname : 58 ∉ name) (value : Bytes) :
    ((name ++ 58 :: value).takeWhile fun c => c ≠ 58) = name ∧
      ((name ++ 58 :: value).dropWhile fun c => c ≠ 58) = 58 :: value := by
  have hplain : ∀ c ∈ name, decide (c ≠ 58) = true :=
    fun c hc => decide_eq_true fun heq => hname (heq ▸ hc)
  rw [List.takeWhile_append_of_pos hplain, List.dropWhile_append_of_pos hplain]
  simp

theorem isLengthLine_iff : isLengthLine line = true ↔
    ∃ name value, line = name ++ 58 :: value ∧ toLower name = lit "content-length" := by
  rw [isLengthLine, Bool.and_eq_true, decide_eq_true_eq, decide_eq_true_eq]
  constructor
  · rintro ⟨hcolon, hname⟩
    obtain ⟨name, value, rfl, hfree⟩ := List.eq_append_cons_of_mem hcolon
    rw [(span_colon hfree value).1] at hname
    exact ⟨name, value, rfl, hname⟩
  · rintro ⟨name, value, rfl, hname⟩
    rw [(span_colon (colon_notMem hname) value).1]
    exact ⟨List.mem_append_right _ List.mem_cons_self, hname⟩

section

variable {name : Bytes} (hname : toLower name = lit "content-length")

include hname

theorem toLower_lengthLine :
    toLower (name ++ 58 :: value) = lit "content-length:" ++ toLower value := by
  have hcolon : lit "content-length:" = lit "content-length" ++ [58] := by decide
  rw [toLower_append, hname, hcolon, List.append_assoc]
  rfl

/-- A header line mentions the length at its start. -/
theorem mention_lengthLine : mention (name ++ 58 :: value) = some 0 := by
  rw [mention, toLower_lengthLine hname]
  refine findFirst_eq_some (List.prefix_append _ _) (by decide) fun j hj => ?_
  exact absurd hj (Nat.not_lt_zero j)

theorem numberIn_lengthLine :
    numberIn (toLower (name ++ 58 :: value)) = (stoul (toLower value)).getD 0 := by
  have hmention : findFirst (lit "content-length:") (toLower (name ++ 58 :: value)) = some 0 :=
    mention_lengthLine hname
  have hneedle : (lit "content-length:").length = 15 := by decide
  rw [numberIn, hmention]
  dsimp only
  rw [toLower_lengthLine hname, Nat.zero_add, List.drop_left' hneedle]

theorem fieldValue_lengthLine : fieldValue (name ++ 58 :: value) = trimBlanks value := by
  rw [fieldValue, (span_colon (colon_notMem hname) value).2]
  rfl

end

theorem trimBlanks_spec (s : Bytes) : ∃ space trail, s = space ++ (trimBlanks s ++ trail) ∧
    (∀ c ∈ space, isBlank c = true) ∧ ∀ c ∈ trail, isBlank c = true := by
  refine ⟨s.takeWhile isBlank, ((s.dropWhile isBlank).reverse.takeWhile isBlank).reverse,
    ?_, ?_, ?_⟩
  · rw [trimBlanks, ← List.reverse_append, List.takeWhile_append_dropWhile, List.reverse_reverse,
      List.takeWhile_append_dropWhile]
  · exact fun c hc => List.mem_takeWhile_imp hc
  · exact fun c hc => List.mem_takeWhile_imp (List.mem_reverse.mp hc)

theorem isBlank_iff {c : UInt8} : isBlank c = true ↔ c = 32 ∨ c = 9 := by
  rw [isBlank, Bool.or_eq_true, decide_eq_true_eq, decide_eq_true_eq]

/-- A decimal value that fits is read as it stands. -/
theorem stoul_decimal (hdecimal : isDecimal (trimBlanks value) = true)
    (hfits : decimalValue (trimBlanks value) < wordSize) :
    stoul (toLower value) = some (decimalValue (trimBlanks value)) := by
  obtain ⟨space, trail, hvalue, hspace, htrail⟩ := trimBlanks_spec value
  rw [isDecimal, Bool.and_eq_true, decide_eq_true_eq, List.all_eq_true] at hdecimal
  generalize trimBlanks value = digits at hvalue hdecimal hfits ⊢
  obtain ⟨hsome, hdigits⟩ := hdecimal
  subst hvalue
  have hblank : ∀ c, isBlank c = true → ¬ (65 ≤ c ∧ c ≤ 90) := by
    intro c hc
    rcases isBlank_iff.mp hc with rfl | rfl
    · decide
    · decide
  have hdigit : ∀ c, isDigit c = true → ¬ (65 ≤ c ∧ c ≤ 90) := by
    intro c hc hcapital
    obtain ⟨_, hhigh⟩ := isDigit_iff.mp hc
    have hlow : 65 ≤ c.toNat := UInt8.le_iff_toNat_le.mp hcapital.1
    omega
  have hlower : toLower (space ++ (digits ++ trail)) = space ++ (digits ++ trail) := by
    apply toLower_eq_self
    intro c hc
    rcases List.mem_append.mp hc with hc | hc
    · exact hblank c (hspace c hc)
    rcases List.mem_append.mp hc with hc | hc
    · exact hdigit c (hdigits c hc)
    · exact hblank c (htrail c hc)
  rw [hlower]
  apply stoul_digits_append _ hdigits hsome hfits
  · intro c hc
    rcases isBlank_iff.mp (htrail c (List.mem_of_mem_head? hc)) with rfl | rfl
    · decide
    · decide
  · intro c hc
    rcases isBlank_iff.mp (hspace c hc) with rfl | rfl
    · decide
    · decide

/-! ## Agreement -/

theorem readsAs_iff (hmention : (mention line).isSome = true) (length : Nat) :
    ReadsAs line length ↔ numberIn (toLower line) = length := by
  obtain ⟨i, hi⟩ := Option.isSome_iff_exists.mp hmention
  have hnumber : numberIn (toLower line) = (stoul ((toLower line).drop (i + 15))).getD 0 := by
    unfold numberIn
    rw [show findFirst (lit "content-length:") (toLower line) = some i from hi]
  rw [hnumber]
  constructor
  · rintro ⟨j, hj, hread⟩
    obtain rfl := Option.some.inj (hi.symm.trans hj)
    exact hread
  · exact fun hread => ⟨i, hi, hread⟩

/-- A decimal header line is read as it declares, another one only by its number. -/
theorem lengthLine_read_iff (hline : isLengthLine line = true) :
    (∀ length, lineLength line = some length → numberIn (toLower line) = length) ↔
      isDecimal (fieldValue line) = true ∨ ReadsAs line 0 := by
  obtain ⟨name, value, rfl, hname⟩ := isLengthLine_iff.mp hline
  have hmention : (mention (name ++ 58 :: value)).isSome = true := by
    rw [mention_lengthLine hname]
    rfl
  rw [readsAs_iff hmention, lineLength]
  by_cases hdecimal : isDecimal (fieldValue (name ++ 58 :: value)) = true
  · rw [if_pos hdecimal]
    refine iff_of_true (fun length hlength => ?_) (.inl hdecimal)
    rw [fieldValue_lengthLine hname] at hdecimal hlength
    split at hlength
    next hfits =>
      rw [numberIn_lengthLine hname, stoul_decimal hdecimal hfits]
      exact Option.some.inj hlength
    next => contradiction
  · rw [if_neg hdecimal, or_iff_right hdecimal]
    exact ⟨fun hall => hall 0 rfl,
      fun hzero length hlength => hzero.trans (Option.some.inj hlength)⟩

/-- The length comes from the header line alone if and only if the first mention of
a length in the buffer agrees with it. -/
theorem lengthFromHeader_iff (buf : Bytes) : LengthFromHeader buf ↔ MentionsAgree buf := by
  have hheaders : ∀ line, (headerLines buf).find? isLengthLine = some line →
      line ∈ requestLines buf ∧ isLengthLine line = true := by
    intro line hfound
    have hmem := List.mem_of_find?_eq_some hfound
    exact ⟨List.mem_of_mem_tail ((List.takeWhile_sublist _).mem hmem), List.find?_some hfound⟩
  have hread := contentLength_lines buf
  unfold LengthFromHeader MentionsAgree declaredLength
  cases hfind : (requestLines buf).find? fun line => (mention line).isSome with
  | none =>
      rw [hfind] at hread
      refine iff_of_true ?_ trivial
      cases hdeclared : (headerLines buf).find? isLengthLine with
      | none =>
          intro length hlength
          rw [hread]
          exact Option.some.inj hlength
      | some line =>
          obtain ⟨hmem, hline⟩ := hheaders line hdeclared
          obtain ⟨name, value, rfl, hname⟩ := isLengthLine_iff.mp hline
          have hunmentioned := List.find?_eq_none.mp hfind _ hmem
          rw [mention_lengthLine hname] at hunmentioned
          exact absurd rfl hunmentioned
  | some line =>
      have hmention : (mention line).isSome = true :=
        @List.find?_some _ (fun line => (mention line).isSome) line _ hfind
      rw [hfind] at hread
      simp only [Option.map_some, Option.getD_some] at hread
      rw [hread]
      cases hdeclared : (headerLines buf).find? isLengthLine with
      | none =>
          dsimp only
          rw [readsAs_iff hmention]
          exact ⟨fun hall => hall 0 rfl,
            fun hzero length hlength => hzero.trans (Option.some.inj hlength)⟩
      | some declared =>
          dsimp only
          by_cases hsame : line = declared
          · subst hsame
            rw [if_pos rfl]
            exact lengthLine_read_iff (hheaders line hdeclared).2
          · rw [if_neg hsame]
            refine forall_congr' fun length => imp_congr_right fun _ => ?_
            exact (readsAs_iff hmention length).symm

/-- A header field of another name announces a body. -/
theorem otherField_announces : ¬ ∀ buf : Bytes, (find buf (crlf ++ crlf) 0).isSome = true →
    LengthFromHeader buf := by
  intro hclaim
  have hlength := hclaim (lit "GET /CheckStatus HTTP/1.1\r\nX-Content-Length: 5\r\n\r\n")
    (by decide) 0 (by decide)
  exact absurd hlength (by decide)

end SimVision
