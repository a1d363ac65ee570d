import SimVision.Foundation.Cpp

/-! # JSON values over byte strings

Strings are bytes with no promise of encoding, so that a value which no encoder
accepts can still be built. An object keeps its members sorted by key. Parsing,
printing and typed access belong to a library that is a parameter, with its
documented behaviour as hypotheses.
-/

namespace SimVision.Foundation

/-! ## UTF-8 -/

/-- What may follow in a UTF-8 text: a character, or a continuation byte between
two bounds with `more` unrestricted ones after it. -/
inductive Utf8State where
  | boundary
  | expects (low high : UInt8) (more : Nat)
  | refused
  deriving DecidableEq

/-- One byte of a UTF-8 text. Overlong forms, surrogates and values past
`0x10FFFF` are refused by the bounds on the second byte. -/
def Utf8State.next : Utf8State → UInt8 → Utf8State
  | .boundary, c =>
      if c < 0x80 then .boundary
      else if c < 0xC2 then .refused
      else if c < 0xE0 then .expects 0x80 0xBF 0
      else if c = 0xE0 then .expects 0xA0 0xBF 1
      else if c = 0xED then .expects 0x80 0x9F 1
      else if c < 0xF0 then .expects 0x80 0xBF 1
      else if c = 0xF0 then .expects 0x90 0xBF 2
      else if c < 0xF4 then .expects 0x80 0xBF 2
      else if c = 0xF4 then .expects 0x80 0x8F 2
      else .refused
  | .expects low high more, c =>
      if low ≤ c ∧ c ≤ high then
        match more with
        | 0 => .boundary
        | n + 1 => .expects 0x80 0xBF n
      else .refused
  | .refused, _ => .refused

/-- A string that is valid UTF-8. -/
def validUtf8 (s : Bytes) : Bool := s.foldl Utf8State.next .boundary = .boundary

/-- After a valid text, validity is that of what follows. -/
theorem validUtf8_append {first second : Bytes} (hfirst : validUtf8 first = true) :
    validUtf8 (first ++ second) = validUtf8 second := by
  have hstate : first.foldl Utf8State.next .boundary = .boundary := of_decide_eq_true hfirst
  unfold validUtf8
  rw [List.foldl_append, hstate]

theorem validUtf8_append_valid {first second : Bytes} (hfirst : validUtf8 first = true)
    (hsecond : validUtf8 second = true) : validUtf8 (first ++ second) = true := by
  rw [validUtf8_append hfirst, hsecond]

/-- An ASCII text is valid UTF-8. -/
theorem validUtf8_of_ascii {s : Bytes} (hascii : ∀ c ∈ s, c < 0x80) : validUtf8 s = true := by
  induction s with
  | nil => rfl
  | cons c rest ih =>
      rw [List.forall_mem_cons] at hascii
      have hfirst : validUtf8 [c] = true := by
        simp only [validUtf8, List.foldl_cons, List.foldl_nil, Utf8State.next, if_pos hascii.1]
        rfl
      have happend := validUtf8_append_valid hfirst (ih hascii.2)
      simpa using happend

/-- A continuation byte is not ASCII. -/
def Utf8State.Continues : Utf8State → Prop
  | .expects low _ _ => 0x80 ≤ low
  | _ => True

theorem Utf8State.next_continues (state : Utf8State) (c : UInt8) : (state.next c).Continues := by
  cases state with
  | boundary =>
      rw [next]
      repeat' split
      all_goals simp [Continues]
  | expects low high more =>
      cases more <;> rw [next] <;> split <;> simp [Continues]
  | refused => trivial

/-- The machine does not tell one ASCII byte from another. -/
theorem Utf8State.next_ascii {state : Utf8State} (hstate : state.Continues) {c d : UInt8}
    (hc : c < 0x80) (hd : d < 0x80) : state.next c = state.next d := by
  cases state with
  | boundary => rw [next, next, if_pos hc, if_pos hd]
  | expects low high more =>
      -- the lower bound of a continuation byte keeps every ASCII byte out
      have hoff : ∀ e : UInt8, e < 0x80 → ¬ (low ≤ e ∧ e ≤ high) := by
        intro e he hrange
        exact absurd (UInt8.lt_of_le_of_lt (UInt8.le_trans hstate hrange.1) he) (UInt8.lt_irrefl _)
      cases more <;> rw [next, next, if_neg (hoff c hc), if_neg (hoff d hd)]
  | refused => rfl

/-- Replacing ASCII by ASCII does not change validity. -/
theorem validUtf8_map {f : UInt8 → UInt8} (hascii : ∀ c, c < 0x80 → f c < 0x80)
    (hother : ∀ c, ¬ c < 0x80 → f c = c) (s : Bytes) : validUtf8 (s.map f) = validUtf8 s := by
  have hfold : ∀ (state : Utf8State), state.Continues →
      (s.map f).foldl Utf8State.next state = s.foldl Utf8State.next state := by
    induction s with
    | nil => exact fun _ _ => rfl
    | cons c rest ih =>
        intro state hstate
        have hnext : state.next (f c) = state.next c := by
          by_cases hc : c < 0x80
          · exact Utf8State.next_ascii hstate (hascii c hc) hc
          · rw [hother c hc]
        rw [List.map_cons, List.foldl_cons, List.foldl_cons, hnext]
        exact ih (state.next c) (state.next_continues c)
  unfold validUtf8
  rw [hfold .boundary trivial]

theorem validUtf8_toLower (s : Bytes) : validUtf8 (toLower s) = validUtf8 s := by
  apply validUtf8_map
  · intro c hc
    unfold toLowerByte
    split
    next hupper =>
      rw [UInt8.lt_iff_toNat_lt, UInt8.toNat_add]
      have hle := UInt8.le_iff_toNat_le.mp hupper.2
      simp at hle ⊢
      omega
    next => exact hc
  · intro c hc
    unfold toLowerByte
    rw [if_neg]
    intro hupper
    exact hc (UInt8.lt_of_le_of_lt hupper.2 (by decide))

example : validUtf8 (lit "zażółć — €") = true := by decide

example : validUtf8 [0xED, 0xA0, 0x80] = false := by decide

/-! ## Values -/

/-- `nlohmann::json`: its three kinds of number are kept apart. -/
inductive Json where
  | null
  | boolean (value : Bool)
  | integer (value : Int)
  | unsigned (value : Nat)
  | float (value : Double)
  | string (value : Bytes)
  | array (elements : List Json)
  | object (members : List (Bytes × Json))

namespace Json

/-- `json::object()`. -/
def emptyObject : Json := .object []

def isString : Json → Bool
  | .string _ => true
  | _ => false

/-- The value of the member with a key. -/
def findMember (key : Bytes) (members : List (Bytes × Json)) : Option Json :=
  (members.find? fun m => m.1 = key).map Prod.snd

/-- The member under a key; `none` also for a value that is not an object. -/
def lookup : Json → Bytes → Option Json
  | .object members, key => findMember key members
  | _, _ => none

def contains (j : Json) (key : Bytes) : Bool := (j.lookup key).isSome

/-- `j[key]` on a value known to contain the key. -/
def field (j : Json) (key : Bytes) : Json := (j.lookup key).getD .null

/-- Insertion into a sorted member list, replacing an equal key. -/
def setMember (key : Bytes) (value : Json) : List (Bytes × Json) → List (Bytes × Json)
  | [] => [(key, value)]
  | (k, v) :: rest =>
      if key = k then (key, value) :: rest
      else if key < k then (key, value) :: (k, v) :: rest
      else (k, v) :: setMember key value rest

/-- `j[key] = value` for an object or a null value, which becomes an object. -/
def set (j : Json) (key : Bytes) (value : Json) : Json :=
  match j with
  | .object members => .object (setMember key value members)
  | _ => .object [(key, value)]

/-- An object filled by assignments in the order given. -/
def ofAssignments (assignments : List (Bytes × Json)) : Json :=
  assignments.foldl (fun j kv => j.set kv.1 kv.2) .null

mutual

/-- Every string in the value is valid UTF-8. -/
def utf8 : Json → Bool
  | .string s => validUtf8 s
  | .array elements => utf8Elements elements
  | .object members => utf8Members members
  | .null => true
  | .boolean _ => true
  | .integer _ => true
  | .unsigned _ => true
  | .float _ => true

def utf8Elements : List Json → Bool
  | [] => true
  | j :: rest => utf8 j && utf8Elements rest

def utf8Members : List (Bytes × Json) → Bool
  | [] => true
  | (key, j) :: rest => validUtf8 key && utf8 j && utf8Members rest

end

@[simp] theorem utf8_string (s : Bytes) : (string s).utf8 = validUtf8 s := by rw [utf8]

@[simp] theorem utf8_unsigned (n : Nat) : (unsigned n).utf8 = true := by rw [utf8]

theorem utf8_array {elements : List Json} :
    (array elements).utf8 = true ↔ ∀ j ∈ elements, j.utf8 = true := by
  rw [utf8]
  induction elements with
  | nil => simp [utf8Elements]
  | cons j rest ih =>
      rw [utf8Elements, Bool.and_eq_true, ih, List.forall_mem_cons]

theorem utf8_object {members : List (Bytes × Json)} :
    (object members).utf8 = true ↔
      ∀ m ∈ members, validUtf8 m.1 = true ∧ m.2.utf8 = true := by
  rw [utf8]
  induction members with
  | nil => simp [utf8Members]
  | cons m rest ih =>
      rcases m with ⟨key, j⟩
      rw [utf8Members, Bool.and_eq_true, Bool.and_eq_true, ih, List.forall_mem_cons]

/-- A member of a value in UTF-8 is in UTF-8. -/
theorem utf8_of_lookup {j value : Json} {key : Bytes} (hutf8 : j.utf8 = true)
    (hlookup : j.lookup key = some value) : value.utf8 = true := by
  cases j with
  | object members =>
      simp only [lookup, findMember, Option.map_eq_some_iff] at hlookup
      obtain ⟨m, hfind, rfl⟩ := hlookup
      exact (utf8_object.mp hutf8 m (List.mem_of_find?_eq_some hfind)).2
  | null => simp [lookup] at hlookup
  | boolean b => simp [lookup] at hlookup
  | integer i => simp [lookup] at hlookup
  | unsigned n => simp [lookup] at hlookup
  | float d => simp [lookup] at hlookup
  | string s => simp [lookup] at hlookup
  | array elements => simp [lookup] at hlookup

theorem findMember_setMember (key other : Bytes) (value : Json) (members : List (Bytes × Json)) :
    findMember other (setMember key value members) =
      if other = key then some value else findMember other members := by
  have hcons : ∀ (k : Bytes) (v : Json) (rest : List (Bytes × Json)),
      findMember other ((k, v) :: rest) = if other = k then some v else findMember other rest := by
    intro k v rest
    unfold findMember
    rw [List.find?_cons]
    by_cases hk : other = k
    · simp [hk]
    · simp [hk, Ne.symm hk]
  induction members with
  | nil => rw [setMember, hcons]
  | cons m rest ih =>
      rcases m with ⟨k, v⟩
      unfold setMember
      split
      next heq =>
        rw [hcons, hcons, ← heq]
        split <;> rfl
      next hne =>
        split
        next => rw [hcons]
        next =>
          rw [hcons, hcons, ih]
          by_cases hk : other = k
          · rw [if_pos hk, if_pos hk, if_neg (fun hkey => hne (hkey.symm.trans hk))]
          · rw [if_neg hk, if_neg hk]

/-- An assignment is read back and leaves every other key alone. -/
theorem lookup_set (j : Json) (key other : Bytes) (value : Json) :
    (j.set key value).lookup other = if other = key then some value else j.lookup other := by
  cases j with
  | object members => exact findMember_setMember key other value members
  -- anything but an object holds no member, and is replaced by an object of one
  | _ => exact findMember_setMember key other value []

theorem utf8_set {j : Json} (hutf8 : j.utf8 = true) {key : Bytes} (hkey : validUtf8 key = true)
    {value : Json} (hvalue : value.utf8 = true) : (j.set key value).utf8 = true := by
  have hmembers : ∀ members, (object members).utf8 = true →
      (object (setMember key value members)).utf8 = true := by
    intro members hbefore
    rw [utf8_object] at hbefore ⊢
    intro m hm
    induction members with
    | nil =>
        obtain rfl := List.mem_singleton.mp hm
        exact ⟨hkey, hvalue⟩
    | cons first rest ih =>
        rcases first with ⟨k, v⟩
        rw [List.forall_mem_cons] at hbefore
        unfold setMember at hm
        split at hm
        next =>
          rcases List.mem_cons.mp hm with rfl | hm
          · exact ⟨hkey, hvalue⟩
          · exact hbefore.2 m hm
        next =>
          split at hm
          next =>
            rcases List.mem_cons.mp hm with rfl | hm
            · exact ⟨hkey, hvalue⟩
            · rcases List.mem_cons.mp hm with rfl | hm
              · exact hbefore.1
              · exact hbefore.2 m hm
          next =>
            rcases List.mem_cons.mp hm with rfl | hm
            · exact hbefore.1
            · exact ih hbefore.2 hm
  cases j with
  | object members => exact hmembers members hutf8
  | _ => exact hmembers [] rfl

/-- An object filled with valid keys and values is in UTF-8. -/
theorem utf8_ofAssignments {assignments : List (Bytes × Json)}
    (hutf8 : ∀ kv ∈ assignments, validUtf8 kv.1 = true ∧ kv.2.utf8 = true) :
    (ofAssignments assignments).utf8 = true := by
  have hfold : ∀ start : Json, start.utf8 = true →
      (assignments.foldl (fun j kv => j.set kv.1 kv.2) start).utf8 = true := by
    induction assignments with
    | nil => exact fun _ hstart => hstart
    | cons kv rest ih =>
        rw [List.forall_mem_cons] at hutf8
        intro start hstart
        rw [List.foldl_cons]
        exact ih hutf8.2 _ (utf8_set hstart hutf8.1.1 hutf8.1.2)
  exact hfold .null rfl

/-- Assignments to other keys leave a member alone. -/
theorem lookup_foldl_set_of_notMem {key : Bytes} {assignments : List (Bytes × Json)}
    (habsent : key ∉ assignments.map Prod.fst) (start : Json) :
    (assignments.foldl (fun j kv => j.set kv.1 kv.2) start).lookup key = start.lookup key := by
  induction assignments generalizing start with
  | nil => rfl
  | cons kv rest ih =>
      rw [List.map_cons, List.mem_cons, not_or] at habsent
      rw [List.foldl_cons, ih habsent.2, lookup_set, if_neg habsent.1]

/-- Among assignments to distinct keys each one is read back. -/
theorem lookup_foldl_set {assignments : List (Bytes × Json)}
    (hkeys : (assignments.map Prod.fst).Nodup) {key : Bytes} {value : Json}
    (hmem : (key, value) ∈ assignments) (start : Json) :
    (assignments.foldl (fun j kv => j.set kv.1 kv.2) start).lookup key = some value := by
  induction assignments generalizing start with
  | nil => contradiction
  | cons kv rest ih =>
      rw [List.map_cons, List.nodup_cons] at hkeys
      rw [List.foldl_cons]
      rcases List.mem_cons.mp hmem with rfl | hrest
      · rw [lookup_foldl_set_of_notMem hkeys.1, lookup_set, if_pos rfl]
      · exact ih hkeys.2 hrest _

theorem lookup_ofAssignments {assignments : List (Bytes × Json)}
    (hkeys : (assignments.map Prod.fst).Nodup) {key : Bytes} {value : Json}
    (hmem : (key, value) ∈ assignments) : (ofAssignments assignments).lookup key = some value :=
  lookup_foldl_set hkeys hmem .null

theorem lookup_ofAssignments_of_notMem {assignments : List (Bytes × Json)} {key : Bytes}
    (habsent : key ∉ assignments.map Prod.fst) : (ofAssignments assignments).lookup key = none :=
  lookup_foldl_set_of_notMem habsent .null

end Json

/-! ## The library -/

/-- The functions of the JSON library that parse, print and convert. An error
carries the text of the exception thrown. -/
structure JsonLibrary where
  parse : Bytes → Except Bytes Json
  /-- `>>` from a stream, which leaves what follows the value unread. -/
  parseStream : Bytes → Except Bytes Json
  dump : Json → Except Bytes Bytes
  getString : Json → Except Bytes Bytes
  getInt : Json → Except Bytes Int
  getInt64 : Json → Except Bytes Int
  getDouble : Json → Except Bytes Double
  getBool : Json → Except Bytes Bool
  /-- What `it.key()` throws on an iterator that is not over an object. -/
  keyError : Bytes

namespace JsonLibrary

/-- The documented behaviour of `get<std::string>`. -/
structure ConvertsStrings (lib : JsonLibrary) : Prop where
  getString_string : ∀ s, lib.getString (.string s) = .ok s
  getString_ok : ∀ j s, lib.getString j = .ok s → j = .string s

/-- The documented behaviour of parsing and printing: texts are UTF-8. -/
structure Encodes (lib : JsonLibrary) : Prop where
  parse_utf8 : ∀ text j, lib.parse text = .ok j → j.utf8 = true
  parseStream_utf8 : ∀ text j, lib.parseStream text = .ok j → j.utf8 = true
  dump_ok : ∀ j, (∃ text, lib.dump j = .ok text) ↔ j.utf8 = true
  dump_utf8 : ∀ j text, lib.dump j = .ok text → validUtf8 text = true

theorem ConvertsStrings.getString_isOk {lib : JsonLibrary} (hlib : lib.ConvertsStrings) (j : Json) :
    (∃ s, lib.getString j = .ok s) ↔ j.isString = true := by
  constructor
  · rintro ⟨s, hs⟩
    rw [hlib.getString_ok j s hs]
    rfl
  · intro hstring
    cases j with
    | string s => exact ⟨s, hlib.getString_string s⟩
    | null => contradiction
    | boolean b => contradiction
    | integer i => contradiction
    | unsigned n => contradiction
    | float d => contradiction
    | array elements => contradiction
    | object members => contradiction

end JsonLibrary

/-! ## A plain library -/

namespace Json

mutual

/-- Compact text of a value. Strings are printed without escapes, and a finite
`float` by its integer part. -/
def text : Json → Bytes
  | .null => lit "null"
  | .boolean true => lit "true"
  | .boolean false => lit "false"
  | .integer i => signedDecimal i
  | .unsigned n => signedDecimal n
  | .float (.finite q) => signedDecimal (q.num.tdiv q.den) ++ lit ".0"
  | .float _ => lit "null"
  | .string s => lit "\"" ++ s ++ lit "\""
  | .array elements => lit "[" ++ elementsText elements ++ lit "]"
  | .object members => lit "\x7b" ++ membersText members ++ lit "\x7d"

def elementsText : List Json → Bytes
  | [] => []
  | [j] => text j
  | j :: rest => text j ++ lit "," ++ elementsText rest

def membersText : List (Bytes × Json) → Bytes
  | [] => []
  | [(key, j)] => lit "\"" ++ key ++ lit "\":" ++ text j
  | (key, j) :: rest => lit "\"" ++ key ++ lit "\":" ++ text j ++ lit "," ++ membersText rest

end

example : (Json.ofAssignments [(lit "sec", .integer 5), (lit "nsec", .unsigned 7)]).text =
    lit "\x7b\"nsec\":7,\"sec\":5\x7d" := by decide

mutual

/-- The text of a value in UTF-8 is in UTF-8. -/
theorem text_utf8 : ∀ {j : Json}, j.utf8 = true → validUtf8 j.text = true
  | .null, _ => by decide
  | .boolean true, _ => by decide
  | .boolean false, _ => by decide
  | .integer i, _ => by
      rw [text]
      exact validUtf8_of_ascii (signedDecimal_lt i)
  | .unsigned n, _ => by
      rw [text]
      exact validUtf8_of_ascii (signedDecimal_lt n)
  | .float .nan, _ => by decide
  | .float .negInf, _ => by decide
  | .float .posInf, _ => by decide
  | .float (.finite q), _ => by
      rw [text]
      exact validUtf8_append_valid (validUtf8_of_ascii (signedDecimal_lt _)) (by decide)
  | .string s, hutf8 => by
      rw [utf8] at hutf8
      rw [text]
      exact validUtf8_append_valid (validUtf8_append_valid (by decide) hutf8) (by decide)
  | .array elements, hutf8 => by
      rw [utf8] at hutf8
      rw [text]
      exact validUtf8_append_valid
        (validUtf8_append_valid (by decide) (elementsText_utf8 hutf8)) (by decide)
  | .object members, hutf8 => by
      rw [utf8] at hutf8
      rw [text]
      exact validUtf8_append_valid
        (validUtf8_append_valid (by decide) (membersText_utf8 hutf8)) (by decide)

theorem elementsText_utf8 : ∀ {elements : List Json}, utf8Elements elements = true →
    validUtf8 (elementsText elements) = true
  | [], _ => rfl
  | [j], hutf8 => by
      rw [utf8Elements, Bool.and_eq_true] at hutf8
      rw [elementsText]
      exact text_utf8 hutf8.1
  | j :: next :: rest, hutf8 => by
      rw [utf8Elements, Bool.and_eq_true] at hutf8
      rw [elementsText]
      · exact validUtf8_append_valid (validUtf8_append_valid (text_utf8 hutf8.1) (by decide))
          (elementsText_utf8 hutf8.2)
      · simp

theorem membersText_utf8 : ∀ {members : List (Bytes × Json)}, utf8Members members = true →
    validUtf8 (membersText members) = true
  | [], _ => rfl
  | [(key, j)], hutf8 => by
      simp only [utf8Members, Bool.and_eq_true] at hutf8
      rw [membersText]
      exact validUtf8_append_valid (validUtf8_append_valid
        (validUtf8_append_valid (by decide) hutf8.1.1) (by decide)) (text_utf8 hutf8.1.2)
  | (key, j) :: next :: rest, hutf8 => by
      rw [utf8Members, Bool.and_eq_true, Bool.and_eq_true] at hutf8
      rw [membersText]
      · exact validUtf8_append_valid (validUtf8_append_valid (validUtf8_append_valid
          (validUtf8_append_valid (validUtf8_append_valid (by decide) hutf8.1.1) (by decide))
          (text_utf8 hutf8.1.2)) (by decide)) (membersText_utf8 hutf8.2)
      · simp

end

end Json

namespace JsonLibrary

/-- A conversion of the numeric types; anything else is a type error. -/
def convertNumber {T : Type} (ofInt : Int → T) (ofDouble : Double → T) : Json → Except Bytes T
  | .integer i => .ok (ofInt i)
  | .unsigned n => .ok (ofInt n)
  | .float d => .ok (ofDouble d)
  | _ => .error (lit "[json.exception.type_error.302] type must be number")

/-- `static_cast` of a `double` in range to an integer. -/
def truncate : Double → Int
  | .finite q => q.num.tdiv q.den
  | _ => 0

/-- A library that prints and converts but knows no text to parse. -/
def plain : JsonLibrary where
  parse := fun _ => .error (lit "[json.exception.parse_error.101] parse error")
  parseStream := fun _ => .error (lit "[json.exception.parse_error.101] parse error")
  dump := fun j =>
    if j.utf8 then .ok j.text else .error (lit "[json.exception.type_error.316] invalid UTF-8 byte")
  getString := fun j =>
    match j with
    | .string s => .ok s
    | _ => .error (lit "[json.exception.type_error.302] type must be string")
  getInt := convertNumber id truncate
  getInt64 := convertNumber id truncate
  getDouble := convertNumber (fun i => .finite i) id
  getBool := fun j =>
    match j with
    | .boolean b => .ok b
    | _ => .error (lit "[json.exception.type_error.302] type must be boolean")
  keyError := lit
    "[json.exception.invalid_iterator.207] cannot use key() for non-object iterators"

/-- The plain library with one text that it parses. -/
def reading (j : Json) : JsonLibrary :=
  { plain with
    parse := fun text => if text = j.text then .ok j else plain.parse text
    parseStream := fun text => if text = j.text then .ok j else plain.parseStream text }

theorem plain_dump {j : Json} (hutf8 : j.utf8 = true) : plain.dump j = .ok j.text := by
  unfold plain
  exact if_pos hutf8

theorem plain_convertsStrings : plain.ConvertsStrings where
  getString_string := fun _ => rfl
  getString_ok := by
    intro j s hget
    cases j with
    | string t => rw [Except.ok.inj hget]
    | null => contradiction
    | boolean b => contradiction
    | integer i => contradiction
    | unsigned n => contradiction
    | float d => contradiction
    | array elements => contradiction
    | object members => contradiction

theorem plain_encodes : plain.Encodes where
  parse_utf8 := fun _ _ hparse => by contradiction
  parseStream_utf8 := fun _ _ hparse => by contradiction
  dump_ok := by
    intro j
    change (∃ text, (if j.utf8 = true then Except.ok j.text else _) = .ok text) ↔ _
    split
    next hutf8 => exact iff_of_true ⟨_, rfl⟩ hutf8
    next hutf8 => exact iff_of_false (by rintro ⟨text, htext⟩; contradiction) hutf8
  dump_utf8 := by
    intro j text hdump
    change (if j.utf8 = true then Except.ok j.text else _) = Except.ok text at hdump
    split at hdump
    next hutf8 =>
      rw [← Except.ok.inj hdump]
      exact Json.text_utf8 hutf8
    next => contradiction

end JsonLibrary

end SimVision.Foundation
