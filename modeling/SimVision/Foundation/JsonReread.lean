import SimVision.Foundation.Json

/-! # Reading a printed value again

A text does not say which kind of integer it was printed from: a number without a
minus sign is read as an unsigned one. Everything else comes back as it was.
-/

namespace SimVision.Foundation

namespace Json

mutual

/-- The value that the text of a value without floating-point numbers stands for. -/
def reread : Json → Json
  | .integer i => if 0 ≤ i then .unsigned i.toNat else .integer i
  | .array elements => .array (rereadElements elements)
  | .object members => .object (rereadMembers members)
  | .null => .null
  | .boolean b => .boolean b
  | .unsigned n => .unsigned n
  | .float d => .float d
  | .string s => .string s

def rereadElements : List Json → List Json
  | [] => []
  | j :: rest => reread j :: rereadElements rest

def rereadMembers : List (Bytes × Json) → List (Bytes × Json)
  | [] => []
  | (key, j) :: rest => (key, reread j) :: rereadMembers rest

end

@[simp] theorem reread_string (s : Bytes) : (string s).reread = string s := by rw [reread]

@[simp] theorem reread_unsigned (n : Nat) : (unsigned n).reread = unsigned n := by rw [reread]

theorem reread_integer (i : Int) :
    (integer i).reread = if 0 ≤ i then .unsigned i.toNat else .integer i := by
  rw [reread]

theorem reread_array (elements : List Json) :
    (array elements).reread = .array (elements.map reread) := by
  rw [reread, array.injEq]
  induction elements with
  | nil => rfl
  | cons j rest ih => rw [rereadElements, List.map_cons, ih]

theorem reread_object (members : List (Bytes × Json)) :
    (object members).reread = .object (members.map fun m => (m.1, m.2.reread)) := by
  rw [reread, object.injEq]
  induction members with
  | nil => rfl
  | cons m rest ih =>
      rcases m with ⟨key, j⟩
      rw [rereadMembers, List.map_cons, ih]

/-- Members are found under the keys they were printed with. -/
theorem lookup_reread (j : Json) (key : Bytes) :
    j.reread.lookup key = (j.lookup key).map reread := by
  cases j with
  | object members =>
      rw [reread_object, lookup, lookup, findMember, findMember, List.find?_map, Option.map_map,
        Option.map_map]
      rfl
  | integer i =>
      rw [reread_integer]
      split <;> rfl
  | null => rfl
  | boolean b => rfl
  | unsigned n => rfl
  | float d => rfl
  | string s => rfl
  | array elements => rfl

end Json

namespace JsonLibrary

/-- The documented behaviour of printing a value without floating-point numbers
and parsing what was printed. -/
def PrintsBack (dump : Json → Except Bytes Bytes) (parse : Bytes → Except Bytes Json) (j : Json) :
    Prop :=
  ∀ text, dump j = .ok text → parse text = .ok j.reread

/-- The plain library with the text of one value that it reads again. -/
def rereading (j : Json) : JsonLibrary :=
  { plain with
    parse := fun text => if text = j.text then .ok j.reread else plain.parse text
    parseStream := fun text => if text = j.text then .ok j.reread else plain.parseStream text }

theorem plain_dump_eq {j : Json} {text : Bytes} (hdump : plain.dump j = .ok text) :
    text = j.text := by
  change (if j.utf8 = true then Except.ok j.text else _) = .ok text at hdump
  split at hdump
  next => exact (Except.ok.inj hdump).symm
  next => contradiction

theorem rereading_printsBack (j : Json) :
    PrintsBack (rereading j).dump (rereading j).parse j := by
  intro text hdump
  rw [plain_dump_eq hdump]
  exact if_pos rfl

end JsonLibrary

end SimVision.Foundation
