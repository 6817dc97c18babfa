import McpRuntime.Python.Text
import McpRuntime.Python.Float

/-!
# JSON values

The values of `json.loads` and of the `JsonValue` type: `None`, `bool`, `int`,
`float`, `str`, `list` and `dict` with text keys. An object is the list of its
members in the order of insertion, whose keys are distinct in every value that
Python can hold (`Json.WellFormed`).
-/

namespace McpRuntime

/-- A JSON value. -/
inductive Json
  | null
  | bool (b : Bool)
  | int (n : ℤ)
  | float (x : PyFloat)
  | str (t : Text)
  | arr (items : List Json)
  | obj (members : List (Text × Json))

namespace Json

/-- Induction over a JSON value, with the hypothesis for each item of an array
    and each member of an object. -/
@[elab_as_elim]
theorem induct {P : Json → Prop} (null : P null) (bool : ∀ b, P (bool b)) (int : ∀ n, P (int n))
    (float : ∀ x, P (float x)) (str : ∀ t, P (str t))
    (arr : ∀ items, (∀ j ∈ items, P j) → P (arr items))
    (obj : ∀ members, (∀ m ∈ members, P m.2) → P (obj members)) : ∀ j, P j
  | .null => null
  | .bool b => bool b
  | .int n => int n
  | .float x => float x
  | .str t => str t
  | .arr items => arr items fun j hj =>
      have := List.sizeOf_lt_of_mem hj
      induct null bool int float str arr obj j
  | .obj members => obj members fun m hm =>
      have := List.sizeOf_lt_of_mem hm
      have : sizeOf m.2 < sizeOf m := by obtain ⟨k, j⟩ := m; simp
      induct null bool int float str arr obj m.2

/-- `document.get(key)` of a `dict`, the missing key apart from a null value. -/
def get (key : Text) (members : List (Text × Json)) : Option Json := members.lookup key

/-- Every object in the value has distinct keys. -/
def WellFormed : Json → Prop
  | arr items => wellFormedItems items
  | obj members => (members.map Prod.fst).Nodup ∧ wellFormedMembers members
  | _ => True
where
  wellFormedItems : List Json → Prop
    | [] => True
    | j :: items => j.WellFormed ∧ wellFormedItems items
  wellFormedMembers : List (Text × Json) → Prop
    | [] => True
    | (_, j) :: members => j.WellFormed ∧ wellFormedMembers members

/-- An array is well formed when its items are. -/
theorem wellFormed_arr {items : List Json} :
    (arr items).WellFormed ↔ ∀ j ∈ items, j.WellFormed := by
  change WellFormed.wellFormedItems items ↔ _
  induction items with
  | nil => simp [WellFormed.wellFormedItems]
  | cons j items ih => simp [WellFormed.wellFormedItems, ih]

/-- The members of an object are well formed when their values are. -/
theorem wellFormedMembers_iff {members : List (Text × Json)} :
    WellFormed.wellFormedMembers members ↔ ∀ m ∈ members, m.2.WellFormed := by
  induction members with
  | nil => simp [WellFormed.wellFormedMembers]
  | cons m members ih =>
    rw [WellFormed.wellFormedMembers, List.forall_mem_cons, ih]

/-- An object is well formed when its keys are distinct and its members are
    well formed. -/
theorem wellFormed_obj {members : List (Text × Json)} :
    (obj members).WellFormed ↔
      (members.map Prod.fst).Nodup ∧ ∀ m ∈ members, m.2.WellFormed :=
  and_congr_right fun _ => wellFormedMembers_iff

end Json

end McpRuntime
