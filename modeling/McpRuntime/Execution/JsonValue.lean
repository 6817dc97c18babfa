import McpRuntime.Application.Payload

/-!
# The check of a JSON value

`validate_json_value` checks an object that a caller gives: what is in it, piece by piece from
a list of what is pending, and then the text that `json.dumps` makes of it.

* `PyValue` is such an object, whatever is in it;
* `PyValue.IsJson` and `PyValue.nodes` say by recursion over it what the check accepts;
* `validateJsonValue_spec`: the check accepts exactly that, and raises `ExecutionLimitExceeded`
  for anything else;
* `isValidJsonValue_toJson`: on values that are JSON, it is the check of a result.
-/

namespace McpRuntime

/-- An object of Python, as far as the check looks into it: no cycle is in it. The key of a
    member is `none` where it is no text. -/
inductive PyValue
  | none
  | bool (b : Bool)
  | int (n : ℤ)
  | float (x : PyFloat)
  | str (t : Text)
  | list (items : List PyValue)
  | dict (members : List (Option Text × PyValue))
  /-- A mapping that is no `dict`. -/
  | mapping (members : List (Option Text × PyValue))
  /-- An object of any other type. -/
  | foreign

namespace PyValue

/-- Induction over an object, with the hypothesis for everything in it. -/
@[elab_as_elim]
theorem induct {P : PyValue → Prop} (none : P none) (bool : ∀ b, P (bool b))
    (int : ∀ n, P (int n)) (float : ∀ x, P (float x)) (str : ∀ t, P (str t))
    (list : ∀ items, (∀ v ∈ items, P v) → P (list items))
    (dict : ∀ members, (∀ m ∈ members, P m.2) → P (dict members))
    (mapping : ∀ members, (∀ m ∈ members, P m.2) → P (mapping members)) (foreign : P foreign) :
    ∀ v, P v
  | .none => none
  | .bool b => bool b
  | .int n => int n
  | .float x => float x
  | .str t => str t
  | .foreign => foreign
  | .list items => list items fun v hv =>
      have := List.sizeOf_lt_of_mem hv
      induct none bool int float str list dict mapping foreign v
  | .dict members => dict members fun m hm =>
      have := List.sizeOf_lt_of_mem hm
      have : sizeOf m.2 < sizeOf m := by obtain ⟨k, v⟩ := m; simp
      induct none bool int float str list dict mapping foreign m.2
  | .mapping members => mapping members fun m hm =>
      have := List.sizeOf_lt_of_mem hm
      have : sizeOf m.2 < sizeOf m := by obtain ⟨k, v⟩ := m; simp
      induct none bool int float str list dict mapping foreign m.2

/-- The JSON value that `json.dumps` writes, unless it raises `TypeError`. Keys that are no
    texts do not come to it. -/
def toJson : PyValue → Option Json
  | none => some .null
  | bool b => some (.bool b)
  | int n => some (.int n)
  | float x => some (.float x)
  | str t => some (.str t)
  | list items => (toJsonItems items).map .arr
  | dict members => (toJsonMembers members).map .obj
  | mapping _ | foreign => Option.none
where
  toJsonItems : List PyValue → Option (List Json)
    | [] => some []
    | v :: items => do return (← v.toJson) :: (← toJsonItems items)
  toJsonMembers : List (Option Text × PyValue) → Option (List (Text × Json))
    | [] => some []
    | (key, v) :: members => do return (← key, ← v.toJson) :: (← toJsonMembers members)

/-- What `json.dumps` and the encoding of its text raise. -/
inductive EncodeError
  | recursionError
  | typeError
  | valueError
  | unicodeEncodeError
  deriving DecidableEq

variable (writer : JsonWriter) (tooDeep : Json → Bool) (limits : ExecutionLimits)

/-- `json.dumps(value, …).encode("utf-8")`, as the text; which values that are refused are
    nested too deeply is a parameter. -/
def encode (value : PyValue) : Except EncodeError Text :=
  match value.toJson with
  | Option.none => .error .typeError
  | some json =>
    match writer.dumps json with
    | Option.none => .error (if tooDeep json then .recursionError else .valueError)
    | some document => if document.Encodable then .ok document else .error .unicodeEncodeError

/-- The loop of `validate_json_value` over the objects that are pending, each with its depth, of
    which the last one is the head; `remaining` nodes may follow. -/
def checkPending : ℕ → List (PyValue × ℕ) → Except PyException Unit
  | _, [] => .ok ()
  | 0, _ :: _ => .error .executionLimitExceeded
  | remaining + 1, (current, depth) :: pending =>
    match current with
    | dict members | mapping members =>
      if depth > limits.maxJsonDepth ∨ members.length > limits.maxObjectProperties then
        .error .executionLimitExceeded
      else if members.any (·.1.isNone) then .error .executionLimitExceeded
      else checkPending remaining ((members.map fun m => (m.2, depth + 1)).reverse ++ pending)
    | list items =>
      if depth > limits.maxJsonDepth ∨ items.length > limits.maxArrayItems then
        .error .executionLimitExceeded
      else checkPending remaining ((items.map fun v => (v, depth + 1)).reverse ++ pending)
    | none | str _ | bool _ | int _ => checkPending remaining pending
    | float x =>
      if x.isFinite then checkPending remaining pending else .error .executionLimitExceeded
    | foreign => .error .executionLimitExceeded

/-- The exceptions that the check turns into its own. -/
def EncodeError.isCaught : EncodeError → Bool
  | recursionError | typeError | valueError => true
  -- a `ValueError`
  | unicodeEncodeError => true

/-- The exception that an `EncodeError` is. -/
def EncodeError.exception : EncodeError → PyException
  | recursionError => ⟨.other, lit "RecursionError"⟩
  | typeError => ⟨.typeError, lit "TypeError"⟩
  | valueError => .valueError
  | unicodeEncodeError => ⟨.valueError, lit "UnicodeEncodeError"⟩

/-- `validate_json_value`. -/
def validateJsonValue (maximumBytes : ℕ) (value : PyValue) : Except PyException Unit := do
  checkPending limits limits.maxJsonNodes [(value, 1)]
  match encode writer tooDeep value with
  | .error e => if e.isCaught then throw .executionLimitExceeded else throw e.exception
  | .ok encoded => if encoded.utf8Length > maximumBytes then throw .executionLimitExceeded

/-! ## The specification -/

/-- The number of objects in an object. -/
def nodes : PyValue → ℕ
  | list items => 1 + itemNodes items
  | dict members | mapping members => 1 + memberNodes members
  | _ => 1
where
  itemNodes : List PyValue → ℕ
    | [] => 0
    | v :: items => v.nodes + itemNodes items
  memberNodes : List (Option Text × PyValue) → ℕ
    | [] => 0
    | (_, v) :: members => v.nodes + memberNodes members

/-- An object at a depth is JSON, within the limits: its numbers are finite, its keys are texts,
    and its containers are not too deep and not too large. -/
def IsJson : PyValue → ℕ → Prop
  | float x, _ => x.isFinite
  | list items, depth =>
    depth ≤ limits.maxJsonDepth ∧ items.length ≤ limits.maxArrayItems ∧
      itemsAreJson items (depth + 1)
  | dict members, depth =>
    depth ≤ limits.maxJsonDepth ∧ members.length ≤ limits.maxObjectProperties ∧
      membersAreJson members (depth + 1)
  | mapping _, _ | foreign, _ => False
  | _, _ => True
where
  itemsAreJson : List PyValue → ℕ → Prop
    | [], _ => True
    | v :: items, depth => v.IsJson depth ∧ itemsAreJson items depth
  membersAreJson : List (Option Text × PyValue) → ℕ → Prop
    | [], _ => True
    | (key, v) :: members, depth => key.isSome ∧ v.IsJson depth ∧ membersAreJson members depth

variable {limits}

theorem itemNodes_eq (items : List PyValue) : nodes.itemNodes items = (items.map nodes).sum := by
  induction items with
  | nil => rfl
  | cons v items ih => rw [nodes.itemNodes, ih, List.map_cons, List.sum_cons]

theorem memberNodes_eq (members : List (Option Text × PyValue)) :
    nodes.memberNodes members = (members.map (·.2.nodes)).sum := by
  induction members with
  | nil => rfl
  | cons m members ih => rw [nodes.memberNodes, ih, List.map_cons, List.sum_cons]

theorem itemsAreJson_iff {items : List PyValue} {depth : ℕ} :
    IsJson.itemsAreJson limits items depth ↔ ∀ v ∈ items, v.IsJson limits depth := by
  induction items with
  | nil => simp [IsJson.itemsAreJson]
  | cons v items ih => rw [IsJson.itemsAreJson, ih, List.forall_mem_cons]

theorem membersAreJson_iff {members : List (Option Text × PyValue)} {depth : ℕ} :
    IsJson.membersAreJson limits members depth ↔
      ∀ m ∈ members, m.1.isSome ∧ m.2.IsJson limits depth := by
  induction members with
  | nil => simp [IsJson.membersAreJson]
  | cons m members ih => rw [IsJson.membersAreJson, ih, List.forall_mem_cons, and_assoc]

theorem isSome_toJson_list {items : List PyValue} :
    (list items).toJson.isSome ↔ ∀ v ∈ items, v.toJson.isSome := by
  rw [toJson, Option.isSome_map]
  induction items with
  | nil => simp [toJson.toJsonItems]
  | cons v items ih =>
    rw [List.forall_mem_cons, ← ih, toJson.toJsonItems]
    cases v.toJson <;> cases toJson.toJsonItems items <;> simp

theorem isSome_toJson_dict {members : List (Option Text × PyValue)} :
    (dict members).toJson.isSome ↔ ∀ m ∈ members, m.1.isSome ∧ m.2.toJson.isSome := by
  rw [toJson, Option.isSome_map]
  induction members with
  | nil => simp [toJson.toJsonMembers]
  | cons m members ih =>
    obtain ⟨key, v⟩ := m
    rw [List.forall_mem_cons, ← ih, toJson.toJsonMembers]
    cases key <;> cases v.toJson <;> cases toJson.toJsonMembers members <;> simp

/-- What is JSON has a JSON value. -/
theorem IsJson.isSome_toJson {value : PyValue} {depth : ℕ} (h : value.IsJson limits depth) :
    value.toJson.isSome := by
  induction value using PyValue.induct generalizing depth with
  | none | bool | int | float | str => rfl
  | list items ih =>
    rw [isSome_toJson_list]
    exact fun v hv => ih v hv (itemsAreJson_iff.1 h.2.2 v hv)
  | dict members ih =>
    rw [isSome_toJson_dict]
    exact fun m hm => (membersAreJson_iff.1 h.2.2 m hm).imp_right (ih m hm)
  | mapping | foreign => cases h

/-! ## The loop -/

/-- The loop accepts objects that have JSON values, when the objects in them are no more than
    the nodes that may follow, and all of them are JSON. -/
theorem checkPending_eq_ok {remaining : ℕ} {pending : List (PyValue × ℕ)}
    (h : ∀ e ∈ pending, e.1.toJson.isSome) :
    checkPending limits remaining pending = .ok () ↔
      (pending.map (·.1.nodes)).sum ≤ remaining ∧ ∀ e ∈ pending, e.1.IsJson limits e.2 := by
  induction remaining generalizing pending with
  | zero =>
    cases pending with
    | nil => simp [checkPending]
    | cons e pending =>
      have hpos : 0 < e.1.nodes := by cases e.1 <;> simp [nodes]
      rw [List.map_cons, List.sum_cons]
      exact iff_of_false (by simp [checkPending]) (by omega)
  | succ remaining ih =>
    cases pending with
    | nil => simp [checkPending]
    | cons e pending =>
      obtain ⟨current, depth⟩ := e
      obtain ⟨hcurrent, hpending⟩ := List.forall_mem_cons.1 h
      -- the children of a container are pending before the rest
      have hchildren {ι : Type} {l : List ι} (child : ι → PyValue)
          (hsome : ∀ i ∈ l, (child i).toJson.isSome) :
          checkPending limits remaining
              ((l.map fun i => (child i, depth + 1)).reverse ++ pending) = .ok () ↔
            1 + (l.map fun i => (child i).nodes).sum + (pending.map (·.1.nodes)).sum ≤
                remaining + 1 ∧
              (∀ i ∈ l, (child i).IsJson limits (depth + 1)) ∧
              ∀ e ∈ pending, e.1.IsJson limits e.2 := by
        have hreverse : ∀ e ∈ (l.map fun i => (child i, depth + 1)).reverse ++ pending,
            e.1.toJson.isSome := by
          simp only [List.forall_mem_append, List.mem_reverse, List.forall_mem_map]
          exact ⟨hsome, hpending⟩
        rw [ih hreverse, List.map_append, List.sum_append, List.map_reverse, List.sum_reverse,
          List.map_map]
        simp only [List.forall_mem_append, List.mem_reverse, List.forall_mem_map,
          Function.comp_def]
        exact and_congr_left fun _ => by omega
      have hleaf (hnodes : current.nodes = 1) (hjson : current.IsJson limits depth)
          (hloop : checkPending limits (remaining + 1) ((current, depth) :: pending) =
            checkPending limits remaining pending) :
          checkPending limits (remaining + 1) ((current, depth) :: pending) = .ok () ↔
            (((current, depth) :: pending).map (·.1.nodes)).sum ≤ remaining + 1 ∧
              ∀ e ∈ (current, depth) :: pending, e.1.IsJson limits e.2 := by
        rw [hloop, ih hpending, List.map_cons, List.sum_cons, hnodes, List.forall_mem_cons]
        simp only [hjson, true_and]
        exact and_congr_left fun _ => by omega
      cases current with
      | none => exact hleaf rfl trivial rfl
      | bool b => exact hleaf rfl trivial rfl
      | int n => exact hleaf rfl trivial rfl
      | str t => exact hleaf rfl trivial rfl
      | float x =>
        by_cases hx : x.isFinite
        · exact hleaf rfl hx (if_pos hx)
        · rw [checkPending, if_neg hx]
          exact iff_of_false (by simp) fun hall => hx (hall.2 _ List.mem_cons_self)
      | list items =>
        rw [checkPending, List.map_cons, List.sum_cons, nodes, itemNodes_eq, List.forall_mem_cons,
          IsJson, itemsAreJson_iff]
        by_cases hlarge : depth > limits.maxJsonDepth ∨ items.length > limits.maxArrayItems
        · rw [if_pos hlarge]
          exact iff_of_false (by simp) fun hall => by omega
        · have hitems := hchildren (fun v => v) (isSome_toJson_list.1 hcurrent)
          rw [if_neg hlarge, hitems]
          rw [not_or, not_lt, not_lt] at hlarge
          simp only [hlarge, true_and]
      | dict members =>
        have hmembers := isSome_toJson_dict.1 hcurrent
        have hkeys : members.any (·.1.isNone) = false :=
          List.any_eq_false.2 fun m hm => by
            rw [Option.isNone_iff_eq_none, ← Option.not_isSome_iff_eq_none, not_not]
            exact (hmembers m hm).1
        have hnames : ∀ m ∈ members, m.1.isSome := fun m hm => (hmembers m hm).1
        rw [checkPending, List.map_cons, List.sum_cons, nodes, memberNodes_eq,
          List.forall_mem_cons, IsJson, membersAreJson_iff, hkeys]
        by_cases hlarge : depth > limits.maxJsonDepth ∨ members.length > limits.maxObjectProperties
        · rw [if_pos hlarge]
          exact iff_of_false (by simp) fun hall => by omega
        · have hitems := hchildren Prod.snd fun m hm => (hmembers m hm).2
          rw [if_neg hlarge, if_neg Bool.false_ne_true, hitems]
          rw [not_or, not_lt, not_lt] at hlarge
          simp only [hlarge, true_and]
          refine and_congr_right fun _ => and_congr_left fun _ => ?_
          exact forall₂_congr fun m hm => (and_iff_right (hnames m hm)).symm
      | mapping members => cases hcurrent
      | foreign => cases hcurrent

/-- The loop raises nothing else. -/
theorem raisesOnly_checkPending (remaining : ℕ) (pending : List (PyValue × ℕ)) :
    RaisesOnly (· = .executionLimitExceeded) (checkPending limits remaining pending) := by
  induction remaining generalizing pending with
  | zero =>
    cases pending with
    | nil => exact raisesOnly_ok
    | cons e pending => exact raisesOnly_error.2 rfl
  | succ remaining ih =>
    cases pending with
    | nil => exact raisesOnly_ok
    | cons e pending =>
      obtain ⟨current, depth⟩ := e
      have hmapping (members : List (Option Text × PyValue)) : RaisesOnly
          (· = PyException.executionLimitExceeded)
          (if depth > limits.maxJsonDepth ∨ members.length > limits.maxObjectProperties then
            .error .executionLimitExceeded
          else if members.any (·.1.isNone) then .error .executionLimitExceeded
          else checkPending limits remaining
            ((members.map fun m => (m.2, depth + 1)).reverse ++ pending)) := by
        split_ifs
        · exact raisesOnly_error.2 rfl
        · exact raisesOnly_error.2 rfl
        · exact ih _
      cases current with
      | none => exact ih _
      | bool b => exact ih _
      | int n => exact ih _
      | str t => exact ih _
      | float x =>
        rw [checkPending]
        split_ifs
        · exact ih _
        · exact raisesOnly_error.2 rfl
      | list items =>
        rw [checkPending]
        split_ifs
        · exact raisesOnly_error.2 rfl
        · exact ih _
      | dict members => exact hmapping members
      | mapping members => exact hmapping members
      | foreign => exact raisesOnly_error.2 rfl

variable (limits)

/-- `encode` gives the text of the JSON value, where UTF-8 can encode it. -/
theorem encode_eq_ok {value : PyValue} {document : Text} :
    encode writer tooDeep value = .ok document ↔
      ∃ json, value.toJson = some json ∧ writer.dumps json = some document ∧
        document.Encodable := by
  rw [encode]
  cases value.toJson with
  | none => simp
  | some json =>
    cases hdumps : writer.dumps json with
    | none => simp [hdumps]
    | some text =>
      by_cases hencodable : text.Encodable
      · simp only [hdumps, if_pos hencodable, Except.ok.injEq, Option.some.injEq,
          exists_eq_left']
        exact ⟨fun h => ⟨h, h ▸ hencodable⟩, And.left⟩
      · simp only [hdumps, if_neg hencodable, Option.some.injEq, exists_eq_left', reduceCtorEq,
          false_iff]
        exact fun ⟨he, h⟩ => hencodable (he ▸ h)

/-- `validate_json_value` accepts exactly the objects that are JSON within the limits, of which
    the compact text has an encoding within its limit; for all others, it raises
    `ExecutionLimitExceeded`. -/
theorem validateJsonValue_spec (maximumBytes : ℕ) (value : PyValue) :
    (value.validateJsonValue writer tooDeep limits maximumBytes = .ok () ↔
      value.nodes ≤ limits.maxJsonNodes ∧ value.IsJson limits 1 ∧
        ∃ json document, value.toJson = some json ∧ writer.dumps json = some document ∧
          document.Encodable ∧ document.utf8Length ≤ maximumBytes) ∧
    RaisesOnly (· = .executionLimitExceeded)
      (value.validateJsonValue writer tooDeep limits maximumBytes) := by
  constructor
  · rw [validateJsonValue, bind_eq_ok]
    constructor
    · rintro ⟨⟨⟩, hloop, hencode⟩
      cases he : encode writer tooDeep value with
      | error e =>
        rw [he] at hencode
        cases e <;> cases hencode
      | ok document =>
        rw [he] at hencode
        obtain ⟨json, hjson, hdumps, hencodable⟩ := (encode_eq_ok writer tooDeep).1 he
        have hsome : ∀ e ∈ [(value, 1)], e.1.toJson.isSome :=
          List.forall_mem_singleton.2 (Option.isSome_of_eq_some hjson)
        obtain ⟨hnodes, hfits⟩ := (checkPending_eq_ok hsome).1 hloop
        rw [List.map_singleton, List.sum_singleton] at hnodes
        exact ⟨hnodes, hfits _ List.mem_cons_self, json, document, hjson, hdumps, hencodable,
          not_lt.1 (lastCheck_eq_ok.1 hencode).1⟩
    · rintro ⟨hnodes, hfits, json, document, hjson, hdumps, hencodable, hbytes⟩
      have hsome : ∀ e ∈ [(value, 1)], e.1.toJson.isSome :=
        List.forall_mem_singleton.2 (Option.isSome_of_eq_some hjson)
      refine ⟨(), (checkPending_eq_ok hsome).2 ⟨?_, List.forall_mem_singleton.2 hfits⟩, ?_⟩
      · rwa [List.map_singleton, List.sum_singleton]
      · rw [(encode_eq_ok writer tooDeep).2 ⟨json, hjson, hdumps, hencodable⟩]
        exact if_neg (not_lt.2 hbytes)
  · rw [validateJsonValue]
    refine raisesOnly_bind.2 ⟨raisesOnly_checkPending _ _, fun _ _ => ?_⟩
    cases encode writer tooDeep value with
    | error e => cases e <;> exact raisesOnly_error.2 rfl
    | ok document =>
      dsimp only
      split_ifs
      · exact raisesOnly_error.2 rfl
      · exact raisesOnly_ok

/-! ## Results -/

variable {limits}

/-- An object that has a JSON value fits the limits as that value does. -/
def Agrees (limits : ExecutionLimits) (value : PyValue) : Prop :=
  ∀ json, value.toJson = some json → ∀ depth, (json.walk depth).length = value.nodes ∧
    ((∀ e ∈ json.walk depth, Fits limits e) ↔ value.IsJson limits depth)

theorem agrees_items {items : List PyValue} (h : ∀ v ∈ items, v.Agrees limits) {js : List Json}
    (hjs : toJson.toJsonItems items = some js) (depth : ℕ) :
    js.length = items.length ∧ (Json.walk.walkItems js depth).length = nodes.itemNodes items ∧
      ((∀ e ∈ Json.walk.walkItems js depth, Fits limits e) ↔
        IsJson.itemsAreJson limits items depth) := by
  induction items generalizing js with
  | nil =>
    cases hjs
    simp [Json.walk.walkItems, nodes.itemNodes, IsJson.itemsAreJson]
  | cons v items ih =>
    obtain ⟨hv, hitems⟩ := List.forall_mem_cons.1 h
    rw [toJson.toJsonItems] at hjs
    obtain ⟨j, hj, hjs⟩ := Option.bind_eq_some_iff.1 hjs
    obtain ⟨rest, hrest, hjs⟩ := Option.bind_eq_some_iff.1 hjs
    cases hjs
    obtain ⟨hlength, hnodes, hfits⟩ := ih hitems hrest
    obtain ⟨hnodes', hfits'⟩ := hv j hj depth
    rw [Json.walk.walkItems, nodes.itemNodes, IsJson.itemsAreJson, List.length_append,
      List.forall_mem_append, hnodes, hnodes', hfits, hfits', List.length_cons, List.length_cons,
      hlength]
    exact ⟨rfl, rfl, .rfl⟩

theorem agrees_members {members : List (Option Text × PyValue)}
    (h : ∀ m ∈ members, m.2.Agrees limits) {js : List (Text × Json)}
    (hjs : toJson.toJsonMembers members = some js) (depth : ℕ) :
    js.length = members.length ∧
      (Json.walk.walkMembers js depth).length = nodes.memberNodes members ∧
      ((∀ e ∈ Json.walk.walkMembers js depth, Fits limits e) ↔
        IsJson.membersAreJson limits members depth) := by
  induction members generalizing js with
  | nil =>
    cases hjs
    simp [Json.walk.walkMembers, nodes.memberNodes, IsJson.membersAreJson]
  | cons m members ih =>
    obtain ⟨key, v⟩ := m
    obtain ⟨hv, hmembers⟩ := List.forall_mem_cons.1 h
    rw [toJson.toJsonMembers] at hjs
    obtain ⟨name, hname, hjs⟩ := Option.bind_eq_some_iff.1 hjs
    obtain ⟨j, hj, hjs⟩ := Option.bind_eq_some_iff.1 hjs
    obtain ⟨rest, hrest, hjs⟩ := Option.bind_eq_some_iff.1 hjs
    cases hjs
    obtain ⟨hlength, hnodes, hfits⟩ := ih hmembers hrest
    obtain ⟨hnodes', hfits'⟩ := hv j hj depth
    rw [Json.walk.walkMembers, nodes.memberNodes, IsJson.membersAreJson, List.length_append,
      List.forall_mem_append, hnodes, hnodes', hfits, hfits', List.length_cons, List.length_cons,
      hlength]
    exact ⟨rfl, rfl, (and_iff_right (Option.isSome_of_eq_some hname)).symm⟩

theorem agrees (value : PyValue) : value.Agrees limits := by
  induction value using PyValue.induct with
  | none | bool | int | float | str =>
    intro json hjson depth
    cases hjson
    simp [Json.walk, nodes, Fits, IsJson]
  | list items ih =>
    intro json hjson depth
    obtain ⟨js, hjs, rfl⟩ := Option.map_eq_some_iff.1 hjson
    obtain ⟨hlength, hnodes, hfits⟩ := agrees_items ih hjs (depth + 1)
    rw [Json.walk, nodes, IsJson, List.length_cons, List.forall_mem_cons, hnodes, hfits, Fits,
      hlength, and_assoc]
    exact ⟨Nat.add_comm _ _, .rfl⟩
  | dict members ih =>
    intro json hjson depth
    obtain ⟨js, hjs, rfl⟩ := Option.map_eq_some_iff.1 hjson
    obtain ⟨hlength, hnodes, hfits⟩ := agrees_members ih hjs (depth + 1)
    rw [Json.walk, nodes, IsJson, List.length_cons, List.forall_mem_cons, hnodes, hfits, Fits,
      hlength, and_assoc]
    exact ⟨Nat.add_comm _ _, .rfl⟩
  | mapping | foreign =>
    intro json hjson
    cases hjson

/-- The check of an object is that of its JSON value, if it has one. -/
theorem isValidJsonValue_toJson (maximumBytes : ℕ) (value : PyValue) :
    isValidJsonValue writer limits maximumBytes value.toJson ↔
      value.validateJsonValue writer tooDeep limits maximumBytes = .ok () := by
  rw [(validateJsonValue_spec writer tooDeep limits maximumBytes value).1]
  cases hjson : value.toJson with
  | none =>
    refine iff_of_false (by simp [isValidJsonValue]) ?_
    rintro ⟨-, -, json, document, ⟨⟩, -⟩
  | some json =>
    have hagrees : value.Agrees limits := agrees value
    obtain ⟨hnodes, hfits⟩ := hagrees json hjson 1
    rw [isValidJsonValue_iff]
    constructor
    · intro h
      obtain ⟨document, hdocument⟩ := h.bytes
      exact ⟨hnodes ▸ h.nodes, hfits.1 h.fits, json, document, rfl, hdocument⟩
    · rintro ⟨hcount, hisJson, json', document, he, hdocument⟩
      cases he
      exact ⟨hnodes.symm ▸ hcount, hfits.2 hisJson, document, hdocument⟩

end PyValue

end McpRuntime
