import McpRuntime.Policy.ToolPolicy
import McpRuntime.Redaction
import McpRuntime.Schema.Bounds

/-!
# Identity fields of input schemas

The input schema of a callable tool may not declare fields of identity, such as a
tenant or a token. `_validate_identity_fields` walks the schema as a JSON value, and
takes every mapping under the key `properties` for a map of properties.

* `validateIdentityFields_eq_ok`: the schemas that the walk lets pass, by `Passes`.
* `Position`: the schemas in a schema, its definitions included.
* `Shadowed`: what the walk takes for a map of properties, but is a schema with the name
  `properties`.
* `declares_iff_shadowed`: the fields that schemas declare are all allowed exactly when those
  of shadowed schemas are.
-/

namespace McpRuntime

namespace Schema

/-- `_FORBIDDEN_IDENTITY_FIELDS`. -/
def forbiddenIdentityFields : List Text :=
  ["apikey", "authorization", "context", "credential", "credentials", "identity", "principal",
    "role", "roles", "scope", "scopes", "secret", "subject", "tenant", "tenantid", "token",
    "accesstoken", "refreshtoken", "user", "userid"].map lit

variable (unicode : UnicodeTable)

/-- The name of a field, without its separators, is that of a field of identity. -/
def isForbidden (fieldName : Text) : Bool :=
  forbiddenIdentityFields.contains ((fieldName.casefold unicode).filter isKeyPart)

/-! ## The walk -/

/-- What is pending, the last of it first: values with their paths. -/
abbrev Pending := List (Json × Text)

/-- The loop over the fields of a map of properties. -/
def pushFields (path : Text) : Members → Pending → Except ContractViolation Pending
  | [], pending => .ok pending
  | (fieldName, fieldSchema) :: properties, pending =>
    let fieldPath := path ++ lit "." ++ fieldName
    if isForbidden unicode fieldName then .error ⟨lit "forbidden_identity_field", fieldPath⟩
    else pushFields path properties ((fieldSchema, fieldPath) :: pending)

/-- A member of a mapping: a map of properties, or any other value. -/
def pushMember (path : Text) (m : Text × Json) (pending : Pending) :
    Except ContractViolation Pending :=
  let childPath := path ++ lit "." ++ m.1
  match m.2 with
  | .obj properties =>
    if m.1 = lit "properties" then pushFields unicode childPath properties pending
    else .ok ((.obj properties, childPath) :: pending)
  | child => .ok ((child, childPath) :: pending)

/-- The loop over the members of a mapping. -/
def pushMembers (path : Text) : Members → Pending → Except ContractViolation Pending
  | [], pending => .ok pending
  | m :: members, pending => do
    let pending ← pushMember unicode path m pending
    pushMembers path members pending

/-- The loop over the items of a list. -/
def pushItems (path : Text) (index : ℕ) : List Json → Pending → Pending
  | [], pending => pending
  | item :: items, pending =>
    pushItems path (index + 1) items
      ((item, path ++ lit "[" ++ natText index ++ lit "]") :: pending)

/-- What a value adds to the pending ones. -/
def pushValue (path : Text) (value : Json) (pending : Pending) :
    Except ContractViolation Pending :=
  match value with
  | .obj members => pushMembers unicode path members pending
  | .arr items => .ok (pushItems path 0 items pending)
  | _ => .ok pending

/-- The loop of `_validate_identity_fields`, of so many turns at most. -/
def validatePending : ℕ → Pending → Except ContractViolation Unit
  | _, [] => .ok ()
  | 0, (_, path) :: _ => .error ⟨lit "invalid_callable_schema", path⟩
  | fuel + 1, (value, path) :: pending => do
    let pending ← pushValue unicode path value pending
    validatePending fuel pending

/-- The number of values in a value. -/
def values : Json → ℕ
  | .arr items => 1 + valuesOfItems items
  | .obj members => 1 + valuesOfMembers members
  | _ => 1
where
  valuesOfItems : List Json → ℕ
    | [] => 0
    | item :: items => values item + valuesOfItems items
  valuesOfMembers : Members → ℕ
    | [] => 0
    | (_, item) :: members => values item + valuesOfMembers members

/-- `_validate_identity_fields`, which takes a turn for each value at most. -/
def validateIdentityFields (schema : Json) : Except ContractViolation Unit :=
  validatePending unicode (values schema) [(schema, lit "input_schema")]

/-! ## What the walk lets pass -/

/-- What the walk goes on to from a member. -/
def walked (m : Text × Json) : List Json :=
  match m.2 with
  | .obj properties => if m.1 = lit "properties" then properties.map Prod.snd else [m.2]
  | _ => [m.2]

/-- What the walk goes on to from a value. -/
def walkedFrom : Json → List Json
  | .obj members => members.flatMap walked
  | .arr items => items
  | _ => []

/-- The names in what is taken for a map of properties are allowed. -/
def Allowed (value : Json) : Prop :=
  ∀ members, value = .obj members →
    ∀ properties, (lit "properties", .obj properties) ∈ members →
      ∀ f ∈ properties, isForbidden unicode f.1 = false

/-- A value that the walk lets pass. -/
inductive Passes : Json → Prop
  | intro {value : Json} (allowed : Allowed unicode value)
      (walked : ∀ v ∈ walkedFrom value, Passes v) : Passes value

variable {unicode}

/-- Where no name is forbidden, the fields are pending. -/
theorem pushFields_eq_ok {path : Text} {properties : Members} {pending pending' : Pending}
    (h : pushFields unicode path properties pending = .ok pending') :
    (∀ f ∈ properties, isForbidden unicode f.1 = false) ∧
      pending'.map Prod.fst = (properties.map Prod.snd).reverse ++ pending.map Prod.fst := by
  induction properties generalizing pending with
  | nil =>
    cases h
    exact ⟨List.forall_mem_nil _, rfl⟩
  | cons f properties ih =>
    obtain ⟨fieldName, fieldSchema⟩ := f
    rw [pushFields] at h
    split_ifs at h with hforbidden
    obtain ⟨hnames, hpending⟩ := ih h
    rw [Bool.not_eq_true] at hforbidden
    refine ⟨List.forall_mem_cons.2 ⟨hforbidden, hnames⟩, ?_⟩
    rw [hpending, List.map_cons, List.map_cons, List.reverse_cons]
    exact List.append_cons _ _ _

theorem exists_pushFields (path : Text) {properties : Members} (pending : Pending)
    (h : ∀ f ∈ properties, isForbidden unicode f.1 = false) :
    ∃ pending', pushFields unicode path properties pending = .ok pending' := by
  induction properties generalizing pending with
  | nil => exact ⟨_, rfl⟩
  | cons f properties ih =>
    obtain ⟨hname, hnames⟩ := List.forall_mem_cons.1 h
    rw [pushFields, hname]
    exact ih _ hnames

/-- A member adds what the walk goes on to. -/
theorem pushMember_eq_ok {path : Text} {m : Text × Json} {pending pending' : Pending}
    (h : pushMember unicode path m pending = .ok pending') :
    (∀ properties, m = (lit "properties", .obj properties) →
      ∀ f ∈ properties, isForbidden unicode f.1 = false) ∧
        pending'.map Prod.fst = (walked m).reverse ++ pending.map Prod.fst := by
  obtain ⟨key, child⟩ := m
  rw [pushMember] at h
  rw [walked]
  dsimp only at h ⊢
  cases child with
  | obj properties =>
    dsimp only at h ⊢
    split_ifs at h ⊢ with hkey
    · obtain ⟨hnames, hpending⟩ := pushFields_eq_ok h
      refine ⟨fun properties' he => ?_, hpending⟩
      cases he
      exact hnames
    · cases h
      exact ⟨fun properties' he => absurd (congrArg Prod.fst he) hkey, rfl⟩
  | null | bool | int | float | str | arr =>
    cases h
    exact ⟨fun properties' he => (by cases he), rfl⟩

theorem exists_pushMember (path : Text) {m : Text × Json} (pending : Pending)
    (h : ∀ properties, m = (lit "properties", .obj properties) →
      ∀ f ∈ properties, isForbidden unicode f.1 = false) :
    ∃ pending', pushMember unicode path m pending = .ok pending' := by
  obtain ⟨key, child⟩ := m
  rw [pushMember]
  dsimp only
  cases child with
  | obj properties =>
    dsimp only
    split_ifs with hkey
    · exact exists_pushFields _ _ (h properties (by rw [hkey]))
    · exact ⟨_, rfl⟩
  | null | bool | int | float | str | arr => exact ⟨_, rfl⟩

/-- The members add what the walk goes on to. -/
theorem pushMembers_eq_ok {path : Text} {members : Members} {pending pending' : Pending}
    (h : pushMembers unicode path members pending = .ok pending') :
    (∀ properties, (lit "properties", .obj properties) ∈ members →
      ∀ f ∈ properties, isForbidden unicode f.1 = false) ∧
        pending'.map Prod.fst = (members.flatMap walked).reverse ++ pending.map Prod.fst := by
  induction members generalizing pending with
  | nil =>
    cases h
    exact ⟨fun _ hm => absurd hm List.not_mem_nil, rfl⟩
  | cons m members ih =>
    obtain ⟨between, hbetween, h⟩ := bind_eq_ok.1 h
    obtain ⟨hallowed, hfirst⟩ := pushMember_eq_ok hbetween
    obtain ⟨hall, hrest⟩ := ih h
    refine ⟨fun properties hm => ?_, ?_⟩
    · rcases List.mem_cons.1 hm with he | hm
      · exact hallowed properties he.symm
      · exact hall properties hm
    · rw [hrest, hfirst, List.flatMap_cons, List.reverse_append, List.append_assoc]

theorem exists_pushMembers (path : Text) {members : Members} (pending : Pending)
    (h : ∀ properties, (lit "properties", .obj properties) ∈ members →
      ∀ f ∈ properties, isForbidden unicode f.1 = false) :
    ∃ pending', pushMembers unicode path members pending = .ok pending' := by
  induction members generalizing pending with
  | nil => exact ⟨_, rfl⟩
  | cons m members ih =>
    obtain ⟨between, hbetween⟩ := exists_pushMember path pending fun properties he =>
      h properties (List.mem_cons.2 (.inl he.symm))
    obtain ⟨pending', hpending⟩ := ih between fun properties hm =>
      h properties (List.mem_cons_of_mem _ hm)
    exact ⟨pending', bind_eq_ok.2 ⟨between, hbetween, hpending⟩⟩

/-- The items are pending. -/
theorem map_pushItems (path : Text) (index : ℕ) (items : List Json) (pending : Pending) :
    (pushItems path index items pending).map Prod.fst =
      items.reverse ++ pending.map Prod.fst := by
  induction items generalizing index pending with
  | nil => rfl
  | cons item items ih =>
    rw [pushItems, ih, List.reverse_cons, List.map_cons]
    exact List.append_cons _ _ _

/-- A value adds what the walk goes on to. -/
theorem pushValue_eq_ok {path : Text} {value : Json} {pending pending' : Pending}
    (h : pushValue unicode path value pending = .ok pending') :
    Allowed unicode value ∧
      pending'.map Prod.fst = (walkedFrom value).reverse ++ pending.map Prod.fst := by
  cases value with
  | obj members =>
    obtain ⟨hnames, hpending⟩ := pushMembers_eq_ok h
    refine ⟨fun members' he => ?_, hpending⟩
    cases he
    exact hnames
  | arr items =>
    cases h
    exact ⟨fun members he => (by cases he), map_pushItems path 0 items pending⟩
  | null | bool | int | float | str =>
    cases h
    exact ⟨fun members he => (by cases he), rfl⟩

theorem exists_pushValue (path : Text) {value : Json} (pending : Pending)
    (h : Allowed unicode value) :
    ∃ pending', pushValue unicode path value pending = .ok pending' := by
  cases value with
  | obj members => exact exists_pushMembers path pending (h members rfl)
  | null | bool | int | float | str | arr => exact ⟨_, rfl⟩

theorem values_arr (items : List Json) : values (.arr items) = 1 + (items.map values).sum := by
  have hitems : values.valuesOfItems items = (items.map values).sum := by
    induction items with
    | nil => rfl
    | cons item items ih => rw [values.valuesOfItems, ih, List.map_cons, List.sum_cons]
  rw [values, hitems]

theorem values_obj (members : Members) :
    values (.obj members) = 1 + ((members.map Prod.snd).map values).sum := by
  have hmembers : values.valuesOfMembers members = ((members.map Prod.snd).map values).sum := by
    induction members with
    | nil => rfl
    | cons m members ih =>
      rw [values.valuesOfMembers, ih, List.map_cons, List.map_cons, List.sum_cons]
  rw [values, hmembers]

/-- A member leads to no more values than it has. -/
theorem values_walked (m : Text × Json) : ((walked m).map values).sum ≤ values m.2 := by
  obtain ⟨key, child⟩ := m
  rw [walked]
  dsimp only
  split
  · next properties =>
    split_ifs
    · rw [values_obj]
      exact Nat.le_add_left _ _
    · exact le_of_eq (List.sum_singleton)
  · exact le_of_eq (List.sum_singleton)

/-- A value leads to fewer values than it has. -/
theorem values_walkedFrom (value : Json) :
    1 + ((walkedFrom value).map values).sum ≤ values value := by
  cases value with
  | obj members =>
    rw [values_obj, walkedFrom]
    refine Nat.add_le_add_left ?_ 1
    induction members with
    | nil => exact le_rfl
    | cons m members ih =>
      rw [List.flatMap_cons, List.map_append, List.sum_append, List.map_cons, List.map_cons,
        List.sum_cons]
      exact Nat.add_le_add (values_walked m) ih
  | arr items => exact (values_arr items).ge
  | null | bool | int | float | str => exact le_rfl

/-- The loop lets pass what it should, with a turn for each value. -/
theorem validatePending_eq_ok {fuel : ℕ} {pending : Pending}
    (hfuel : ((pending.map Prod.fst).map values).sum ≤ fuel) :
    validatePending unicode fuel pending = .ok () ↔
      ∀ value ∈ pending.map Prod.fst, Passes unicode value := by
  induction fuel generalizing pending with
  | zero =>
    cases pending with
    | nil => exact iff_of_true rfl (List.forall_mem_nil _)
    | cons item pending =>
      -- Every pending value counts for a turn at least, so that one is left.
      have hvalues := values_walkedFrom item.1
      rw [List.map_cons, List.map_cons, List.sum_cons] at hfuel
      omega
  | succ fuel ih =>
    cases pending with
    | nil => exact iff_of_true rfl (List.forall_mem_nil _)
    | cons item pending =>
      obtain ⟨value, path⟩ := item
      have hvalues := values_walkedFrom value
      rw [List.map_cons, List.map_cons, List.sum_cons] at hfuel
      dsimp only at hfuel
      -- What is pending after the turn has fewer values in it than before
      -- (`values_walkedFrom`), so that the turns that are left suffice.
      have hstep {pending' : Pending}
          (h : pending'.map Prod.fst = (walkedFrom value).reverse ++ pending.map Prod.fst) :
          validatePending unicode fuel pending' = .ok () ↔
            (∀ v ∈ walkedFrom value, Passes unicode v) ∧
              ∀ v ∈ pending.map Prod.fst, Passes unicode v := by
        have hless : ((pending'.map Prod.fst).map values).sum ≤ fuel := by
          rw [h, List.map_append, List.sum_append, List.map_reverse, List.sum_reverse]
          omega
        rw [ih hless, h, List.forall_mem_append]
        simp only [List.mem_reverse]
      rw [validatePending, bind_eq_ok, List.map_cons, List.forall_mem_cons]
      constructor
      · rintro ⟨pending', hpush, h⟩
        obtain ⟨hallowed, hmap⟩ := pushValue_eq_ok hpush
        obtain ⟨hpasses, hrest⟩ := (hstep hmap).1 h
        exact ⟨.intro hallowed hpasses, hrest⟩
      · rintro ⟨⟨hallowed, hpasses⟩, hrest⟩
        obtain ⟨pending', hpush⟩ := exists_pushValue path pending hallowed
        exact ⟨pending', hpush, (hstep (pushValue_eq_ok hpush).2).2 ⟨hpasses, hrest⟩⟩

/-- Which schemas the walk lets pass. -/
theorem validateIdentityFields_eq_ok {schema : Json} :
    validateIdentityFields unicode schema = .ok () ↔ Passes unicode schema := by
  rw [validateIdentityFields, validatePending_eq_ok (by simp)]
  exact List.forall_mem_singleton

/-! ## What the walk takes for something else -/

/-- The schemas in a root schema: the root, its definitions, and the subschemas of these. -/
inductive Position (root : Json) : Json → Prop
  | root : Position root root
  | definition {m : Text × Json} : m ∈ definitionsOf root → Position root m.2
  | sub {s t : Json} : Position root s → Subschema s t → Position root t

/-- A schema that the walk takes for a map of properties: the definition with the name
    `properties`, and the field with this name of such a schema. -/
inductive Shadowed (root : Json) : Members → Prop
  | definition {schema : Members} :
      (lit "properties", .obj schema) ∈ definitionsOf root → Shadowed root schema
  | field {schema properties inner : Members} :
      Shadowed root schema → Json.get (lit "properties") schema = some (.obj properties) →
        (lit "properties", .obj inner) ∈ properties → Shadowed root inner

/-- A schema declares a field. -/
def Declares (schema : Members) (fieldName : Text) : Prop :=
  ∃ properties fieldSchema, Json.get (lit "properties") schema = some (.obj properties) ∧
    (fieldName, fieldSchema) ∈ properties

/-- What the walk goes on to from a member passes too. -/
theorem Passes.member {members : Members} (h : Passes unicode (.obj members)) {m : Text × Json}
    (hm : m ∈ members) : ∀ v ∈ walked m, Passes unicode v := by
  cases h with
  | intro _ hwalked => exact fun v hv => hwalked v (List.mem_flatMap.2 ⟨m, hm, hv⟩)

/-- The fields of what the walk takes for a map of properties. -/
theorem Passes.fields {members properties : Members} (h : Passes unicode (.obj members))
    (hm : (lit "properties", .obj properties) ∈ members) :
    ∀ f ∈ properties, isForbidden unicode f.1 = false ∧ Passes unicode f.2 := by
  intro f hf
  refine ⟨?_, h.member hm f.2 ?_⟩
  · cases h with
    | intro allowed _ => exact allowed members rfl properties hm f hf
  · rw [walked]
    dsimp only
    rw [if_pos rfl]
    exact List.mem_map_of_mem hf

/-- A member that is walked as a value. -/
theorem Passes.other {members : Members} (h : Passes unicode (.obj members)) {m : Text × Json}
    (hm : m ∈ members) (hne : ∀ properties, m ≠ (lit "properties", .obj properties)) :
    Passes unicode m.2 := by
  obtain ⟨key, child⟩ := m
  have hwalked := h.member hm
  rw [walked] at hwalked
  dsimp only at hwalked
  split at hwalked
  · next properties =>
    rw [if_neg fun hkey => hne properties (by rw [hkey])] at hwalked
    exact hwalked _ (List.mem_singleton_self _)
  · exact hwalked _ (List.mem_singleton_self _)

/-- The items of a list that passes. -/
theorem Passes.items {items : List Json} (h : Passes unicode (.arr items)) :
    ∀ item ∈ items, Passes unicode item := by
  cases h with
  | intro _ hwalked => exact hwalked

/-- A keyword other than `properties`. -/
theorem Passes.keyword {members : Members} (h : Passes unicode (.obj members)) {key : Text}
    {value : Json} (hkey : key ≠ lit "properties") (hget : Json.get key members = some value) :
    Passes unicode value :=
  h.other (Json.mem_of_get hget) fun _ he => hkey (congrArg Prod.fst he)

/-- The definitions of a root are walked as a mapping. -/
theorem Passes.definitions {root : Json} (h : Passes unicode root) :
    Passes unicode (.obj (definitionsOf root)) := by
  have hempty : Passes unicode (.obj []) := by
    refine .intro (fun members he properties hm => ?_) (List.forall_mem_nil _)
    cases he
    cases hm
  cases root with
  | obj members =>
    rw [definitionsOf]
    split
    · next hget => exact h.keyword (by decide) hget
    · exact hempty
  | null | bool | int | float | str | arr => exact hempty

/-- The keywords of a shadowed schema are walked. -/
theorem Shadowed.passes {root : Json} (hroot : Passes unicode root) {schema : Members}
    (h : Shadowed root schema) : ∀ m ∈ schema, Passes unicode m.2 := by
  induction h with
  | definition hm => exact fun f hf => (hroot.definitions.fields hm f hf).2
  | field _ hget hm ih =>
    exact fun f hf => ((ih _ (Json.mem_of_get hget)).fields hm f hf).2

/-- A member of a mapping that is walked is walked itself, or is shadowed. -/
theorem Passes.or_shadowed {members : Members} (h : Passes unicode (.obj members)) {root : Json}
    (hshadowed : ∀ inner, (lit "properties", .obj inner) ∈ members → Shadowed root inner)
    {m : Text × Json} (hm : m ∈ members) :
    Passes unicode m.2 ∨ ∃ schema, m.2 = .obj schema ∧ Shadowed root schema := by
  by_cases hne : ∃ properties, m = (lit "properties", .obj properties)
  · obtain ⟨properties, rfl⟩ := hne
    exact .inr ⟨properties, rfl, hshadowed properties hm⟩
  · exact .inl (h.other hm fun properties he => hne ⟨properties, he⟩)

/-- Every schema is walked, or is shadowed. -/
theorem Position.passes {root s : Json} (hroot : Passes unicode root) (h : Position root s) :
    Passes unicode s ∨ ∃ schema, s = .obj schema ∧ Shadowed root schema := by
  induction h with
  | root => exact .inl hroot
  | definition hm => exact hroot.definitions.or_shadowed (fun _ hi => .definition hi) hm
  | sub _ hsub ih =>
    obtain ⟨schema, rfl⟩ := hsub.isObj
    -- A shadowed schema is not walked itself, but what is under its keywords
    -- is (`Shadowed.passes`).
    have hkeyword {key : Text} {value : Json} (hkey : key ≠ lit "properties")
        (hget : Json.get key schema = some value) : Passes unicode value := by
      rcases ih with h | ⟨_, he, h⟩
      · exact h.keyword hkey hget
      · cases he
        exact h.passes hroot _ (Json.mem_of_get hget)
    cases hsub with
    | anyOf hget hmem =>
      exact .inl ((hkeyword (by decide) hget).items _ hmem)
    | items hget => exact .inl (hkeyword (by decide) hget)
    | additionalProperties hget => exact .inl (hkeyword (by decide) hget)
    | propertyNames hget => exact .inl (hkeyword (by decide) hget)
    | properties hget hmem =>
      -- Under `properties` alone does a shadowed schema lead to another.
      rcases ih with h | ⟨_, he, h⟩
      · exact .inl (h.fields (Json.mem_of_get hget) _ hmem).2
      · cases he
        exact (h.passes hroot _ (Json.mem_of_get hget)).or_shadowed
          (fun _ hi => .field h hget hi) hmem

/-- A shadowed schema is a schema in the root. -/
theorem Shadowed.position {root : Json} {schema : Members} (h : Shadowed root schema) :
    Position root (.obj schema) := by
  induction h with
  | definition hm => exact .definition hm
  | field _ hget hm ih => exact .sub ih (.properties hget hm)

/-- Where the walk lets a schema pass, no schema in it declares a field of identity exactly when
    no shadowed one does. -/
theorem declares_iff_shadowed {root : Json} (h : validateIdentityFields unicode root = .ok ()) :
    (∀ schema fieldName, Position root (.obj schema) → Declares schema fieldName →
      isForbidden unicode fieldName = false) ↔
    ∀ schema fieldName, Shadowed root schema → Declares schema fieldName →
      isForbidden unicode fieldName = false := by
  have hroot := validateIdentityFields_eq_ok.1 h
  constructor
  · exact fun hall schema fieldName hs => hall schema fieldName hs.position
  · intro hall schema fieldName hposition hdeclares
    rcases hposition.passes hroot with hpasses | ⟨_, he, hs⟩
    · obtain ⟨properties, fieldSchema, hget, hm⟩ := hdeclares
      exact (hpasses.fields (Json.mem_of_get hget) _ hm).1
    · cases he
      exact hall schema fieldName hs hdeclares

/-! ## Examples -/

/-- A schema of an object with a text under the name. -/
def textField (fieldName : Text) : Members :=
  [(lit "type", .str (lit "object")),
    (lit "properties", .obj [(fieldName, .obj [(lit "type", .str (lit "string")),
      (lit "maxLength", .int 8)])]),
    (lit "additionalProperties", .bool false)]

/-- A schema whose field `a` is of the definition `properties`. -/
def definesProperties (definition : Members) : Json :=
  .obj [(lit "$defs", .obj [(lit "properties", .obj definition)]),
    (lit "type", .str (lit "object")),
    (lit "properties", .obj [(lit "a", .obj [(lit "$ref", .str (lit "#/$defs/properties"))])]),
    (lit "additionalProperties", .bool false)]

/-- The one field of this schema. -/
theorem get_textField {name : Text} {properties : Members}
    (h : Json.get (lit "properties") (textField name) = some (.obj properties)) :
    ∀ f ∈ properties, f.1 = name := by
  cases (show some (Json.obj _) = some (Json.obj properties) from h)
  exact fun f hf => congrArg Prod.fst (List.mem_singleton.1 hf)

/-- The one schema that the walk takes for a map of properties. -/
theorem shadowed_definesProperties {name : Text} (hname : name ≠ lit "properties")
    {schema : Members} (h : Shadowed (definesProperties (textField name)) schema) :
    schema = textField name := by
  induction h with
  | definition hm => exact Json.obj.inj (congrArg Prod.snd (List.mem_singleton.1 hm))
  | field _ hget hm ih => exact absurd (get_textField (ih ▸ hget) _ hm).symm hname

/-- A definition `properties` whose field is allowed. -/
theorem declares_iff_shadowed_example :
    validateSchema .plain {} (definesProperties (textField (lit "city")))
      (lit "input_schema") = .ok () ∧
    ∀ schema fieldName, Position (definesProperties (textField (lit "city"))) (.obj schema) →
      Declares schema fieldName → isForbidden Policy.asciiTable fieldName = false := by
  refine ⟨by decide +kernel, (declares_iff_shadowed (by decide +kernel)).2 ?_⟩
  rintro schema fieldName hshadowed ⟨properties, fieldSchema, hget, hm⟩
  rw [shadowed_definesProperties (by decide) hshadowed] at hget
  rw [show fieldName = lit "city" from get_textField hget _ hm]
  decide +kernel

/-- The definition `properties` declares a tenant. -/
example :
    validateSchema .plain {} (definesProperties (textField (lit "tenant_id")))
      (lit "input_schema") = .ok () ∧
    validateIdentityFields Policy.asciiTable (definesProperties (textField (lit "tenant_id"))) =
      .ok () ∧
    ∃ schema, Position (definesProperties (textField (lit "tenant_id"))) (.obj schema) ∧
      Declares schema (lit "tenant_id") ∧
        isForbidden Policy.asciiTable (lit "tenant_id") = true := by
  refine ⟨by decide +kernel, by decide +kernel, textField (lit "tenant_id"),
    .definition (m := (lit "properties", .obj _)) (.head _), ⟨_, _, rfl, .head _⟩, ?_⟩
  decide +kernel

end Schema

end McpRuntime
