import McpRuntime.Schema.Accepted
import McpRuntime.Schema.JsonSchema
import Mathlib.Data.List.Perm.Subperm
import Mathlib.Logic.Relation

/-!
# Accepted schemas are bounded

A value that is valid under an accepted tool schema is bounded by the policy:
its levels, its texts and the sizes of its arrays and objects. It is an object
when every typed schema that the root leads to has this type; the validation
demands the type of the root only where the root has one. The references of the
definitions lead to no definition again, except through the names of closed
objects, which the validation does not visit.

* `bounded_of_accepted`: what is valid under an accepted schema is bounded.
* `not_transGen_refers`: no cycle of references outside these names.
* `bounded_of_validateSchema`: both, for the root of a tool schema.
-/

namespace McpRuntime

namespace Schema

open JsonSchema

variable {policy : SchemaPolicy} {formats : Formats} {root : Json}

/-! ## Bounded values -/

/-- A value with at most the given number of levels, whose texts, arrays and
    objects are within the limits of the policy, and whose keys are no longer
    than `longestKey`. -/
inductive Bounded (policy : SchemaPolicy) (longestKey : ℕ) : ℕ → Json → Prop
  | null {n : ℕ} : Bounded policy longestKey (n + 1) .null
  | bool {n : ℕ} {b : Bool} : Bounded policy longestKey (n + 1) (.bool b)
  | int {n : ℕ} {i : ℤ} : Bounded policy longestKey (n + 1) (.int i)
  | float {n : ℕ} {x : PyFloat} : Bounded policy longestKey (n + 1) (.float x)
  | str {n : ℕ} {t : Text} : t.length ≤ policy.maxStringLength →
      Bounded policy longestKey (n + 1) (.str t)
  | arr {n : ℕ} {items : List Json} : items.length ≤ policy.maxArrayItems →
      (∀ j ∈ items, Bounded policy longestKey n j) → Bounded policy longestKey (n + 1) (.arr items)
  | obj {n : ℕ} {members : Members} : members.length ≤ policy.maxProperties →
      (∀ m ∈ members, m.1.length ≤ longestKey) →
        (∀ m ∈ members, Bounded policy longestKey n m.2) →
          Bounded policy longestKey (n + 1) (.obj members)

/-- A bounded value has no more levels when more are allowed. -/
theorem Bounded.succ {longestKey n : ℕ} {j : Json} (h : Bounded policy longestKey n j) :
    Bounded policy longestKey (n + 1) j := by
  induction h with
  | null => exact .null
  | bool => exact .bool
  | int => exact .int
  | float => exact .float
  | str hlen => exact .str hlen
  | arr hlen _ ih => exact .arr hlen ih
  | obj hlen hkeys _ ih => exact .obj hlen hkeys ih

/-- The length of the longest key in a value. -/
def longestKey : Json → ℕ
  | .arr items => ofItems items
  | .obj members => ofMembers members
  | _ => 0
where
  ofItems : List Json → ℕ
    | [] => 0
    | j :: items => max (longestKey j) (ofItems items)
  ofMembers : Members → ℕ
    | [] => 0
    | (key, j) :: members => max (max key.length (longestKey j)) (ofMembers members)

/-- An item has no longer keys than the array. -/
theorem longestKey_item {items : List Json} {j : Json} (hj : j ∈ items) :
    longestKey j ≤ longestKey (.arr items) := by
  rw [longestKey.eq_1]
  induction items with
  | nil => cases hj
  | cons i items ih =>
    rw [longestKey.ofItems]
    rcases List.mem_cons.1 hj with rfl | hj
    · exact le_max_left _ _
    · exact (ih hj).trans (le_max_right _ _)

/-- A member of an object: its key and the keys in its value are no longer than
    those of the object. -/
theorem longestKey_member {members : Members} {m : Text × Json} (hm : m ∈ members) :
    m.1.length ≤ longestKey (.obj members) ∧ longestKey m.2 ≤ longestKey (.obj members) := by
  rw [longestKey.eq_2]
  induction members with
  | nil => cases hm
  | cons m' members ih =>
    obtain ⟨key, j⟩ := m'
    rw [longestKey.ofMembers]
    rcases List.mem_cons.1 hm with rfl | hm
    · exact ⟨le_max_of_le_left (le_max_left _ _), le_max_of_le_left (le_max_right _ _)⟩
    · exact ⟨(ih hm).1.trans (le_max_right _ _), (ih hm).2.trans (le_max_right _ _)⟩

/-- What a key is bound to has no longer keys than the object. -/
theorem longestKey_get {members : Members} {key : Text} {j : Json}
    (h : Json.get key members = some j) : longestKey j ≤ longestKey (.obj members) :=
  (longestKey_member (Json.mem_of_get h)).2

/-- A definition has no longer keys than the root. -/
theorem longestKey_definition {name : Text} {target : Json}
    (h : Json.get name (definitionsOf root) = some target) : longestKey target ≤ longestKey root := by
  cases root with
  | obj members =>
    rw [definitionsOf] at h
    split at h
    · next definitions hget => exact (longestKey_get h).trans (longestKey_get hget)
    · cases h
  | null | bool | int | float | str | arr => cases h

/-- A reference of an accepted node leads to the definition of its name. -/
theorem definition_eq (name : Text) :
    definition root (localDefinitionPrefix ++ name) = Json.get name (definitionsOf root) := by
  have hstarted : (lit "#/$defs/").isPrefixOf (localDefinitionPrefix ++ name) := by
    rw [List.isPrefixOf_iff_prefix]
    exact List.prefix_append _ _
  have hdrop : (localDefinitionPrefix ++ name).drop (lit "#/$defs/").length = name :=
    List.drop_left
  cases root with
  | obj members =>
    rw [definition, definitionsOf]
    cases hget : Json.get (lit "$defs") members with
    | none => rfl
    | some j =>
      cases j with
      | obj definitions => simp only [if_pos hstarted, hdrop]
      | null | bool | int | float | str | arr => rfl
  | null | bool | int | float | str | arr => rfl

/-! ## What is valid is bounded -/

/-- The limit of a keyword, as a number. -/
theorem limit_of_limitedBy {maximum : ℕ} {keyword : Text} {schema : Members}
    (h : LimitedBy maximum keyword schema) : ∃ n ∈ limit keyword schema, n ≤ maximum := by
  obtain ⟨n, hn, hle⟩ := h
  refine ⟨n, ?_, by exact_mod_cast hle⟩
  rw [limit, hn]
  rfl

/-- A text that is valid under a node of the type `string` is bounded, by
    `maxLength` or by the values of the node. -/
theorem length_le_of_satisfies {child : Json → Prop} {valid : Json → Json → Prop}
    {schema : Members} {t : Text} (htyped : TypedNode policy child (lit "string") schema)
    (hvalid : Satisfies formats root valid schema (.str t)) :
    t.length ≤ policy.maxStringLength := by
  rcases htyped.string rfl with hlimit | ⟨values, henum, -, hvalues⟩
  · obtain ⟨n, hn, hle⟩ := limit_of_limitedBy hlimit
    exact_mod_cast (hvalid.maxLength t rfl n hn).trans hle
  · obtain ⟨v, hv, heq⟩ := hvalid.enum values henum
    rw [Json.Equal, Json.equalWith_scalar (x := .text t) rfl, Json.scalar_eq_text] at heq
    exact hvalues t (heq ▸ hv)

/-- The members of an object that is valid under a closed one are declared. -/
theorem declared_of_satisfies {child : Json → Prop} {schema properties members : Members}
    (hclosed : Closed policy child schema properties)
    (hvalid : Satisfies formats root (Valid formats root) schema (.obj members)) :
    ∀ m ∈ members, ∃ s, Json.get m.1 properties = some s ∧ child s ∧ Valid formats root s m.2 := by
  intro m hm
  cases hget : Json.get m.1 properties with
  | none =>
    refine absurd (hvalid.additionalProperties members rfl _ hclosed.additional m hm ?_)
      not_valid_false
    intro ps hps
    rcases hclosed.declared with ⟨hnull, -⟩ | hdeclared
    · rw [Json.pyGet, hps] at hnull
      cases hnull
    · cases hdeclared.symm.trans hps
      exact hget
  | some s =>
    refine ⟨s, rfl, hclosed.children _ (Json.mem_of_get hget), ?_⟩
    rcases hclosed.declared with ⟨-, rfl⟩ | hdeclared
    · cases hget
    · exact hvalid.properties members rfl properties hdeclared m hm s hget

/-- The members of an object that is valid under a mapping. -/
theorem names_of_satisfies {child : Json → Prop} {schema members : Members}
    (hmapping : Mapping policy child schema)
    (hvalid : Satisfies formats root (Valid formats root) schema (.obj members)) :
    members.length ≤ policy.maxProperties ∧ ∀ m ∈ members, m.1.length ≤ policy.maxStringLength ∧
      ∃ s, Json.get (lit "additionalProperties") schema = some s ∧ child s ∧
        Valid formats root s m.2 := by
  obtain ⟨a, ha, hchild⟩ := hmapping.additional
  obtain ⟨names, hnames, -, hlimit⟩ := hmapping.names
  obtain ⟨n, hn, hle⟩ := limit_of_limitedBy hmapping.maxProperties
  refine ⟨by exact_mod_cast (hvalid.maxProperties members rfl n hn).trans hle, fun m hm => ?_⟩
  have hname := hvalid.propertyNames members rfl _ hnames m hm
  rw [valid_obj] at hname
  obtain ⟨k, hk, hkle⟩ := limit_of_limitedBy hlimit
  refine ⟨by exact_mod_cast (hname.maxLength m.1 rfl k hk).trans hkle, _, ha, hchild, ?_⟩
  refine hvalid.additionalProperties members rfl _ ha m hm fun ps hps => ?_
  have hnull := hmapping.properties
  rw [Json.pyGet, hps] at hnull
  cases hnull

/-- An object that is valid under a closed one is bounded when its values are. -/
theorem bounded_of_closed {child : Json → Prop} {schema properties members : Members} {room : ℕ}
    (hclosed : Closed policy child schema properties)
    (hvalid : Satisfies formats root (Valid formats root) schema (.obj members))
    (hkeys : (members.map Prod.fst).Nodup)
    (hproperties : longestKey (.obj properties) ≤ longestKey root)
    (hvalues : ∀ m ∈ members, ∀ s, child s → longestKey s ≤ longestKey root →
      Valid formats root s m.2 →
        Bounded policy (max policy.maxStringLength (longestKey root)) room m.2) :
    Bounded policy (max policy.maxStringLength (longestKey root)) (room + 1) (.obj members) := by
  have hdeclared := declared_of_satisfies hclosed hvalid
  -- Distinct keys, all of them declared, are no more than the declared ones.
  have hsub : members.map Prod.fst ⊆ properties.map Prod.fst := by
    intro key hkey
    obtain ⟨m, hm, rfl⟩ := List.mem_map.1 hkey
    obtain ⟨s, hs, -⟩ := hdeclared m hm
    exact List.mem_map.2 ⟨(m.1, s), Json.mem_of_get hs, rfl⟩
  refine .obj ?_ (fun m hm => ?_) fun m hm => ?_
  · have hle := (List.subperm_of_subset hkeys hsub).length_le
    rw [List.length_map, List.length_map] at hle
    exact hle.trans hclosed.length_le
  · obtain ⟨s, hs, -⟩ := hdeclared m hm
    exact ((longestKey_member (Json.mem_of_get hs)).1.trans hproperties).trans (le_max_right _ _)
  · obtain ⟨s, hs, hchild, hv⟩ := hdeclared m hm
    exact hvalues m hm s hchild ((longestKey_get hs).trans hproperties) hv

/-- What is valid under an accepted schema is bounded. -/
theorem bounded_of_accepted {room : ℕ} {schema j : Json}
    (haccepted : Accepted policy (definitionsOf root) room schema) (hj : j.WellFormed)
    (hvalid : Valid formats root schema j) (hkeys : longestKey schema ≤ longestKey root) :
    Bounded policy (max policy.maxStringLength (longestKey root)) room j := by
  induction room generalizing schema j with
  | zero => exact haccepted.elim
  | succ room ih =>
    cases schema with
    | null | bool | int | float | str | arr => exact haccepted.elim
    | obj schema =>
      rw [valid_obj] at hvalid
      have hget {key : Text} {s : Json} (h : Json.get key schema = some s) :
          longestKey s ≤ longestKey root := (longestKey_get h).trans hkeys
      rcases haccepted.typed with ⟨-, hother⟩ | ⟨schemaType, htype, htyped⟩
      · -- a union or a reference: the value is valid one level down
        refine Bounded.succ ?_
        rcases haccepted.anyOf with hnull | ⟨variants, hanyOf, -, hall⟩
        · rcases haccepted.ref with hnull' | ⟨name, target, href, htarget, hchild⟩
          · exact (hother.elim (fun h => h hnull) fun h => h hnull').elim
          · obtain ⟨target', htarget', hv⟩ := hvalid.ref _ href
            rw [definition_eq, htarget] at htarget'
            cases htarget'
            exact ih hchild hj hv (longestKey_definition htarget)
        · obtain ⟨variant, hmem, hv⟩ := hvalid.anyOf variants hanyOf
          exact ih (hall variant hmem) hj hv ((longestKey_item hmem).trans (hget hanyOf))
      · have hhas := hvalid.type schemaType htype
        cases j with
        | null => exact .null
        | bool => exact .bool
        | int => exact .int
        | float => exact .float
        | str t =>
          obtain rfl : schemaType = lit "string" := hhas
          exact .str (length_le_of_satisfies htyped hvalid)
        | arr items =>
          obtain rfl : schemaType = lit "array" := hhas
          obtain ⟨hmax, s, hitems, hchild⟩ := htyped.array rfl
          obtain ⟨n, hn, hle⟩ := limit_of_limitedBy hmax
          rw [Json.wellFormed_arr] at hj
          exact .arr (by exact_mod_cast (hvalid.maxItems items rfl n hn).trans hle) fun i hi =>
            ih hchild (hj i hi) (hvalid.items items rfl _ hitems i hi) (hget hitems)
        | obj members =>
          obtain rfl : schemaType = lit "object" := hhas
          rw [Json.wellFormed_obj] at hj
          rcases htyped.object rfl with hmapping | ⟨properties, hclosed⟩
          · obtain ⟨hlen, hmembers⟩ := names_of_satisfies hmapping hvalid
            refine .obj hlen (fun m hm => (hmembers m hm).1.trans (le_max_left _ _)) fun m hm => ?_
            obtain ⟨-, s, hs, hchild, hv⟩ := hmembers m hm
            exact ih hchild (hj.2 m hm) hv (hget hs)
          · refine bounded_of_closed hclosed hvalid hj.1 ?_ fun m hm s hchild hlongest hv =>
              ih hchild (hj.2 m hm) hv hlongest
            rcases hclosed.declared with ⟨-, rfl⟩ | h
            · exact Nat.zero_le _
            · exact hget h

/-! ## The type of the root -/

/-- The schema that a schema leads to, through unions and references without a
    type. -/
inductive LeadsTo (root : Json) : Json → Json → Prop
  | refl (s : Json) : LeadsTo root s s
  | anyOf {schema : Members} {variants : List Json} {variant s : Json} :
      Json.pyGet (lit "type") schema = .null →
        Json.get (lit "anyOf") schema = some (.arr variants) → variant ∈ variants →
          LeadsTo root variant s → LeadsTo root (.obj schema) s
  | ref {schema : Members} {reference : Text} {target s : Json} :
      Json.pyGet (lit "type") schema = .null →
        Json.get (lit "$ref") schema = some (.str reference) →
          definition root reference = some target → LeadsTo root target s →
            LeadsTo root (.obj schema) s

/-- Every typed schema that a schema leads to has the type of objects. -/
def ObjectBranches (root schema : Json) : Prop :=
  ∀ s, LeadsTo root schema (.obj s) → ∀ schemaType,
    Json.get (lit "type") s = some (.str schemaType) → schemaType = lit "object"

/-- What is valid under an accepted schema is an object when all its branches
    are. -/
theorem object_of_accepted {room : ℕ} {schema j : Json}
    (haccepted : Accepted policy (definitionsOf root) room schema)
    (hvalid : Valid formats root schema j) (hbranches : ObjectBranches root schema) :
    ∃ members, j = .obj members := by
  induction room generalizing schema with
  | zero => exact haccepted.elim
  | succ room ih =>
    cases schema with
    | null | bool | int | float | str | arr => exact haccepted.elim
    | obj schema =>
      rw [valid_obj] at hvalid
      rcases haccepted.typed with ⟨huntyped, hother⟩ | ⟨schemaType, htype, -⟩
      · rcases haccepted.anyOf with hnull | ⟨variants, hanyOf, -, hall⟩
        · rcases haccepted.ref with hnull' | ⟨name, target, href, htarget, hchild⟩
          · exact (hother.elim (fun h => h hnull) fun h => h hnull').elim
          · obtain ⟨target', htarget', hv⟩ := hvalid.ref _ href
            have hlead := htarget'
            rw [definition_eq, htarget] at htarget'
            cases htarget'
            exact ih hchild hv fun s hs => hbranches s (.ref huntyped href hlead hs)
        · obtain ⟨variant, hmem, hv⟩ := hvalid.anyOf variants hanyOf
          exact ih (hall variant hmem) hv fun s hs =>
            hbranches s (.anyOf huntyped hanyOf hmem hs)
      · have hhas := hvalid.type schemaType htype
        obtain rfl := hbranches schema (.refl _) schemaType htype
        cases j with
        | obj members => exact ⟨members, rfl⟩
        | float x =>
          rcases hhas with h | ⟨h, -⟩
          · exact absurd h (by decide)
          · exact absurd h (by decide)
        | int n =>
          rcases hhas with h | h
          · exact absurd h (by decide)
          · exact absurd h (by decide)
        | null | bool | str | arr =>
          rw [HasType] at hhas
          exact absurd hhas (by decide)

/-! ## Cycles of references -/

/-- The subschemas of a schema. -/
inductive Subschema : Json → Json → Prop
  | anyOf {schema : Members} {variants : List Json} {variant : Json} :
      Json.get (lit "anyOf") schema = some (.arr variants) → variant ∈ variants →
        Subschema (.obj schema) variant
  | items {schema : Members} {s : Json} :
      Json.get (lit "items") schema = some s → Subschema (.obj schema) s
  | properties {schema properties : Members} {m : Text × Json} :
      Json.get (lit "properties") schema = some (.obj properties) → m ∈ properties →
        Subschema (.obj schema) m.2
  | additionalProperties {schema : Members} {s : Json} :
      Json.get (lit "additionalProperties") schema = some s → Subschema (.obj schema) s
  | propertyNames {schema : Members} {s : Json} :
      Json.get (lit "propertyNames") schema = some s → Subschema (.obj schema) s

/-- Only mappings have subschemas. -/
theorem Subschema.isObj {schema s : Json} (h : Subschema schema s) :
    ∃ members, schema = .obj members := by
  cases h with
  | anyOf | items | properties | additionalProperties | propertyNames => exact ⟨_, rfl⟩

/-- A reference to the definition stands in the schema. -/
def Mentions (schema : Json) (name : Text) : Prop :=
  ∃ s, Relation.ReflTransGen Subschema schema (.obj s) ∧
    Json.get (lit "$ref") s = some (.str (localDefinitionPrefix ++ name))

/-- A reference to the definition stands in the schema, in the names of a closed
    object. -/
def MentionsInNames (schema : Json) (name : Text) : Prop :=
  ∃ s names, Relation.ReflTransGen Subschema schema (.obj s) ∧
    Json.get (lit "additionalProperties") s = some (.bool false) ∧
      Json.get (lit "propertyNames") s = some names ∧ Mentions names name

/-- A definition of the root refers to another. -/
def Refers (root : Json) (name name' : Text) : Prop :=
  ∃ target, Json.get name (definitionsOf root) = some target ∧ Mentions target name'

/-- No reference in the names of a closed object leads back to the definition
    that it stands in. -/
def NamesLeadOn (root : Json) : Prop :=
  ∀ name target name', Json.get name (definitionsOf root) = some target →
    MentionsInNames target name' → ¬ Relation.ReflTransGen (Refers root) name' name

/-- The keywords of a node of a type are those of the type. -/
theorem keyword_of_type {child : Json → Prop} {definitions schema : Members}
    (schemaType : Text) (hn : Node policy definitions child schema) {keyword : Text} {s : Json}
    (hget : Json.get keyword schema = some s) (hcommon : keyword ∉ commonSchemaKeywords)
    (hroot : keyword ∉ rootSchemaKeywords)
    (hother : ∀ t ∈ schemaKeywordsByType, keyword ∈ t.2 → t.1 = schemaType) :
    Json.get (lit "type") schema = some (.str schemaType) ∧
      TypedNode policy child schemaType schema := by
  have hkey := hn.keywords _ (Json.mem_of_get hget)
  have hmem := (hkey.resolve_left hcommon).resolve_right hroot
  rcases hn.typed with ⟨hnull, -⟩ | ⟨t, htype, htyped⟩
  · rw [hnull] at hmem
    cases hmem
  · rw [Json.pyGet, htype, Option.getD_some, typeKeywords] at hmem
    cases hlookup : schemaKeywordsByType.lookup t with
    | none =>
      rw [hlookup] at hmem
      cases hmem
    | some keywords =>
      rw [hlookup, Option.getD_some] at hmem
      obtain ⟨l₁, l₂, hl, -⟩ := List.lookup_eq_some_iff.1 hlookup
      have hpair : (t, keywords) ∈ schemaKeywordsByType := hl ▸ by simp
      obtain rfl := hother _ hpair hmem
      exact ⟨htype, htyped⟩

/-- A value that is no mapping mentions nothing. -/
theorem not_mentions_false {name : Text} : ¬ Mentions (.bool false) name := by
  rintro ⟨s, hpath, -⟩
  obtain h | ⟨_, hsub, -⟩ := hpath.cases_head
  · cases h
  · cases hsub

/-- The limits of names mention nothing. -/
theorem not_mentions_names {names : Members}
    (hkeys : ∀ m ∈ names, m.1 = lit "maxLength" ∨ m.1 = lit "minLength") {name : Text} :
    ¬ Mentions (.obj names) name := by
  have hno {keyword : Text} {j : Json} (hget : Json.get keyword names = some j)
      (hmax : keyword ≠ lit "maxLength") (hmin : keyword ≠ lit "minLength") : False :=
    (hkeys _ (Json.mem_of_get hget)).elim hmax hmin
  rintro ⟨s, hpath, href⟩
  obtain h | ⟨_, hsub, -⟩ := hpath.cases_head
  · cases h
    exact hno href (by decide) (by decide)
  · cases hsub with
    | anyOf hget => exact hno hget (by decide) (by decide)
    | items hget => exact hno hget (by decide) (by decide)
    | properties hget => exact hno hget (by decide) (by decide)
    | additionalProperties hget => exact hno hget (by decide) (by decide)
    | propertyNames hget => exact hno hget (by decide) (by decide)

/-- The subschemas of an accepted schema are accepted with a level less, or
    mention nothing, or are the names of a closed object. -/
theorem accepted_of_subschema {definitions schema : Members} {room : ℕ} {s : Json}
    (haccepted : Accepted policy definitions (room + 1) (.obj schema))
    (hsub : Subschema (.obj schema) s) :
    Accepted policy definitions room s ∨ (∀ name, ¬ Mentions s name) ∨
      Json.get (lit "additionalProperties") schema = some (.bool false) ∧
        Json.get (lit "propertyNames") schema = some s := by
  cases hsub with
  | anyOf hget hmem =>
    -- A null `anyOf` counts as absent, so it has no variants.
    rcases haccepted.anyOf with hnull | ⟨variants, hanyOf, -, hall⟩
    · cases get_ne_of_pyGet_null hnull hget
    · cases hanyOf.symm.trans hget
      exact .inl (hall _ hmem)
  | items hget =>
    obtain ⟨-, htyped⟩ := keyword_of_type (lit "array") haccepted hget (by decide)
      (by decide) (by decide)
    obtain ⟨-, s', hitems, hchild⟩ := htyped.array rfl
    cases hitems.symm.trans hget
    exact .inl hchild
  | properties hget hmem =>
    obtain ⟨-, htyped⟩ := keyword_of_type (lit "object") haccepted hget (by decide)
      (by decide) (by decide)
    -- An open mapping has no properties of its own.
    rcases htyped.object rfl with hmapping | ⟨properties, hclosed⟩
    · cases get_ne_of_pyGet_null hmapping.properties hget
    · rcases hclosed.declared with ⟨hnull, -⟩ | hdeclared
      · cases get_ne_of_pyGet_null hnull hget
      · cases hdeclared.symm.trans hget
        exact .inl (hclosed.children _ hmem)
  | additionalProperties hget =>
    obtain ⟨-, htyped⟩ := keyword_of_type (lit "object") haccepted hget (by decide)
      (by decide) (by decide)
    rcases htyped.object rfl with hmapping | ⟨properties, hclosed⟩
    · obtain ⟨a, ha, hchild⟩ := hmapping.additional
      cases ha.symm.trans hget
      exact .inl hchild
    · cases hclosed.additional.symm.trans hget
      exact .inr (.inl fun _ => not_mentions_false)
  | propertyNames hget =>
    obtain ⟨-, htyped⟩ := keyword_of_type (lit "object") haccepted hget (by decide)
      (by decide) (by decide)
    rcases htyped.object rfl with hmapping | ⟨properties, hclosed⟩
    · obtain ⟨names, hnames, hkeys, -⟩ := hmapping.names
      cases hnames.symm.trans hget
      exact .inr (.inl fun _ => not_mentions_names hkeys)
    · exact .inr (.inr ⟨hclosed.additional, hget⟩)

/-- A definition that an accepted schema mentions is accepted with a level less,
    unless it is mentioned in the names of a closed object. -/
theorem accepted_of_mentions {definitions : Members} {room : ℕ} {schema : Json} {name : Text}
    (haccepted : Accepted policy definitions room schema) (hmentions : Mentions schema name) :
    MentionsInNames schema name ∨ ∃ room' < room, ∃ target,
      Json.get name definitions = some target ∧ Accepted policy definitions room' target := by
  obtain ⟨s, hpath, href⟩ := hmentions
  induction hpath using Relation.ReflTransGen.head_induction_on generalizing room with
  | refl =>
    cases room with
    | zero => exact haccepted.elim
    | succ room =>
      rcases Node.ref haccepted with hnull | ⟨name', target, href', htarget, hchild⟩
      · cases get_ne_of_pyGet_null hnull href
      · obtain rfl : name' = name :=
          List.append_cancel_left (Json.str.inj (Option.some.inj (href'.symm.trans href)))
        exact .inr ⟨room, Nat.lt_succ_self _, target, htarget, hchild⟩
  | head hsub hpath ih =>
    cases room with
    | zero => exact haccepted.elim
    | succ room =>
      obtain ⟨members, rfl⟩ := hsub.isObj
      rcases accepted_of_subschema haccepted hsub with hchild | hno | ⟨hclosed, hnames⟩
      · rcases ih hchild with ⟨t, names, hpath', hrest⟩ | ⟨room', hlt, hrest⟩
        · exact .inl ⟨t, names, .head hsub hpath', hrest⟩
        · exact .inr ⟨room', Nat.lt_succ_of_lt hlt, hrest⟩
      · exact absurd ⟨s, hpath, href⟩ (hno name)
      · exact .inl ⟨members, _, .refl, hclosed, hnames, s, hpath, href⟩

/-- What a definition refers to, on the way back to it, is accepted with a level
    less. -/
theorem accepted_of_transGen {room : ℕ} {name name' : Text} {target : Json}
    (hnames : NamesLeadOn root) (htarget : Json.get name (definitionsOf root) = some target)
    (haccepted : Accepted policy (definitionsOf root) room target)
    (hpath : Relation.TransGen (Refers root) name name')
    (hback : Relation.ReflTransGen (Refers root) name' name) :
    ∃ room' < room, ∃ target', Json.get name' (definitionsOf root) = some target' ∧
      Accepted policy (definitionsOf root) room' target' := by
  induction hpath with
  | single hrefers =>
    obtain ⟨t, ht, hmentions⟩ := hrefers
    cases htarget.symm.trans ht
    exact (accepted_of_mentions haccepted hmentions).resolve_left fun h =>
      hnames name target _ htarget h hback
  | tail hpath hrefers ih =>
    obtain ⟨room', hlt, t', ht', haccepted'⟩ := ih (.head hrefers hback)
    obtain ⟨t, ht, hmentions⟩ := hrefers
    cases ht'.symm.trans ht
    obtain ⟨room'', hlt', h⟩ := (accepted_of_mentions haccepted' hmentions).resolve_left fun h =>
      hnames _ _ _ ht h (hback.trans hpath.to_reflTransGen)
    exact ⟨room'', hlt'.trans hlt, h⟩

/-- No definition that is accepted refers to itself, unless through the names of
    a closed object. -/
theorem not_transGen_refers {room : ℕ} {name : Text} {target : Json} (hnames : NamesLeadOn root)
    (htarget : Json.get name (definitionsOf root) = some target)
    (haccepted : Accepted policy (definitionsOf root) room target) :
    ¬ Relation.TransGen (Refers root) name name := by
  induction room using Nat.strong_induction_on generalizing target with
  | _ room ih =>
    intro hcycle
    obtain ⟨room', hlt, target', htarget', haccepted'⟩ :=
      accepted_of_transGen hnames htarget haccepted hcycle .refl
    exact ih room' hlt htarget' haccepted' hcycle

/-- What the names of a closed object mention, the schema does. -/
theorem MentionsInNames.mentions {schema : Json} {name : Text} (h : MentionsInNames schema name) :
    Mentions schema name := by
  obtain ⟨s, names, hpath, -, hnames, t, hpath', href⟩ := h
  exact ⟨t, (hpath.tail (.propertyNames hnames)).trans hpath', href⟩

/-- An accepted tool schema: its references have no cycle exactly when none of
    those in the names of closed objects leads back; and every value that is
    valid under it is bounded, and an object when all its branches are. -/
theorem bounded_of_validateSchema {writer : JsonWriter} {schema : Json} {path : Text}
    (h : validateSchema writer policy schema path = .ok ())
    (hbranches : ObjectBranches schema schema) :
    (NamesLeadOn schema ↔ ∀ name, ¬ Relation.TransGen (Refers schema) name name) ∧
      ∀ j, j.WellFormed → Valid formats schema schema j → (∃ members, j = .obj members) ∧
        Bounded policy (max policy.maxStringLength (longestKey schema)) policy.maxDepth j := by
  obtain ⟨haccepted, hdefinitions⟩ := accepted_of_validateSchema h
  refine ⟨⟨fun hnames name hcycle => ?_, fun hacyclic name target name' htarget hmentions hback => ?_⟩,
    fun j hj hvalid => ⟨object_of_accepted haccepted hvalid hbranches,
      bounded_of_accepted haccepted hj hvalid le_rfl⟩⟩
  · obtain ⟨target, htarget⟩ : ∃ target, Json.get name (definitionsOf schema) = some target := by
      obtain ⟨_, ⟨target, htarget, -⟩, -⟩ := Relation.TransGen.head'_iff.1 hcycle
      exact ⟨target, htarget⟩
    obtain ⟨room, target', htarget', haccepted'⟩ := hdefinitions _ (Json.mem_of_get htarget)
    exact not_transGen_refers hnames htarget' haccepted' hcycle
  · exact hacyclic name (.head' ⟨target, htarget, hmentions.mentions⟩ hback)

/-- Validity under a union. -/
theorem valid_union {variants : List Json} {j : Json} :
    Valid formats root (.obj [(lit "anyOf", .arr variants)]) j ↔
      ∃ variant ∈ variants, Valid formats root variant j := by
  rw [valid_obj]
  refine ⟨fun h => h.anyOf variants rfl, fun h => ?_⟩
  constructor
  case anyOf =>
    intro variants' hget
    cases hget
    exact h
  all_goals
    intros
    contradiction

/-- Validity under a type. -/
theorem valid_type {schemaType : Text} {j : Json} :
    Valid formats root (.obj [(lit "type", .str schemaType)]) j ↔ HasType schemaType j := by
  rw [valid_obj]
  refine ⟨fun h => h.type schemaType rfl, fun h => ?_⟩
  constructor
  case type =>
    intro t hget
    cases hget
    exact h
  all_goals
    intros
    contradiction

/-- A closed object without properties. -/
def emptyObjectSchema : Json :=
  .obj [(lit "type", .str (lit "object")), (lit "additionalProperties", .bool false)]

/-- A union of two scalar types. -/
def scalarUnion : Json :=
  .obj [(lit "anyOf", .arr [.obj [(lit "type", .str (lit "null"))],
    .obj [(lit "type", .str (lit "boolean"))]])]

/-- A closed object whose names refer to the definition `A`. -/
def namedByA : Members :=
  [(lit "type", .str (lit "object")), (lit "additionalProperties", .bool false),
    (lit "propertyNames", .obj [(lit "$ref", .str (lit "#/$defs/A"))])]

/-- A closed object whose definition `A` refers to itself, in its names. -/
def namesCycle : Json :=
  .obj [(lit "type", .str (lit "object")), (lit "additionalProperties", .bool false),
    (lit "$defs", .obj [(lit "A", .obj namedByA)])]

/-- A closed object with these properties, and with definitions. -/
def closedObject (definitions : Option Json) (properties : Members) : Members :=
  (definitions.toList.map fun d => (lit "$defs", d)) ++
    [(lit "type", .str (lit "object")), (lit "additionalProperties", .bool false),
      (lit "properties", .obj properties)]

/-- An object is valid under a closed object when each of its members is under the
    property of its name. -/
theorem valid_closedObject {definitions : Option Json} {properties members : Members}
    (h : ∀ m ∈ members, ∃ s, Json.get m.1 properties = some s ∧ Valid formats root s m.2) :
    Valid formats root (.obj (closedObject definitions properties)) (.obj members) := by
  rw [valid_obj]
  cases definitions
  all_goals
    constructor
    case type =>
      intro t ht
      cases ht
      rfl
    case properties =>
      intro ms hj ps hps m hm s hs
      cases hj
      cases hps
      obtain ⟨s', hs', hvalid⟩ := h m hm
      cases hs'.symm.trans hs
      exact hvalid
    case additionalProperties =>
      intro ms hj s _ m hm hno
      cases hj
      obtain ⟨s', hs', -⟩ := h m hm
      cases (hno properties rfl).symm.trans hs'
    all_goals
      intros
      contradiction

/-- A line of an order, with a name of at most eight characters. -/
def lineSchema : Json :=
  .obj (closedObject none [(lit "name", .obj [(lit "type", .str (lit "string")),
    (lit "maxLength", .int 8)])])

/-- An order of at most three lines. -/
def orderSchema : Json :=
  .obj (closedObject (some (.obj [(lit "Line", lineSchema)]))
    [(lit "lines", .obj [(lit "type", .str (lit "array")), (lit "maxItems", .int 3),
      (lit "items", .obj [(lit "$ref", .str (lit "#/$defs/Line"))])])])

/-- An order of pens and ink. -/
def penOrder : Json :=
  .obj [(lit "lines", .arr [.obj [(lit "name", .str (lit "pens"))],
    .obj [(lit "name", .str (lit "ink"))]])]

/-- A line with a short name is valid where the order refers to it. -/
theorem valid_line {name : Text} (h : name.length ≤ 8) :
    Valid formats orderSchema (.obj [(lit "$ref", .str (lit "#/$defs/Line"))])
      (.obj [(lit "name", .str name)]) := by
  have hname : Valid formats orderSchema (.obj [(lit "type", .str (lit "string")),
      (lit "maxLength", .int 8)]) (.str name) := by
    rw [valid_obj]
    constructor
    case type =>
      intro t ht
      cases ht
      rfl
    case maxLength =>
      intro t ht n hn
      cases ht
      cases hn
      exact_mod_cast h
    all_goals
      intros
      contradiction
  rw [valid_obj]
  constructor
  case ref =>
    intro r hr
    cases hr
    refine ⟨lineSchema, by rfl, valid_closedObject fun m hm => ?_⟩
    rw [List.mem_singleton.1 hm]
    exact ⟨_, rfl, hname⟩
  all_goals
    intros
    contradiction

theorem valid_penOrder : Valid formats orderSchema orderSchema penOrder := by
  refine valid_closedObject fun m hm => ?_
  rw [List.mem_singleton.1 hm]
  refine ⟨_, rfl, ?_⟩
  rw [valid_obj]
  constructor
  case type =>
    intro t ht
    cases ht
    rfl
  case items =>
    intro js hj s hs i hi
    cases hj
    cases hs
    rcases List.mem_cons.1 hi with rfl | hi
    · exact valid_line (by decide)
    · rw [List.mem_singleton.1 hi]
      exact valid_line (by decide)
  case maxItems =>
    intro js hj n hn
    cases hj
    cases hn
    norm_num
  all_goals
    intros
    contradiction

/-- An order with definitions is accepted, and the order of pens and ink is an object
    within the bounds. -/
theorem bounded_of_validateSchema_example :
    (∃ members, penOrder = .obj members) ∧
      Bounded {} (max 65536 (longestKey orderSchema)) 16 penOrder := by
  have haccepted : validateSchema .plain {} orderSchema (lit "input_schema") = .ok () := by
    decide +kernel
  have hwf : penOrder.WellFormed :=
    ⟨by decide, ⟨⟨List.nodup_singleton _, trivial, trivial⟩,
      ⟨List.nodup_singleton _, trivial, trivial⟩, trivial⟩, trivial⟩
  refine (bounded_of_validateSchema haccepted ?_).2 penOrder hwf
    (@valid_penOrder fun _ _ => True)
  intro s hs t ht
  cases hs with
  | refl =>
    cases ht
    rfl
  | anyOf h => exact absurd h nofun
  | ref h => exact absurd h nofun

/-- A union of scalar types is accepted as the schema of a tool, and `null` is
    valid under it; and a definition that refers to itself in the names of a
    closed object is accepted. -/
theorem not_bounded_of_validateSchema :
    (validateSchema .plain {} scalarUnion (lit "input_schema") = .ok () ∧
      Valid (fun _ _ => True) scalarUnion scalarUnion .null) ∧
    validateSchema .plain {} namesCycle (lit "input_schema") = .ok () ∧
      Refers namesCycle (lit "A") (lit "A") := by
  have hsub : Subschema (.obj namedByA) (.obj [(lit "$ref", .str (lit "#/$defs/A"))]) :=
    .propertyNames (by rfl)
  refine ⟨⟨by rfl, ?_⟩, ?_, .obj namedByA, by rfl, _, .single hsub, by rfl⟩
  · exact valid_union.2 ⟨_, List.mem_cons_self, valid_type.2 rfl⟩
  · set_option maxRecDepth 2000 in
    rfl

end Schema

end McpRuntime
