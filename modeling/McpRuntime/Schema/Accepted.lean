import McpRuntime.Schema.Validate

/-!
# Accepted schemas

What the validation of a tool schema guarantees about every node that it visits:
`Accepted policy definitions room schema`, for a schema with `room` levels. The
subschemas of an accepted schema are accepted with a level less, and so are the
definitions that it refers to, whether they were validated for this reference or
before, deeper down.

* `Accepted.mono`: more room does no harm.
* `accepted_of_validateSchemaValue`: what the descent has checked is accepted.
  The invariant (`Recorded`) is that a definition with a recorded depth is
  either being validated or accepted at this depth.
* `accepted_of_validateSchema`: an accepted tool schema.
-/

namespace McpRuntime

namespace Schema

/-- The `enum` of a node with a type: no keyword, or values of the type. -/
def EnumOf (schemaType : Text) (schema : Members) : Prop :=
  Json.pyGet (lit "enum") schema = .null ∨
    ∃ values, Json.get (lit "enum") schema = some (.arr values) ∧ values ≠ [] ∧
      ∀ value ∈ values, enumValueHasType schemaType value

/-- A keyword is a number that is not above a maximum. -/
def LimitedBy (maximum : ℕ) (keyword : Text) (schema : Members) : Prop :=
  ∃ n : ℕ, Json.get keyword schema = some (.int n) ∧ n ≤ maximum

/-- An object that is a mapping, whose values have one schema. -/
structure Mapping (policy : SchemaPolicy) (child : Json → Prop) (schema : Members) : Prop where
  properties : Json.pyGet (lit "properties") schema = .null
  additional : ∃ a, Json.get (lit "additionalProperties") schema = some (.obj a) ∧ child (.obj a)
  maxProperties : LimitedBy policy.maxProperties (lit "maxProperties") schema
  names : ∃ names, Json.get (lit "propertyNames") schema = some (.obj names) ∧
    (∀ m ∈ names, m.1 = lit "maxLength" ∨ m.1 = lit "minLength") ∧
      LimitedBy policy.maxStringLength (lit "maxLength") names

/-- A closed object, with the properties it declares. -/
structure Closed (policy : SchemaPolicy) (child : Json → Prop) (schema properties : Members) :
    Prop where
  additional : Json.get (lit "additionalProperties") schema = some (.bool false)
  declared : Json.pyGet (lit "properties") schema = .null ∧ properties = [] ∨
    Json.get (lit "properties") schema = some (.obj properties)
  required : ∃ names : List Text, names.Nodup ∧
    (Json.get (lit "required") schema).getD (.arr []) = .arr (names.map .str) ∧
      ∀ name ∈ names, (Json.get name properties).isSome
  length_le : properties.length ≤ policy.maxProperties
  children : ∀ m ∈ properties, child m.2

/-- What the keywords of a type have to be. -/
structure TypedNode (policy : SchemaPolicy) (child : Json → Prop) (schemaType : Text)
    (schema : Members) : Prop where
  isType : (typeKeywords (.str schemaType)).isSome
  enum : EnumOf schemaType schema
  object : schemaType = lit "object" →
    Mapping policy child schema ∨ ∃ properties, Closed policy child schema properties
  string : schemaType = lit "string" →
    LimitedBy policy.maxStringLength (lit "maxLength") schema ∨
      ∃ values, Json.get (lit "enum") schema = some (.arr values) ∧ values ≠ [] ∧
        ∀ t, .str t ∈ values → t.length ≤ policy.maxStringLength
  array : schemaType = lit "array" →
    LimitedBy policy.maxArrayItems (lit "maxItems") schema ∧
      ∃ items, Json.get (lit "items") schema = some (.obj items) ∧ child (.obj items)

/-- What a node has to be, given what its subschemas have to be. -/
structure Node (policy : SchemaPolicy) (definitions : Members) (child : Json → Prop)
    (schema : Members) : Prop where
  keywords : ∀ m ∈ schema, m.1 ∈ commonSchemaKeywords ∨
    m.1 ∈ (typeKeywords (Json.pyGet (lit "type") schema)).getD [] ∨ m.1 ∈ rootSchemaKeywords
  anyOf : Json.pyGet (lit "anyOf") schema = .null ∨
    ∃ variants, Json.get (lit "anyOf") schema = some (.arr variants) ∧ 2 ≤ variants.length ∧
      ∀ variant ∈ variants, child variant
  ref : Json.pyGet (lit "$ref") schema = .null ∨
    ∃ name target, Json.get (lit "$ref") schema = some (.str (localDefinitionPrefix ++ name)) ∧
      Json.get name definitions = some target ∧ child target
  typed : Json.pyGet (lit "type") schema = .null ∧
      (Json.pyGet (lit "anyOf") schema ≠ .null ∨ Json.pyGet (lit "$ref") schema ≠ .null) ∨
    ∃ schemaType, Json.get (lit "type") schema = some (.str schemaType) ∧
      TypedNode policy child schemaType schema

/-- A schema with `room` levels that the policy accepts. -/
def Accepted (policy : SchemaPolicy) (definitions : Members) : ℕ → Json → Prop
  | room + 1, .obj schema => Node policy definitions (Accepted policy definitions room) schema
  | _, _ => False

variable {policy : SchemaPolicy} {definitions : Members} {rootPath : Text}

/-- A key that is not bound to null has a value. -/
theorem get_of_pyGet {key : Text} {members : Members} {j : Json} (h : Json.pyGet key members = j)
    (hj : j ≠ .null) : Json.get key members = some j := by
  rw [Json.pyGet] at h
  cases hget : Json.get key members with
  | none =>
    rw [hget] at h
    exact absurd h.symm hj
  | some j' =>
    rw [hget] at h
    exact congrArg some h

/-- A key that is bound to a mapping has it as its value. -/
theorem get_obj {key : Text} {members ms : Members} (h : Json.pyGet key members = .obj ms) :
    Json.get key members = some (.obj ms) := get_of_pyGet h nofun

theorem get_arr {key : Text} {members : Members} {items : List Json}
    (h : Json.pyGet key members = .arr items) : Json.get key members = some (.arr items) :=
  get_of_pyGet h nofun

theorem get_str {key : Text} {members : Members} {t : Text} (h : Json.pyGet key members = .str t) :
    Json.get key members = some (.str t) := get_of_pyGet h nofun

theorem get_bool {key : Text} {members : Members} {b : Bool} (h : Json.pyGet key members = .bool b) :
    Json.get key members = some (.bool b) := get_of_pyGet h nofun

/-- A key that is bound to null is bound to no other value. -/
theorem get_ne_of_pyGet_null {key : Text} {members : Members} {j : Json}
    (h : Json.pyGet key members = .null) (hget : Json.get key members = some j) : j = .null := by
  rw [Json.pyGet, hget] at h
  exact h

/-- What a node has to be grows with what its subschemas have to be. -/
theorem Node.mono {child child' : Json → Prop} (h : ∀ s, child s → child' s) {schema : Members}
    (hn : Node policy definitions child schema) : Node policy definitions child' schema where
  keywords := hn.keywords
  anyOf := hn.anyOf.imp_right fun ⟨variants, hv, hlen, hall⟩ =>
    ⟨variants, hv, hlen, fun v hv => h v (hall v hv)⟩
  ref := hn.ref.imp_right fun ⟨name, target, hr, ht, hc⟩ => ⟨name, target, hr, ht, h _ hc⟩
  typed := hn.typed.imp_right fun ⟨schemaType, ht, hn⟩ => ⟨schemaType, ht,
    { hn with
      object := fun he => (hn.object he).imp
        (fun hm => { hm with additional := hm.additional.imp fun _ ha => ⟨ha.1, h _ ha.2⟩ })
        fun ⟨properties, hc⟩ =>
          ⟨properties, { hc with children := fun m hm => h _ (hc.children m hm) }⟩
      array := fun he => ⟨(hn.array he).1, (hn.array he).2.imp fun _ ha => ⟨ha.1, h _ ha.2⟩⟩ }⟩

/-- An accepted schema is accepted with more room. -/
theorem Accepted.mono {room room' : ℕ} (hle : room ≤ room') {schema : Json}
    (h : Accepted policy definitions room schema) : Accepted policy definitions room' schema := by
  induction room generalizing room' schema with
  | zero => exact h.elim
  | succ room ih =>
    obtain ⟨room', rfl⟩ : ∃ k, room' = k + 1 := ⟨room' - 1, by omega⟩
    cases schema with
    | obj members => exact Node.mono (fun _ hs => ih (by omega) hs) h
    | null | bool | int | float | str | arr => exact h.elim

/-! ## What the validation checks -/

/-- A definition with a recorded depth is either being validated or accepted at
    this depth. -/
def Recorded (policy : SchemaPolicy) (definitions : Members) (stack : List Text)
    (state : SchemaValidationState) : Prop :=
  ∀ name depth, AList.lookup name state.definitionDepths = some depth → name ∈ stack ∨
    ∃ definition, Json.get name definitions = some definition ∧
      Accepted policy definitions (policy.maxDepth + 1 - depth) definition

/-- A check, below the definitions of a stack, guarantees `P`: it keeps what is
    recorded, and the depths of the definitions of the stack. -/
def Guarantees (policy : SchemaPolicy) (definitions : Members) (stack : List Text) (P : Prop)
    (state state' : SchemaValidationState) : Prop :=
  Recorded policy definitions stack state →
    P ∧ Recorded policy definitions stack state' ∧ ∀ name ∈ stack,
      AList.lookup name state'.definitionDepths = AList.lookup name state.definitionDepths

/-- A check of nodes accepts the schemas with `room` levels. -/
def Accepts (policy : SchemaPolicy) (definitions : Members) (stack : List Text) (room : ℕ)
    (check : NodeCheck) : Prop :=
  ∀ schema path state state', check schema path state = .ok state' →
    Guarantees policy definitions stack (Accepted policy definitions room schema) state state'

variable {stack : List Text} {P Q : Prop} {state state' state'' : SchemaValidationState}

theorem Guarantees.refl (h : P) : Guarantees policy definitions stack P state state :=
  fun hr => ⟨h, hr, fun _ _ => rfl⟩

/-- A check after a check guarantees what both do. -/
theorem Guarantees.and (h : Guarantees policy definitions stack P state state')
    (h' : P → Guarantees policy definitions stack Q state' state'') :
    Guarantees policy definitions stack (P ∧ Q) state state'' := by
  intro hr
  obtain ⟨hP, hr', hkeep⟩ := h hr
  obtain ⟨hQ, hr'', hkeep'⟩ := h' hP hr'
  exact ⟨⟨hP, hQ⟩, hr'', fun name hname => (hkeep' name hname).trans (hkeep name hname)⟩

theorem Guarantees.imp (h : Guarantees policy definitions stack P state state') (hPQ : P → Q) :
    Guarantees policy definitions stack Q state state' :=
  fun hr => ⟨hPQ (h hr).1, (h hr).2⟩

/-- The checks of the variants of a union accept all of them. -/
theorem guarantees_variants {room : ℕ} {check : NodeCheck}
    (hcheck : Accepts policy definitions stack room check) {path : Text} {variants : List Json}
    {index : ℕ} (h : validateVariants check path index variants state = .ok state') :
    Guarantees policy definitions stack
      (∀ variant ∈ variants, Accepted policy definitions room variant) state state' := by
  induction variants generalizing index state with
  | nil =>
    rw [validateVariants, pure_eq_ok] at h
    exact h ▸ .refl (fun _ hv => nomatch hv)
  | cons variant variants ih =>
    rw [validateVariants, bind_eq_ok] at h
    obtain ⟨state₁, h₁, h⟩ := h
    exact ((hcheck _ _ _ _ h₁).and fun _ => ih h).imp List.forall_mem_cons.2

/-- The checks of the properties of an object accept all of them. -/
theorem guarantees_properties {room : ℕ} {check : NodeCheck}
    (hcheck : Accepts policy definitions stack room check) {path : Text} {properties : Members}
    (h : validateProperties check path properties state = .ok state') :
    Guarantees policy definitions stack
      (∀ m ∈ properties, Accepted policy definitions room m.2) state state' := by
  induction properties generalizing state with
  | nil =>
    rw [validateProperties, pure_eq_ok] at h
    exact h ▸ .refl (fun _ hm => nomatch hm)
  | cons m properties ih =>
    obtain ⟨name, child⟩ := m
    rw [validateProperties, bind_eq_ok] at h
    obtain ⟨state₁, h₁, h⟩ := h
    exact ((hcheck _ _ _ _ h₁).and fun _ => ih h).imp fun ⟨hchild, hrest⟩ =>
      List.forall_mem_cons.2 ⟨hchild, hrest⟩

/-- A limit that passes its check. -/
theorem limitedBy_of_validateLimit {keyword unbounded path : Text} {maximum : ℕ} {schema : Members}
    {u : Unit} (h : validateLimit (Json.pyGet keyword schema) unbounded maximum path = .ok u) :
    LimitedBy maximum keyword schema := by
  rw [validateLimit] at h
  cases hn : Json.pyGet keyword schema with
  | int n =>
    rw [hn, nonNegativeInteger] at h
    split_ifs at h with hneg
    obtain ⟨k, rfl⟩ := Int.eq_ofNat_of_zero_le hneg
    obtain ⟨hle, -⟩ := lastCheck_eq_ok.1 h
    exact ⟨k, get_of_pyGet hn nofun, not_lt.1 hle⟩
  | null | bool | float | str | arr | obj =>
    rw [hn] at h
    cases h

/-- The names of the properties of a mapping are limited. -/
theorem names_of_validatePropertyNames {value : Json} {path : Text} {u : Unit}
    (h : validatePropertyNames policy value path = .ok u) :
    ∃ names, value = .obj names ∧ (∀ m ∈ names, m.1 = lit "maxLength" ∨ m.1 = lit "minLength") ∧
      LimitedBy policy.maxStringLength (lit "maxLength") names := by
  cases value with
  | obj names =>
    obtain ⟨hkeys, h⟩ := lastCheck_eq_ok.1 h
    refine ⟨names, rfl, fun m hm => ?_, limitedBy_of_validateLimit h⟩
    by_contra hne
    exact hkeys (List.any_eq_true.2 ⟨m, hm, by simpa using hne⟩)
  | null | bool | int | float | str | arr => cases h

/-- The names that a closed object requires are distinct and declared. -/
theorem names_of_validateRequired {properties : Members} {path : Text} {seen : List Text}
    {required : List Json} {u : Unit} (hseen : seen.Nodup)
    (h : validateRequired properties path seen required = .ok u) :
    ∃ names : List Text, required = names.map .str ∧ (seen ++ names).Nodup ∧
      ∀ name ∈ names, (Json.get name properties).isSome := by
  induction required generalizing seen with
  | nil => exact ⟨[], rfl, by rwa [List.append_nil], nofun⟩
  | cons name required ih =>
    cases name with
    | str name =>
      obtain ⟨hcheck, h⟩ := lastCheck_eq_ok.1 h
      rw [Bool.or_eq_true, not_or, Option.isNone_iff_eq_none, List.contains_iff_mem] at hcheck
      have hseen' : (seen ++ [name]).Nodup :=
        List.nodup_append.2 ⟨hseen, List.nodup_singleton _,
          fun a ha b hb => by rw [List.mem_singleton.1 hb]; exact fun he => hcheck.2 (he ▸ ha)⟩
      obtain ⟨names, rfl, hnodup, hall⟩ := ih hseen' h
      refine ⟨name :: names, rfl, by rwa [List.append_assoc] at hnodup, ?_⟩
      rw [List.forall_mem_cons]
      exact ⟨Option.isSome_iff_ne_none.2 hcheck.1, hall⟩
    | null | bool | int | float | arr | obj => cases h

theorem hasType_of_validateEnumValues {schemaType path : Text} {index : ℕ} {values : List Json}
    {u : Unit} (h : validateEnumValues schemaType path index values = .ok u) :
    ∀ value ∈ values, enumValueHasType schemaType value := by
  induction values generalizing index with
  | nil => exact List.forall_mem_nil _
  | cons value values ih =>
    obtain ⟨-, h⟩ := lastCheck_eq_ok.1 h
    obtain ⟨htype, h⟩ := lastCheck_eq_ok.1 h
    exact List.forall_mem_cons.2 ⟨by simpa using htype, ih h⟩

/-- The values of an `enum` that passes its check have the type of the node. -/
theorem enumOf_of_validateEnum {schemaType path : Text} {schema : Members} {u : Unit}
    (h : validateEnum policy schemaType schema path = .ok u) : EnumOf schemaType schema := by
  rw [validateEnum] at h
  cases henum : Json.pyGet (lit "enum") schema with
  | null => exact .inl henum
  | arr values =>
    rw [henum] at h
    obtain ⟨hlen, h⟩ := lastCheck_eq_ok.1 h
    rw [Bool.or_eq_true, not_or] at hlen
    exact .inr ⟨values, get_of_pyGet henum nofun, by simpa using hlen.1, hasType_of_validateEnumValues h⟩
  | bool | int | float | str | obj =>
    rw [henum] at h
    cases h

/-- An object schema that passes its check is a mapping or a closed object. -/
theorem guarantees_object {room : ℕ} {check : NodeCheck}
    (hcheck : Accepts policy definitions stack room check) {path : Text} {schema : Members}
    (h : validateObjectSchema policy check schema path state = .ok state') :
    Guarantees policy definitions stack
      (Mapping policy (Accepted policy definitions room) schema ∨
        ∃ properties, Closed policy (Accepted policy definitions room) schema properties)
      state state' := by
  rw [validateObjectSchema] at h
  split at h
  · next a hproperties hadditional =>
    simp only [bind_eq_ok] at h
    obtain ⟨_, hmax, _, hnames, h⟩ := h
    obtain ⟨names, hnames, hkeys, hlimit⟩ := names_of_validatePropertyNames hnames
    refine (hcheck _ _ _ _ h).imp fun hchild => .inl
      { properties := hproperties
        additional := ⟨a, get_of_pyGet hadditional nofun, hadditional ▸ hchild⟩
        maxProperties := limitedBy_of_validateLimit hmax
        names := ⟨names, get_of_pyGet hnames nofun, hkeys, hlimit⟩ }
  · next hadditional =>
    split at h
    · next properties hproperties =>
      obtain ⟨hlen, h⟩ := lastCheck_eq_ok.1 h
      split at h
      · next required hrequired =>
        obtain ⟨_, hnames, hproperties'⟩ := bind_eq_ok.1 h
        obtain ⟨names, hrequired', hnodup, hall⟩ := names_of_validateRequired List.nodup_nil hnames
        refine (guarantees_properties hcheck hproperties').imp fun hchildren => .inr ⟨properties,
          { additional := get_of_pyGet hadditional nofun
            declared := ?_
            required := ⟨names, hnodup, hrequired' ▸ hrequired, hall⟩
            length_le := not_lt.1 hlen
            children := hchildren }⟩
        -- without `properties`, the object declares none
        split at hproperties
        · next hnull =>
          cases hproperties
          exact .inl ⟨hnull, rfl⟩
        · exact .inr (get_of_pyGet hproperties nofun)
      · cases h
    · cases h
  · cases h

/-- The longest of texts bounds each of them. -/
theorem length_le_foldr_max {values : List Json} {t : Text} (ht : .str t ∈ values) :
    t.length ≤ (values.map fun
      | .str t => t.length
      | _ => 0).foldr max 0 := by
  induction values with
  | nil => cases ht
  | cons value values ih =>
    rw [List.map_cons, List.foldr_cons]
    rcases List.mem_cons.1 ht with rfl | ht
    · exact le_max_left _ _
    · exact (ih ht).trans (le_max_right _ _)

/-- A text that passes its check is limited, by `maxLength` or by its values. -/
theorem string_of_validateLimit {schema : Members} {unbounded path : Text} {u : Unit}
    (h : validateLimit (match Json.pyGet (lit "maxLength") schema, Json.pyGet (lit "enum") schema with
      | .null, .arr (value :: values) => .int (((value :: values).map fun
          | .str t => t.length
          | _ => 0).foldr max 0 : ℕ)
      | maxLength, _ => maxLength) unbounded policy.maxStringLength path = .ok u) :
    LimitedBy policy.maxStringLength (lit "maxLength") schema ∨
      ∃ values, Json.get (lit "enum") schema = some (.arr values) ∧ values ≠ [] ∧
        ∀ t, .str t ∈ values → t.length ≤ policy.maxStringLength := by
  split at h
  · next value values _ henum =>
    refine .inr ⟨_, get_of_pyGet henum nofun, List.cons_ne_nil _ _, fun t ht => ?_⟩
    rw [validateLimit, nonNegativeInteger, if_pos (Int.natCast_nonneg _)] at h
    obtain ⟨hle, -⟩ := lastCheck_eq_ok.1 h
    exact (length_le_foldr_max ht).trans (not_lt.1 hle)
  · exact .inl (limitedBy_of_validateLimit h)

/-- A node with a type that passes its checks. -/
theorem guarantees_typed {room : ℕ} {check : NodeCheck}
    (hcheck : Accepts policy definitions stack room check) {schemaType path : Text}
    {schema : Members} (htype : (typeKeywords (.str schemaType)).isSome)
    (henum : EnumOf schemaType schema)
    (h : validateTyped policy check schemaType schema path state = .ok state') :
    Guarantees policy definitions stack
      (TypedNode policy (Accepted policy definitions room) schemaType schema) state state' := by
  rw [validateTyped] at h
  split_ifs at h with hobject hstring harray
  · refine (guarantees_object hcheck h).imp fun hshape =>
      { isType := htype, enum := henum, object := fun _ => hshape
        string := fun he => absurd (hobject.symm.trans he) (by decide)
        array := fun he => absurd (hobject.symm.trans he) (by decide) }
  · obtain ⟨_, hlimit, h⟩ := bind_eq_ok.1 h
    rw [pure_eq_ok] at h
    exact h ▸ .refl
      { isType := htype, enum := henum
        object := fun he => absurd he hobject
        string := fun _ => string_of_validateLimit hlimit
        array := fun he => absurd (hstring.symm.trans he) (by decide) }
  · obtain ⟨_, hlimit, h⟩ := bind_eq_ok.1 h
    refine (hcheck _ _ _ _ h).imp fun hchild =>
      { isType := htype, enum := henum
        object := fun he => absurd he hobject
        string := fun he => absurd he hstring
        array := fun _ => ⟨limitedBy_of_validateLimit hlimit, ?_⟩ }
    cases hitems : Json.pyGet (lit "items") schema with
    | obj items => exact ⟨items, get_of_pyGet hitems nofun, hitems ▸ hchild⟩
    | null | bool | int | float | str | arr =>
      rw [hitems] at hchild
      cases room <;> exact hchild.elim
  · rw [pure_eq_ok] at h
    exact h ▸ .refl
      { isType := htype, enum := henum
        object := fun he => absurd he hobject
        string := fun he => absurd he hstring
        array := fun he => absurd he harray }

/-- A definition that passes its check is accepted, whether it is validated now
    or has been validated no less deep. -/
theorem guarantees_definition {room : ℕ} (hroom : room ≤ policy.maxDepth) {name path : Text}
    {check : List Text → NodeCheck}
    (hcheck : Accepts policy definitions (stack ++ [name]) room (check (stack ++ [name])))
    (h : validateDefinition policy definitions rootPath check room stack name path state =
      .ok state') :
    Guarantees policy definitions stack
      (∃ target, Json.get name definitions = some target ∧
        Accepted policy definitions room target) state state' := by
  intro hr
  rw [validateDefinition] at h
  split at h
  · cases h
  · next target htarget =>
    obtain ⟨-, h⟩ := lastCheck_eq_ok.1 h
    obtain ⟨hstack, h⟩ := lastCheck_eq_ok.1 h
    rw [List.contains_iff_mem] at hstack
    split_ifs at h with hdepth
    · obtain rfl := pure_eq_ok.1 h
      obtain ⟨depth, hlookup, hge⟩ := (Option.any_eq_true _ _).1 hdepth
      rw [decide_eq_true_iff] at hge
      obtain ⟨_, hdef, haccepted⟩ := (hr name depth hlookup).resolve_left hstack
      cases htarget.symm.trans hdef
      exact ⟨⟨target, htarget, haccepted.mono (by unfold depthOf at hge; omega)⟩, hr, fun _ _ => rfl⟩
    · have hr₁ : Recorded policy definitions (stack ++ [name])
          { state with
            definitionDepths := AList.insert name (depthOf policy room) state.definitionDepths } := by
        intro name' depth hlookup
        rw [Dict.lookup_insert] at hlookup
        split_ifs at hlookup with hname
        · exact .inl (by simp [hname])
        · exact (hr name' depth hlookup).imp_left fun hmem => List.mem_append_left _ hmem
      obtain ⟨haccepted, hr', hkeep⟩ := hcheck _ _ _ _ h hr₁
      have hlookup : AList.lookup name state'.definitionDepths = some (depthOf policy room) := by
        rw [hkeep name (by simp), Dict.lookup_insert, if_pos rfl]
      refine ⟨⟨target, htarget, haccepted⟩, fun name' depth hlookup' => ?_, fun name' hmem => ?_⟩
      · rcases hr' name' depth hlookup' with hmem | hdef
        · rcases List.mem_append.1 hmem with hmem | hmem
          · exact .inl hmem
          · obtain rfl := List.mem_singleton.1 hmem
            cases hlookup.symm.trans hlookup'
            refine .inr ⟨target, htarget, haccepted.mono ?_⟩
            unfold depthOf
            omega
        · exact .inr hdef
      · have hne : name' ≠ name := fun he => hstack (he ▸ hmem)
        rw [hkeep name' (List.mem_append_left _ hmem), Dict.lookup_insert, if_neg hne]

/-- The variants of a node pass their checks, if there are any. -/
theorem guarantees_anyOf {room : ℕ} {check : NodeCheck}
    (hcheck : Accepts policy definitions stack room check) {path : Text} {schema : Members}
    (h : validateAnyOf policy check schema path state = .ok state') :
    Guarantees policy definitions stack
      (Json.pyGet (lit "anyOf") schema = .null ∨
        ∃ variants, Json.get (lit "anyOf") schema = some (.arr variants) ∧ 2 ≤ variants.length ∧
          ∀ variant ∈ variants, Accepted policy definitions room variant) state state' := by
  rw [validateAnyOf] at h
  cases hanyOf : Json.pyGet (lit "anyOf") schema with
  | null =>
    rw [hanyOf] at h
    exact pure_eq_ok.1 h ▸ .refl (.inl rfl)
  | arr variants =>
    rw [hanyOf] at h
    obtain ⟨hlen, h⟩ := lastCheck_eq_ok.1 h
    obtain ⟨-, h⟩ := lastCheck_eq_ok.1 h
    exact (guarantees_variants hcheck h).imp fun hall =>
      .inr ⟨variants, get_of_pyGet hanyOf nofun, not_lt.1 hlen, hall⟩
  | bool | int | float | str | obj =>
    rw [hanyOf] at h
    cases h

/-- The reference of a node leads to an accepted definition, if there is one. -/
theorem guarantees_ref {room : ℕ} (hroom : room ≤ policy.maxDepth) {path : Text} {schema : Members}
    {check : List Text → NodeCheck}
    (hcheck : ∀ stack, Accepts policy definitions stack room (check stack))
    (h : validateReference policy definitions rootPath check room stack schema path state =
      .ok state') :
    Guarantees policy definitions stack
      (Json.pyGet (lit "$ref") schema = .null ∨
        ∃ name target, Json.get (lit "$ref") schema = some (.str (localDefinitionPrefix ++ name)) ∧
          Json.get name definitions = some target ∧ Accepted policy definitions room target)
      state state' := by
  rw [validateReference] at h
  cases href : Json.pyGet (lit "$ref") schema with
  | null =>
    rw [href] at h
    exact pure_eq_ok.1 h ▸ .refl (.inl rfl)
  | str reference =>
    rw [href] at h
    dsimp only at h
    split_ifs at h with hstarted
    refine (guarantees_definition hroom (hcheck _) h).imp fun ⟨target, htarget, haccepted⟩ =>
      .inr ⟨_, target, ?_, htarget, haccepted⟩
    rw [get_of_pyGet href nofun, List.prefix_iff_eq_append.1 (List.isPrefixOf_iff_prefix.1 hstarted)]
  | bool | int | float | arr | obj =>
    rw [href] at h
    cases h

/-- A node has a type that passes its checks, unless it is a union or a
    reference. -/
theorem guarantees_type {room : ℕ} {check : NodeCheck}
    (hcheck : Accepts policy definitions stack room check) {root : Bool} {path : Text}
    {schema : Members} (h : validateType policy check root schema path state = .ok state') :
    Guarantees policy definitions stack
      (Json.pyGet (lit "type") schema = .null ∧
          (Json.pyGet (lit "anyOf") schema ≠ .null ∨ Json.pyGet (lit "$ref") schema ≠ .null) ∨
        ∃ schemaType, Json.get (lit "type") schema = some (.str schemaType) ∧
          TypedNode policy (Accepted policy definitions room) schemaType schema)
      state state' := by
  rw [validateType] at h
  cases htype : Json.pyGet (lit "type") schema with
  | null =>
    rw [htype] at h
    dsimp only at h
    split at h
    · cases h
    · next hneither =>
      refine pure_eq_ok.1 h ▸ .refl (.inl ⟨rfl, ?_⟩)
      by_contra hboth
      rw [not_or, not_not, not_not] at hboth
      exact hneither hboth.1 hboth.2
  | str schemaType =>
    rw [htype] at h
    obtain ⟨hkeywords, h⟩ := lastCheck_eq_ok.1 h
    obtain ⟨-, h⟩ := lastCheck_eq_ok.1 h
    obtain ⟨_, henum, h⟩ := bind_eq_ok.1 h
    rw [Option.isNone_iff_eq_none, ← Ne, ← Option.isSome_iff_ne_none] at hkeywords
    exact (guarantees_typed hcheck hkeywords (enumOf_of_validateEnum henum) h).imp fun htyped =>
      .inr ⟨schemaType, get_of_pyGet htype nofun, htyped⟩
  | bool | int | float | arr | obj =>
    rw [htype] at h
    cases h

/-- The keywords of a node that has no unsupported one. -/
theorem keywords_of_unsupportedKeywords {root : Bool} {schema : Members}
    (h : (unsupportedKeywords root schema).min? = none) : ∀ m ∈ schema,
    m.1 ∈ commonSchemaKeywords ∨ m.1 ∈ (typeKeywords (Json.pyGet (lit "type") schema)).getD [] ∨
      m.1 ∈ rootSchemaKeywords := by
  intro m hm
  rw [List.min?_eq_none_iff, unsupportedKeywords, List.filter_eq_nil_iff] at h
  have hkey := h m.1 (List.mem_map_of_mem hm)
  by_contra hnone
  rw [not_or, not_or] at hnone
  refine hkey ?_
  have hno {keywords : List Text} (h : m.1 ∉ keywords) : keywords.contains m.1 = false :=
    Bool.eq_false_iff.2 (List.contains_iff_mem.not.2 h)
  rw [hno hnone.1, hno hnone.2.1, hno hnone.2.2, Bool.and_false]
  rfl

/-- What the descent has checked is accepted. -/
theorem accepted_of_validateSchemaValue {room : ℕ} (hroom : room ≤ policy.maxDepth) {root : Bool} :
    Accepts policy definitions stack room
      (validateSchemaValue policy definitions rootPath room root stack) := by
  induction room generalizing root stack with
  | zero =>
    intro schema path state state' h
    cases schema <;> cases h
  | succ room ih =>
    have hchild : ∀ stack, Accepts policy definitions stack room
        (validateSchemaValue policy definitions rootPath room false stack) := fun _ =>
      ih (by omega)
    intro schema path state state' h
    cases schema with
    | null | bool | int | float | str | arr => cases h
    | obj schema =>
      rw [validateSchemaValue] at h
      obtain ⟨-, h⟩ := lastCheck_eq_ok.1 h
      split at h
      · cases h
      · next hkeywords =>
        obtain ⟨state₁, h₁, h⟩ := bind_eq_ok.1 h
        obtain ⟨state₂, h₂, h⟩ := bind_eq_ok.1 h
        have hanyOf := guarantees_anyOf (hchild stack) h₁
        have href := guarantees_ref (by omega) hchild h₂
        have htype := guarantees_type (hchild stack) h
        intro hr
        obtain ⟨⟨hanyOf, href, htype⟩, hr', hkeep⟩ :=
          (hanyOf.and fun _ => href.and fun _ => htype) hr
        exact ⟨⟨keywords_of_unsupportedKeywords hkeywords, hanyOf, href, htype⟩, hr', hkeep⟩

/-- The definitions that have been validated are accepted. -/
theorem accepted_of_validateDefinitions {names : List Text}
    (h : validateDefinitions policy definitions rootPath names state = .ok state')
    (hr : Recorded policy definitions [] state) :
    ∀ name ∈ names, ∃ room definition, Json.get name definitions = some definition ∧
      Accepted policy definitions room definition := by
  induction names generalizing state with
  | nil => exact fun _ hname => nomatch hname
  | cons name names ih =>
    rw [validateDefinitions] at h
    split_ifs at h with hlookup
    · obtain ⟨depth, hdepth⟩ := Option.isSome_iff_exists.1 hlookup
      exact List.forall_mem_cons.2 ⟨⟨_, (hr name depth hdepth).resolve_left nofun⟩, ih h hr⟩
    · obtain ⟨state₁, h₁, h⟩ := bind_eq_ok.1 h
      have hroom : policy.maxDepth - 1 ≤ policy.maxDepth := Nat.sub_le _ _
      obtain ⟨hdef, hr₁, -⟩ :=
        guarantees_definition hroom (accepted_of_validateSchemaValue hroom) h₁ hr
      exact List.forall_mem_cons.2 ⟨⟨_, hdef⟩, ih h hr₁⟩

/-- The definitions of a root schema. -/
def definitionsOf (root : Json) : Members :=
  match root with
  | .obj members =>
    match Json.get (lit "$defs") members with
    | some (.obj definitions) => definitions
    | _ => []
  | _ => []

/-- An accepted tool schema is accepted with the levels of the policy, and so are
    its definitions. -/
theorem accepted_of_validateSchema {writer : JsonWriter} {schema : Json} {path : Text} {u : Unit}
    (h : validateSchema writer policy schema path = .ok u) :
    Accepted policy (definitionsOf schema) policy.maxDepth schema ∧
      ∀ m ∈ definitionsOf schema, ∃ room definition,
        Json.get m.1 (definitionsOf schema) = some definition ∧
          Accepted policy (definitionsOf schema) room definition := by
  cases schema with
  | null | bool | int | float | str | arr => cases h
  | obj members =>
    rw [validateSchema] at h
    split at h
    · cases h
    · obtain ⟨-, h⟩ := lastCheck_eq_ok.1 h
      obtain ⟨-, h⟩ := lastCheck_eq_ok.1 h
      split at h
      · next definitions hdefinitions =>
        obtain ⟨-, h⟩ := lastCheck_eq_ok.1 h
        obtain ⟨-, h⟩ := lastCheck_eq_ok.1 h
        obtain ⟨state, hroot, h⟩ := bind_eq_ok.1 h
        obtain ⟨_, hdefs, -⟩ := bind_eq_ok.1 h
        have hof : definitionsOf (.obj members) = definitions := by
          rw [definitionsOf]
          cases hget : Json.get (lit "$defs") members with
          | none =>
            rw [hget] at hdefinitions
            cases hdefinitions
            rfl
          | some j =>
            rw [hget] at hdefinitions
            cases hdefinitions
            rfl
        rw [hof]
        have hinit : Recorded policy definitions [] {} := by
          intro _ _ hlookup
          cases hlookup
        obtain ⟨haccepted, hr, -⟩ := accepted_of_validateSchemaValue le_rfl _ _ _ _ hroot hinit
        exact ⟨haccepted, fun m hm => accepted_of_validateDefinitions hdefs hr m.1
          (List.mem_map_of_mem hm)⟩
      · cases h

end Schema

end McpRuntime
