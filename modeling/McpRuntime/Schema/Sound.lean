import McpRuntime.Schema.Termination
import McpRuntime.Schema.JsonSchema
import McpRuntime.Schema.Bounds

/-!
# Soundness of compatibility

When a comparison relates two accepted schemas, every value that is valid under
the baseline is valid under the candidate, as long as the comparison reads every
keyword of the nodes of the candidate that it comes to and relates (`Read`): it
reads no keyword beside `anyOf`, no `enum` beside `const`, nothing but the lengths
in the names of an object, and it takes a boolean for the number it converts to.

* `satisfies_typed`: the keywords of a typed node, one by one.
* `valid_of_superset`: the values of related schemas.
* `sound_of_classifySchemaChange`: the values of schemas whose change is judged
  identical or non-breaking.
-/

namespace McpRuntime

namespace Schema

open JsonSchema

/-! ## What the comparison reads -/

/-- A schema constrains a value by no other keywords: the others are annotations,
    or have no value. -/
def Only (keywords : List Text) (schema : Members) : Prop :=
  ∀ m ∈ schema, m.1 ∈ keywords ∨ m.1 ∈ annotationKeys ∨ m.2 = .null ∧ m.1 ≠ lit "const"

/-- The comparison of a typed node with a typed node of the baseline reads every
    keyword of the node, and its values as JSON. -/
structure ReadTyped (candidate baseline : Members) : Prop where
  enum : Json.get (lit "const") candidate = none ∨ Json.pyGet (lit "enum") candidate = .null
  values : ∀ values values', allowedValues candidate = some values →
    allowedValues baseline = some values' → ∀ value ∈ values', ∃ allowed ∈ values,
      value.Equal allowed
  names : ∀ names, Json.get (lit "propertyNames") candidate = some (.obj names) →
    Only [lit "minLength", lit "maxLength"] names

/-- The comparison of two nodes reads every keyword of the candidate. -/
structure Read (candidate baseline : Members) : Prop where
  anyOf : Json.pyGet (lit "anyOf") candidate ≠ .null → Only [lit "anyOf"] candidate
  typed : Json.get (lit "anyOf") candidate = none → Json.get (lit "anyOf") baseline = none →
    ReadTyped candidate baseline

/-- The comparison of a pair of schemas asks for the comparison of another pair. -/
def Asked (croot broot : Members) (pair next : Pair) : Prop :=
  (plan croot broot pair).Asks (fun p => Superset croot broot p.1 p.2) next

/-- The comparison of two roots reads every keyword of the nodes of the candidate
    that it comes to and relates to a node of the baseline. -/
def ReadsAll (croot broot : Members) : Prop :=
  ∀ pair, Relation.ReflTransGen (Asked croot broot) (croot, broot) pair →
    Superset croot broot pair.1 pair.2 →
      ∀ s t, resolve croot pair.1 = some s → resolve broot pair.2 = some t → Read s t

variable {formats : Formats} {root : Json} {schema : Members} {j : Json}

/-- A keyword of a schema that constrains by others only has no value. -/
theorem Only.pyGet {keywords : List Text} (h : Only keywords schema) {keyword : Text}
    (hkeyword : keyword ∉ keywords) (hnote : keyword ∉ annotationKeys) :
    Json.pyGet keyword schema = .null := by
  rw [Json.pyGet]
  cases hget : Json.get keyword schema with
  | none => rfl
  | some k =>
    rcases h _ (Json.mem_of_get hget) with hmem | hmem | ⟨hnull, -⟩
    · exact absurd hmem hkeyword
    · exact absurd hmem hnote
    · exact hnull

theorem Only.const {keywords : List Text} (h : Only keywords schema)
    (hkeyword : lit "const" ∉ keywords) : Json.get (lit "const") schema = none := by
  cases hget : Json.get (lit "const") schema with
  | none => rfl
  | some k =>
    have hnote : lit "const" ∉ annotationKeys := by decide
    rcases h _ (Json.mem_of_get hget) with hmem | hmem | ⟨-, hne⟩
    · exact absurd hmem hkeyword
    · exact absurd hmem hnote
    · exact absurd rfl hne

/-- Everything is valid under a value that is no schema. -/
theorem valid_null : Valid formats root .null j := valid_iff.2 trivial

/-- A schema that constrains by these keywords only holds of a value when they
    do. -/
theorem satisfies_of_only
    (h : Only [lit "$ref", lit "anyOf", lit "minLength", lit "maxLength"] schema)
    (href : ∀ r, Json.get (lit "$ref") schema = some (.str r) →
      ∃ target, definition root r = some target ∧ Valid formats root target j)
    (hanyOf : ∀ variants, Json.get (lit "anyOf") schema = some (.arr variants) →
      ∃ variant ∈ variants, Valid formats root variant j)
    (hmin : ∀ t, j = .str t → ∀ n ∈ limit (lit "minLength") schema, n ≤ t.length)
    (hmax : ∀ t, j = .str t → ∀ n ∈ limit (lit "maxLength") schema, t.length ≤ n) :
    Satisfies formats root (Valid formats root) schema j := by
  have hnull {keyword : Text} {k : Json} (hget : Json.get keyword schema = some k)
      (hkeyword : keyword ∉ [lit "$ref", lit "anyOf", lit "minLength", lit "maxLength"])
      (hnote : keyword ∉ annotationKeys) : k = .null :=
    get_ne_of_pyGet_null (h.pyGet hkeyword hnote) hget
  have hlimit {keyword : Text} {n : ℚ} (hn : n ∈ limit keyword schema)
      (hkeyword : keyword ∉ [lit "$ref", lit "anyOf", lit "minLength", lit "maxLength"])
      (hnote : keyword ∉ annotationKeys) : False := by
    obtain ⟨k, hget, hk⟩ := Option.bind_eq_some_iff.1 hn
    rw [hnull hget hkeyword hnote] at hk
    cases hk
  exact
    { type := fun t hget => nomatch hnull hget (by decide) (by decide)
      const := fun v hget => nomatch (h.const (by decide)).symm.trans hget
      enum := fun vs hget => nomatch hnull hget (by decide) (by decide)
      ref := href
      anyOf := hanyOf
      minLength := hmin
      maxLength := hmax
      format := fun t _ f hget => nomatch hnull hget (by decide) (by decide)
      minimum := fun x _ n hn => (hlimit hn (by decide) (by decide)).elim
      exclusiveMinimum := fun x _ n hn => (hlimit hn (by decide) (by decide)).elim
      maximum := fun x _ n hn => (hlimit hn (by decide) (by decide)).elim
      exclusiveMaximum := fun x _ n hn => (hlimit hn (by decide) (by decide)).elim
      multipleOf := fun x _ n hn => (hlimit hn (by decide) (by decide)).elim
      items := fun js _ s hget i _ => hnull hget (by decide) (by decide) ▸ valid_null
      minItems := fun js _ n hn => (hlimit hn (by decide) (by decide)).elim
      maxItems := fun js _ n hn => (hlimit hn (by decide) (by decide)).elim
      uniqueItems := fun js _ hget => nomatch hnull hget (by decide) (by decide)
      required := fun ms _ names hget => nomatch hnull hget (by decide) (by decide)
      properties := fun ms _ ps hget => nomatch hnull hget (by decide) (by decide)
      additionalProperties := fun ms _ s hget m _ _ =>
        hnull hget (by decide) (by decide) ▸ valid_null
      propertyNames := fun ms _ s hget m _ => hnull hget (by decide) (by decide) ▸ valid_null
      minProperties := fun ms _ n hn => (hlimit hn (by decide) (by decide)).elim
      maxProperties := fun ms _ n hn => (hlimit hn (by decide) (by decide)).elim }

/-- More keywords may be read. -/
theorem Only.mono {keywords keywords' : List Text} (h : Only keywords schema)
    (hsub : ∀ keyword ∈ keywords, keyword ∈ keywords') : Only keywords' schema :=
  fun m hm => (h m hm).imp_left (hsub _)

/-! ## References and unions -/

variable {policy policy' : SchemaPolicy} {croot broot c b s t : Members} {room : ℕ}

/-- A schema has the values of the schema that it resolves to. -/
theorem valid_resolveFrom {fuel : ℕ} {stack : List Text}
    (haccepted : Accepted policy (definitionsOf (.obj croot)) room (.obj c))
    (hs : resolveFrom croot fuel stack c = some s) :
    Valid formats (.obj croot) (.obj c) j ↔ Valid formats (.obj croot) (.obj s) j := by
  induction fuel generalizing room c stack with
  | zero =>
    rcases resolveFrom_eq_some.1 hs with ⟨-, rfl⟩ | ⟨_, _, _, _, hfuel, _⟩
    · rfl
    · cases hfuel
  | succ fuel ih =>
    rcases resolveFrom_eq_some.1 hs with ⟨-, rfl⟩ |
      ⟨name, _, definitions, target, hfuel, href, hkeys, -, hdefinitions, htarget, hs⟩
    · rfl
    · cases hfuel
      cases room with
      | zero => exact haccepted.elim
      | succ room =>
        rcases Node.ref haccepted with hnull | ⟨name', target', href', htarget', hchild⟩
        · cases hnull.symm.trans href
        · have href'' := href
          rw [Json.pyGet, href'] at href''
          obtain rfl := List.append_cancel_left (Json.str.inj href'')
          have hof : definitionsOf (.obj croot) = definitions := by
            rw [definitionsOf, get_obj hdefinitions]
          have hget := htarget'
          rw [hof] at hget
          cases (get_obj htarget).symm.trans hget
          rw [← ih hchild hs, valid_obj]
          refine ⟨fun hv => ?_, fun hv => ?_⟩
          · obtain ⟨target', hdefinition, hv⟩ := hv.ref _ href'
            rw [definition_eq, htarget'] at hdefinition
            cases hdefinition
            exact hv
          · have honly : Only [lit "$ref"] c := fun m hm => by
              rcases hkeys m hm with hnote | hkey
              · exact .inr (.inl hnote)
              · exact .inl (by simp [hkey])
            refine satisfies_of_only (honly.mono (by decide)) (fun r hr => ?_) (fun vs hvs => ?_)
              (fun t _ n hn => ?_) fun t _ n hn => ?_
            · cases href'.symm.trans hr
              exact ⟨_, (definition_eq _).trans htarget', hv⟩
            · cases get_ne_of_pyGet_null (honly.pyGet (by decide) (by decide)) hvs
            all_goals
              obtain ⟨k, hget, hk⟩ := Option.bind_eq_some_iff.1 hn
              rw [get_ne_of_pyGet_null (honly.pyGet (by decide) (by decide)) hget] at hk
              cases hk

/-! ## Limits -/

theorem limit_eq_numeric {keyword : Text} : limit keyword schema = numeric keyword schema := by
  rw [limit, numeric, Json.pyGet]
  cases Json.get keyword schema <;> rfl

/-- A wider minimum is met by what meets the narrower one. -/
theorem le_of_minimumIsWider {keyword : Text} (h : minimumIsWider keyword s t = true) {q : ℚ}
    (ht : ∀ n ∈ limit keyword t, n ≤ q) : ∀ n ∈ limit keyword s, n ≤ q := by
  intro n hn
  rw [limit_eq_numeric] at hn ht
  rw [minimumIsWider, hn] at h
  cases hm : numeric keyword t with
  | none =>
    rw [hm] at h
    cases h
  | some m =>
    rw [hm, decide_eq_true_iff] at h
    exact h.trans (ht m hm)

theorem le_of_maximumIsWider {keyword : Text} (h : maximumIsWider keyword s t = true) {q : ℚ}
    (ht : ∀ n ∈ limit keyword t, q ≤ n) : ∀ n ∈ limit keyword s, q ≤ n := by
  intro n hn
  rw [limit_eq_numeric] at hn ht
  rw [maximumIsWider, hn] at h
  cases hm : numeric keyword t with
  | none =>
    rw [hm] at h
    cases h
  | some m =>
    rw [hm, decide_eq_true_iff] at h
    exact (ht m hm).trans h

/-- A number is above a lower bound. -/
def Above (x : ℚ) : Option (ℚ × Bool) → Prop
  | none => True
  | some (n, true) => n ≤ x
  | some (n, false) => n < x

/-- A number is below an upper bound. -/
def Below (x : ℚ) : Option (ℚ × Bool) → Prop
  | none => True
  | some (n, true) => x ≤ n
  | some (n, false) => x < n

theorem above_lowerBound {x : ℚ} : Above x (lowerBound schema) ↔
    (∀ n ∈ limit (lit "minimum") schema, n ≤ x) ∧
      ∀ n ∈ limit (lit "exclusiveMinimum") schema, n < x := by
  rw [limit_eq_numeric, limit_eq_numeric, lowerBound]
  cases numeric (lit "minimum") schema with
  | none => cases numeric (lit "exclusiveMinimum") schema <;> simp [Above]
  | some n =>
    cases numeric (lit "exclusiveMinimum") schema with
    | none => simp [Above]
    | some n' =>
      dsimp only
      split_ifs with hle
      · simp only [Above, Option.mem_def, Option.some.injEq, forall_eq']
        exact ⟨fun h => ⟨(hle.trans_lt h).le, h⟩, And.right⟩
      · simp only [Above, Option.mem_def, Option.some.injEq, forall_eq']
        exact ⟨fun h => ⟨h, (not_le.1 hle).trans_le h⟩, And.left⟩

theorem below_upperBound {x : ℚ} : Below x (upperBound schema) ↔
    (∀ n ∈ limit (lit "maximum") schema, x ≤ n) ∧
      ∀ n ∈ limit (lit "exclusiveMaximum") schema, x < n := by
  rw [limit_eq_numeric, limit_eq_numeric, upperBound]
  cases numeric (lit "maximum") schema with
  | none => cases numeric (lit "exclusiveMaximum") schema <;> simp [Below]
  | some n =>
    cases numeric (lit "exclusiveMaximum") schema with
    | none => simp [Below]
    | some n' =>
      dsimp only
      split_ifs with hle
      · simp only [Below, Option.mem_def, Option.some.injEq, forall_eq']
        exact ⟨fun h => ⟨(h.trans_le hle).le, h⟩, And.right⟩
      · simp only [Below, Option.mem_def, Option.some.injEq, forall_eq']
        exact ⟨fun h => ⟨h, h.trans_lt (not_le.1 hle)⟩, And.left⟩

theorem Above.of_wider {x : ℚ} {y z : Option (ℚ × Bool)} (h : lowerIsWider y z = true)
    (hz : Above x z) : Above x y := by
  obtain _ | ⟨n, i⟩ := y
  · trivial
  obtain _ | ⟨n', i'⟩ := z
  · cases h
  rw [lowerIsWider_some] at h
  rcases h with hlt | ⟨rfl, hi⟩
  · cases i <;> cases i' <;> simp only [Above] at hz ⊢ <;> linarith
  · cases i <;> cases i' <;> simp only [Above] at hz ⊢ <;> first | linarith | exact Bool.noConfusion (hi rfl)

theorem Below.of_wider {x : ℚ} {y z : Option (ℚ × Bool)} (h : upperIsWider y z = true)
    (hz : Below x z) : Below x y := by
  obtain _ | ⟨n, i⟩ := y
  · trivial
  obtain _ | ⟨n', i'⟩ := z
  · cases h
  rw [upperIsWider_some] at h
  rcases h with hlt | ⟨rfl, hi⟩
  · cases i <;> cases i' <;> simp only [Below] at hz ⊢ <;> linarith
  · cases i <;> cases i' <;> simp only [Below] at hz ⊢ <;> first | linarith | exact Bool.noConfusion (hi rfl)

/-! ## Typed nodes -/

section

variable {definitions definitions' : Members} {child child' : Json → Prop}
  {R : Members → Members → Prop}

/-- The values under a schema of the baseline are values under a schema of the
    candidate. -/
def Implies (formats : Formats) (croot broot c b : Members) : Prop :=
  ∀ i, Valid formats (.obj broot) (.obj b) i → Valid formats (.obj croot) (.obj c) i

/-- A value that is valid under a typed node has the type of the candidate. -/
theorem hasType_of_typed (ht : TypedSuperset R s t)
    (hv : Satisfies formats root (Valid formats root) t j) :
    ∃ schemaType, Json.pyGet (lit "type") s = .str schemaType ∧ HasType schemaType j := by
  obtain ⟨u, u', hu, hu', hor⟩ := ht.type
  have hhas := hv.type u' (get_of_pyGet hu' nofun)
  refine ⟨u, hu, ?_⟩
  rcases hor with rfl | ⟨rfl, rfl⟩
  · exact hhas
  · cases j with
    | int n => exact .inr rfl
    | float x => exact .inl rfl
    | null => exact absurd (show lit "integer" = lit "null" from hhas) (by decide)
    | bool => exact absurd (show lit "integer" = lit "boolean" from hhas) (by decide)
    | str => exact absurd (show lit "integer" = lit "string" from hhas) (by decide)
    | arr => exact absurd (show lit "integer" = lit "array" from hhas) (by decide)
    | obj => exact absurd (show lit "integer" = lit "object" from hhas) (by decide)

/-- A value that is valid under a node is among the allowed ones. -/
theorem mem_allowedValues (hn : Node policy definitions child t)
    {schemaType : Text} (htype : Json.pyGet (lit "type") t = .str schemaType) {values : List Json}
    (hvalues : allowedValues t = some values)
    (hv : Satisfies formats root (Valid formats root) t j) : ∃ value ∈ values, j.Equal value := by
  rw [allowedValues] at hvalues
  split at hvalues
  · next value hconst =>
    cases hvalues
    exact ⟨value, List.mem_singleton_self value, hv.const value hconst⟩
  · split at hvalues
    · cases hvalues
    · next values' henum =>
      cases hvalues
      exact hv.enum values (get_arr henum)
    · next hnull harr =>
      rcases (hn.typedNode htype).enum with hmissing | ⟨values', hget, -⟩
      · exact absurd hmissing hnull
      · have harr' : Json.pyGet (lit "enum") t = .arr values' := by rw [Json.pyGet, hget]; rfl
        exact absurd harr' (harr values')

/-- A value of the baseline is equal to an allowed value of the candidate. -/
theorem equal_allowed (hread : ReadTyped s t) (hn : Node policy definitions child t)
    (ht : TypedSuperset R s t) {values : List Json} (hvalues : allowedValues s = some values)
    (hv : Satisfies formats root (Valid formats root) t j) : ∃ value ∈ values, j.Equal value := by
  obtain ⟨values', hvalues', -⟩ := allowsEveryValue_iff.1 ht.values values hvalues
  obtain ⟨_, u', -, hu', -⟩ := ht.type
  obtain ⟨value', hvalue', heq'⟩ := mem_allowedValues hn hu' hvalues' hv
  obtain ⟨allowed, hallowed, heq⟩ := hread.values values values' hvalues hvalues' value' hvalue'
  exact ⟨allowed, hallowed, Json.equalWith_trans heq' heq⟩

/-- The names of an object are valid under the names of the candidate. -/
theorem valid_names (hread : ReadTyped s t) (h : propertyNamesAreWider s t = true) {name : Text}
    {names : Json} (hnames : Json.get (lit "propertyNames") s = some names)
    (hv : ∀ names', Json.get (lit "propertyNames") t = some names' →
      Valid formats (.obj broot) names' (.str name)) :
    Valid formats (.obj croot) names (.str name) := by
  have hpyGet : Json.pyGet (lit "propertyNames") s = names := by rw [Json.pyGet, hnames]; rfl
  rw [propertyNamesAreWider, hpyGet] at h
  split at h
  · exact valid_null
  · next n n' hn' =>
    rw [Bool.and_eq_true] at h
    have hv' := hv _ (get_obj hn')
    rw [valid_obj] at hv' ⊢
    have honly := hread.names n hnames
    refine satisfies_of_only (honly.mono (by decide)) (fun r hr => ?_) (fun vs hvs => ?_) ?_ ?_
    · cases get_ne_of_pyGet_null (honly.pyGet (by decide) (by decide)) hr
    · cases get_ne_of_pyGet_null (honly.pyGet (by decide) (by decide)) hvs
    · intro t ht
      cases ht
      exact le_of_minimumIsWider h.1 (hv'.minLength name rfl)
    · intro t ht
      cases ht
      exact le_of_maximumIsWider h.2 (hv'.maxLength name rfl)
  · cases h

/-- A member of an object that is valid under an object schema is valid under the
    schema of its name. -/
theorem valid_member (ht : Shape policy child t) (hchild : ∀ k, child k → ∃ y, k = .obj y)
    {members : Members} (hv : Satisfies formats root (Valid formats root) t (.obj members))
    {m : Text × Json} (hm : m ∈ members) :
    ∃ y, propertySchema t m.1 = some y ∧ Valid formats root (.obj y) m.2 := by
  rcases ht with hmapping | ⟨properties, hclosed⟩
  · obtain ⟨-, k, hk, hck, hvk⟩ := (names_of_satisfies hmapping hv).2 m hm
    obtain ⟨y, rfl⟩ := hchild k hck
    refine ⟨y, ?_, hvk⟩
    rw [propertySchema, hmapping.properties, Json.pyGet, hk]
    rfl
  · obtain ⟨k, hk, hck, hvk⟩ := declared_of_satisfies hclosed hv m hm
    obtain ⟨y, rfl⟩ := hchild k hck
    refine ⟨y, ?_, hvk⟩
    rcases hclosed.declared with ⟨-, rfl⟩ | hdeclared
    · cases hk
    · rw [propertySchema, Json.pyGet, hdeclared, Option.getD_some, asMapping, Option.bind_some,
        Json.pyGet, hk]
      rfl

/-- What related texts share: wider lengths, and the format of the candidate. -/
theorem wider_of_stringIsSuperset (h : stringIsSuperset s t = true) :
    minimumIsWider (lit "minLength") s t = true ∧ maximumIsWider (lit "maxLength") s t = true ∧
      ∀ f, Json.get (lit "format") s = some (.str f) →
        Json.get (lit "format") t = some (.str f) := by
  rw [stringIsSuperset, Bool.and_eq_true, Bool.and_eq_true, Bool.or_eq_true] at h
  refine ⟨h.1.1, h.1.2, fun f hf => ?_⟩
  have hpyGet : Json.pyGet (lit "format") s = .str f := by rw [Json.pyGet, hf]; rfl
  rw [hpyGet] at h
  rcases h.2 with hnull | heq
  · cases hnull
  · rw [Json.equalWith_scalar (x := .text f) rfl, Json.scalar_eq_text] at heq
    exact get_str heq

/-- A number that is valid under the baseline is within the bounds of the candidate, and
    a multiple of what its multiples are. -/
theorem within_of_numberIsSuperset (h : numberIsSuperset s t = true) {x : ℚ} (hx : x ∈ j.number)
    (hv : Satisfies formats root (Valid formats root) t j) :
    Above x (lowerBound s) ∧ Below x (upperBound s) ∧
      ∀ n ∈ limit (lit "multipleOf") s, (x / n).isInt := by
  rw [numberIsSuperset, Bool.and_eq_true, Bool.and_eq_true] at h
  obtain ⟨⟨hlower, hupper⟩, hmultiple⟩ := h
  refine ⟨.of_wider hlower (above_lowerBound.2 ⟨hv.minimum x hx, hv.exclusiveMinimum x hx⟩),
    .of_wider hupper (below_upperBound.2 ⟨hv.maximum x hx, hv.exclusiveMaximum x hx⟩),
    fun n hn => ?_⟩
  rw [limit_eq_numeric] at hn
  rw [hn] at hmultiple
  cases hmultiple' : numeric (lit "multipleOf") t with
  | none =>
    rw [hmultiple'] at hmultiple
    cases hmultiple
  | some n' =>
    rw [hmultiple', decide_eq_true_iff] at hmultiple
    exact hv.multipleOf x hx n (by rw [limit_eq_numeric, hmultiple', hmultiple]; rfl)

/-- What the candidate requires, the baseline does. -/
theorem required_of_superset (ho : ObjectSuperset R s t) {names : List Json}
    (hnames : Json.get (lit "required") s = some (.arr names)) {name : Text}
    (hname : .str name ∈ names) :
    ∃ names', Json.get (lit "required") t = some (.arr names') ∧ .str name ∈ names' := by
  obtain ⟨ns, ns', hns, hns', hsub⟩ := ho.required
  obtain ⟨hget, -⟩ := requiredNames_eq_some.1 hns
  obtain ⟨hget', -⟩ := requiredNames_eq_some.1 hns'
  rw [hnames] at hget
  cases hget
  have hmem : name ∈ ns' := by
    obtain ⟨n, hn, heq⟩ := List.mem_map.1 hname
    exact Json.str.inj heq ▸ hsub n hn
  cases hrequired : Json.get (lit "required") t with
  | none =>
    rw [hrequired] at hget'
    cases ns' with
    | nil => cases hmem
    | cons => cases hget'
  | some k =>
    rw [hrequired] at hget'
    cases hget'
    exact ⟨_, rfl, List.mem_map_of_mem hmem⟩

/-- What an object schema has for a property that it declares is the schema of its
    name. -/
theorem propertySchema_of_declared (hs : Shape policy child s)
    (hchild : ∀ k, child k → ∃ y, k = .obj y) {properties : Members}
    (hproperties : Json.get (lit "properties") s = some (.obj properties)) {name : Text} {k : Json}
    (hk : Json.get name properties = some k) {x : Members} (hx : propertySchema s name = some x) :
    k = .obj x := by
  obtain ⟨k', rfl⟩ : ∃ k', k = .obj k' := by
    rcases hs with hmapping | ⟨declared, hclosed⟩
    · cases get_ne_of_pyGet_null hmapping.properties hproperties
    · rcases hclosed.declared with ⟨hnull, -⟩ | hdeclared
      · cases get_ne_of_pyGet_null hnull hproperties
      · cases hdeclared.symm.trans hproperties
        exact hchild k (hclosed.children _ (Json.mem_of_get hk))
  rw [propertySchema, Json.pyGet, hproperties, Option.getD_some, asMapping, Option.bind_some,
    Json.pyGet, hk] at hx
  cases hx
  rfl

/-- What an object schema has for other properties is the schema of a name that it does
    not declare. -/
theorem propertySchema_of_additional {k : Json}
    (hk : Json.get (lit "additionalProperties") s = some k) {name : Text}
    (hno : ∀ properties, Json.get (lit "properties") s = some (.obj properties) →
      Json.get name properties = none) {x : Members} (hx : propertySchema s name = some x) :
    k = .obj x := by
  rcases propertySchema_eq_some hx with ⟨properties, hproperties, hget⟩ | hadditional
  · cases (hno properties (get_obj hproperties)).symm.trans (get_obj hget)
  · cases (get_obj hadditional).symm.trans hk
    rfl

/-- The values of a typed node are values of a related node that is read. -/
theorem satisfies_typed (hread : ReadTyped s t) (hs : Node policy definitions child s)
    (hsref : Json.pyGet (lit "$ref") s = .null) (hsanyOf : Json.get (lit "anyOf") s = none)
    (hchild : ∀ k, child k → ∃ y, k = .obj y) (ht : Node policy' definitions' child' t)
    (hchild' : ∀ k, child' k → ∃ y, k = .obj y)
    (hst : TypedSuperset (Implies formats croot broot) s t)
    (hv : Satisfies formats (.obj broot) (Valid formats (.obj broot)) t j) :
    Satisfies formats (.obj croot) (Valid formats (.obj croot)) s j := by
  -- The value has the type that both nodes name, which decides the keywords
  -- that the comparison has compared.
  obtain ⟨schemaType, htype, hhas⟩ := hasType_of_typed hst hv
  have hstring {text : Text} (hj : j = .str text) : stringIsSuperset s t = true := by
    subst hj
    exact hst.string (htype.trans (congrArg Json.str hhas))
  have hnumber {x : ℚ} (hx : x ∈ j.number) : Above x (lowerBound s) ∧ Below x (upperBound s) ∧
      ∀ n ∈ limit (lit "multipleOf") s, (x / n).isInt := by
    refine within_of_numberIsSuperset (hst.number ?_) hx hv
    cases j with
    | int n => exact hhas.imp (htype ▸ congrArg Json.str) (htype ▸ congrArg Json.str)
    | float y => exact (hhas.imp (htype ▸ congrArg Json.str) (htype ▸ congrArg Json.str ·.1)).symm
    | null | bool | str | arr | obj => cases hx
  have harray {items : List Json} (hj : j = .arr items) :
      ArraySuperset (Implies formats croot broot) s t := by
    subst hj
    exact hst.array (htype.trans (congrArg Json.str hhas))
  have hobject {members : Members} (hj : j = .obj members) :
      ObjectSuperset (Implies formats croot broot) s t ∧ Shape policy child s ∧
        Shape policy' child' t := by
    subst hj
    have htype' := htype.trans (congrArg Json.str hhas)
    exact ⟨hst.object htype', (hs.typedNode htype').object rfl,
      (ht.typedNode (hst.type_eq htype' (by decide))).object rfl⟩
  have hmember {members : Members} (hj : j = .obj members) {m : Text × Json} (hm : m ∈ members) :
      ∃ x, propertySchema s m.1 = some x ∧ Valid formats (.obj croot) (.obj x) m.2 := by
    obtain ⟨ho, hss, hts⟩ := hobject hj
    obtain ⟨y, hy, hvy⟩ := valid_member hts hchild' (hj ▸ hv) hm
    obtain ⟨x, hx, himplies⟩ := ho.propertySchema hss hy
    exact ⟨x, hx, himplies m.2 hvy⟩
  exact
    { type := fun u hu => by
        rw [Json.pyGet, hu] at htype
        cases htype
        exact hhas
      const := fun value hvalue => by
        obtain ⟨allowed, hallowed, heq⟩ := equal_allowed hread ht hst
          (by rw [allowedValues, hvalue]) hv
        rwa [List.mem_singleton.1 hallowed] at heq
      enum := fun values henum => by
        refine equal_allowed hread ht hst ?_ hv
        rcases hread.enum with hconst | hnull
        · rw [allowedValues, hconst, Json.pyGet, henum]
          rfl
        · rw [Json.pyGet, henum] at hnull
          cases hnull
      ref := fun r hr => by cases get_ne_of_pyGet_null hsref hr
      anyOf := fun variants hvariants => by cases hsanyOf.symm.trans hvariants
      minLength := fun text hj =>
        le_of_minimumIsWider (wider_of_stringIsSuperset (hstring hj)).1 (hv.minLength text hj)
      maxLength := fun text hj =>
        le_of_maximumIsWider (wider_of_stringIsSuperset (hstring hj)).2.1 (hv.maxLength text hj)
      format := fun text hj f hf =>
        hv.format text hj f ((wider_of_stringIsSuperset (hstring hj)).2.2 f hf)
      minimum := fun x hx => (above_lowerBound.1 (hnumber hx).1).1
      exclusiveMinimum := fun x hx => (above_lowerBound.1 (hnumber hx).1).2
      maximum := fun x hx => (below_upperBound.1 (hnumber hx).2.1).1
      exclusiveMaximum := fun x hx => (below_upperBound.1 (hnumber hx).2.1).2
      multipleOf := fun x hx => (hnumber hx).2.2
      items := fun items hj k hk i hi => by
        obtain ⟨x, y, hx, hy, himplies⟩ := (harray hj).items
        cases (get_obj hx).symm.trans hk
        exact himplies i (hv.items items hj _ (get_obj hy) i hi)
      minItems := fun items hj => le_of_minimumIsWider (harray hj).minItems (hv.minItems items hj)
      maxItems := fun items hj => le_of_maximumIsWider (harray hj).maxItems (hv.maxItems items hj)
      uniqueItems := fun items hj hu =>
        hv.uniqueItems items hj (get_bool ((harray hj).uniqueItems (by rw [Json.pyGet, hu]; rfl)))
      required := fun members hj names hnames name hname => by
        obtain ⟨names', hnames', hname'⟩ := required_of_superset (hobject hj).1 hnames hname
        exact hv.required members hj names' hnames' name hname'
      properties := fun members hj properties hproperties m hm k hk => by
        obtain ⟨x, hx, hvx⟩ := hmember hj hm
        rwa [propertySchema_of_declared (hobject hj).2.1 hchild hproperties hk hx]
      additionalProperties := fun members hj k hk m hm hno => by
        obtain ⟨x, hx, hvx⟩ := hmember hj hm
        rwa [propertySchema_of_additional hk hno hx]
      propertyNames := fun members hj k hk m hm =>
        valid_names hread (hobject hj).1.propertyNames hk fun names' hnames' =>
          hv.propertyNames members hj names' hnames' m hm
      minProperties := fun members hj =>
        le_of_minimumIsWider (hobject hj).1.minProperties (hv.minProperties members hj)
      maxProperties := fun members hj =>
        le_of_maximumIsWider (hobject hj).1.maxProperties (hv.maxProperties members hj) }

end

/-! ## Related schemas -/

theorem Accepted.isObj {definitions : Members} {k : Json} (h : Accepted policy definitions room k) :
    ∃ schema, k = .obj schema := by
  cases k with
  | obj schema => exact ⟨schema, rfl⟩
  | null | bool | int | float | str | arr => cases room <;> exact h.elim

/-- A value of a schema is a value of one of its variants. -/
theorem valid_variant {variants : List Members} (hvariants : variantList schema = some variants)
    (hv : Valid formats root (.obj schema) j) : ∃ v ∈ variants, Valid formats root (.obj v) j := by
  rcases variantList_eq_some.1 hvariants with ⟨-, rfl⟩ | ⟨harr, -⟩
  · exact ⟨schema, List.mem_singleton_self schema, hv⟩
  · obtain ⟨k, hk, hvk⟩ := (valid_obj.1 hv).anyOf _ (get_of_pyGet harr nofun)
    obtain ⟨v, hmem, rfl⟩ := List.mem_map.1 hk
    exact ⟨v, hmem, hvk⟩

/-- A value of a variant is a value of a union without other keywords. -/
theorem valid_of_variant {variants : List Members} (hvariants : variantList schema = some variants)
    (honly : Json.pyGet (lit "anyOf") schema ≠ .null → Only [lit "anyOf"] schema)
    {v : Members} (hmem : v ∈ variants) (hv : Valid formats root (.obj v) j) :
    Valid formats root (.obj schema) j := by
  rcases variantList_eq_some.1 hvariants with ⟨-, rfl⟩ | ⟨harr, -⟩
  · exact List.mem_singleton.1 hmem ▸ hv
  · have honly := honly (harr ▸ nofun)
    refine valid_obj.2 (satisfies_of_only (honly.mono (by decide)) (fun r hr => ?_)
      (fun vs hvs => ?_) (fun _ _ n hn => ?_) fun _ _ n hn => ?_)
    · exact nomatch get_ne_of_pyGet_null (honly.pyGet (by decide) (by decide)) hr
    · cases (get_of_pyGet harr nofun).symm.trans hvs
      exact ⟨_, List.mem_map_of_mem hmem, hv⟩
    all_goals
      obtain ⟨k, hget, hk⟩ := Option.bind_eq_some_iff.1 hn
      rw [get_ne_of_pyGet_null (honly.pyGet (by decide) (by decide)) hget] at hk
      cases hk

/-- The comparison of related schemas does not go on forever. -/
theorem not_stuck_of_superset {pair : Pair} (h : Superset croot broot pair.1 pair.2) :
    ¬ Stuck croot broot pair := by
  rintro ⟨s, t, hs, ht, hnull, hnull', hsome⟩
  obtain ⟨hne, hne'⟩ := anyOf_of_superset h
  rcases hsome with hsome | hsome
  · obtain ⟨k, hk⟩ := Option.isSome_iff_exists.1 hsome
    exact hne s hs (hk.trans (congrArg some (get_ne_of_pyGet_null hnull hk)))
  · obtain ⟨k, hk⟩ := Option.isSome_iff_exists.1 hsome
    exact hne' t ht (hk.trans (congrArg some (get_ne_of_pyGet_null hnull' hk)))

/-- The values of a schema are values of a related schema, when the comparison
    reads every keyword. -/
theorem valid_of_superset (hreads : ReadsAll croot broot) {n : ℕ} {p : Pair}
    (hlevel : Level policy policy' croot broot n p)
    (hcomes : Relation.ReflTransGen (Asked croot broot) (croot, broot) p)
    (h : Superset croot broot p.1 p.2) : Implies formats croot broot p.1 p.2 := by
  induction n using Nat.strong_induction_on generalizing p with
  | h n ih =>
    intro j hv
    -- the pairs that relate these two are asked for, and have fewer levels
    have hstep : supersetStep (Implies formats croot broot) croot broot p.1 p.2 := by
      refine (supersetStep_iff_holds (fun q => Implies formats croot broot q.1 q.2) p).2
        (((superset_iff_holds p).1 h).asked.mono fun next hnext => ?_)
      obtain ⟨n', hlt, hlevel'⟩ := level_of_asks hlevel (not_stuck_of_superset h) hnext.2
      exact ih n' hlt hlevel' (hcomes.tail hnext.2) hnext.1
    obtain ⟨s, t, hs, ht, hr⟩ := hstep
    obtain ⟨roomC, roomB, -, hc, hb⟩ := hlevel
    obtain ⟨hcs, hsref⟩ := accepted_of_resolveFrom hc hs
    obtain ⟨hbt, -⟩ := accepted_of_resolveFrom hb ht
    rw [valid_resolveFrom hb ht] at hv
    rw [valid_resolveFrom hc hs]
    have hread := hreads p hcomes h s t hs ht
    obtain ⟨variants, variants', hvariants, hvariants', hall⟩ := hr.variants
    by_cases hany : (Json.get (lit "anyOf") s).isSome ∨ (Json.get (lit "anyOf") t).isSome
    · -- The value is one of a variant, and a variant on the other side covers it.
      obtain ⟨v', hmem', hvv'⟩ := valid_variant hvariants' hv
      obtain ⟨v, hmem, himplies⟩ := hall hany v' hmem'
      exact valid_of_variant hvariants hread.anyOf hmem (himplies j hvv')
    · rw [not_or, Option.not_isSome_iff_eq_none, Option.not_isSome_iff_eq_none] at hany
      cases roomC with
      | zero => exact hc.elim
      | succ roomC =>
        cases roomB with
        | zero => exact hb.elim
        | succ roomB =>
          exact valid_obj.2 (satisfies_typed (hread.typed hany.1 hany.2) hcs hsref hany.1
            (fun _ => Accepted.isObj) hbt (fun _ => Accepted.isObj) (hr.typed hany.1 hany.2)
            (valid_obj.1 hv))

/-! ## The classification -/

variable {previous current : Members} {direction : SchemaDirection}

/-- Where the schemas of a direction are compared, as their fingerprints differ, within
    the budget, the comparison reads every keyword of what is to be the wider one. -/
def ReadsDirection (hashing : Hashing) (depth : ℕ) (previous current : Members)
    (direction : SchemaDirection) : Prop :=
  hashing.fingerprint (.obj previous) ≠ hashing.fingerprint (.obj current) →
    WithinBudget depth previous current direction →
      ReadsAll (sides previous current direction).1 (sides previous current direction).2

/-- What is to be valid where, for a direction. -/
def Preserves (formats : Formats) (previous current j : Json) : SchemaDirection → Prop
  | .input => Valid formats previous previous j → Valid formats current current j
  | .output => Valid formats current current j → Valid formats previous previous j

/-- A change of accepted schemas that is judged identical or non-breaking keeps
    the values, when the comparison reads every keyword that it gets to. -/
theorem sound_of_classifySchemaChange {hashing : Hashing} {depth : ℕ} {path : Text}
    {change : SchemaChange}
    (hprevious : validateSchema hashing.writer policy (.obj previous) path = .ok ())
    (hcurrent : validateSchema hashing.writer policy' (.obj current) path = .ok ())
    (hwf : (Json.obj previous).WellFormed) (hwf' : (Json.obj current).WellFormed)
    (hcollision : hashing.NoCollision (.obj previous) (.obj current))
    (hreads : ReadsDirection hashing depth previous current direction)
    (h : classifySchemaChange hashing depth previous current direction = some change)
    (hchange : change ≠ .breaking) :
    ∀ j, Preserves formats (.obj previous) (.obj current) j direction := by
  intro j
  have haccepted := (accepted_of_validateSchema hprevious).1
  have haccepted' := (accepted_of_validateSchema hcurrent).1
  rcases same_or_compatible h hchange hcollision with hsame | ⟨hne, hbudget, hcompatible⟩
  · have halike : Json.Alike (.obj previous) (.obj current) := ⟨hwf, hwf', hsame⟩
    cases direction with
    | input => exact Valid.of_alike halike halike
    | output => exact Valid.of_alike halike.symm halike.symm
  · replace hreads := hreads hne hbudget
    cases direction with
    | input =>
      exact valid_of_superset hreads (p := (current, previous))
        ⟨_, _, rfl, haccepted', haccepted⟩ .refl hcompatible j
    | output =>
      exact valid_of_superset hreads (p := (previous, current))
        ⟨_, _, rfl, haccepted, haccepted'⟩ .refl hcompatible j

/-- A count from 1 to 9. -/
def countSchema : Members :=
  [(lit "maximum", .int 9), (lit "minimum", .int 1), (lit "type", .str (lit "integer"))]

/-- A number from 0 to 9. -/
def numberSchema : Members :=
  [(lit "maximum", .int 9), (lit "minimum", .int 0), (lit "type", .str (lit "number"))]

def nullSchema : Members := [(lit "type", .str (lit "null"))]

/-- A number from 0 to 9, or none. -/
def optionalSchema : Members := [(lit "anyOf", .arr [.obj nullSchema, .obj numberSchema])]

/-- An object with a count. -/
def countedSchema : Members :=
  [(lit "additionalProperties", .bool false),
    (lit "properties", .obj [(lit "count", .obj countSchema)]),
    (lit "required", .arr [.str (lit "count")]), (lit "type", .str (lit "object"))]

/-- An object with or without a number for a count. -/
def loosenedSchema : Members :=
  [(lit "additionalProperties", .bool false),
    (lit "properties", .obj [(lit "count", .obj optionalSchema)]),
    (lit "type", .str (lit "object"))]

/-- SHA-256, on the documents of both. -/
def countHashing : Hashing where
  writer := .plain
  sha256 document :=
    if document = JsonWriter.plain.render (.obj countedSchema) then
      ⟨lit "9c74071101581376e60d8634c2922365a7dab63c081657d707af1626e0238cee", by decide +kernel⟩
    else ⟨lit "eb0cf8088e10508bbe2fd0b0b22b83d6cb6b74f3d5a6920ec9629d346c1397e2", by decide +kernel⟩

/-- The comparison of the two objects comes to the schemas of the count, and to both
    variants of the new one. -/
theorem mem_of_asked {pair : Pair}
    (h : Relation.ReflTransGen (Asked loosenedSchema countedSchema)
      (loosenedSchema, countedSchema) pair) :
    pair ∈ [(loosenedSchema, countedSchema), (optionalSchema, countSchema),
      (nullSchema, countSchema), (numberSchema, countSchema)] := by
  induction h with
  | refl => exact List.mem_cons_self
  | tail _ hasked ih =>
    rw [Asked] at hasked
    simp only [List.mem_cons, List.not_mem_nil, or_false] at ih
    rcases ih with rfl | rfl | rfl | rfl
    · rw [show plan loosenedSchema countedSchema (loosenedSchema, countedSchema) =
        .and (.and (.ask (optionalSchema, countSchema)) (.answer true))
          (.and (.answer true) (.answer true)) from rfl] at hasked
      rcases hasked with (rfl | ⟨-, h⟩) | ⟨-, h | ⟨-, h⟩⟩
      · exact List.mem_cons_of_mem _ List.mem_cons_self
      all_goals exact h.elim
    · rw [show plan loosenedSchema countedSchema (optionalSchema, countSchema) =
        .and (.or (.ask (nullSchema, countSchema))
          (.or (.ask (numberSchema, countSchema)) (.answer false))) (.answer true) from rfl] at hasked
      rcases hasked with (rfl | ⟨-, rfl | ⟨-, h⟩⟩) | ⟨-, h⟩
      · exact List.mem_cons_of_mem _ (List.mem_cons_of_mem _ List.mem_cons_self)
      · exact List.mem_cons_of_mem _ (List.mem_cons_of_mem _ (List.mem_cons_of_mem _
          List.mem_cons_self))
      all_goals exact h.elim
    · exact hasked.elim
    · exact hasked.elim

/-- The comparison of the two objects reads every keyword. -/
theorem reads_loosenedSchema : ReadsAll loosenedSchema countedSchema := by
  intro pair hcomes _ s t hs _
  have hmem := mem_of_asked hcomes
  simp only [List.mem_cons, List.not_mem_nil, or_false] at hmem
  rcases hmem with rfl | rfl | rfl | rfl
  · cases (show some loosenedSchema = some s from hs)
    exact ⟨fun hne => absurd rfl hne, fun _ _ => ⟨.inl rfl, nofun, nofun⟩⟩
  · cases (show some optionalSchema = some s from hs)
    exact ⟨fun _ m hm => .inl (by rw [List.mem_singleton.1 hm]; exact List.mem_cons_self), nofun⟩
  · cases (show some nullSchema = some s from hs)
    exact ⟨fun hne => absurd rfl hne, fun _ _ => ⟨.inl rfl, nofun, nofun⟩⟩
  · cases (show some numberSchema = some s from hs)
    exact ⟨fun hne => absurd rfl hne, fun _ _ => ⟨.inl rfl, nofun, nofun⟩⟩

/-- The object with a count may be loosened. -/
theorem implies_loosenedSchema :
    Implies formats loosenedSchema countedSchema loosenedSchema countedSchema := by
  have haccepted : validateSchema .plain {} (.obj countedSchema) (lit "input_schema") = .ok () := by
    decide +kernel
  have haccepted' : validateSchema .plain {} (.obj loosenedSchema) (lit "input_schema") = .ok () := by
    decide +kernel
  have hcompare : compatibility 20 countedSchema loosenedSchema .input = some (true, 9996) := by
    decide +kernel
  exact valid_of_superset reads_loosenedSchema (p := (loosenedSchema, countedSchema))
    ⟨_, _, rfl, (accepted_of_validateSchema haccepted').1, (accepted_of_validateSchema haccepted).1⟩
    .refl ((compatibility_decides hcompare).1 rfl)

/-- An object with the count 5 is valid. -/
theorem valid_countedSchema : Valid (fun _ _ => True) (.obj countedSchema) (.obj countedSchema)
    (.obj [(lit "count", .int 5)]) := by
  have hcount : Valid (fun _ _ => True) (.obj countedSchema) (.obj countSchema) (.int 5) := by
    refine valid_obj.2 ?_
    constructor
    case type =>
      intro t ht
      cases ht
      exact .inl rfl
    case minimum =>
      intro x hx n hn
      cases hx
      cases hn
      norm_num
    case maximum =>
      intro x hx n hn
      cases hx
      cases hn
      norm_num
    all_goals
      intros
      contradiction
  refine valid_obj.2 ?_
  constructor
  case type =>
    intro t ht
    cases ht
    rfl
  case required =>
    intro members hj names hnames name hname
    cases hj
    cases hnames
    cases List.mem_singleton.1 hname
    exact List.mem_cons_self
  case properties =>
    intro members hj ps hps m hm s hs
    cases hj
    cases hps
    cases List.mem_singleton.1 hm
    cases hs
    exact hcount
  case additionalProperties =>
    intro members hj s _ m hm hno
    cases hj
    cases List.mem_singleton.1 hm
    exact nomatch hno _ rfl
  all_goals
    intros
    contradiction

/-- A release in which a required count may be missing, none or another number keeps the
    object with the count 5. -/
theorem sound_of_classifySchemaChange_example :
    Valid (fun _ _ => True) (.obj loosenedSchema) (.obj loosenedSchema)
      (.obj [(lit "count", .int 5)]) := by
  have hreads : ReadsDirection countHashing 20 countedSchema loosenedSchema .input :=
    fun _ _ => reads_loosenedSchema
  have hclassify : classifySchemaChange countHashing 20 countedSchema loosenedSchema .input =
      some .nonBreaking := by decide +kernel
  have hwf : (Json.obj countedSchema).WellFormed :=
    ⟨by decide, trivial, ⟨by decide, ⟨by decide, trivial, trivial, trivial, trivial⟩, trivial⟩,
      ⟨trivial, trivial⟩, trivial, trivial⟩
  have hwf' : (Json.obj loosenedSchema).WellFormed := by
    refine ⟨by decide, trivial, ⟨by decide, ⟨by decide, ⟨?_, ?_, trivial⟩, trivial⟩, trivial⟩,
      trivial, trivial⟩
    · exact ⟨by decide, trivial, trivial⟩
    · exact ⟨by decide, trivial, trivial, trivial, trivial⟩
  have haccepted : validateSchema countHashing.writer {} (.obj countedSchema) (lit "input_schema") =
      .ok () := by decide +kernel
  have haccepted' : validateSchema countHashing.writer {} (.obj loosenedSchema)
      (lit "input_schema") = .ok () := by decide +kernel
  exact sound_of_classifySchemaChange haccepted haccepted' hwf hwf'
    (Hashing.noCollision_of_ne (by decide +kernel)) hreads hclassify nofun
    (.obj [(lit "count", .int 5)]) valid_countedSchema

/-- A union of the closed objects without properties and with one. -/
def objectUnion : Members :=
  [(lit "anyOf", .arr [emptyObjectSchema, .obj [(lit "type", .str (lit "object")),
    (lit "additionalProperties", .bool false),
    (lit "properties", .obj [(lit "p", .obj [(lit "type", .str (lit "null"))])])]])]

/-- The union, with keywords beside it that allow no property. -/
def narrowedUnion : Members :=
  (lit "additionalProperties", .bool false) :: objectUnion ++ [(lit "type", .str (lit "object"))]

/-- SHA-256, on the documents of the unions. -/
def unionHashing : Hashing where
  writer := .plain
  sha256 document :=
    if document = JsonWriter.plain.render (Json.obj objectUnion).sorted then
      ⟨lit "c84d72515d702faec737f2f13301d4094f14a7a314dce890518eab3e7777bf28", by decide +kernel⟩
    else ⟨lit "38ae874e01579966544cd0f37ffef2569778fbfa6a7318467a1c66a9cdaca1a1", by decide +kernel⟩

/-- A release that adds keywords beside a union, which exclude a value, is judged
    non-breaking for the input. -/
theorem not_sound_of_classifySchemaChange :
    validateSchema unionHashing.writer {} (.obj objectUnion) (lit "input_schema") = .ok () ∧
      validateSchema unionHashing.writer {} (.obj narrowedUnion) (lit "input_schema") = .ok () ∧
      classifySchemaChange unionHashing 20 objectUnion narrowedUnion .input = some .nonBreaking ∧
      ¬ Preserves (fun _ _ => True) (.obj objectUnion) (.obj narrowedUnion)
        (.obj [(lit "p", .null)]) .input := by
  refine ⟨by decide +kernel, by decide +kernel, by decide +kernel, fun h => ?_⟩
  have hvalid : Valid (fun _ _ => True) (.obj objectUnion) (.obj objectUnion)
      (.obj [(lit "p", .null)]) := by
    refine valid_union.2 ⟨_, List.mem_cons_of_mem _ List.mem_cons_self, valid_obj.2 ?_⟩
    constructor
    case type =>
      intro t ht
      cases ht
      rfl
    case properties =>
      intro members hj ps hps m hm s hs
      cases hj
      cases hps
      cases List.mem_singleton.1 hm
      cases hs
      exact valid_type.2 rfl
    case additionalProperties =>
      intro members hj s _ m hm hno
      cases hj
      cases List.mem_singleton.1 hm
      exact nomatch hno _ rfl
    all_goals
      intros
      contradiction
  exact not_valid_false ((valid_obj.1 (h hvalid)).additionalProperties _ rfl _ rfl _
    List.mem_cons_self nofun)

end Schema

end McpRuntime
