import McpRuntime.Schema.Accepted
import McpRuntime.Schema.Presentation

/-!
# Compatibility is transitive

A chain of releases, each of which is judged identical or non-breaking, is
non-breaking end to end: the relation of accepted schemas that the comparison
decides is transitive (`superset_trans`), whatever mixture of references, unions
and typed schemas the three schemas are.

The induction is on the levels of the three schemas together: a union leads to
its variants, and three typed schemas lead to the subschemas of all three.
-/

namespace McpRuntime

namespace Schema

variable {c b a : Members}

/-! ## Keywords that constrain a value by themselves -/

theorem minimumIsWider_trans {key : Text} (h : minimumIsWider key c b = true)
    (h' : minimumIsWider key b a = true) : minimumIsWider key c a = true := by
  unfold minimumIsWider at *
  cases hc : numeric key c <;> cases hb : numeric key b <;> cases ha : numeric key a <;>
    simp_all
  exact h.trans h'

theorem maximumIsWider_trans {key : Text} (h : maximumIsWider key c b = true)
    (h' : maximumIsWider key b a = true) : maximumIsWider key c a = true := by
  unfold maximumIsWider at *
  cases hc : numeric key c <;> cases hb : numeric key b <;> cases ha : numeric key a <;>
    simp_all
  exact h'.trans h

/-- Lower bounds are compared by their numbers, then by what they include. -/
theorem lowerIsWider_some {n n' : ℚ} {inclusive inclusive' : Bool} :
    lowerIsWider (some (n, inclusive)) (some (n', inclusive')) = true ↔
      n < n' ∨ n = n' ∧ (inclusive' = true → inclusive = true) := by
  rw [lowerIsWider]
  split_ifs with hlt hgt
  · simp [hlt]
  · simp [hlt, hgt.ne']
  · have heq : n = n' := le_antisymm (not_lt.1 hgt) (not_lt.1 hlt)
    cases inclusive <;> cases inclusive' <;> simp [heq]

theorem upperIsWider_some {n n' : ℚ} {inclusive inclusive' : Bool} :
    upperIsWider (some (n, inclusive)) (some (n', inclusive')) = true ↔
      n' < n ∨ n = n' ∧ (inclusive' = true → inclusive = true) := by
  rw [upperIsWider]
  split_ifs with hgt hlt
  · simp [hgt.lt]
  · simp [hgt, hlt.ne]
  · have heq : n = n' := le_antisymm (not_lt.1 hgt) (not_lt.1 hlt)
    cases inclusive <;> cases inclusive' <;> simp [heq]

theorem lowerIsWider_trans {x y z : Option (ℚ × Bool)} (h : lowerIsWider x y = true)
    (h' : lowerIsWider y z = true) : lowerIsWider x z = true := by
  obtain _ | ⟨n, i⟩ := x
  · rfl
  obtain _ | ⟨n', i'⟩ := y
  · cases h
  obtain _ | ⟨n'', i''⟩ := z
  · cases h'
  rw [lowerIsWider_some] at h h' ⊢
  rcases h with h | ⟨rfl, hi⟩
  · rcases h' with h' | ⟨rfl, -⟩
    · exact .inl (h.trans h')
    · exact .inl h
  · exact h'.imp_right fun ⟨heq, hi'⟩ => ⟨heq, hi ∘ hi'⟩

theorem upperIsWider_trans {x y z : Option (ℚ × Bool)} (h : upperIsWider x y = true)
    (h' : upperIsWider y z = true) : upperIsWider x z = true := by
  obtain _ | ⟨n, i⟩ := x
  · rfl
  obtain _ | ⟨n', i'⟩ := y
  · cases h
  obtain _ | ⟨n'', i''⟩ := z
  · cases h'
  rw [upperIsWider_some] at h h' ⊢
  rcases h with h | ⟨rfl, hi⟩
  · rcases h' with h' | ⟨rfl, -⟩
    · exact .inl (h'.trans h)
    · exact .inl h
  · exact h'.imp_right fun ⟨heq, hi'⟩ => ⟨heq, hi ∘ hi'⟩

theorem allowsEveryValue_trans (h : allowsEveryValue c b = true)
    (h' : allowsEveryValue b a = true) : allowsEveryValue c a = true := by
  rw [allowsEveryValue_iff] at *
  intro values hvalues
  obtain ⟨values', hvalues', hall⟩ := h values hvalues
  obtain ⟨values'', hvalues'', hall'⟩ := h' values' hvalues'
  refine ⟨values'', hvalues'', fun value hvalue => ?_⟩
  obtain ⟨value', hvalue', heq'⟩ := hall' value hvalue
  obtain ⟨allowed, hallowed, heq⟩ := hall value' hvalue'
  exact ⟨allowed, hallowed, Json.equalWith_trans heq' heq⟩

theorem sameUnknownConstraints_trans (h : sameUnknownConstraints c b = true)
    (h' : sameUnknownConstraints b a = true) : sameUnknownConstraints c a = true := by
  rw [sameUnknownConstraints_iff] at *
  exact fun key hnote hknown =>
    Json.equalWith_trans (h key hnote hknown) (h' key hnote hknown)

theorem stringIsSuperset_trans (h : stringIsSuperset c b = true)
    (h' : stringIsSuperset b a = true) : stringIsSuperset c a = true := by
  simp only [stringIsSuperset, Bool.and_eq_true, Bool.or_eq_true] at *
  obtain ⟨⟨hmin, hmax⟩, hformat⟩ := h
  obtain ⟨⟨hmin', hmax'⟩, hformat'⟩ := h'
  refine ⟨⟨minimumIsWider_trans hmin hmin', maximumIsWider_trans hmax hmax'⟩, ?_⟩
  rcases hformat with hnull | heq
  · exact .inl hnull
  · exact hformat'.imp (Json.equalWith_trans heq) (Json.equalWith_trans heq)

theorem numberIsSuperset_trans (h : numberIsSuperset c b = true)
    (h' : numberIsSuperset b a = true) : numberIsSuperset c a = true := by
  unfold numberIsSuperset at *
  rw [Bool.and_eq_true, Bool.and_eq_true] at *
  refine ⟨⟨lowerIsWider_trans h.1.1 h'.1.1, upperIsWider_trans h.1.2 h'.1.2⟩, ?_⟩
  replace h := h.2
  replace h' := h'.2
  cases hc : numeric (lit "multipleOf") c <;> cases hb : numeric (lit "multipleOf") b <;>
    cases ha : numeric (lit "multipleOf") a <;> simp_all

theorem propertyNamesAreWider_trans (h : propertyNamesAreWider c b = true)
    (h' : propertyNamesAreWider b a = true) : propertyNamesAreWider c a = true := by
  unfold propertyNamesAreWider at *
  split at h
  · next hnull => rw [hnull]
  · next names names' hnames hnames' =>
    rw [hnames'] at h'
    cases hnames'' : Json.pyGet (lit "propertyNames") a with
    | obj names'' =>
      rw [hnames'', Bool.and_eq_true] at h'
      rw [Bool.and_eq_true] at h
      rw [hnames, Bool.and_eq_true]
      exact ⟨minimumIsWider_trans h.1 h'.1, maximumIsWider_trans h.2 h'.2⟩
    | null | bool | int | float | str | arr =>
      rw [hnames''] at h'
      cases h'
  · cases h

/-! ## Nodes of an accepted schema -/

variable {policy : SchemaPolicy} {definitions root schema s : Members} {child : Json → Prop}
  {room : ℕ}

/-- The keywords of the type of a node. -/
theorem Node.typedNode (hn : Node policy definitions child schema) {schemaType : Text}
    (htype : Json.pyGet (lit "type") schema = .str schemaType) :
    TypedNode policy child schemaType schema := by
  rcases hn.typed with ⟨hnull, -⟩ | ⟨t, ht, htyped⟩
  · cases hnull.symm.trans htype
  · rw [Json.pyGet, ht] at htype
    cases htype
    exact htyped

/-- What an accepted schema resolves to is accepted, and no reference. -/
theorem accepted_of_resolveFrom {fuel : ℕ} {stack : List Text}
    (haccepted : Accepted policy (definitionsOf (.obj root)) room (.obj schema))
    (hs : resolveFrom root fuel stack schema = some s) :
    Accepted policy (definitionsOf (.obj root)) room (.obj s) ∧
      Json.pyGet (lit "$ref") s = .null := by
  induction fuel generalizing room schema stack with
  | zero =>
    rcases resolveFrom_eq_some.1 hs with ⟨hnull, rfl⟩ | ⟨_, _, _, _, hfuel, _⟩
    · exact ⟨haccepted, hnull⟩
    · cases hfuel
  | succ fuel ih =>
    rcases resolveFrom_eq_some.1 hs with ⟨hnull, rfl⟩ |
      ⟨name, _, definitions, target, hfuel, href, -, -, hdefinitions, htarget, hs⟩
    · exact ⟨haccepted, hnull⟩
    · cases hfuel
      cases room with
      | zero => exact haccepted.elim
      | succ room =>
        rcases Node.ref haccepted with hnull | ⟨name', target', href', htarget', hchild⟩
        · cases hnull.symm.trans href
        · rw [Json.pyGet, href'] at href
          obtain rfl := List.append_cancel_left (Json.str.inj href)
          have hof : definitionsOf (.obj root) = definitions := by
            rw [definitionsOf, get_obj hdefinitions]
          rw [hof] at htarget'
          cases (get_obj htarget).symm.trans htarget'
          exact (ih hchild hs).imp_left fun h => h.mono (Nat.le_succ _)

theorem resolve_of_null (h : Json.pyGet (lit "$ref") schema = .null) :
    resolve root schema = some schema :=
  resolveFrom_eq_some.2 (.inl ⟨h, rfl⟩)

/-- A reference leads to no reference. -/
theorem resolve_idem (h : resolve root schema = some s) : resolve root s = some s := by
  have hnull {fuel : ℕ} {stack : List Text} {schema : Members}
      (h : resolveFrom root fuel stack schema = some s) : Json.pyGet (lit "$ref") s = .null := by
    induction fuel generalizing stack schema with
    | zero =>
      rcases resolveFrom_eq_some.1 h with ⟨hnull, rfl⟩ | ⟨_, _, _, _, hfuel, _⟩
      · exact hnull
      · cases hfuel
    | succ fuel ih =>
      rcases resolveFrom_eq_some.1 h with ⟨hnull, rfl⟩ | ⟨_, _, _, _, hfuel, _, _, _, _, _, h⟩
      · exact hnull
      · cases hfuel
        exact ih h
  exact resolve_of_null (hnull h)

/-- The variants of an accepted schema are accepted, with a level less unless the
    only variant is the schema itself. -/
theorem accepted_variants {variants : List Members}
    (haccepted : Accepted policy definitions room (.obj schema))
    (hvariants : variantList schema = some variants) :
    ∃ room' ≤ room, (Json.pyGet (lit "anyOf") schema ≠ .null → room' < room) ∧
      ∀ v ∈ variants, Accepted policy definitions room' (.obj v) := by
  cases room with
  | zero => exact haccepted.elim
  | succ room =>
    rcases variantList_eq_some.1 hvariants with ⟨hmissing, rfl⟩ | ⟨harr, -⟩
    · exact ⟨room + 1, le_rfl, fun hne => (hne hmissing).elim,
        fun v hv => List.mem_singleton.1 hv ▸ haccepted⟩
    · refine ⟨room, Nat.le_succ _, fun _ => Nat.lt_succ_self _, fun v hv => ?_⟩
      rcases Node.anyOf haccepted with hmissing | ⟨values, hvalues, -, hall⟩
      · cases hmissing.symm.trans harr
      · cases (get_of_pyGet harr nofun).symm.trans hvalues
        exact hall _ (List.mem_map_of_mem hv)

/-- The variants of an accepted schema without a reference are accepted, with a
    level less if it is a union. -/
theorem accepted_of_variantList {variants : List Members}
    (haccepted : Accepted policy definitions room (.obj schema))
    (hnull : Json.get (lit "anyOf") schema ≠ some .null)
    (hvariants : variantList schema = some variants) :
    ∃ room' ≤ room, ((Json.get (lit "anyOf") schema).isSome → room' < room) ∧
      ∀ v ∈ variants, Accepted policy definitions room' (.obj v) := by
  obtain ⟨room', hle, hlt, hall⟩ := accepted_variants haccepted hvariants
  refine ⟨room', hle, fun hsome => hlt fun hmissing => ?_, hall⟩
  obtain ⟨j, hget⟩ := Option.isSome_iff_exists.1 hsome
  exact hnull (hget.trans (congrArg some (get_ne_of_pyGet_null hmissing hget)))

/-- A schema that is no union is its only variant. -/
theorem variantList_of_leaf (h : Json.get (lit "anyOf") schema = none) :
    variantList schema = some [schema] :=
  variantList_eq_some.2 (.inl ⟨by rw [Json.pyGet, h]; rfl, rfl⟩)

/-- An object schema is a mapping or a closed object. -/
def Shape (policy : SchemaPolicy) (child : Json → Prop) (schema : Members) : Prop :=
  Mapping policy child schema ∨ ∃ properties, Closed policy child schema properties

/-- What the shape of an object schema says about other properties. -/
theorem Shape.additional (h : Shape policy child schema) :
    Json.pyGet (lit "additionalProperties") schema = .bool false ∨
      ∃ s, Json.pyGet (lit "additionalProperties") schema = .obj s ∧ child (.obj s) ∧
        Json.pyGet (lit "properties") schema = .null := by
  rcases h with hmapping | ⟨properties, hclosed⟩
  · obtain ⟨s, hs, hchild⟩ := hmapping.additional
    refine .inr ⟨s, ?_, hchild, hmapping.properties⟩
    rw [Json.pyGet, hs]
    rfl
  · left
    rw [Json.pyGet, hclosed.additional]
    rfl

/-- Where the schema of a property comes from. -/
theorem propertySchema_eq_some {name : Text} (h : propertySchema schema name = some s) :
    (∃ properties, Json.pyGet (lit "properties") schema = .obj properties ∧
      Json.pyGet name properties = .obj s) ∨
      Json.pyGet (lit "additionalProperties") schema = .obj s := by
  rw [propertySchema] at h
  split at h
  · next value hvalue =>
    cases h
    obtain ⟨properties, hproperties, hs⟩ := Option.bind_eq_some_iff.1 hvalue
    exact .inl ⟨properties, asMapping_eq_some.1 hproperties, asMapping_eq_some.1 hs⟩
  · exact .inr (asMapping_eq_some.1 h)

/-- The schema of a property has a level less. -/
theorem Shape.child_of_propertySchema (h : Shape policy child schema) {name : Text}
    (hs : propertySchema schema name = some s) : child (.obj s) := by
  rcases propertySchema_eq_some hs with ⟨properties, hproperties, hs⟩ | hadditional
  · rcases h with hmapping | ⟨properties', hclosed⟩
    · cases hmapping.properties.symm.trans hproperties
    · rcases hclosed.declared with ⟨hnull, -⟩ | hdeclared
      · cases hnull.symm.trans hproperties
      · cases (get_of_pyGet hproperties nofun).symm.trans hdeclared
        exact hclosed.children _ (Json.mem_of_get (get_of_pyGet hs nofun))
  · rcases h.additional with hfalse | ⟨s', hs', hchild, -⟩
    · cases hfalse.symm.trans hadditional
    · cases hs'.symm.trans hadditional
      exact hchild

/-- The declared properties of an object schema have a level less. -/
theorem Shape.child_of_declared (h : Shape policy child schema)
    {properties : List (Text × Members)} (hproperties : declaredProperties schema = some properties)
    {m : Text × Members} (hm : m ∈ properties) : child (.obj m.2) := by
  rw [declaredProperties_eq_some] at hproperties
  have hmem : (m.1, Json.obj m.2) ∈ properties.map fun m => (m.1, .obj m.2) :=
    List.mem_map.2 ⟨m, hm, rfl⟩
  cases hget : Json.get (lit "properties") schema with
  | none =>
    rw [hget] at hproperties
    cases properties with
    | nil => cases hm
    | cons m' properties => cases hproperties
  | some j =>
    rw [hget] at hproperties
    rcases h with hmapping | ⟨properties', hclosed⟩
    · have hnull := get_ne_of_pyGet_null hmapping.properties hget
      cases hnull.symm.trans hproperties
    · rcases hclosed.declared with ⟨hnull, -⟩ | hdeclared
      · have hnull := get_ne_of_pyGet_null hnull hget
        cases hnull.symm.trans hproperties
      · cases hget.symm.trans (hdeclared)
        obtain rfl := Json.obj.inj hproperties
        exact hclosed.children _ hmem

/-! ## Three nodes -/

section

variable {policy' policy'' : SchemaPolicy} {child' child'' : Json → Prop}
  {R R' R'' : Members → Members → Prop}

/-- Two relations of subschemas compose to a third. -/
def Composes (child child' child'' : Json → Prop) (R R' R'' : Members → Members → Prop) : Prop :=
  ∀ x y z, child (.obj x) → child' (.obj y) → child'' (.obj z) → R x y → R' y z → R'' x z

/-- The schemas of a property are related when the object schemas are. -/
theorem ObjectSuperset.propertySchema (hc : Shape policy child c)
    (ho : ObjectSuperset R c b) {name : Text} {t : Members}
    (ht : propertySchema b name = some t) : ∃ s, propertySchema c name = some s ∧ R s t := by
  rcases propertySchema_eq_some ht with ⟨properties, hproperties, ht⟩ | hadditional
  · -- a declared property
    obtain ⟨declared, hdeclared, hall⟩ := ho.properties
    have hmembers := declaredProperties_eq_some.1 hdeclared
    rw [get_of_pyGet hproperties nofun] at hmembers
    have hmem := Json.mem_of_get (get_of_pyGet ht nofun)
    rw [Json.obj.inj hmembers] at hmem
    obtain ⟨m, hm, heq⟩ := List.mem_map.1 hmem
    cases heq
    exact hall m hm
  · -- the schema of the other properties
    have h := ho.additional
    rw [hadditional] at h
    rcases hc.additional with hfalse | ⟨s, hs, -, hnull⟩
    · rw [hfalse] at h
      exact h.elim
    · rw [hs] at h
      refine ⟨s, ?_, h⟩
      rw [Schema.propertySchema, hnull, hs]
      rfl

theorem AdditionalSuperset.trans (hR : Composes child child' child'' R R' R'')
    (hc : Shape policy child c) (hb : Shape policy' child' b) (ha : Shape policy'' child'' a)
    (h : AdditionalSuperset R (Json.pyGet (lit "additionalProperties") c)
      (Json.pyGet (lit "additionalProperties") b))
    (h' : AdditionalSuperset R' (Json.pyGet (lit "additionalProperties") b)
      (Json.pyGet (lit "additionalProperties") a)) :
    AdditionalSuperset R'' (Json.pyGet (lit "additionalProperties") c)
      (Json.pyGet (lit "additionalProperties") a) := by
  rcases ha.additional with ha | ⟨z, ha, hz, -⟩
  · rw [ha]
    trivial
  · rcases hb.additional with hb | ⟨y, hb, hy, -⟩
    · rw [hb, ha] at h'
      exact h'.elim
    · rcases hc.additional with hc | ⟨x, hc, hx, -⟩
      · rw [hc, hb] at h
        exact h.elim
      · rw [hc, hb] at h
        rw [hb, ha] at h'
        rw [hc, ha]
        exact hR x y z hx hy hz h h'

theorem ObjectSuperset.trans (hR : Composes child child' child'' R R' R'')
    (hc : Shape policy child c) (hb : Shape policy' child' b) (ha : Shape policy'' child'' a)
    (h : ObjectSuperset R c b) (h' : ObjectSuperset R' b a) : ObjectSuperset R'' c a where
  required := by
    obtain ⟨names, names', hnames, hnames', hsub⟩ := h.required
    obtain ⟨names₁, names'', hnames₁, hnames'', hsub'⟩ := h'.required
    cases hnames'.symm.trans hnames₁
    exact ⟨names, names'', hnames, hnames'', fun name hname => hsub' name (hsub name hname)⟩
  declared := h.declared
  properties := by
    obtain ⟨properties, hproperties, hall⟩ := h'.properties
    refine ⟨properties, hproperties, fun m hm => ?_⟩
    obtain ⟨t, ht, hchild'⟩ := hall m hm
    obtain ⟨s, hs, hchild⟩ := h.propertySchema hc ht
    exact ⟨s, hs, hR s t m.2 (hc.child_of_propertySchema hs) (hb.child_of_propertySchema ht)
      (ha.child_of_declared hproperties hm) hchild hchild'⟩
  additional := h.additional.trans hR hc hb ha h'.additional
  minProperties := minimumIsWider_trans h.minProperties h'.minProperties
  maxProperties := maximumIsWider_trans h.maxProperties h'.maxProperties
  propertyNames := propertyNamesAreWider_trans h.propertyNames h'.propertyNames

theorem ArraySuperset.trans (hR : Composes child child' child'' R R' R'')
    (hc : TypedNode policy child (lit "array") c) (hb : TypedNode policy' child' (lit "array") b)
    (ha : TypedNode policy'' child'' (lit "array") a) (h : ArraySuperset R c b)
    (h' : ArraySuperset R' b a) : ArraySuperset R'' c a where
  items := by
    have hitems {policy : SchemaPolicy} {child : Json → Prop} {schema s : Members}
        (hn : TypedNode policy child (lit "array") schema)
        (hs : Json.pyGet (lit "items") schema = .obj s) : child (.obj s) := by
      obtain ⟨-, s', hs', hchild⟩ := hn.array rfl
      cases (get_of_pyGet hs nofun).symm.trans hs'
      exact hchild
    obtain ⟨x, y, hx, hy, hchild⟩ := h.items
    obtain ⟨y', z, hy', hz, hchild'⟩ := h'.items
    cases hy.symm.trans hy'
    exact ⟨x, z, hx, hz, hR x y z (hitems hc hx) (hitems hb hy) (hitems ha hz) hchild hchild'⟩
  minItems := minimumIsWider_trans h.minItems h'.minItems
  maxItems := maximumIsWider_trans h.maxItems h'.maxItems
  uniqueItems := h'.uniqueItems ∘ h.uniqueItems

/-- The types of related schemas are the same, but for numbers. -/
theorem TypedSuperset.type_eq (h : TypedSuperset R c b) {t : Text}
    (htype : Json.pyGet (lit "type") c = .str t) (hne : t ≠ lit "number") :
    Json.pyGet (lit "type") b = .str t := by
  obtain ⟨t₁, t', ht, ht', hor⟩ := h.type
  cases ht.symm.trans htype
  rcases hor with rfl | ⟨hnumber, -⟩
  · exact ht'
  · exact absurd hnumber hne

theorem TypedSuperset.trans {definitions' definitions'' : Members}
    (hR : Composes child child' child'' R R' R'') (hc : Node policy definitions child c)
    (hb : Node policy' definitions' child' b) (ha : Node policy'' definitions'' child'' a)
    (h : TypedSuperset R c b) (h' : TypedSuperset R' b a) : TypedSuperset R'' c a where
  type := by
    obtain ⟨t, t', ht, ht', hor⟩ := h.type
    obtain ⟨t₁, t'', ht₁, ht'', hor'⟩ := h'.type
    cases ht'.symm.trans ht₁
    refine ⟨t, t'', ht, ht'', ?_⟩
    rcases hor with rfl | ⟨rfl, rfl⟩
    · exact hor'
    · exact .inr ⟨rfl, hor'.elim Eq.symm And.right⟩
  values := allowsEveryValue_trans h.values h'.values
  unknown := sameUnknownConstraints_trans h.unknown h'.unknown
  string htype := stringIsSuperset_trans (h.string htype) (h'.string (h.type_eq htype (by decide)))
  number htype := by
    obtain ⟨t, t', ht, ht', hor⟩ := h.type
    refine numberIsSuperset_trans (h.number htype) (h'.number ?_)
    rw [ht, Json.str.injEq, Json.str.injEq] at htype
    rw [ht', Json.str.injEq, Json.str.injEq]
    rcases hor with rfl | ⟨-, hinteger⟩
    · exact htype
    · exact .inl hinteger
  array htype := by
    have htype' := h.type_eq htype (by decide)
    have htype'' := h'.type_eq htype' (by decide)
    exact (h.array htype).trans hR (hc.typedNode htype) (hb.typedNode htype')
      (ha.typedNode htype'') (h'.array htype')
  object htype := by
    have htype' := h.type_eq htype (by decide)
    have htype'' := h'.type_eq htype' (by decide)
    exact (h.object htype).trans hR ((hc.typedNode htype).object rfl)
      ((hb.typedNode htype').object rfl) ((ha.typedNode htype'').object rfl) (h'.object htype')

end

/-! ## The relation -/

variable {croot broot aroot : Members} {policy' policy'' : SchemaPolicy}

/-- Related schemas have no `anyOf` that is null: it would be compared with
    itself for ever. -/
theorem anyOf_of_superset (h : Superset croot broot c b) :
    (∀ s, resolve croot c = some s → Json.get (lit "anyOf") s ≠ some .null) ∧
      ∀ t, resolve broot b = some t → Json.get (lit "anyOf") t ≠ some .null := by
  refine superset_induction (R := fun c b =>
    (∀ s, resolve croot c = some s → Json.get (lit "anyOf") s ≠ some .null) ∧
      ∀ t, resolve broot b = some t → Json.get (lit "anyOf") t ≠ some .null) (fun c b hstep => ?_) h
  obtain ⟨s, t, hs, ht, hr⟩ := hstep
  obtain ⟨variants, variants', hv, hv', hall⟩ := hr.variants
  refine ⟨fun s₁ hs₁ hnull => ?_, fun t₁ ht₁ hnull => ?_⟩
  · cases hs.symm.trans hs₁
    have hmissing : Json.pyGet (lit "anyOf") s = .null := by rw [Json.pyGet, hnull]; rfl
    have hv₁ := variantList_eq_some.2 (.inl ⟨hmissing, rfl⟩)
    cases hv.symm.trans hv₁
    obtain ⟨v', hmem'⟩ : ∃ v', v' ∈ variants' := by
      rcases variantList_eq_some.1 hv' with ⟨-, rfl⟩ | ⟨-, hne⟩
      · exact ⟨t, List.mem_singleton_self t⟩
      · exact List.exists_mem_of_ne_nil _ hne
    obtain ⟨v, hmem, hchild, -⟩ := hall (.inl (by rw [hnull]; rfl)) v' hmem'
    rw [List.mem_singleton.1 hmem] at hchild
    exact hchild.1 s (resolve_idem hs) hnull
  · cases ht.symm.trans ht₁
    have hmissing : Json.pyGet (lit "anyOf") t = .null := by rw [Json.pyGet, hnull]; rfl
    have hv₁ := variantList_eq_some.2 (.inl ⟨hmissing, rfl⟩)
    cases hv'.symm.trans hv₁
    obtain ⟨v, -, hchild, -⟩ := hall (.inr (by rw [hnull]; rfl)) t (List.mem_singleton_self t)
    exact hchild.2 t (resolve_idem ht) hnull

/-- Each variant of the baseline is covered by a variant of the candidate,
    whether they are unions or not. -/
theorem covers_of_superset (h : Superset croot broot c b) {s t : Members}
    (hs : resolve croot c = some s) (ht : resolve broot b = some t) :
    ∃ variants variants', variantList s = some variants ∧ variantList t = some variants' ∧
      ∀ v' ∈ variants', ∃ v ∈ variants, Superset croot broot v v' := by
  have hnull := anyOf_of_superset h
  obtain ⟨s₁, t₁, hs₁, ht₁, hr⟩ := superset_iff.1 h
  cases hs.symm.trans hs₁
  cases ht.symm.trans ht₁
  obtain ⟨variants, variants', hv, hv', hall⟩ := hr.variants
  refine ⟨variants, variants', hv, hv', ?_⟩
  by_cases hany : (Json.get (lit "anyOf") s).isSome ∨ (Json.get (lit "anyOf") t).isSome
  · exact hall hany
  · rw [not_or, Option.not_isSome_iff_eq_none, Option.not_isSome_iff_eq_none] at hany
    cases hv.symm.trans (variantList_of_leaf hany.1)
    cases hv'.symm.trans (variantList_of_leaf hany.2)
    intro v' hv'
    rw [List.mem_singleton.1 hv']
    exact ⟨s, List.mem_singleton_self s, superset_iff.2 ⟨s, t, resolve_idem hs, resolve_idem ht, hr⟩⟩

/-- The relation of accepted schemas is transitive. -/
theorem superset_trans {n roomC roomB roomA : ℕ} (hn : roomC + roomB + roomA ≤ n)
    (hc : Accepted policy (definitionsOf (.obj croot)) roomC (.obj c))
    (hb : Accepted policy' (definitionsOf (.obj broot)) roomB (.obj b))
    (ha : Accepted policy'' (definitionsOf (.obj aroot)) roomA (.obj a))
    (h : Superset croot broot c b) (h' : Superset broot aroot b a) : Superset croot aroot c a := by
  induction n generalizing roomC roomB roomA c b a with
  | zero =>
    obtain rfl : roomC = 0 := by omega
    exact hc.elim
  | succ n ih =>
    obtain ⟨s, t, hs, ht, hr⟩ := superset_iff.1 h
    obtain ⟨t₁, u, ht₁, hu, hr'⟩ := superset_iff.1 h'
    cases ht.symm.trans ht₁
    obtain ⟨hc, -⟩ := accepted_of_resolveFrom hc hs
    obtain ⟨hb, -⟩ := accepted_of_resolveFrom hb ht
    obtain ⟨ha, -⟩ := accepted_of_resolveFrom ha hu
    obtain ⟨vs, vt, hvs, hvt, hcovers⟩ := covers_of_superset h hs ht
    obtain ⟨vt₁, vu, hvt₁, hvu, hcovers'⟩ := covers_of_superset h' ht hu
    cases hvt.symm.trans hvt₁
    obtain ⟨rs, hrs, hlts, halls⟩ :=
      accepted_of_variantList hc ((anyOf_of_superset h).1 s hs) hvs
    obtain ⟨rt, hrt, hltt, hallt⟩ :=
      accepted_of_variantList hb ((anyOf_of_superset h).2 t ht) hvt
    obtain ⟨ru, hru, hltu, hallu⟩ :=
      accepted_of_variantList ha ((anyOf_of_superset h').2 u hu) hvu
    by_cases hany : (Json.get (lit "anyOf") s).isSome ∨ (Json.get (lit "anyOf") t).isSome ∨
        (Json.get (lit "anyOf") u).isSome
    · -- a union among the three: its variants have a level less
      have hle : rs + rt + ru ≤ n := by
        rcases hany with hany | hany | hany
        · have := hlts hany
          omega
        · have := hltt hany
          omega
        · have := hltu hany
          omega
      have hall : ∀ w ∈ vu, ∃ v ∈ vs, Superset croot aroot v w := by
        intro w hw
        obtain ⟨v', hv', hvw⟩ := hcovers' w hw
        obtain ⟨v, hv, hvv⟩ := hcovers v' hv'
        exact ⟨v, hv, ih hle (halls v hv) (hallt v' hv') (hallu w hw) hvv hvw⟩
      refine superset_iff.2 ⟨s, u, hs, hu, ⟨vs, vu, hvs, hvu, fun _ => hall⟩, fun hnone hnone' => ?_⟩
      -- only the middle schema is a union
      cases hvs.symm.trans (variantList_of_leaf hnone)
      cases hvu.symm.trans (variantList_of_leaf hnone')
      obtain ⟨v, hv, hsu⟩ := hall u (List.mem_singleton_self u)
      rw [List.mem_singleton.1 hv] at hsu
      obtain ⟨s₁, u₁, hs₁, hu₁, hr''⟩ := superset_iff.1 hsu
      cases hs₁.symm.trans (resolve_idem hs)
      cases hu₁.symm.trans (resolve_idem hu)
      exact hr''.typed hnone hnone'
    · -- three typed schemas
      simp only [not_or, Option.not_isSome_iff_eq_none] at hany
      obtain ⟨hnones, hnonet, hnoneu⟩ := hany
      refine superset_iff.2 ⟨s, u, hs, hu, ⟨vs, vu, hvs, hvu, fun hany => ?_⟩, fun _ _ => ?_⟩
      · rw [hnones, hnoneu] at hany
        exact absurd hany (by decide)
      · cases roomC with
        | zero => exact hc.elim
        | succ roomC =>
          cases roomB with
          | zero => exact hb.elim
          | succ roomB =>
            cases roomA with
            | zero => exact ha.elim
            | succ roomA =>
              refine (hr.typed hnones hnonet).trans (fun x y z hx hy hz hxy hyz => ?_) hc hb ha
                (hr'.typed hnonet hnoneu)
              exact ih (by omega) hx hy hz hxy hyz

/-! ## A chain of releases -/

variable {first second third : Members} {direction : SchemaDirection}

/-- Compatibility is transitive on accepted schemas. -/
theorem compatible_trans {n roomA roomB roomC : ℕ} (hn : roomC + roomB + roomA ≤ n)
    (ha : Accepted policy (definitionsOf (.obj first)) roomA (.obj first))
    (hb : Accepted policy' (definitionsOf (.obj second)) roomB (.obj second))
    (hc : Accepted policy'' (definitionsOf (.obj third)) roomC (.obj third))
    (h : Compatible first second direction) (h' : Compatible second third direction) :
    Compatible first third direction := by
  cases direction with
  | input => exact superset_trans hn hc hb ha h' h
  | output => exact superset_trans (n := n) (by omega) ha hb hc h h'

/-- Compatibility does not depend on how the schemas are presented. -/
theorem Compatible.of_presents {first' second' : Members} (hfirst : Presents first first')
    (hsecond : Presents second second') (h : Compatible first second direction) :
    Compatible first' second' direction := by
  cases direction with
  | input => exact Superset.of_presents hsecond hfirst hsecond hfirst h
  | output => exact Superset.of_presents hfirst hsecond hfirst hsecond h

/-- Schemas that are the same have one fingerprint. -/
theorem fingerprint_eq_of_same {hashing : Hashing} {a b : Json} {digest digest' : Text}
    (hsame : a.Same b) (ha : hashing.fingerprint a = some digest)
    (hb : hashing.fingerprint b = some digest') : digest = digest' := by
  obtain ⟨s, hs, ha⟩ := Option.bind_eq_some_iff.1 ha
  obtain ⟨t, ht, hb⟩ := Option.bind_eq_some_iff.1 hb
  rw [JsonWriter.dumps] at hs ht
  split_ifs at hs ht
  rw [← Option.some.inj hs, hsame, Option.some.inj ht] at ha
  exact Option.some.inj (ha.symm.trans hb)

/-- The change from the first to the third of accepted schemas is not breaking
    when those from the first to the second and from there to the third are not. -/
theorem classifySchemaChange_trans {hashing : Hashing} {depth : ℕ} {path : Text}
    {change change' : SchemaChange}
    (ha : validateSchema hashing.writer policy (.obj first) path = .ok ())
    (hb : validateSchema hashing.writer policy' (.obj second) path = .ok ())
    (hc : validateSchema hashing.writer policy'' (.obj third) path = .ok ())
    (hwfa : (Json.obj first).WellFormed) (hwfb : (Json.obj second).WellFormed)
    (hwfc : (Json.obj third).WellFormed)
    (hab : hashing.NoCollision (.obj first) (.obj second))
    (hbc : hashing.NoCollision (.obj second) (.obj third))
    (hbudget : hashing.fingerprint (.obj first) ≠ hashing.fingerprint (.obj third) →
      WithinBudget depth first third direction)
    (h : classifySchemaChange hashing depth first second direction = some change)
    (hchange : change ≠ .breaking)
    (h' : classifySchemaChange hashing depth second third direction = some change')
    (hchange' : change' ≠ .breaking) :
    ∃ change'', classifySchemaChange hashing depth first third direction = some change'' ∧
      change'' ≠ .breaking := by
  obtain ⟨digest, _, hfirst, -⟩ := classifySchemaChange_eq_some.1 h
  obtain ⟨_, digest', -, hthird, -⟩ := classifySchemaChange_eq_some.1 h'
  rw [hfirst, hthird, Ne, Option.some.injEq] at hbudget
  refine classify_of_compatible hfirst hthird hbudget ?_
  rcases same_or_compatible h hchange hab with hsame | ⟨-, -, hcompatible⟩
  · rcases same_or_compatible h' hchange' hbc with hsame' | ⟨-, -, hcompatible'⟩
    · exact .inl (fingerprint_eq_of_same (hsame.trans hsame') hfirst hthird)
    · exact .inr (hcompatible'.of_presents ⟨hwfb, hwfa, hsame.symm⟩ ⟨hwfc, hwfc, rfl⟩)
  · rcases same_or_compatible h' hchange' hbc with hsame' | ⟨-, -, hcompatible'⟩
    · exact .inr (hcompatible.of_presents ⟨hwfa, hwfa, rfl⟩ ⟨hwfb, hwfc, hsame'⟩)
    · exact .inr (compatible_trans le_rfl (accepted_of_validateSchema ha).1
        (accepted_of_validateSchema hb).1 (accepted_of_validateSchema hc).1 hcompatible hcompatible')

/-- A closed object with at most `n` properties. -/
def closedSchema (n : ℕ) : Members :=
  [(lit "additionalProperties", .bool false), (lit "maxProperties", .int n),
    (lit "type", .str (lit "object"))]

theorem wellFormed_closedSchema (n : ℕ) : (Json.obj (closedSchema n)).WellFormed := by
  have hkeys : (closedSchema n).map Prod.fst =
      [lit "additionalProperties", lit "maxProperties", lit "type"] := rfl
  rw [Json.wellFormed_obj, hkeys]
  exact ⟨by decide, by simp [closedSchema, Json.WellFormed]⟩

/-- The canonical texts of three releases with their SHA-256 digests. -/
def releaseTable : List (Text × Digest) :=
  let document (n : ℕ) : Text := JsonWriter.plain.render (.obj (closedSchema n))
  [(document 1, ⟨lit "9423a06502603c4701c66e9357a54ac4a7b99fa29349c47c8d671b2e8386fbc3", by decide +kernel⟩),
    (document 2, ⟨lit "51ee66e990356ff154a0170c51a8f440184f223d80cc2b3e1e9f2ff4d733ea94", by decide +kernel⟩),
    (document 3, ⟨lit "ca04ed8ffa6a211b620093c4cc05e16a358d64276430d8bb5d08ecb68b981c3b", by decide +kernel⟩)]

/-- SHA-256, on the documents of the releases. -/
def releaseHashing : Hashing where
  writer := .plain
  sha256 document := (releaseTable.lookup document).getD ⟨List.replicate 64 48, isDigest_zeros⟩

/-- Two releases that each allow a property more are non-breaking for the input,
    and so are both together. -/
theorem classifySchemaChange_trans_example :
    ∃ change, classifySchemaChange releaseHashing 20 (closedSchema 1) (closedSchema 3) .input =
      some change ∧ change ≠ .breaking := by
  have hvalid (n : ℕ) (h : n ∈ [1, 2, 3]) :
      validateSchema .plain {} (.obj (closedSchema n)) (lit "input_schema") = .ok () := by
    revert n
    decide +kernel
  have hab : classifySchemaChange releaseHashing 20 (closedSchema 1) (closedSchema 2) .input =
      some .nonBreaking := by decide +kernel
  have hbc : classifySchemaChange releaseHashing 20 (closedSchema 2) (closedSchema 3) .input =
      some .nonBreaking := by decide +kernel
  exact classifySchemaChange_trans (hvalid 1 (by decide)) (hvalid 2 (by decide))
    (hvalid 3 (by decide)) (wellFormed_closedSchema 1) (wellFormed_closedSchema 2)
    (wellFormed_closedSchema 3)
    (Hashing.noCollision_of_ne (by decide +kernel)) (Hashing.noCollision_of_ne (by decide +kernel))
    (fun _ => ⟨true, 9999, by decide +kernel, by decide +kernel⟩) hab nofun hbc nofun

end Schema

end McpRuntime
