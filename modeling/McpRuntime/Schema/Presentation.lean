import McpRuntime.Schema.Superset

/-!
# Presentations of a schema

The comparison of schemas does not depend on the order of their members: it has
the same verdict for schemas with the same canonical form, which is what the
fingerprint of a schema is taken of.

Every helper of the comparison gives presentations of one result for two
presentations of one schema (`Presents.resolve`, `Presents.variantList`,
`Presents.propertySchema` and so on), so the relation that it decides does:
`Superset.of_presents`.
-/

namespace McpRuntime

namespace Schema

/-- Two presentations of a mapping. -/
abbrev Presents (s s' : Members) : Prop := Json.Alike (.obj s) (.obj s')

variable {s s' t t' root root' : Members} {key name : Text}

/-- The mappings among values are presented by mappings. -/
theorem forall₂_presents {schemas : List Members} {values : List Json}
    (h : (schemas.map Json.obj).Forall₂ Json.Alike values) :
    ∃ schemas', values = schemas'.map .obj ∧ schemas.Forall₂ Presents schemas' := by
  induction schemas generalizing values with
  | nil =>
    cases h
    exact ⟨[], rfl, .nil⟩
  | cons schema schemas ih =>
    cases h with
    | cons hv ht =>
      obtain ⟨schema', rfl, hschema⟩ := Json.alike_obj hv
      obtain ⟨schemas', rfl, hschemas⟩ := ih ht
      exact ⟨schema' :: schemas', rfl, .cons hschema hschemas⟩

namespace Presents

theorem symm (h : Presents s s') : Presents s' s := Json.Alike.symm h

theorem obj (h : Presents s s') (hs : Json.pyGet key s = .obj t) :
    ∃ t', Json.pyGet key s' = .obj t' ∧ Presents t t' := by
  have halike := Json.Alike.pyGet h key
  rw [hs] at halike
  exact Json.alike_obj halike

theorem arr {items : List Json} (h : Presents s s') (hs : Json.pyGet key s = .arr items) :
    ∃ items', Json.pyGet key s' = .arr items' ∧ items.Forall₂ Json.Alike items' := by
  have halike := Json.Alike.pyGet h key
  rw [hs] at halike
  exact Json.alike_arr halike

theorem null (h : Presents s s') : Json.pyGet key s = .null ↔ Json.pyGet key s' = .null :=
  Json.Alike.pyGet_eq (f := true) h rfl

theorem str {text : Text} (h : Presents s s') :
    Json.pyGet key s = .str text ↔ Json.pyGet key s' = .str text :=
  Json.Alike.pyGet_eq (f := true) h rfl

theorem bool {b : Bool} (h : Presents s s') :
    Json.pyGet key s = .bool b ↔ Json.pyGet key s' = .bool b :=
  Json.Alike.pyGet_eq (f := true) h rfl

theorem isSome (h : Presents s s') : (Json.get key s).isSome = (Json.get key s').isSome := by
  cases hs : Json.get key s with
  | none => rw [Json.Alike.get_eq_none h hs]
  | some j =>
    obtain ⟨j', hj', -⟩ := Json.Alike.get h hs
    rw [hj']
    rfl

theorem asMapping {j j' : Json} (h : Json.Alike j j') :
    Option.Rel Presents (asMapping j) (asMapping j') := by
  cases j with
  | obj members =>
    obtain ⟨members', rfl, halike⟩ := Json.alike_obj h
    exact .some halike
  | arr items =>
    obtain ⟨items', rfl, -⟩ := Json.alike_arr h
    exact .none
  | null | bool | int | float | str =>
    rw [h.eq_of_scalar (f := true) rfl]
    exact .none

/-- What a schema resolves to has its presentations. -/
theorem resolveFrom (hroot : Presents root root') {fuel : ℕ} {stack : List Text}
    (h : Presents s s') (hs : resolveFrom root fuel stack s = some t) :
    ∃ t', resolveFrom root' fuel stack s' = some t' ∧ Presents t t' := by
  induction fuel generalizing s s' stack with
  | zero =>
    rcases resolveFrom_eq_some.1 hs with ⟨hnull, rfl⟩ | ⟨_, _, _, _, hfuel, _⟩
    · exact ⟨s', resolveFrom_eq_some.2 (.inl ⟨h.null.1 hnull, rfl⟩), h⟩
    · cases hfuel
  | succ fuel ih =>
    rcases resolveFrom_eq_some.1 hs with ⟨hnull, rfl⟩ |
      ⟨name, _, definitions, target, hfuel, href, hkeys, hstack, hdefinitions, htarget, hs⟩
    · exact ⟨s', resolveFrom_eq_some.2 (.inl ⟨h.null.1 hnull, rfl⟩), h⟩
    · cases hfuel
      obtain ⟨definitions', hdefinitions', hd⟩ := hroot.obj hdefinitions
      obtain ⟨target', htarget', ht⟩ := hd.obj htarget
      obtain ⟨t', hresolve, hpresents⟩ := ih ht hs
      refine ⟨t', resolveFrom_eq_some.2 (.inr ⟨name, fuel, definitions', target', rfl,
        h.str.1 href, fun m hm => ?_, hstack, hdefinitions', htarget', hresolve⟩), hpresents⟩
      obtain ⟨j, hj, -⟩ := Json.Alike.mem h.symm hm
      exact hkeys (m.1, j) hj

theorem resolve (hroot : Presents root root') (h : Presents s s')
    (hs : Schema.resolve root s = some t) :
    ∃ t', Schema.resolve root' s' = some t' ∧ Presents t t' := by
  have hlength : ((Schema.asMapping (Json.pyGet (lit "$defs") root)).getD []).length =
      ((Schema.asMapping (Json.pyGet (lit "$defs") root')).getD []).length := by
    have hdefinitions := asMapping (Json.Alike.pyGet hroot (lit "$defs"))
    generalize Schema.asMapping (Json.pyGet (lit "$defs") root) = x at hdefinitions ⊢
    generalize Schema.asMapping (Json.pyGet (lit "$defs") root') = x' at hdefinitions ⊢
    cases hdefinitions with
    | none => rfl
    | some hpresents => exact Json.Alike.length_eq hpresents
  rw [Schema.resolve] at hs ⊢
  rw [← hlength]
  exact resolveFrom hroot h hs

/-- The variants of a schema have presentations. -/
theorem variantList {variants : List Members} (h : Presents s s')
    (hs : variantList s = some variants) :
    ∃ variants', Schema.variantList s' = some variants' ∧ variants.Forall₂ Presents variants' := by
  rcases variantList_eq_some.1 hs with ⟨hnull, rfl⟩ | ⟨hvariants, hne⟩
  · exact ⟨[s'], variantList_eq_some.2 (.inl ⟨h.null.1 hnull, rfl⟩), .cons h .nil⟩
  · obtain ⟨values, hvalues, hforall⟩ := h.arr hvariants
    obtain ⟨variants', rfl, hpresents⟩ := forall₂_presents hforall
    refine ⟨variants', variantList_eq_some.2 (.inr ⟨hvalues, ?_⟩), hpresents⟩
    rintro rfl
    cases hpresents
    exact hne rfl

theorem allowedValues {values : List Json} (h : Presents s s')
    (hs : allowedValues s = some values) :
    ∃ values', Schema.allowedValues s' = some values' ∧ values.Forall₂ Json.Alike values' := by
  rw [Schema.allowedValues] at hs ⊢
  cases hconst : Json.get (lit "const") s with
  | some value =>
    rw [hconst] at hs
    cases hs
    obtain ⟨value', hvalue', halike⟩ := Json.Alike.get h hconst
    rw [hvalue']
    exact ⟨[value'], rfl, .cons halike .nil⟩
  | none =>
    rw [hconst] at hs
    rw [Json.Alike.get_eq_none h hconst]
    dsimp only at hs ⊢
    cases henum : Json.pyGet (lit "enum") s with
    | null =>
      rw [henum] at hs
      cases hs
    | arr items =>
      rw [henum] at hs
      cases hs
      obtain ⟨items', henum', hitems⟩ := h.arr henum
      rw [henum']
      exact ⟨items', rfl, hitems⟩
    | obj members =>
      rw [henum] at hs
      cases hs
      obtain ⟨members', henum', -⟩ := h.obj henum
      rw [henum']
      exact ⟨[], rfl, .nil⟩
    | bool | int | float | str =>
      have henum' := (Json.Alike.pyGet_eq (f := true) h rfl).1 henum
      rw [henum] at hs
      cases hs
      rw [henum']
      exact ⟨[], rfl, .nil⟩

theorem allowsEveryValue {c c' b b' : Members} (hc : Presents c c') (hb : Presents b b')
    (h : allowsEveryValue c b = true) : Schema.allowsEveryValue c' b' = true := by
  rw [allowsEveryValue_iff] at h ⊢
  intro values' hvalues'
  obtain ⟨values, hvalues, hforall⟩ := hc.symm.allowedValues hvalues'
  obtain ⟨baselineValues, hbaseline, hall⟩ := h values hvalues
  obtain ⟨baselineValues', hbaseline', hforall'⟩ := hb.allowedValues hbaseline
  refine ⟨baselineValues', hbaseline', fun value' hvalue' => ?_⟩
  obtain ⟨value, hvalue, halike⟩ := exists_of_forall₂ hforall'.flip hvalue'
  obtain ⟨allowed, hallowed, heq⟩ := hall value hvalue
  obtain ⟨allowed', hallowed', halike'⟩ := exists_of_forall₂ hforall.flip hallowed
  exact ⟨allowed', hallowed', (halike.equalWith_iff halike'.symm).1 heq⟩

theorem numeric (h : Presents s s') (key : Text) : numeric key s = Schema.numeric key s' :=
  (Json.Alike.pyGet h key).number_eq

theorem lowerBound (h : Presents s s') : lowerBound s = Schema.lowerBound s' := by
  rw [Schema.lowerBound, Schema.lowerBound, h.numeric, h.numeric]

theorem upperBound (h : Presents s s') : upperBound s = Schema.upperBound s' := by
  rw [Schema.upperBound, Schema.upperBound, h.numeric, h.numeric]

variable {c c' b b' : Members}

theorem minimumIsWider (hc : Presents c c') (hb : Presents b b') (key : Text) :
    minimumIsWider key c b = Schema.minimumIsWider key c' b' := by
  rw [Schema.minimumIsWider, Schema.minimumIsWider, hc.numeric, hb.numeric]

theorem maximumIsWider (hc : Presents c c') (hb : Presents b b') (key : Text) :
    maximumIsWider key c b = Schema.maximumIsWider key c' b' := by
  rw [Schema.maximumIsWider, Schema.maximumIsWider, hc.numeric, hb.numeric]

theorem sameUnknownConstraints (hc : Presents c c') (hb : Presents b b')
    (h : sameUnknownConstraints c b = true) : Schema.sameUnknownConstraints c' b' = true := by
  rw [sameUnknownConstraints_iff] at h ⊢
  intro key hnote hknown
  exact ((Json.Alike.pyGet hc key).equalWith_iff (Json.Alike.pyGet hb key)).1
    (h key hnote hknown)

theorem propertySchema (h : Presents s s') (hs : propertySchema s name = some t) :
    ∃ t', Schema.propertySchema s' name = some t' ∧ Presents t t' := by
  have hadditional := asMapping (Json.Alike.pyGet h (lit "additionalProperties"))
  have hproperty : Option.Rel Presents
      ((Schema.asMapping (Json.pyGet (lit "properties") s)).bind fun properties =>
        Schema.asMapping (Json.pyGet name properties))
      ((Schema.asMapping (Json.pyGet (lit "properties") s')).bind fun properties =>
        Schema.asMapping (Json.pyGet name properties)) := by
    have hproperties := asMapping (Json.Alike.pyGet h (lit "properties"))
    generalize Schema.asMapping (Json.pyGet (lit "properties") s) = x at hproperties ⊢
    generalize Schema.asMapping (Json.pyGet (lit "properties") s') = x' at hproperties ⊢
    cases hproperties with
    | none => exact .none
    | some hproperties => exact asMapping (Json.Alike.pyGet hproperties name)
  rw [Schema.propertySchema] at hs ⊢
  generalize ((Schema.asMapping (Json.pyGet (lit "properties") s)).bind _) = x at hproperty hs
  generalize ((Schema.asMapping (Json.pyGet (lit "properties") s')).bind _) = x' at hproperty ⊢
  cases hproperty with
  | some hpresents =>
    cases hs
    exact ⟨_, rfl, hpresents⟩
  | none =>
    dsimp only at hs ⊢
    rw [hs] at hadditional
    generalize Schema.asMapping (Json.pyGet (lit "additionalProperties") s') = y at hadditional ⊢
    cases hadditional with
    | some hpresents => exact ⟨_, rfl, hpresents⟩

/-- A keyword with a default, that is absent or not. -/
theorem getD {j : Json} (h : Presents s s') (key : Text) (hj : j.WellFormed) :
    Json.Alike ((Json.get key s).getD j) ((Json.get key s').getD j) := by
  cases hs : Json.get key s with
  | none =>
    rw [Json.Alike.get_eq_none h hs]
    exact ⟨hj, hj, rfl⟩
  | some v =>
    obtain ⟨v', hv', halike⟩ := Json.Alike.get h hs
    rw [hv']
    exact halike

theorem requiredNames {names : List Text} (h : Presents s s')
    (hs : requiredNames s = some names) : Schema.requiredNames s' = some names := by
  rw [requiredNames_eq_some] at hs ⊢
  have halike := h.getD (lit "required") (j := .arr []) (by trivial)
  rw [hs.1] at halike
  obtain ⟨items', hitems', hforall⟩ := Json.alike_arr halike
  rw [hitems']
  refine ⟨?_, hs.2⟩
  congr 1
  clear hs hitems' halike
  induction names generalizing items' with
  | nil =>
    cases hforall
    rfl
  | cons name names ih =>
    cases hforall with
    | cons hname hrest => rw [hname.eq_of_scalar (f := true) rfl, ih _ hrest, List.map_cons]

theorem declaredProperties {properties : List (Text × Members)} (h : Presents s s')
    (hs : declaredProperties s = some properties) :
    ∃ properties', Schema.declaredProperties s' = some properties' ∧
      ∀ m' ∈ properties', ∃ t, (m'.1, t) ∈ properties ∧ Presents t m'.2 := by
  rw [declaredProperties_eq_some] at hs
  have halike := h.getD (lit "properties") (j := .obj []) ⟨List.nodup_nil, trivial⟩
  rw [hs] at halike
  obtain ⟨members', hmembers', halike⟩ := Json.alike_obj halike
  -- each member of the other presentation is a mapping under the same name
  have hmember : ∀ m' ∈ members', ∃ t t', (m'.1, t) ∈ properties ∧ m'.2 = .obj t' ∧ Presents t t' := by
    intro m' hm'
    obtain ⟨j, hj, hpresents⟩ := Json.Alike.mem halike.symm hm'
    obtain ⟨m, hm, heq⟩ := List.mem_map.1 hj
    obtain ⟨hname, rfl⟩ := Prod.mk.inj heq
    obtain ⟨t', ht', hpresents'⟩ := Json.alike_obj hpresents.symm
    exact ⟨m.2, t', hname ▸ hm, ht', hpresents'⟩
  obtain ⟨properties', hproperties'⟩ : ∃ properties' : List (Text × Members),
      members' = properties'.map fun m => (m.1, .obj m.2) := by
    clear halike hmembers'
    induction members' with
    | nil => exact ⟨[], rfl⟩
    | cons m' members' ih =>
      rw [List.forall_mem_cons] at hmember
      obtain ⟨_, t', -, ht', -⟩ := hmember.1
      obtain ⟨properties', rfl⟩ := ih hmember.2
      exact ⟨(m'.1, t') :: properties', by rw [List.map_cons, ← ht']⟩
  refine ⟨properties', declaredProperties_eq_some.2 (hmembers'.trans (by rw [hproperties'])),
    fun m' hm' => ?_⟩
  obtain ⟨t, t', ht, ht', hpresents⟩ := hmember (m'.1, .obj m'.2)
    (hproperties' ▸ List.mem_map.2 ⟨m', hm', rfl⟩)
  cases ht'
  exact ⟨t, ht, hpresents⟩

theorem propertyNamesAreWider (hc : Presents c c') (hb : Presents b b')
    (h : propertyNamesAreWider c b = true) : Schema.propertyNamesAreWider c' b' = true := by
  rw [Schema.propertyNamesAreWider] at h ⊢
  split at h
  · next hnull =>
    rw [hc.null.1 hnull]
  · next names names' hnames hnames' =>
    obtain ⟨t, ht, hpresents⟩ := hc.obj hnames
    obtain ⟨t', ht', hpresents'⟩ := hb.obj hnames'
    rw [ht, ht']
    dsimp only
    rwa [← hpresents.minimumIsWider hpresents', ← hpresents.maximumIsWider hpresents']
  · cases h

theorem stringIsSuperset (hc : Presents c c') (hb : Presents b b')
    (h : stringIsSuperset c b = true) : Schema.stringIsSuperset c' b' = true := by
  rw [Schema.stringIsSuperset] at h ⊢
  simp only [Bool.and_eq_true, Bool.or_eq_true] at h ⊢
  obtain ⟨⟨hmin, hmax⟩, hformat⟩ := h
  refine ⟨⟨hc.minimumIsWider hb _ ▸ hmin, hc.maximumIsWider hb _ ▸ hmax⟩, ?_⟩
  have halike := Json.Alike.pyGet hc (lit "format")
  have hnull : Json.Alike .null .null := ⟨trivial, trivial, rfl⟩
  exact hformat.imp (halike.equalWith_iff hnull).1
    (halike.equalWith_iff (Json.Alike.pyGet hb (lit "format"))).1

theorem numberIsSuperset (hc : Presents c c') (hb : Presents b b') :
    numberIsSuperset c b = Schema.numberIsSuperset c' b' := by
  rw [Schema.numberIsSuperset, Schema.numberIsSuperset, hc.lowerBound, hc.upperBound, hb.lowerBound,
    hb.upperBound, hc.numeric, hb.numeric]

end Presents

/-! ## The relation -/

variable {c c' b b' candidateRoot candidateRoot' baselineRoot baselineRoot' : Members}
  {child child' : Members → Members → Prop}

/-- Whatever is related stays related for other presentations. -/
def Carries (child child' : Members → Members → Prop) : Prop :=
  ∀ c b c' b', child c b → Presents c c' → Presents b b' → child' c' b'

theorem AdditionalSuperset.of_presents (h : Carries child child') {c c' b b' : Json}
    (hc : Json.Alike c c') (hb : Json.Alike b b') (ha : AdditionalSuperset child c b) :
    AdditionalSuperset child' c' b' := by
  -- only two mappings have subschemas to compare; the other values are alone or
  -- constrain the same in every presentation
  rcases c with _ | (_ | _) | _ | _ | _ | _ | _ <;> rcases b with _ | (_ | _) | _ | _ | _ | _ | _
  all_goals first
    | obtain rfl := hc.eq_of_scalar (f := true) rfl
    | obtain ⟨_, rfl, -⟩ := Json.alike_arr hc
    | obtain ⟨_, rfl, hmembers⟩ := Json.alike_obj hc
  all_goals first
    | obtain rfl := hb.eq_of_scalar (f := true) rfl
    | obtain ⟨_, rfl, -⟩ := Json.alike_arr hb
    | obtain ⟨_, rfl, hmembers'⟩ := Json.alike_obj hb
  all_goals first
    | exact ha.elim
    | exact h _ _ _ _ ha hmembers hmembers'
    | trivial

theorem ObjectSuperset.of_presents (h : Carries child child') (hc : Presents c c')
    (hb : Presents b b') (ho : ObjectSuperset child c b) : ObjectSuperset child' c' b' where
  required := by
    obtain ⟨names, names', hnames, hnames', hsub⟩ := ho.required
    exact ⟨names, names', hc.requiredNames hnames, hb.requiredNames hnames', hsub⟩
  declared := by
    obtain ⟨properties, hproperties⟩ := Option.isSome_iff_exists.1 ho.declared
    obtain ⟨properties', hproperties', -⟩ := hc.declaredProperties hproperties
    exact Option.isSome_iff_exists.2 ⟨properties', hproperties'⟩
  properties := by
    obtain ⟨properties, hproperties, hall⟩ := ho.properties
    obtain ⟨properties', hproperties', hmem⟩ := hb.declaredProperties hproperties
    refine ⟨properties', hproperties', fun m' hm' => ?_⟩
    obtain ⟨t, ht, hpresents⟩ := hmem m' hm'
    obtain ⟨s, hs, hchild⟩ := hall _ ht
    obtain ⟨s', hs', hpresents'⟩ := hc.propertySchema hs
    exact ⟨s', hs', h _ _ _ _ hchild hpresents' hpresents⟩
  additional := ho.additional.of_presents h (Json.Alike.pyGet hc _) (Json.Alike.pyGet hb _)
  minProperties := hc.minimumIsWider hb _ ▸ ho.minProperties
  maxProperties := hc.maximumIsWider hb _ ▸ ho.maxProperties
  propertyNames := hc.propertyNamesAreWider hb ho.propertyNames

theorem ArraySuperset.of_presents (h : Carries child child') (hc : Presents c c')
    (hb : Presents b b') (ha : ArraySuperset child c b) : ArraySuperset child' c' b' where
  items := by
    obtain ⟨s, s', hs, hs', hchild⟩ := ha.items
    obtain ⟨t, ht, hpresents⟩ := hc.obj hs
    obtain ⟨t', ht', hpresents'⟩ := hb.obj hs'
    exact ⟨t, t', ht, ht', h _ _ _ _ hchild hpresents hpresents'⟩
  minItems := hc.minimumIsWider hb _ ▸ ha.minItems
  maxItems := hc.maximumIsWider hb _ ▸ ha.maxItems
  uniqueItems hu := hb.bool.1 (ha.uniqueItems (hc.bool.2 hu))

theorem TypedSuperset.of_presents (h : Carries child child') (hc : Presents c c')
    (hb : Presents b b') (ht : TypedSuperset child c b) : TypedSuperset child' c' b' where
  type := by
    obtain ⟨t, t', htype, htype', hor⟩ := ht.type
    exact ⟨t, t', hc.str.1 htype, hb.str.1 htype', hor⟩
  values := hc.allowsEveryValue hb ht.values
  unknown := hc.sameUnknownConstraints hb ht.unknown
  string htype := hc.stringIsSuperset hb (ht.string (hc.str.2 htype))
  number htype := hc.numberIsSuperset hb ▸ ht.number (htype.imp hc.str.2 hc.str.2)
  array htype := (ht.array (hc.str.2 htype)).of_presents h hc hb
  object htype := (ht.object (hc.str.2 htype)).of_presents h hc hb

theorem ResolvedSuperset.of_presents (h : Carries child child') (hc : Presents c c')
    (hb : Presents b b') (hr : ResolvedSuperset child c b) : ResolvedSuperset child' c' b' where
  variants := by
    obtain ⟨variants, variants', hv, hv', hall⟩ := hr.variants
    obtain ⟨us, hus, hforall⟩ := hc.variantList hv
    obtain ⟨us', hus', hforall'⟩ := hb.variantList hv'
    refine ⟨us, us', hus, hus', fun hany u' hu' => ?_⟩
    rw [← hc.isSome, ← hb.isSome] at hany
    obtain ⟨v', hmem', hpresents'⟩ := exists_of_forall₂ hforall'.flip hu'
    obtain ⟨v, hmem, hchild⟩ := hall hany v' hmem'
    obtain ⟨u, hu, hpresents⟩ := exists_of_forall₂ hforall hmem
    exact ⟨u, hu, h _ _ _ _ hchild hpresents hpresents'⟩
  typed hnone hnone' :=
    (hr.typed (hc.symm.get_eq_none hnone) (hb.symm.get_eq_none hnone')).of_presents h hc hb

/-- The relation of two schemas does not depend on how they are presented. -/
theorem Superset.of_presents (hcandidate : Presents candidateRoot candidateRoot')
    (hbaseline : Presents baselineRoot baselineRoot') (hc : Presents c c') (hb : Presents b b')
    (h : Superset candidateRoot baselineRoot c b) : Superset candidateRoot' baselineRoot' c' b' := by
  refine superset_induction (R := fun c b => ∀ c' b', Presents c c' → Presents b b' →
    Superset candidateRoot' baselineRoot' c' b') (fun c b hs c' b' hc hb => ?_) h c' b' hc hb
  obtain ⟨s, t, hs, ht, hr⟩ := hs
  obtain ⟨s', hs', hpresents⟩ := hcandidate.resolve hc hs
  obtain ⟨t', ht', hpresents'⟩ := hbaseline.resolve hb ht
  exact superset_iff.2 ⟨s', t', hs', ht',
    hr.of_presents (fun _ _ _ _ hchild => hchild.1 _ _) hpresents hpresents'⟩

end Schema

end McpRuntime
