import McpRuntime.Python.Except
import McpRuntime.Python.JsonEquality
import Mathlib.Order.FixedPoints

/-!
# JSON Schema

What it means for a JSON value to be valid under a schema, for the keywords of
the vocabulary that tool schemas are written in (the dialect 2020-12, in which a
reference has siblings). A keyword whose value is not of the form that the
vocabulary gives it constrains nothing; a value that is no schema constrains
nothing.

A reference is resolved in the `$defs` of the root, so validity is the least
relation that the keywords define (`Valid`). What a format demands of a text is
a parameter.

* `valid_iff`: validity by the keywords of a schema.
* `valid_induction`: what the keywords preserve holds of every valid value.
-/

namespace McpRuntime

namespace JsonSchema

/-- What a format demands of a text. -/
abbrev Formats := Text → Text → Prop

/-- Whether a value has a type. -/
def HasType (type : Text) : Json → Prop
  | .null => type = lit "null"
  | .bool _ => type = lit "boolean"
  | .int _ => type = lit "integer" ∨ type = lit "number"
  | .float x => type = lit "number" ∨ type = lit "integer" ∧ x.isFinite ∧ x.toRat.isInt
  | .str _ => type = lit "string"
  | .arr _ => type = lit "array"
  | .obj _ => type = lit "object"

instance (type : Text) (j : Json) : Decidable (HasType type j) := by
  cases j <;> unfold HasType <;> infer_instance

/-- The number under a keyword. -/
def limit (keyword : Text) (schema : List (Text × Json)) : Option ℚ :=
  (Json.get keyword schema).bind Json.number

/-- The definition that a reference names. -/
def definition (root : Json) (reference : Text) : Option Json :=
  match root with
  | .obj members =>
    match Json.get (lit "$defs") members with
    | some (.obj definitions) =>
      if (lit "#/$defs/").isPrefixOf reference then
        Json.get (reference.drop (lit "#/$defs/").length) definitions
      else none
    | _ => none
  | _ => none

/-- The keywords of a schema hold of a value, where `valid` is the validity under
    its subschemas. -/
structure Satisfies (formats : Formats) (root : Json) (valid : Json → Json → Prop)
    (schema : List (Text × Json)) (j : Json) : Prop where
  type : ∀ t, Json.get (lit "type") schema = some (.str t) → HasType t j
  const : ∀ v, Json.get (lit "const") schema = some v → j.Equal v
  enum : ∀ vs, Json.get (lit "enum") schema = some (.arr vs) → ∃ v ∈ vs, j.Equal v
  ref : ∀ r, Json.get (lit "$ref") schema = some (.str r) →
    ∃ target, definition root r = some target ∧ valid target j
  anyOf : ∀ variants, Json.get (lit "anyOf") schema = some (.arr variants) →
    ∃ variant ∈ variants, valid variant j
  minLength : ∀ t, j = .str t → ∀ n ∈ limit (lit "minLength") schema, n ≤ t.length
  maxLength : ∀ t, j = .str t → ∀ n ∈ limit (lit "maxLength") schema, t.length ≤ n
  format : ∀ t, j = .str t → ∀ f, Json.get (lit "format") schema = some (.str f) → formats f t
  minimum : ∀ x ∈ j.number, ∀ n ∈ limit (lit "minimum") schema, n ≤ x
  exclusiveMinimum : ∀ x ∈ j.number, ∀ n ∈ limit (lit "exclusiveMinimum") schema, n < x
  maximum : ∀ x ∈ j.number, ∀ n ∈ limit (lit "maximum") schema, x ≤ n
  exclusiveMaximum : ∀ x ∈ j.number, ∀ n ∈ limit (lit "exclusiveMaximum") schema, x < n
  multipleOf : ∀ x ∈ j.number, ∀ n ∈ limit (lit "multipleOf") schema, (x / n).isInt
  items : ∀ js, j = .arr js → ∀ s, Json.get (lit "items") schema = some s → ∀ i ∈ js, valid s i
  minItems : ∀ js, j = .arr js → ∀ n ∈ limit (lit "minItems") schema, n ≤ js.length
  maxItems : ∀ js, j = .arr js → ∀ n ∈ limit (lit "maxItems") schema, js.length ≤ n
  uniqueItems : ∀ js, j = .arr js → Json.get (lit "uniqueItems") schema = some (.bool true) →
    js.Pairwise fun i i' => ¬ i.Equal i'
  required : ∀ ms, j = .obj ms → ∀ names, Json.get (lit "required") schema = some (.arr names) →
    ∀ name, .str name ∈ names → name ∈ ms.map Prod.fst
  properties : ∀ ms, j = .obj ms → ∀ ps, Json.get (lit "properties") schema = some (.obj ps) →
    ∀ m ∈ ms, ∀ s, Json.get m.1 ps = some s → valid s m.2
  additionalProperties : ∀ ms, j = .obj ms →
    ∀ s, Json.get (lit "additionalProperties") schema = some s →
      ∀ m ∈ ms, (∀ ps, Json.get (lit "properties") schema = some (.obj ps) → Json.get m.1 ps = none) →
        valid s m.2
  propertyNames : ∀ ms, j = .obj ms → ∀ s, Json.get (lit "propertyNames") schema = some s →
    ∀ m ∈ ms, valid s (.str m.1)
  minProperties : ∀ ms, j = .obj ms → ∀ n ∈ limit (lit "minProperties") schema, n ≤ ms.length
  maxProperties : ∀ ms, j = .obj ms → ∀ n ∈ limit (lit "maxProperties") schema, ms.length ≤ n

/-- The validity under a schema, given the validity under its subschemas. -/
def validStep (formats : Formats) (root : Json) (valid : Json → Json → Prop) (schema j : Json) :
    Prop :=
  match schema with
  | .obj members => Satisfies formats root valid members j
  | .bool b => b = true
  | _ => True

variable {formats : Formats} {root : Json}

/-- What is valid stays valid when more is. -/
theorem Satisfies.mono {valid valid' : Json → Json → Prop} (h : ∀ s j, valid s j → valid' s j)
    {schema : List (Text × Json)} {j : Json} (hs : Satisfies formats root valid schema j) :
    Satisfies formats root valid' schema j where
  __ := hs
  ref r hr := by
    obtain ⟨target, htarget, hvalid⟩ := hs.ref r hr
    exact ⟨target, htarget, h _ _ hvalid⟩
  anyOf variants hv := by
    obtain ⟨variant, hmem, hvalid⟩ := hs.anyOf variants hv
    exact ⟨variant, hmem, h _ _ hvalid⟩
  items js hj s hs' i hi := h _ _ (hs.items js hj s hs' i hi)
  properties ms hj ps hps m hm s hs' := h _ _ (hs.properties ms hj ps hps m hm s hs')
  additionalProperties ms hj s hs' m hm hno :=
    h _ _ (hs.additionalProperties ms hj s hs' m hm hno)
  propertyNames ms hj s hs' m hm := h _ _ (hs.propertyNames ms hj s hs' m hm)

theorem validStep_mono (formats : Formats) (root : Json) : Monotone (validStep formats root) := by
  intro valid valid' h schema j hs
  cases schema with
  | obj members => exact Satisfies.mono h hs
  | bool b => exact hs
  | null | int | float | str | arr => trivial

variable (formats root) in
/-- A value is valid under a schema of the root. -/
def Valid : Json → Json → Prop :=
  OrderHom.lfp ⟨validStep formats root, validStep_mono formats root⟩

/-- Validity by the keywords of a schema. -/
theorem valid_iff {schema j : Json} :
    Valid formats root schema j ↔ validStep formats root (Valid formats root) schema j :=
  iff_of_eq (congrFun (congrFun
    (OrderHom.map_lfp ⟨validStep formats root, validStep_mono formats root⟩).symm schema) j)

/-- Validity under a mapping. -/
theorem valid_obj {schema : List (Text × Json)} {j : Json} :
    Valid formats root (.obj schema) j ↔
      Satisfies formats root (Valid formats root) schema j := valid_iff

/-- Nothing is valid under `false`. -/
theorem not_valid_false {j : Json} : ¬ Valid formats root (.bool false) j := by
  rw [valid_iff]
  exact Bool.false_ne_true

/-- What the keywords preserve holds of every valid value. -/
theorem valid_induction {P : Json → Json → Prop}
    (step : ∀ schema j, validStep formats root
      (fun s i => P s i ∧ Valid formats root s i) schema j → P schema j)
    {schema j : Json} (h : Valid formats root schema j) : P schema j := by
  have hle : Valid formats root ≤ fun s i => P s i ∧ Valid formats root s i :=
    OrderHom.lfp_le _ fun s i hs =>
      ⟨step s i hs, valid_iff.2 (validStep_mono formats root (fun _ _ => And.right) s i hs)⟩
  exact (hle schema j h).1

/-! ## Presentations of a schema -/

variable {root' : Json}

/-- Validity under a subschema carries over to its other presentations. -/
theorem Satisfies.of_alike {valid valid' : Json → Json → Prop}
    (hvalid : ∀ s s' j, valid s j → Json.Alike s s' → valid' s' j)
    (hroot : ∀ r target, definition root r = some target →
      ∃ target', definition root' r = some target' ∧ Json.Alike target target')
    {schema schema' : List (Text × Json)} {j : Json} (h : Json.Alike (.obj schema) (.obj schema'))
    (hs : Satisfies formats root valid schema j) : Satisfies formats root' valid' schema' j := by
  have hlimit (keyword : Text) : limit keyword schema' = limit keyword schema := by
    rw [limit, limit]
    cases hget : Json.get keyword schema with
    | none => rw [h.get_eq_none hget]
    | some k =>
      obtain ⟨k', hk', halike⟩ := h.get hget
      rw [hk']
      exact halike.number_eq.symm
  have hstr {keyword t : Text} (hget : Json.get keyword schema' = some (.str t)) :
      Json.get keyword schema = some (.str t) := by
    obtain ⟨k, hk, halike⟩ := h.symm.get hget
    rw [hk, halike.eq_of_scalar (f := true) rfl]
  have harr {keyword : Text} {items' : List Json} (hget : Json.get keyword schema' = some (.arr items')) :
      ∃ items, Json.get keyword schema = some (.arr items) ∧ items.Forall₂ Json.Alike items' := by
    obtain ⟨k, hk, halike⟩ := h.symm.get hget
    obtain ⟨items, rfl, hforall⟩ := Json.alike_arr halike
    refine ⟨items, hk, ?_⟩
    exact (hforall.flip).imp fun _ _ hx => hx.symm
  have hobj {keyword : Text} {members' : List (Text × Json)}
      (hget : Json.get keyword schema' = some (.obj members')) :
      ∃ members, Json.get keyword schema = some (.obj members) ∧
        Json.Alike (.obj members) (.obj members') := by
    obtain ⟨k, hk, halike⟩ := h.symm.get hget
    obtain ⟨members, rfl, halike⟩ := Json.alike_obj halike
    exact ⟨members, hk, halike.symm⟩
  refine
    { type := fun t ht => hs.type t (hstr ht)
      const := fun v' hv' => ?_
      enum := fun vs' hvs' => ?_
      ref := fun r hr => ?_
      anyOf := fun variants' hv' => ?_
      minLength := fun t ht n hn => hs.minLength t ht n (hlimit _ ▸ hn)
      maxLength := fun t ht n hn => hs.maxLength t ht n (hlimit _ ▸ hn)
      format := fun t ht f hf => hs.format t ht f (hstr hf)
      minimum := fun x hx n hn => hs.minimum x hx n (hlimit _ ▸ hn)
      exclusiveMinimum := fun x hx n hn => hs.exclusiveMinimum x hx n (hlimit _ ▸ hn)
      maximum := fun x hx n hn => hs.maximum x hx n (hlimit _ ▸ hn)
      exclusiveMaximum := fun x hx n hn => hs.exclusiveMaximum x hx n (hlimit _ ▸ hn)
      multipleOf := fun x hx n hn => hs.multipleOf x hx n (hlimit _ ▸ hn)
      items := fun js hj s' hs' i hi => ?_
      minItems := fun js hj n hn => hs.minItems js hj n (hlimit _ ▸ hn)
      maxItems := fun js hj n hn => hs.maxItems js hj n (hlimit _ ▸ hn)
      uniqueItems := fun js hj hu => hs.uniqueItems js hj ?_
      required := fun ms hj names' hnames' name hname => ?_
      properties := fun ms hj ps' hps' m hm s' hs' => ?_
      additionalProperties := fun ms hj s' hs' m hm hno => ?_
      propertyNames := fun ms hj s' hs' m hm => ?_
      minProperties := fun ms hj n hn => hs.minProperties ms hj n (hlimit _ ▸ hn)
      maxProperties := fun ms hj n hn => hs.maxProperties ms hj n (hlimit _ ▸ hn) }
  · obtain ⟨v, hv, halike⟩ := h.symm.get hv'
    exact Json.equalWith_trans (hs.const v hv) (halike.same.symm.equalWith halike.left)
  · obtain ⟨vs, hvs, hforall⟩ := harr hvs'
    obtain ⟨v, hv, heq⟩ := hs.enum vs hvs
    obtain ⟨v', hv', halike⟩ := exists_of_forall₂ hforall hv
    exact ⟨v', hv', Json.equalWith_trans heq (halike.same.equalWith halike.right)⟩
  · obtain ⟨target, htarget, hv⟩ := hs.ref r (hstr hr)
    obtain ⟨target', htarget', halike⟩ := hroot r target htarget
    exact ⟨target', htarget', hvalid _ _ _ hv halike⟩
  · obtain ⟨variants, hvariants, hforall⟩ := harr hv'
    obtain ⟨variant, hmem, hv⟩ := hs.anyOf variants hvariants
    obtain ⟨variant', hmem', halike⟩ := exists_of_forall₂ hforall hmem
    exact ⟨variant', hmem', hvalid _ _ _ hv halike⟩
  · obtain ⟨s, hget, halike⟩ := h.symm.get hs'
    exact hvalid _ _ _ (hs.items js hj s hget i hi) halike.symm
  · obtain ⟨u, hget, halike⟩ := h.symm.get hu
    rw [hget, halike.eq_of_scalar (f := true) rfl]
  · obtain ⟨names, hnames, hforall⟩ := harr hnames'
    obtain ⟨k, hk, halike⟩ := exists_of_forall₂ hforall.flip hname
    rw [halike.symm.eq_of_scalar (f := true) rfl] at hk
    exact hs.required ms hj names hnames name hk
  · obtain ⟨ps, hps, halike⟩ := hobj hps'
    obtain ⟨s, hget, halike'⟩ := halike.symm.get hs'
    exact hvalid _ _ _ (hs.properties ms hj ps hps m hm s hget) halike'.symm
  · obtain ⟨s, hget, halike⟩ := h.symm.get hs'
    refine hvalid _ _ _ (hs.additionalProperties ms hj s hget m hm fun ps hps => ?_) halike.symm
    obtain ⟨k, hk, halike'⟩ := h.get hps
    obtain ⟨ps', rfl, halike'⟩ := Json.alike_obj halike'
    exact halike'.symm.get_eq_none (hno ps' hk)
  · obtain ⟨s, hget, halike⟩ := h.symm.get hs'
    exact hvalid _ _ _ (hs.propertyNames ms hj s hget m hm) halike.symm

/-- The definitions that presentations of a root give to a reference. -/
theorem definition_of_alike (h : Json.Alike root root') {r : Text} {target : Json}
    (hr : definition root r = some target) :
    ∃ target', definition root' r = some target' ∧ Json.Alike target target' := by
  cases root with
  | obj members =>
    obtain ⟨members', rfl, h⟩ := Json.alike_obj h
    rw [definition] at hr ⊢
    split at hr
    · next definitions hdefinitions =>
      obtain ⟨k, hk, halike⟩ := h.get hdefinitions
      obtain ⟨definitions', rfl, halike⟩ := Json.alike_obj halike
      rw [hk]
      dsimp only
      split_ifs at hr ⊢
      exact halike.get hr
    · cases hr
  | null | bool | int | float | str | arr => cases hr

/-- Validity does not depend on how the schemas are presented. -/
theorem Valid.of_alike (hroot : Json.Alike root root') {schema schema' j : Json}
    (h : Json.Alike schema schema') (hv : Valid formats root schema j) :
    Valid formats root' schema' j := by
  refine valid_induction (P := fun schema j => ∀ schema', Json.Alike schema schema' →
    Valid formats root' schema' j) (fun schema j hs schema' h => ?_) hv schema' h
  cases schema with
  | obj members =>
    obtain ⟨members', rfl, h⟩ := Json.alike_obj h
    exact valid_obj.2 (Satisfies.of_alike (fun s s' j hv halike => hv.1 s' halike)
      (fun r target hr => definition_of_alike hroot hr) h hs)
  | bool b =>
    rw [h.eq_of_scalar (f := true) rfl]
    exact valid_iff.2 hs
  | arr items =>
    obtain ⟨items', rfl, -⟩ := Json.alike_arr h
    exact valid_iff.2 trivial
  | null | int | float | str =>
    rw [h.eq_of_scalar (f := true) rfl]
    exact valid_iff.2 trivial

end JsonSchema

end McpRuntime
