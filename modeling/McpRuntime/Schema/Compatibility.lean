import McpRuntime.Schema.Validate

/-!
# Compatibility of schemas

`classify_schema_change`: whether a changed schema still accepts what it did
(for an input), or still emits only what it did (for an output). The comparison
`_is_superset` asks whether a *candidate* accepts every value of a *baseline*;
it descends through both, counts its calls against a budget, and raises
`RecursionError` where it is nested more deeply than the interpreter allows.
-/

namespace McpRuntime

namespace Schema

/-! ## Comparisons -/

/-- A computation with the remaining budget of comparisons; it gives no value
    where it raises `RecursionError`. -/
abbrev Comparison (α : Type) := ℤ → Option (α × ℤ)

namespace Comparison

/-- A comparison that needs no call. -/
def verdict (b : Bool) : Comparison Bool := fun remaining => some (b, remaining)

/-- `_ComparisonState.consume`. -/
def consume : Comparison Bool := fun remaining =>
  some (decide (0 ≤ remaining - 1), remaining - 1)

/-- A comparison that is made only after the first one succeeds. -/
def and (x y : Comparison Bool) : Comparison Bool := fun remaining =>
  match x remaining with
  | some (true, rest) => y rest
  | r => r

/-- `all`, of a comparison for each element. -/
def all {α : Type} (f : α → Comparison Bool) : List α → Comparison Bool
  | [] => verdict true
  | a :: l => (f a).and (all f l)

/-- `any`, of a comparison for each element. -/
def any {α : Type} (f : α → Comparison Bool) : List α → Comparison Bool
  | [] => verdict false
  | a :: l => fun remaining =>
    match f a remaining with
    | some (false, rest) => any f l rest
    | r => r

end Comparison

/-! ## Keywords -/

/-- `_ANNOTATION_KEYS`. -/
def annotationKeys : List Text :=
  [lit "$comment", lit "$defs", lit "$id", lit "$schema", lit "default", lit "description",
    lit "examples", lit "title"]

/-- `_KNOWN_KEYS`. -/
def knownKeys : List Text :=
  [lit "$ref", lit "additionalProperties", lit "anyOf", lit "const", lit "enum",
    lit "exclusiveMaximum", lit "exclusiveMinimum", lit "format", lit "items", lit "maxItems",
    lit "maxLength", lit "maxProperties", lit "maximum", lit "minItems", lit "minLength",
    lit "minProperties", lit "minimum", lit "multipleOf", lit "properties", lit "propertyNames",
    lit "required", lit "type", lit "uniqueItems"]

/-- `_is_mapping`. -/
def asMapping : Json → Option Members
  | .obj members => some members
  | _ => none

theorem asMapping_eq_some {j : Json} {members : Members} :
    asMapping j = some members ↔ j = .obj members := by
  cases j <;> simp [asMapping]

/-- The values are mappings. -/
theorem mapM_asMapping {values : List Json} {schemas : List Members} :
    values.mapM asMapping = some schemas ↔ values = schemas.map .obj := by
  induction values generalizing schemas with
  | nil => cases schemas <;> simp [pure]
  | cons value values ih =>
    simp only [List.mapM_cons, Option.bind_eq_bind, Option.bind_eq_some_iff, asMapping_eq_some, ih]
    cases schemas with
    | nil => simp
    | cons schema schemas => simp

/-- `_resolve`, with `fuel` names left that may join the stack. -/
def resolveFrom (root : Members) : ℕ → List Text → Members → Option Members
  | fuel, stack, schema =>
    match Json.pyGet (lit "$ref") schema with
    | .null => some schema
    | .str reference =>
      if !localDefinitionPrefix.isPrefixOf reference ||
          schema.any fun m => !annotationKeys.contains m.1 && m.1 != lit "$ref" then none
      else
        let name := reference.drop localDefinitionPrefix.length
        if stack.contains name then none
        else
          match fuel, asMapping (Json.pyGet (lit "$defs") root) with
          | fuel + 1, some definitions =>
            match asMapping (Json.pyGet name definitions) with
            | some target => resolveFrom root fuel (stack ++ [name]) target
            | none => none
          | _, _ => none
    | _ => none

/-- `_resolve`. The names of the stack are distinct definitions, so there are no
    more of them than definitions. -/
def resolve (root schema : Members) : Option Members :=
  resolveFrom root (((asMapping (Json.pyGet (lit "$defs") root)).getD []).length) [] schema

/-- What a schema resolves to: itself, without a reference, or what the target of
    its only constraint does. -/
theorem resolveFrom_eq_some {root schema s : Members} {fuel : ℕ} {stack : List Text} :
    resolveFrom root fuel stack schema = some s ↔
      Json.pyGet (lit "$ref") schema = .null ∧ schema = s ∨
      ∃ name fuel' definitions target, fuel = fuel' + 1 ∧
        Json.pyGet (lit "$ref") schema = .str (localDefinitionPrefix ++ name) ∧
        (∀ m ∈ schema, m.1 ∈ annotationKeys ∨ m.1 = lit "$ref") ∧ name ∉ stack ∧
        Json.pyGet (lit "$defs") root = .obj definitions ∧
        Json.pyGet name definitions = .obj target ∧
        resolveFrom root fuel' (stack ++ [name]) target = some s := by
  rw [resolveFrom.eq_def]
  dsimp only
  cases Json.pyGet (lit "$ref") schema with
  | null => simp
  | bool | int | float | arr | obj => simp
  | str reference =>
    simp only [reduceCtorEq, false_and, false_or, Json.str.injEq]
    split
    · next hbad =>
      refine ⟨nofun, fun ⟨name, _, _, _, _, hreference, hkeys, _⟩ => ?_⟩
      rw [Bool.or_eq_true, Bool.not_eq_true', List.any_eq_true] at hbad
      rcases hbad with hbad | ⟨m, hm, hbad⟩
      · rw [hreference, Bool.eq_false_iff, Ne, List.isPrefixOf_iff_prefix] at hbad
        exact (hbad (List.prefix_append _ _)).elim
      · rcases hkeys m hm with hkey | hkey
        · simp [hkey] at hbad
        · simp [hkey] at hbad
    · next hgood =>
      rw [Bool.or_eq_true, not_or, Bool.not_eq_true', Bool.not_eq_false, List.isPrefixOf_iff_prefix,
        List.prefix_iff_eq_append, List.any_eq_true, not_exists] at hgood
      obtain ⟨name, rfl⟩ : ∃ name, reference = localDefinitionPrefix ++ name := ⟨_, hgood.1.symm⟩
      have hkeys : ∀ m ∈ schema, m.1 ∈ annotationKeys ∨ m.1 = lit "$ref" := by
        intro m hm
        have := hgood.2 m
        rw [not_and] at this
        simpa [or_iff_not_imp_left] using this hm
      have hname {name' : Text} : localDefinitionPrefix ++ name = localDefinitionPrefix ++ name' ↔
          name' = name := by
        rw [List.append_cancel_left_eq, eq_comm]
      simp only [List.drop_left, List.contains_iff_mem, hname]
      split_ifs with hstack
      · exact ⟨nofun, fun ⟨_, _, _, _, _, heq, _, hnot, _⟩ => (hnot (heq ▸ hstack)).elim⟩
      · refine ⟨fun h => ?_, ?_⟩
        · split at h
          · next fuel definitions hdefinitions =>
            split at h
            · next target htarget =>
              exact ⟨name, fuel, definitions, target, rfl, rfl, hkeys, hstack,
                asMapping_eq_some.1 hdefinitions, asMapping_eq_some.1 htarget, h⟩
            · cases h
          · cases h
        · rintro ⟨_, fuel, definitions, target, rfl, rfl, -, -, hdefinitions, htarget, h⟩
          simp only [hdefinitions, htarget, asMapping]
          exact h

/-- `_variant_list`. -/
def variantList (schema : Members) : Option (List Members) :=
  match Json.pyGet (lit "anyOf") schema with
  | .null => some [schema]
  | .arr [] => none
  | .arr variants => variants.mapM asMapping
  | _ => none

/-- The variants of a schema. -/
theorem variantList_eq_some {schema : Members} {variants : List Members} :
    variantList schema = some variants ↔
      Json.pyGet (lit "anyOf") schema = .null ∧ variants = [schema] ∨
      Json.pyGet (lit "anyOf") schema = .arr (variants.map .obj) ∧ variants ≠ [] := by
  rw [variantList]
  cases Json.pyGet (lit "anyOf") schema with
  | null => simp [eq_comm]
  | arr values =>
    cases values with
    | nil => cases variants <;> simp
    | cons value values =>
      dsimp only
      rw [mapM_asMapping]
      cases variants <;> simp
  | bool | int | float | str | obj => simp

/-- `_allowed_values`. -/
def allowedValues (schema : Members) : Option (List Json) :=
  match Json.get (lit "const") schema with
  | some value => some [value]
  | none =>
    match Json.pyGet (lit "enum") schema with
    | .null => none
    | .arr values => some values
    | _ => some []

/-- `_allows_every_value`. -/
def allowsEveryValue (candidate baseline : Members) : Bool :=
  match allowedValues candidate, allowedValues baseline with
  | none, _ => true
  | some _, none => false
  | some candidateValues, some baselineValues =>
    baselineValues.all fun value => candidateValues.any fun allowed => value.pyEq allowed

/-- Each allowed value of the baseline is allowed by the candidate. -/
theorem allowsEveryValue_iff {candidate baseline : Members} :
    allowsEveryValue candidate baseline = true ↔
      ∀ values, allowedValues candidate = some values →
        ∃ values', allowedValues baseline = some values' ∧
          ∀ value ∈ values', ∃ allowed ∈ values, value.pyEq allowed = true := by
  rw [allowsEveryValue]
  cases allowedValues candidate with
  | none => simp
  | some values => cases allowedValues baseline <;> simp

/-- `_numeric`, of what a key is bound to. -/
def numeric (key : Text) (schema : Members) : Option ℚ := (Json.pyGet key schema).number

/-- `_lower_bound`: the greatest lower bound, and whether it is inclusive. -/
def lowerBound (schema : Members) : Option (ℚ × Bool) :=
  match numeric (lit "minimum") schema, numeric (lit "exclusiveMinimum") schema with
  | none, none => none
  | some n, none => some (n, true)
  | none, some n => some (n, false)
  | some n, some n' => if n ≤ n' then some (n', false) else some (n, true)

/-- `_upper_bound`: the least upper bound, and whether it is inclusive. -/
def upperBound (schema : Members) : Option (ℚ × Bool) :=
  match numeric (lit "maximum") schema, numeric (lit "exclusiveMaximum") schema with
  | none, none => none
  | some n, none => some (n, true)
  | none, some n => some (n, false)
  | some n, some n' => if n' ≤ n then some (n', false) else some (n, true)

/-- `_lower_is_wider`. -/
def lowerIsWider : Option (ℚ × Bool) → Option (ℚ × Bool) → Bool
  | none, _ => true
  | some _, none => false
  | some (n, inclusive), some (n', inclusive') =>
    if n < n' then true else if n > n' then false else inclusive || !inclusive'

/-- `_upper_is_wider`. -/
def upperIsWider : Option (ℚ × Bool) → Option (ℚ × Bool) → Bool
  | none, _ => true
  | some _, none => false
  | some (n, inclusive), some (n', inclusive') =>
    if n > n' then true else if n < n' then false else inclusive || !inclusive'

/-- `_minimum_is_wider`. -/
def minimumIsWider (key : Text) (candidate baseline : Members) : Bool :=
  match numeric key candidate, numeric key baseline with
  | none, _ => true
  | some _, none => false
  | some n, some n' => n ≤ n'

/-- `_maximum_is_wider`. -/
def maximumIsWider (key : Text) (candidate baseline : Members) : Bool :=
  match numeric key candidate, numeric key baseline with
  | none, _ => true
  | some _, none => false
  | some n, some n' => n' ≤ n

/-- `_same_unknown_constraints`. -/
def sameUnknownConstraints (candidate baseline : Members) : Bool :=
  ((candidate ++ baseline).map Prod.fst).all fun key =>
    annotationKeys.contains key || knownKeys.contains key ||
      (Json.pyGet key candidate).pyEq (Json.pyGet key baseline)

/-- Every keyword that is not known has one value in both schemas. -/
theorem sameUnknownConstraints_iff {candidate baseline : Members} :
    sameUnknownConstraints candidate baseline = true ↔
      ∀ key, key ∉ annotationKeys → key ∉ knownKeys →
        (Json.pyGet key candidate).pyEq (Json.pyGet key baseline) = true := by
  have hmissing {key : Text} {schema : Members} (h : key ∉ schema.map Prod.fst) :
      Json.pyGet key schema = .null := by
    rw [Json.pyGet]
    cases hget : Json.get key schema with
    | none => rfl
    | some j => exact absurd (List.mem_map_of_mem (Json.mem_of_get hget)) h
  rw [sameUnknownConstraints, List.all_eq_true]
  refine ⟨fun h key hnote hknown => ?_, fun h key _ => ?_⟩
  · by_cases hmem : key ∈ (candidate ++ baseline).map Prod.fst
    · simpa [hnote, hknown] using h key hmem
    · rw [List.map_append, List.mem_append, not_or] at hmem
      rw [hmissing hmem.1, hmissing hmem.2]
      rfl
  · by_cases hnote : key ∈ annotationKeys
    · simp [hnote]
    · by_cases hknown : key ∈ knownKeys
      · simp [hknown]
      · simp [h key hnote hknown]

/-- `_property_schema`. -/
def propertySchema (schema : Members) (name : Text) : Option Members :=
  match (asMapping (Json.pyGet (lit "properties") schema)).bind fun properties =>
      asMapping (Json.pyGet name properties) with
  | some value => some value
  | none => asMapping (Json.pyGet (lit "additionalProperties") schema)

/-- The text of each item, if all of them are texts. -/
def textItems : List Json → Option (List Text)
  | [] => some []
  | .str t :: items => (textItems items).map (t :: ·)
  | _ :: _ => none

theorem textItems_eq_some {items : List Json} {names : List Text} :
    textItems items = some names ↔ items = names.map .str := by
  induction items generalizing names with
  | nil => cases names <;> simp [textItems]
  | cons item items ih =>
    cases item with
    | str t => cases names <;> simp [textItems, ih, and_comm]
    | null | bool | int | float | arr | obj => cases names <;> simp [textItems]

/-- `_required_names`, of `schema.get("required", [])`. -/
def requiredNames (schema : Members) : Option (List Text) :=
  match (Json.get (lit "required") schema).getD (.arr []) with
  | .arr items => (textItems items).filter fun names => decide names.Nodup
  | _ => none

theorem requiredNames_eq_some {schema : Members} {names : List Text} :
    requiredNames schema = some names ↔
      (Json.get (lit "required") schema).getD (.arr []) = .arr (names.map .str) ∧ names.Nodup := by
  rw [requiredNames]
  cases (Json.get (lit "required") schema).getD (.arr []) with
  | arr items => simp [Option.filter_eq_some_iff, textItems_eq_some]
  | null | bool | int | float | str | obj => simp

/-- The properties of an object schema, if they are mappings. -/
def declaredProperties (schema : Members) : Option (List (Text × Members)) :=
  match (Json.get (lit "properties") schema).getD (.obj []) with
  | .obj properties => properties.mapM fun m => (asMapping m.2).map fun s => (m.1, s)
  | _ => none

theorem declaredProperties_eq_some {schema : Members} {properties : List (Text × Members)} :
    declaredProperties schema = some properties ↔
      (Json.get (lit "properties") schema).getD (.obj []) =
        .obj (properties.map fun m => (m.1, .obj m.2)) := by
  rw [declaredProperties]
  cases (Json.get (lit "properties") schema).getD (.obj []) with
  | obj members =>
    rw [Json.obj.injEq]
    dsimp only
    induction members generalizing properties with
    | nil => cases properties <;> simp [pure]
    | cons m members ih =>
      simp only [List.mapM_cons, Option.bind_eq_bind, Option.bind_eq_some_iff, ih,
        Option.map_eq_some_iff, asMapping_eq_some]
      cases properties with
      | nil => simp
      | cons m' properties => grind
  | null | bool | int | float | str | arr => simp

/-- `_property_names_are_wider`. -/
def propertyNamesAreWider (candidate baseline : Members) : Bool :=
  match Json.pyGet (lit "propertyNames") candidate, Json.pyGet (lit "propertyNames") baseline with
  | .null, _ => true
  | .obj candidateNames, .obj baselineNames =>
    minimumIsWider (lit "minLength") candidateNames baselineNames &&
      maximumIsWider (lit "maxLength") candidateNames baselineNames
  | _, _ => false

/-! ## The comparison -/

section

variable (compare : Members → Members → Comparison Bool)

/-- The comparison of what two objects say about the properties that the
    baseline does not declare. -/
def additionalIsSuperset (candidate baseline : Members) : Comparison Bool :=
  let candidateAdditional := Json.pyGet (lit "additionalProperties") candidate
  let baselineAdditional := Json.pyGet (lit "additionalProperties") baseline
  match baselineAdditional, candidateAdditional with
  | .bool false, _ => .verdict true
  | _, .bool false => .verdict false
  | .obj baselineAdditional, .obj candidateAdditional =>
    compare candidateAdditional baselineAdditional
  | .obj _, .null => .verdict true
  | .obj _, _ => .verdict false
  | _, .obj _ => .verdict false
  | _, _ => .verdict true

/-- `_object_is_superset`. -/
def objectIsSuperset (candidate baseline : Members) : Comparison Bool :=
  match requiredNames candidate, requiredNames baseline with
  | some candidateRequired, some baselineRequired =>
    if !candidateRequired.all fun name => baselineRequired.contains name then .verdict false
    else
      match declaredProperties candidate, declaredProperties baseline with
      | some _, some baselineProperties =>
        (Comparison.all (fun m =>
          match propertySchema candidate m.1 with
          | some candidateProperty => compare candidateProperty m.2
          | none => .verdict false) baselineProperties).and <|
        (additionalIsSuperset compare candidate baseline).and <|
        .verdict (minimumIsWider (lit "minProperties") candidate baseline &&
          maximumIsWider (lit "maxProperties") candidate baseline &&
          propertyNamesAreWider candidate baseline)
      | _, _ => .verdict false
  | _, _ => .verdict false

/-- The comparison of two texts. -/
def stringIsSuperset (candidate baseline : Members) : Bool :=
  let candidateFormat := Json.pyGet (lit "format") candidate
  minimumIsWider (lit "minLength") candidate baseline &&
    maximumIsWider (lit "maxLength") candidate baseline &&
      (candidateFormat.pyEq .null ||
        candidateFormat.pyEq (Json.pyGet (lit "format") baseline))

/-- The comparison of two numbers. -/
def numberIsSuperset (candidate baseline : Members) : Bool :=
  lowerIsWider (lowerBound candidate) (lowerBound baseline) &&
    upperIsWider (upperBound candidate) (upperBound baseline) &&
      match numeric (lit "multipleOf") candidate, numeric (lit "multipleOf") baseline with
      | none, _ => true
      | some _, none => false
      | some n, some n' => n = n'

/-- `value is True`. -/
def isTrue : Json → Bool
  | .bool b => b
  | _ => false

/-- The comparison of two arrays. -/
def arrayIsSuperset (candidate baseline : Members) : Comparison Bool :=
  match Json.pyGet (lit "items") candidate, Json.pyGet (lit "items") baseline with
  | .obj candidateItems, .obj baselineItems =>
    (Comparison.verdict (minimumIsWider (lit "minItems") candidate baseline &&
      maximumIsWider (lit "maxItems") candidate baseline &&
        !(isTrue (Json.pyGet (lit "uniqueItems") candidate) &&
          !isTrue (Json.pyGet (lit "uniqueItems") baseline)))).and
      (compare candidateItems baselineItems)
  | _, _ => .verdict false

/-- The comparison of two schemas without variants. -/
def typedIsSuperset (candidate baseline : Members) : Comparison Bool :=
  match Json.pyGet (lit "type") candidate, Json.pyGet (lit "type") baseline with
  | .str candidateType, .str baselineType =>
    if candidateType != baselineType &&
        !(candidateType = lit "number" && baselineType = lit "integer") then .verdict false
    else if !allowsEveryValue candidate baseline then .verdict false
    else if !sameUnknownConstraints candidate baseline then .verdict false
    else if candidateType = lit "string" then .verdict (stringIsSuperset candidate baseline)
    else if candidateType = lit "integer" || candidateType = lit "number" then
      .verdict (numberIsSuperset candidate baseline)
    else if candidateType = lit "array" then arrayIsSuperset compare candidate baseline
    else if candidateType = lit "object" then objectIsSuperset compare candidate baseline
    else .verdict true
  | _, _ => .verdict false

/-- The comparison of two schemas without references. -/
def resolvedIsSuperset (candidate baseline : Members) : Comparison Bool :=
  match variantList candidate, variantList baseline with
  | some candidateVariants, some baselineVariants =>
    if (Json.get (lit "anyOf") candidate).isSome || (Json.get (lit "anyOf") baseline).isSome then
      Comparison.all (fun baselineVariant =>
        Comparison.any (fun candidateVariant => compare candidateVariant baselineVariant)
          candidateVariants) baselineVariants
    else typedIsSuperset compare candidate baseline
  | _, _ => .verdict false

end

/-- `_is_superset`, nested at most `depth` times. -/
def isSuperset (candidateRoot baselineRoot : Members) :
    ℕ → Members → Members → Comparison Bool
  | 0, _, _ => fun _ => none
  | depth + 1, candidate, baseline =>
    Comparison.consume.and <|
      match resolve candidateRoot candidate, resolve baselineRoot baseline with
      | some candidate, some baseline =>
        resolvedIsSuperset (isSuperset candidateRoot baselineRoot depth) candidate baseline
      | _, _ => .verdict false

end Schema

/-! ## The classification -/

/-- `SchemaChange`. -/
inductive SchemaChange
  | identical
  | nonBreaking
  | breaking
  deriving DecidableEq

/-- `SchemaDirection`. -/
inductive SchemaDirection
  | input
  | output
  deriving DecidableEq

namespace Schema

/-- The comparison that a direction asks for, with its budget: of the current
    schema with the previous one, or the other way round. -/
def compatibility (depth : ℕ) (previous current : Members) : SchemaDirection → Option (Bool × ℤ)
  | .input => isSuperset current previous depth current previous 10000
  | .output => isSuperset previous current depth previous current 10000

end Schema

/-- `classify_schema_change`, which gives no value where it raises: at a value
    without canonical text, or by `RecursionError`. -/
def classifySchemaChange (hashing : Hashing) (depth : ℕ) (previous current : Members)
    (direction : SchemaDirection) : Option SchemaChange := do
  let previousFingerprint ← hashing.fingerprint (.obj previous)
  let currentFingerprint ← hashing.fingerprint (.obj current)
  if previousFingerprint = currentFingerprint then some .identical
  else
    let (compatible, _) ← Schema.compatibility depth previous current direction
    some (if compatible then .nonBreaking else .breaking)

end McpRuntime
