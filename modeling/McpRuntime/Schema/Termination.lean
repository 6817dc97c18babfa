import McpRuntime.Plan
import McpRuntime.Schema.Transitive

/-!
# Whether the comparison of schemas ends

The comparison of two accepted schemas asks for comparisons of their parts, which
have fewer levels (`Accepted`), through references and through unions whose other
side stays the same. There is one exception. An `anyOf` that is null is accepted
as if it were missing, and has no variants but the schema itself, yet `_is_superset`
looks for the keyword and compares these variants: the same two schemas again,
without end.

* `isSuperset_eq_eval`: the comparison follows a plan of smaller comparisons.
* `terminates_iff`: the comparison of accepted schemas is nested at most as their
  levels together, on every budget, exactly when it never comes to a pair of
  schemas that is `Stuck`.
* `unchanged_raises`: a schema and itself with a description, whose comparison
  raises however deep it may be nested.
-/

namespace McpRuntime

namespace Schema

open Plan

/-! ## The plan of a comparison -/

/-- A pair of schemas, candidate and baseline, that is compared. -/
abbrev Pair := Members × Members

/-- What `additionalIsSuperset` compares. -/
def additionalPlan (candidate baseline : Members) : Plan Pair :=
  match Json.pyGet (lit "additionalProperties") baseline,
      Json.pyGet (lit "additionalProperties") candidate with
  | .bool false, _ => .answer true
  | _, .bool false => .answer false
  | .obj baselineAdditional, .obj candidateAdditional =>
    .ask (candidateAdditional, baselineAdditional)
  | .obj _, .null => .answer true
  | .obj _, _ => .answer false
  | _, .obj _ => .answer false
  | _, _ => .answer true

/-- What `objectIsSuperset` compares. -/
def objectPlan (candidate baseline : Members) : Plan Pair :=
  match requiredNames candidate, requiredNames baseline with
  | some candidateRequired, some baselineRequired =>
    if !candidateRequired.all fun name => baselineRequired.contains name then .answer false
    else
      match declaredProperties candidate, declaredProperties baseline with
      | some _, some baselineProperties =>
        (Plan.all (fun m =>
          match propertySchema candidate m.1 with
          | some candidateProperty => .ask (candidateProperty, m.2)
          | none => .answer false) baselineProperties).and <|
        (additionalPlan candidate baseline).and <|
        .answer (minimumIsWider (lit "minProperties") candidate baseline &&
          maximumIsWider (lit "maxProperties") candidate baseline &&
          propertyNamesAreWider candidate baseline)
      | _, _ => .answer false
  | _, _ => .answer false

/-- What `arrayIsSuperset` compares. -/
def arrayPlan (candidate baseline : Members) : Plan Pair :=
  match Json.pyGet (lit "items") candidate, Json.pyGet (lit "items") baseline with
  | .obj candidateItems, .obj baselineItems =>
    (Plan.answer (minimumIsWider (lit "minItems") candidate baseline &&
      maximumIsWider (lit "maxItems") candidate baseline &&
        !(isTrue (Json.pyGet (lit "uniqueItems") candidate) &&
          !isTrue (Json.pyGet (lit "uniqueItems") baseline)))).and
      (.ask (candidateItems, baselineItems))
  | _, _ => .answer false

/-- What `typedIsSuperset` compares. -/
def typedPlan (candidate baseline : Members) : Plan Pair :=
  match Json.pyGet (lit "type") candidate, Json.pyGet (lit "type") baseline with
  | .str candidateType, .str baselineType =>
    if candidateType != baselineType &&
        !(candidateType = lit "number" && baselineType = lit "integer") then .answer false
    else if !allowsEveryValue candidate baseline then .answer false
    else if !sameUnknownConstraints candidate baseline then .answer false
    else if candidateType = lit "string" then .answer (stringIsSuperset candidate baseline)
    else if candidateType = lit "integer" || candidateType = lit "number" then
      .answer (numberIsSuperset candidate baseline)
    else if candidateType = lit "array" then arrayPlan candidate baseline
    else if candidateType = lit "object" then objectPlan candidate baseline
    else .answer true
  | _, _ => .answer false

/-- What `resolvedIsSuperset` compares. -/
def resolvedPlan (candidate baseline : Members) : Plan Pair :=
  match variantList candidate, variantList baseline with
  | some candidateVariants, some baselineVariants =>
    if (Json.get (lit "anyOf") candidate).isSome || (Json.get (lit "anyOf") baseline).isSome then
      Plan.all (fun baselineVariant =>
        Plan.any (fun candidateVariant => .ask (candidateVariant, baselineVariant))
          candidateVariants) baselineVariants
    else typedPlan candidate baseline
  | _, _ => .answer false

/-- What `_is_superset` compares. -/
def plan (candidateRoot baselineRoot : Members) (pair : Pair) : Plan Pair :=
  match resolve candidateRoot pair.1, resolve baselineRoot pair.2 with
  | some candidate, some baseline => resolvedPlan candidate baseline
  | _, _ => .answer false

section

variable {ask : Pair → Budgeted} {candidateRoot baselineRoot candidate baseline : Members}

theorem run_all {β : Type} {f : β → Plan Pair} {g : β → Comparison Bool}
    (h : ∀ b, (f b).run ask = g b) (l : List β) : (Plan.all f l).run ask = Comparison.all g l := by
  induction l with
  | nil => rfl
  | cons b l ih =>
    funext remaining
    rw [Plan.all, run_and, Comparison.all, Comparison.and, h b]
    exact ih ▸ rfl

theorem run_any {β : Type} {f : β → Plan Pair} {g : β → Comparison Bool}
    (h : ∀ b, (f b).run ask = g b) (l : List β) : (Plan.any f l).run ask = Comparison.any g l := by
  induction l with
  | nil => rfl
  | cons b l ih =>
    funext remaining
    rw [Plan.any, run_or, Comparison.any, h b]
    exact ih ▸ rfl

theorem run_additionalPlan : (additionalPlan candidate baseline).run ask =
    additionalIsSuperset (fun c b => ask (c, b)) candidate baseline := by
  unfold additionalPlan additionalIsSuperset
  dsimp only
  generalize Json.pyGet (lit "additionalProperties") candidate = c
  generalize Json.pyGet (lit "additionalProperties") baseline = b
  rcases b with _ | (_ | _) | _ | _ | _ | _ | _ <;> rcases c with _ | (_ | _) | _ | _ | _ | _ | _ <;>
    rfl

theorem run_objectPlan : (objectPlan candidate baseline).run ask =
    objectIsSuperset (fun c b => ask (c, b)) candidate baseline := by
  have hproperty (m : Text × Members) :
      (match propertySchema candidate m.1 with
        | some candidateProperty => Plan.ask (candidateProperty, m.2)
        | none => .answer false).run ask =
      match propertySchema candidate m.1 with
        | some candidateProperty => ask (candidateProperty, m.2)
        | none => Comparison.verdict false := by
    cases propertySchema candidate m.1 <;> rfl
  unfold objectPlan objectIsSuperset
  cases requiredNames candidate with
  | none => rfl
  | some names =>
    cases requiredNames baseline with
    | none => rfl
    | some names' =>
      dsimp only
      rw [apply_ite (Plan.run ask)]
      congr 1
      cases declaredProperties candidate with
      | none => rfl
      | some properties =>
        cases declaredProperties baseline with
        | none => rfl
        | some properties' =>
          funext remaining
          dsimp only
          -- Both sides ask about the properties first, and then about the others.
          rw [run_and, Comparison.and, run_all hproperty, ← run_additionalPlan]
          rfl

theorem run_arrayPlan : (arrayPlan candidate baseline).run ask =
    arrayIsSuperset (fun c b => ask (c, b)) candidate baseline := by
  unfold arrayPlan arrayIsSuperset
  cases Json.pyGet (lit "items") candidate <;> cases Json.pyGet (lit "items") baseline <;> rfl

theorem run_typedPlan : (typedPlan candidate baseline).run ask =
    typedIsSuperset (fun c b => ask (c, b)) candidate baseline := by
  unfold typedPlan typedIsSuperset
  cases Json.pyGet (lit "type") candidate with
  | str t =>
    cases Json.pyGet (lit "type") baseline with
    | str t' =>
      dsimp only
      rw [← run_arrayPlan, ← run_objectPlan]
      simp only [apply_ite (Plan.run ask)]
      rfl
    | null | bool | int | float | arr | obj => rfl
  | null | bool | int | float | arr | obj => rfl

theorem run_resolvedPlan : (resolvedPlan candidate baseline).run ask =
    resolvedIsSuperset (fun c b => ask (c, b)) candidate baseline := by
  unfold resolvedPlan resolvedIsSuperset
  cases variantList candidate with
  | none => rfl
  | some variants =>
    cases variantList baseline with
    | none => rfl
    | some variants' =>
      dsimp only
      rw [apply_ite (Plan.run ask), run_typedPlan, run_all fun b => run_any (fun _ => rfl) _]
      rfl

theorem run_plan {pair : Pair} : (plan candidateRoot baselineRoot pair).run ask =
    match resolve candidateRoot pair.1, resolve baselineRoot pair.2 with
    | some candidate, some baseline =>
      resolvedIsSuperset (fun c b => ask (c, b)) candidate baseline
    | _, _ => Comparison.verdict false := by
  unfold plan
  cases resolve candidateRoot pair.1 with
  | none => rfl
  | some candidate =>
    cases resolve baselineRoot pair.2 with
    | none => rfl
    | some baseline => exact run_resolvedPlan

/-- The comparison follows its plan. -/
theorem isSuperset_eq_eval (depth : ℕ) :
    isSuperset candidateRoot baselineRoot depth candidate baseline =
      eval (plan candidateRoot baselineRoot) depth (candidate, baseline) := by
  induction depth generalizing candidate baseline with
  | zero => rfl
  | succ depth ih =>
    have hcompare : isSuperset candidateRoot baselineRoot depth =
        fun c b => eval (plan candidateRoot baselineRoot) depth (c, b) :=
      funext fun c => funext fun b => ih
    funext remaining
    rw [isSuperset, hcompare, Comparison.and, Comparison.consume]
    rcases lt_or_ge (remaining - 1) 0 with hneg | hpos
    · rw [eval_exhausted hneg, decide_eq_false hneg.not_ge]
    · rw [eval_succ hpos, decide_eq_true hpos]
      exact (congrFun (@run_plan _ _ _ (candidate, baseline)) _).symm

/-- A step of the relation is what the plan says, whatever the answers to its
    questions. -/
theorem supersetStep_iff_holds (R : Pair → Prop) (pair : Pair) :
    supersetStep (fun c b => R (c, b)) candidateRoot baselineRoot pair.1 pair.2 ↔
      (plan candidateRoot baselineRoot pair).Holds R := by
  classical
  let verdict (p : Pair) : Bool := decide (R p)
  -- With answers that take nothing from the budget, a run decides what the plan says.
  obtain ⟨v, hv, hiff⟩ := @run_of_free _ (fun p remaining => some (verdict p, remaining))
    (plan candidateRoot baselineRoot pair) verdict (fun _ _ => rfl) 0
  simp only [verdict, decide_eq_true_eq] at hiff
  rw [← hiff, supersetStep]
  rw [run_plan] at hv
  split at hv
  · next s s' hs hs' =>
    have hverdict (c b : Members) : Decides (fun remaining => some (verdict (c, b), remaining))
        (R (c, b)) := decides_verdict decide_eq_true_iff
    obtain ⟨-, hsound, hcomplete⟩ := resolved_decides hverdict _ _ _ hv
    refine ⟨?_, fun htrue => ⟨s, s', hs, hs', hsound htrue⟩⟩
    rintro ⟨r, r', hr, hr', hresolved⟩
    cases hs.symm.trans hr
    cases hs'.symm.trans hr'
    exact hcomplete le_rfl hresolved
  · next hnot =>
    cases hv
    constructor
    · rintro ⟨s, s', hs, hs', -⟩
      exact (hnot s s' hs hs').elim
    · intro hfalse
      cases hfalse

/-- The true answers to a plan are those of the relation that is decided. -/
theorem superset_iff_holds (pair : Pair) : Superset candidateRoot baselineRoot pair.1 pair.2 ↔
    (plan candidateRoot baselineRoot pair).Holds
      fun p => Superset candidateRoot baselineRoot p.1 p.2 :=
  superset_iff.trans (supersetStep_iff_holds (fun p => Superset candidateRoot baselineRoot p.1 p.2) pair)

end

/-! ## Levels -/

section

variable {policy policy' : SchemaPolicy} {candidateRoot baselineRoot candidate baseline : Members}
  {child child' : Json → Prop} {R : Pair → Prop} {pair : Pair}

theorem children_of_asks_additional (hc : Shape policy child candidate)
    (hb : Shape policy' child' baseline) (h : (additionalPlan candidate baseline).Asks R pair) :
    child (.obj pair.1) ∧ child' (.obj pair.2) := by
  unfold additionalPlan at h
  split at h
  case h_3 _ _ b c hb' hc' =>
    cases h
    constructor
    · rcases hc.additional with hfalse | ⟨s, hs, hchild, -⟩
      · cases hfalse.symm.trans hc'
      · cases hs.symm.trans hc'
        exact hchild
    · rcases hb.additional with hfalse | ⟨s, hs, hchild, -⟩
      · cases hfalse.symm.trans hb'
      · cases hs.symm.trans hb'
        exact hchild
  all_goals exact h.elim

theorem children_of_asks_object (hc : Shape policy child candidate)
    (hb : Shape policy' child' baseline) (h : (objectPlan candidate baseline).Asks R pair) :
    child (.obj pair.1) ∧ child' (.obj pair.2) := by
  unfold objectPlan at h
  split at h
  · split_ifs at h
    · exact h.elim
    · split at h
      · next properties properties' _ hproperties' =>
        rcases h with h | ⟨-, h | ⟨-, h⟩⟩
        · obtain ⟨m, hm, h⟩ := exists_of_asks_all h
          split at h
          · next s hs =>
            cases h
            exact ⟨hc.child_of_propertySchema hs, hb.child_of_declared hproperties' hm⟩
          · exact h.elim
        · exact children_of_asks_additional hc hb h
        · exact h.elim
      · exact h.elim
  · exact h.elim

theorem children_of_asks_array (hc : TypedNode policy child (lit "array") candidate)
    (hb : TypedNode policy' child' (lit "array") baseline)
    (h : (arrayPlan candidate baseline).Asks R pair) :
    child (.obj pair.1) ∧ child' (.obj pair.2) := by
  unfold arrayPlan at h
  split at h
  · next items items' hitems hitems' =>
    rcases h with h | ⟨-, h⟩
    · exact h.elim
    · cases h
      obtain ⟨-, i, hi, hchild⟩ := hc.array rfl
      obtain ⟨-, i', hi', hchild'⟩ := hb.array rfl
      cases (get_of_pyGet hitems nofun).symm.trans hi
      cases (get_of_pyGet hitems' nofun).symm.trans hi'
      exact ⟨hchild, hchild'⟩
  · exact h.elim

/-- Typed nodes are compared by their parts. -/
theorem children_of_asks {definitions definitions' : Members}
    (hc : Node policy definitions child candidate) (hb : Node policy' definitions' child' baseline)
    (h : (typedPlan candidate baseline).Asks R pair) :
    child (.obj pair.1) ∧ child' (.obj pair.2) := by
  unfold typedPlan at h
  split at h
  · next t t' ht ht' =>
    have htyped := hc.typedNode ht
    have htyped' := hb.typedNode ht'
    split_ifs at h with hdiffer hvalues hunknown hstring hnumber harray hobject
    all_goals try exact h.elim
    all_goals
      have htype : t = t' ∨ t = lit "number" ∧ t' = lit "integer" := by
        simpa [or_iff_not_imp_left] using hdiffer
    -- A number may be compared with an integer, but neither has parts.
    · subst harray
      rcases htype with rfl | ⟨hnumber, -⟩
      · exact children_of_asks_array htyped htyped' h
      · exact absurd hnumber (by decide)
    · subst hobject
      rcases htype with rfl | ⟨hnumber, -⟩
      · exact children_of_asks_object (htyped.object rfl) (htyped'.object rfl) h
      · exact absurd hnumber (by decide)
  · exact h.elim

/-- The schemas of a pair are accepted, with so many levels together. -/
def Level (policy policy' : SchemaPolicy) (candidateRoot baselineRoot : Members) (n : ℕ)
    (pair : Pair) : Prop :=
  ∃ room room', room + room' = n ∧
    Accepted policy (definitionsOf (.obj candidateRoot)) room (.obj pair.1) ∧
      Accepted policy' (definitionsOf (.obj baselineRoot)) room' (.obj pair.2)

/-- A pair of schemas without variants, of which one has an `anyOf` that is null. -/
def Stuck (candidateRoot baselineRoot : Members) (pair : Pair) : Prop :=
  ∃ s s', resolve candidateRoot pair.1 = some s ∧ resolve baselineRoot pair.2 = some s' ∧
    Json.pyGet (lit "anyOf") s = .null ∧ Json.pyGet (lit "anyOf") s' = .null ∧
      ((Json.get (lit "anyOf") s).isSome ∨ (Json.get (lit "anyOf") s').isSome)

theorem not_level_zero : ¬ Level policy policy' candidateRoot baselineRoot 0 pair := by
  rintro ⟨room, room', hsum, hc, -⟩
  obtain rfl : room = 0 := by omega
  exact hc.elim

/-- A pair that is stuck is compared again. -/
theorem stuck_asks (h : Stuck candidateRoot baselineRoot pair) :
    ∃ next, (plan candidateRoot baselineRoot pair).Asks R next ∧
      Stuck candidateRoot baselineRoot next := by
  obtain ⟨s, s', hs, hs', hnull, hnull', hsome⟩ := h
  refine ⟨(s, s'), ?_, s, s', resolve_idem hs, resolve_idem hs', hnull, hnull', hsome⟩
  have hv : variantList s = some [s] := variantList_eq_some.2 (.inl ⟨hnull, rfl⟩)
  have hv' : variantList s' = some [s'] := variantList_eq_some.2 (.inl ⟨hnull', rfl⟩)
  rw [plan, hs, hs']
  dsimp only
  rw [resolvedPlan, hv, hv']
  dsimp only
  rw [if_pos (Bool.or_eq_true_iff.2 hsome)]
  exact .inl (.inl rfl)

/-- Every other pair leads to pairs with fewer levels. -/
theorem level_of_asks {n : ℕ} {next : Pair}
    (hlevel : Level policy policy' candidateRoot baselineRoot n pair)
    (hstuck : ¬ Stuck candidateRoot baselineRoot pair)
    (h : (plan candidateRoot baselineRoot pair).Asks R next) :
    ∃ n' < n, Level policy policy' candidateRoot baselineRoot n' next := by
  obtain ⟨room, room', rfl, hc, hb⟩ := hlevel
  unfold plan at h
  split at h
  · next s s' hs hs' =>
    replace hc := (accepted_of_resolveFrom hc hs).1
    replace hb := (accepted_of_resolveFrom hb hs').1
    unfold resolvedPlan at h
    split at h
    · next variants variants' hv hv' =>
      split_ifs at h with hany
      · -- one of the two is a union, and its variants have a level less
        obtain ⟨v', hmem', h⟩ := exists_of_asks_all h
        obtain ⟨v, hmem, h⟩ := exists_of_asks_any h
        cases h
        obtain ⟨r, hle, hlt, hall⟩ := accepted_variants hc hv
        obtain ⟨r', hle', hlt', hall'⟩ := accepted_variants hb hv'
        refine ⟨r + r', ?_, r, r', rfl, hall v hmem, hall' v' hmem'⟩
        by_cases hnull : Json.pyGet (lit "anyOf") s = .null
        · have hnull' : Json.pyGet (lit "anyOf") s' ≠ .null := fun hnull' =>
            hstuck ⟨s, s', hs, hs', hnull, hnull', Bool.or_eq_true_iff.1 hany⟩
          have := hlt' hnull'
          omega
        · have := hlt hnull
          omega
      · -- the parts of both have a level less
        cases room with
        | zero => exact hc.elim
        | succ room =>
          cases room' with
          | zero => exact hb.elim
          | succ room' =>
            obtain ⟨hchild, hchild'⟩ := children_of_asks hc hb h
            exact ⟨room + room', by omega, room, room', rfl, hchild, hchild'⟩
    · exact h.elim
  · exact h.elim

end

/-! ## The classification -/

/-- The schemas that a direction compares. -/
def sides (previous current : Members) : SchemaDirection → Pair
  | .input => (current, previous)
  | .output => (previous, current)

/-- The pairs that the comparison of a direction comes to. -/
def ComesTo (previous current : Members) (direction : SchemaDirection) : Pair → Prop :=
  let (candidateRoot, baselineRoot) := sides previous current direction
  Relation.ReflTransGen (fun pair next => (plan candidateRoot baselineRoot pair).Asks
    (fun p => Superset candidateRoot baselineRoot p.1 p.2) next) (candidateRoot, baselineRoot)

/-- The comparison of a direction, with any budget. -/
def comparison (depth : ℕ) (previous current : Members) (direction : SchemaDirection) :
    Comparison Bool :=
  let (candidate, baseline) := sides previous current direction
  isSuperset candidate baseline depth candidate baseline

/-- The classification of two schemas ends, whatever levels they have. -/
structure Terminates (hashing : Hashing) (policy policy' : SchemaPolicy)
    (previous current : Members) (direction : SchemaDirection) : Prop where
  /-- The nesting is bounded by the levels of the schemas, not by a budget. -/
  nested : ∀ room room', Accepted policy (definitionsOf (.obj previous)) room (.obj previous) →
    Accepted policy' (definitionsOf (.obj current)) room' (.obj current) →
      ∀ remaining, comparison (room + room') previous current direction remaining ≠ none
  /-- There is a verdict wherever so much nesting is possible. -/
  returns : ∀ room room', Accepted policy (definitionsOf (.obj previous)) room (.obj previous) →
    Accepted policy' (definitionsOf (.obj current)) room' (.obj current) →
      ∀ depth ≥ room + room',
        ∃ change, classifySchemaChange hashing depth previous current direction = some change
  /-- An unchanged schema is not compared. -/
  unchanged : previous = current →
    ∀ depth, classifySchemaChange hashing depth previous current direction = some .identical

section

variable {hashing : Hashing} {policy policy' : SchemaPolicy} {previous current : Members}
  {direction : SchemaDirection} {path path' : Text} {u u' : Unit}

/-- An accepted schema has a fingerprint. -/
theorem fingerprint_of_validateSchema {schema : Json}
    (h : validateSchema hashing.writer policy schema path = .ok u) :
    ∃ digest, hashing.fingerprint schema = some digest := by
  cases schema with
  | null | bool | int | float | str | arr => cases h
  | obj members =>
    rw [validateSchema] at h
    split at h
    · cases h
    · next encoded hencoded =>
      obtain ⟨hencodable, -⟩ := lastCheck_eq_ok.1 h
      refine ⟨(hashing.sha256 encoded).text, ?_⟩
      rw [Hashing.fingerprint, hencoded]
      exact if_pos (not_not.1 hencodable)

/-- The schemas of a comparison have the levels of both. -/
theorem level_sides {room room' : ℕ}
    (hp : Accepted policy (definitionsOf (.obj previous)) room (.obj previous))
    (hc : Accepted policy' (definitionsOf (.obj current)) room' (.obj current)) :
    ∃ p p', Level p p' (sides previous current direction).1 (sides previous current direction).2
      (room + room') (sides previous current direction) := by
  cases direction with
  | input => exact ⟨policy', policy, room', room, Nat.add_comm _ _, hc, hp⟩
  | output => exact ⟨policy, policy', room, room', rfl, hp, hc⟩

theorem comparison_eq_eval (depth : ℕ) : comparison depth previous current direction =
    eval (plan (sides previous current direction).1 (sides previous current direction).2) depth
      (sides previous current direction) :=
  isSuperset_eq_eval depth

theorem compatibility_eq_comparison (depth : ℕ) :
    compatibility depth previous current direction =
      comparison depth previous current direction 10000 := by
  cases direction <;> rfl

/-- On every budget, the comparison is nested as its levels allow exactly when it
    comes to no pair that is stuck. -/
theorem comparison_ne_none_iff {room room' : ℕ}
    (hp : Accepted policy (definitionsOf (.obj previous)) room (.obj previous))
    (hc : Accepted policy' (definitionsOf (.obj current)) room' (.obj current)) :
    (∀ remaining, comparison (room + room') previous current direction remaining ≠ none) ↔
      ∀ pair, ComesTo previous current direction pair →
        ¬ Stuck (sides previous current direction).1 (sides previous current direction).2 pair := by
  obtain ⟨p, p', hlevel⟩ := @level_sides _ _ _ _ direction _ _ hp hc
  rw [comparison_eq_eval, ← within_iff superset_iff_holds]
  exact within_iff_of_level (fun _ => not_level_zero) (fun _ => stuck_asks)
    (fun _ _ _ => level_of_asks) hlevel

/-- The classification of accepted schemas ends exactly when their comparison
    comes to no pair that is stuck. -/
theorem terminates_iff
    (hprevious : validateSchema hashing.writer policy (.obj previous) path = .ok u)
    (hcurrent : validateSchema hashing.writer policy' (.obj current) path' = .ok u') :
    Terminates hashing policy policy' previous current direction ↔
      ∀ pair, ComesTo previous current direction pair →
        ¬ Stuck (sides previous current direction).1 (sides previous current direction).2 pair := by
  have hp := (accepted_of_validateSchema hprevious).1
  have hc := (accepted_of_validateSchema hcurrent).1
  obtain ⟨digest, hdigest⟩ := fingerprint_of_validateSchema hprevious
  obtain ⟨digest', hdigest'⟩ := fingerprint_of_validateSchema hcurrent
  refine ⟨fun h => (comparison_ne_none_iff hp hc).1 (h.nested _ _ hp hc), fun h => ?_⟩
  have hnested {room room' : ℕ}
      (hp : Accepted policy (definitionsOf (.obj previous)) room (.obj previous))
      (hc : Accepted policy' (definitionsOf (.obj current)) room' (.obj current)) :=
    (comparison_ne_none_iff hp hc).2 h
  refine ⟨fun room room' hp hc => hnested hp hc, fun room room' hp hc depth hdepth => ?_, ?_⟩
  -- Equal digests are answered without a comparison.
  · by_cases heq : digest = digest'
    · exact ⟨.identical, classifySchemaChange_eq_some.2
        ⟨digest, digest', hdigest, hdigest', .inl ⟨heq, rfl⟩⟩⟩
    · obtain ⟨⟨v, rest⟩, hv⟩ := Option.ne_none_iff_exists'.1 (hnested hp hc 10000)
      rw [comparison_eq_eval] at hv
      -- What 10000 nested calls answer, more of them answer as well.
      replace hv := eval_mono hv hdepth
      rw [← comparison_eq_eval, ← compatibility_eq_comparison] at hv
      exact ⟨_, classifySchemaChange_eq_some.2
        ⟨digest, digest', hdigest, hdigest', .inr ⟨heq, v, rest, hv, rfl⟩⟩⟩
  · rintro rfl depth
    exact classifySchemaChange_eq_some.2 ⟨digest, digest, hdigest, hdigest, .inl ⟨rfl, rfl⟩⟩

end

/-- The classification of two closed objects ends. -/
theorem terminates_example : Terminates releaseHashing {} {} (closedSchema 1) (closedSchema 2) .input := by
  have hvalid (n : ℕ) (h : n ∈ [1, 2]) :
      validateSchema releaseHashing.writer {} (.obj (closedSchema n)) (lit "input_schema") = .ok () := by
    revert n
    decide +kernel
  refine (terminates_iff (hvalid 1 (by decide)) (hvalid 2 (by decide))).2 fun pair hpair => ?_
  have hplan : plan (closedSchema 2) (closedSchema 1) (closedSchema 2, closedSchema 1) =
      .and (.answer true) (.and (.answer true) (.answer true)) := rfl
  rcases hpair.cases_head with heq | ⟨next, hasks, -⟩
  · subst heq
    rintro ⟨s, s', hs, hs', -, -, hsome⟩
    cases (show some (closedSchema 2) = some s from hs)
    cases (show some (closedSchema 1) = some s' from hs')
    exact absurd hsome (by decide)
  · rw [hplan] at hasks
    rcases hasks with h | ⟨-, h | ⟨-, h⟩⟩ <;> exact h.elim

/-- What becomes of the comparison of a pair that asks for itself first. -/
theorem eval_self {plan : Pair → Plan Pair} {pair : Pair}
    (h : plan pair = .and (.or (.ask pair) (.answer false)) (.answer true)) (depth : ℕ)
    (remaining : ℕ) : eval plan depth pair remaining =
      if depth ≤ remaining then none else some (false, -1) := by
  induction depth generalizing remaining with
  | zero => exact (if_pos (Nat.zero_le _)).symm
  | succ depth ih =>
    cases remaining with
    | zero => rfl
    | succ remaining =>
      have hnext : ((remaining + 1 : ℕ) : ℤ) - 1 = remaining := by omega
      rw [eval_succ (by omega), h, run_and, run_or, hnext]
      have hask : (Plan.ask pair).run (eval plan depth) (remaining : ℤ) =
          eval plan depth pair remaining := rfl
      rw [hask, ih]
      -- The question left before the budget goes on, so the depth decides.
      by_cases hle : depth ≤ remaining
      · rw [if_pos hle, if_pos (Nat.succ_le_succ hle)]
      · simp only [if_neg hle, if_neg fun hlt => hle (Nat.le_of_succ_le_succ hlt)]
        rfl

/-- A closed object whose `anyOf` is null. -/
def nullUnion : Members :=
  [(lit "additionalProperties", .bool false), (lit "anyOf", .null),
    (lit "type", .str (lit "object"))]

/-- The same object with a description. -/
def describedUnion : Members :=
  (lit "description", .str []) :: nullUnion

/-- SHA-256, on the documents of both. -/
def nullUnionHashing : Hashing where
  writer := .plain
  sha256 document :=
    if document = JsonWriter.plain.render (.obj nullUnion) then
      ⟨lit "2a4f6eb968e8e3705d4d323f33287849aa11c611af2e4d0078e1b647bbd22d57", by decide +kernel⟩
    else ⟨lit "c832fa7fcfa9968a067a570cc6e5c49a15b5e684f674aa85f7de550c97ed8056", by decide +kernel⟩

/-- A description is added to an object whose `anyOf` is null: both schemas are
    accepted, and their classification raises, unless ten thousand nested calls
    are possible, in which case the budget is exhausted. -/
theorem unchanged_raises :
    validateSchema nullUnionHashing.writer {} (.obj nullUnion) (lit "input_schema") = .ok () ∧
      validateSchema nullUnionHashing.writer {} (.obj describedUnion) (lit "input_schema") = .ok () ∧
      (∀ depth ≤ 10000,
        classifySchemaChange nullUnionHashing depth nullUnion describedUnion .input = none) ∧
      (∀ depth > 10000,
        classifySchemaChange nullUnionHashing depth nullUnion describedUnion .input =
          some .breaking) := by
  -- A null `anyOf` is both a reason to look for variants and no list of them, so the pair asks
  -- for itself until the depth or the budget is used up.
  have hplan : plan describedUnion nullUnion (describedUnion, nullUnion) =
      .and (.or (.ask (describedUnion, nullUnion)) (.answer false)) (.answer true) := rfl
  have hcompare (depth : ℕ) : compatibility depth nullUnion describedUnion .input =
      if depth ≤ 10000 then none else some (false, -1) := by
    rw [compatibility, isSuperset_eq_eval]
    exact eval_self hplan depth 10000
  have hclassify (depth : ℕ) :
      classifySchemaChange nullUnionHashing depth nullUnion describedUnion .input =
        (compatibility depth nullUnion describedUnion .input).map fun r =>
          if r.1 then .nonBreaking else .breaking := by
    -- The two schemas have different digests, so the comparison is made.
    have hprevious : nullUnionHashing.fingerprint (.obj nullUnion) =
        some (lit "2a4f6eb968e8e3705d4d323f33287849aa11c611af2e4d0078e1b647bbd22d57") := by
      decide +kernel
    have hcurrent : nullUnionHashing.fingerprint (.obj describedUnion) =
        some (lit "c832fa7fcfa9968a067a570cc6e5c49a15b5e684f674aa85f7de550c97ed8056") := by
      decide +kernel
    rw [classifySchemaChange, hprevious, hcurrent]
    simp only [Option.bind_eq_bind, Option.bind_some]
    rw [if_neg (by decide)]
    cases compatibility depth nullUnion describedUnion .input <;> rfl
  refine ⟨by decide +kernel, by decide +kernel, fun depth hdepth => ?_, fun depth hdepth => ?_⟩
  · rw [hclassify, hcompare, if_pos hdepth]
    rfl
  · rw [hclassify, hcompare, if_neg hdepth.not_ge]
    rfl

end Schema

end McpRuntime
