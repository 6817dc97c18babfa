import McpRuntime.Schema.Compatibility
import Mathlib.Order.FixedPoints

/-!
# The relation of schemas that a comparison decides

Without its budget, `_is_superset` is a relation of schemas: `Superset`, the
least one that relates two nodes when their keywords do and the subschemas that
are compared are related. It is least because a comparison that goes on forever
finds nothing.

* `Decides`: a comparison has the verdict of a proposition, unless its budget is
  exhausted or it raises; how the comparisons are put together (`Decides.and`,
  `decides_all`, `decides_any`).
* `isSuperset_decides`: `_is_superset` decides `Superset`.
* `superset_induction`: what the comparisons of nodes preserve.
-/

namespace McpRuntime

namespace Schema

/-! ## What a comparison decides -/

/-- A comparison has the verdict of a proposition: it succeeds only if the
    proposition holds, and then it does unless the budget is exhausted. -/
def Decides (x : Comparison Bool) (P : Prop) : Prop :=
  ∀ remaining v rest, x remaining = some (v, rest) →
    rest ≤ remaining ∧ (v = true → P) ∧ (0 ≤ rest → P → v = true)

variable {x y : Comparison Bool} {P Q : Prop}

theorem Decides.congr (h : Decides x P) (hPQ : P ↔ Q) : Decides x Q := by
  intro remaining v rest hx
  obtain ⟨hle, hsound, hcomplete⟩ := h remaining v rest hx
  exact ⟨hle, fun hv => hPQ.1 (hsound hv), fun h0 hQ => hcomplete h0 (hPQ.2 hQ)⟩

theorem decides_verdict {b : Bool} (h : b = true ↔ P) : Decides (.verdict b) P := by
  intro remaining v rest hx
  cases hx
  exact ⟨le_rfl, h.1, fun _ => h.2⟩

theorem decides_false (h : ¬ P) : Decides (.verdict false) P :=
  decides_verdict ⟨nofun, fun hP => absurd hP h⟩

/-- A call decides nothing, and fails only when the budget is exhausted. -/
theorem decides_consume : Decides .consume True := by
  intro remaining v rest hx
  cases hx
  exact ⟨by omega, fun _ => trivial, fun h0 _ => decide_eq_true h0⟩

/-- A comparison that is made only after the first one succeeds. -/
theorem Decides.and (hx : Decides x P) (hy : P → Decides y Q) : Decides (x.and y) (P ∧ Q) := by
  intro remaining v rest h
  rw [Comparison.and] at h
  split at h
  · next rest₁ h₁ =>
    obtain ⟨hle, hP, -⟩ := hx _ _ _ h₁
    obtain ⟨hle', hQ, hcomplete⟩ := hy (hP rfl) _ _ _ h
    exact ⟨hle'.trans hle, fun hv => ⟨hP rfl, hQ hv⟩, fun h0 hPQ => hcomplete h0 hPQ.2⟩
  · next hfail =>
    obtain rfl : v = false := by
      cases v with
      | false => rfl
      | true => exact absurd h (hfail rest)
    obtain ⟨hle, -, hcomplete⟩ := hx _ _ _ h
    exact ⟨hle, nofun, fun h0 hPQ => hcomplete h0 hPQ.1⟩

/-- A check before a comparison, which the proposition demands. -/
theorem Decides.check {b : Bool} (hb : P → b = true) (hx : b = true → Decides x P) :
    Decides (if !b then .verdict false else x) P := by
  cases b with
  | false => exact decides_false fun hP => Bool.false_ne_true (hb hP)
  | true => exact hx rfl

variable {α : Type} {f : α → Comparison Bool} {R : α → Prop}

theorem decides_all {l : List α} (h : ∀ a ∈ l, Decides (f a) (R a)) :
    Decides (.all f l) (∀ a ∈ l, R a) := by
  induction l with
  | nil => exact decides_verdict ⟨fun _ => nofun, fun _ => rfl⟩
  | cons a l ih =>
    rw [List.forall_mem_cons] at h
    exact (h.1.and fun _ => ih h.2).congr List.forall_mem_cons.symm

theorem decides_any {l : List α} (h : ∀ a ∈ l, Decides (f a) (R a)) :
    Decides (.any f l) (∃ a ∈ l, R a) := by
  induction l with
  | nil => exact decides_false fun ⟨_, ha, _⟩ => nomatch ha
  | cons a l ih =>
    rw [List.forall_mem_cons] at h
    intro remaining v rest hx
    rw [Comparison.any] at hx
    dsimp only at hx
    split at hx
    · next rest₁ h₁ =>
      obtain ⟨hle, -, hcomplete⟩ := h.1 _ _ _ h₁
      obtain ⟨hle', hsound, hcomplete'⟩ := ih h.2 _ _ _ hx
      refine ⟨hle'.trans hle, fun hv => ?_, fun h0 hR => hcomplete' h0 ?_⟩
      · obtain ⟨a', ha', hRa'⟩ := hsound hv
        exact ⟨a', List.mem_cons_of_mem _ ha', hRa'⟩
      · -- the first element was compared within the budget, and failed
        obtain ⟨a', ha', hRa'⟩ := hR
        rcases List.mem_cons.1 ha' with rfl | ha'
        · exact absurd (hcomplete (h0.trans hle') hRa') Bool.false_ne_true
        · exact ⟨a', ha', hRa'⟩
    · next hsucceed =>
      obtain rfl : v = true := by
        cases v with
        | false => exact absurd hx (hsucceed rest)
        | true => rfl
      obtain ⟨hle, hsound, -⟩ := h.1 _ _ _ hx
      exact ⟨hle, fun _ => ⟨a, List.mem_cons_self, hsound rfl⟩, fun _ _ => rfl⟩

/-! ## Related nodes -/

section

variable (child : Members → Members → Prop)

/-- The comparison of what two objects say about other properties. -/
def AdditionalSuperset (candidateAdditional baselineAdditional : Json) : Prop :=
  match baselineAdditional, candidateAdditional with
  | .bool false, _ => True
  | _, .bool false => False
  | .obj baselineAdditional, .obj candidateAdditional => child candidateAdditional baselineAdditional
  | .obj _, .null => True
  | .obj _, _ => False
  | _, .obj _ => False
  | _, _ => True

/-- The keywords of two object schemas are related. -/
structure ObjectSuperset (candidate baseline : Members) : Prop where
  required : ∃ names names', requiredNames candidate = some names ∧
    requiredNames baseline = some names' ∧ ∀ name ∈ names, name ∈ names'
  declared : (declaredProperties candidate).isSome
  properties : ∃ properties, declaredProperties baseline = some properties ∧
    ∀ m ∈ properties, ∃ s, propertySchema candidate m.1 = some s ∧ child s m.2
  additional : AdditionalSuperset child (Json.pyGet (lit "additionalProperties") candidate)
    (Json.pyGet (lit "additionalProperties") baseline)
  minProperties : minimumIsWider (lit "minProperties") candidate baseline = true
  maxProperties : maximumIsWider (lit "maxProperties") candidate baseline = true
  propertyNames : propertyNamesAreWider candidate baseline = true

/-- The keywords of two array schemas are related. -/
structure ArraySuperset (candidate baseline : Members) : Prop where
  items : ∃ s s', Json.pyGet (lit "items") candidate = .obj s ∧
    Json.pyGet (lit "items") baseline = .obj s' ∧ child s s'
  minItems : minimumIsWider (lit "minItems") candidate baseline = true
  maxItems : maximumIsWider (lit "maxItems") candidate baseline = true
  uniqueItems : Json.pyGet (lit "uniqueItems") candidate = .bool true →
    Json.pyGet (lit "uniqueItems") baseline = .bool true

/-- The keywords of two schemas without variants are related. -/
structure TypedSuperset (candidate baseline : Members) : Prop where
  type : ∃ t t', Json.pyGet (lit "type") candidate = .str t ∧
    Json.pyGet (lit "type") baseline = .str t' ∧ (t = t' ∨ t = lit "number" ∧ t' = lit "integer")
  values : allowsEveryValue candidate baseline = true
  unknown : sameUnknownConstraints candidate baseline = true
  string : Json.pyGet (lit "type") candidate = .str (lit "string") →
    stringIsSuperset candidate baseline = true
  number : Json.pyGet (lit "type") candidate = .str (lit "integer") ∨
    Json.pyGet (lit "type") candidate = .str (lit "number") →
      numberIsSuperset candidate baseline = true
  array : Json.pyGet (lit "type") candidate = .str (lit "array") →
    ArraySuperset child candidate baseline
  object : Json.pyGet (lit "type") candidate = .str (lit "object") →
    ObjectSuperset child candidate baseline

/-- Two schemas without references are related: each variant of the baseline is
    covered by a variant of the candidate. -/
structure ResolvedSuperset (candidate baseline : Members) : Prop where
  variants : ∃ variants variants', variantList candidate = some variants ∧
    variantList baseline = some variants' ∧
      ((Json.get (lit "anyOf") candidate).isSome ∨ (Json.get (lit "anyOf") baseline).isSome →
        ∀ v' ∈ variants', ∃ v ∈ variants, child v v')
  typed : Json.get (lit "anyOf") candidate = none → Json.get (lit "anyOf") baseline = none →
    TypedSuperset child candidate baseline

/-- Two schemas are related when the schemas that they refer to are. -/
def supersetStep (candidateRoot baselineRoot candidate baseline : Members) : Prop :=
  ∃ s s', resolve candidateRoot candidate = some s ∧ resolve baselineRoot baseline = some s' ∧
    ResolvedSuperset child s s'

end

variable {child child' : Members → Members → Prop} {compare : Members → Members → Comparison Bool}
  {candidateRoot baselineRoot candidate baseline : Members}

theorem AdditionalSuperset.mono (h : ∀ c b, child c b → child' c b) {c b : Json}
    (ha : AdditionalSuperset child c b) : AdditionalSuperset child' c b := by
  unfold AdditionalSuperset at ha ⊢
  split at ha
  all_goals first | exact ha.elim | exact h _ _ ha | trivial

theorem ObjectSuperset.mono (h : ∀ c b, child c b → child' c b)
    (ho : ObjectSuperset child candidate baseline) : ObjectSuperset child' candidate baseline where
  __ := ho
  properties := by
    obtain ⟨properties, hproperties, hall⟩ := ho.properties
    refine ⟨properties, hproperties, fun m hm => ?_⟩
    obtain ⟨s, hs, hchild⟩ := hall m hm
    exact ⟨s, hs, h _ _ hchild⟩
  additional := ho.additional.mono h

theorem ArraySuperset.mono (h : ∀ c b, child c b → child' c b)
    (ha : ArraySuperset child candidate baseline) : ArraySuperset child' candidate baseline where
  __ := ha
  items := by
    obtain ⟨s, s', hs, hs', hchild⟩ := ha.items
    exact ⟨s, s', hs, hs', h _ _ hchild⟩

/-- Related nodes stay related when more subschemas are. -/
theorem ResolvedSuperset.mono (h : ∀ c b, child c b → child' c b)
    (hr : ResolvedSuperset child candidate baseline) :
    ResolvedSuperset child' candidate baseline where
  variants := by
    obtain ⟨variants, variants', hv, hv', hall⟩ := hr.variants
    refine ⟨variants, variants', hv, hv', fun hany v' hmem' => ?_⟩
    obtain ⟨v, hmem, hchild⟩ := hall hany v' hmem'
    exact ⟨v, hmem, h _ _ hchild⟩
  typed hc hb :=
    let ht := hr.typed hc hb
    { ht with
      array := fun htype => (ht.array htype).mono h
      object := fun htype => (ht.object htype).mono h }

theorem supersetStep_mono (candidateRoot baselineRoot : Members) :
    Monotone fun child => supersetStep child candidateRoot baselineRoot := by
  intro child child' h candidate baseline ⟨s, s', hs, hs', hr⟩
  exact ⟨s, s', hs, hs', hr.mono h⟩

/-- The relation of schemas that `_is_superset` decides. -/
def Superset (candidateRoot baselineRoot : Members) : Members → Members → Prop :=
  OrderHom.lfp ⟨_, supersetStep_mono candidateRoot baselineRoot⟩

theorem superset_iff : Superset candidateRoot baselineRoot candidate baseline ↔
    supersetStep (Superset candidateRoot baselineRoot) candidateRoot baselineRoot candidate
      baseline :=
  iff_of_eq (congrFun (congrFun
    (OrderHom.map_lfp ⟨_, supersetStep_mono candidateRoot baselineRoot⟩).symm candidate) baseline)

/-- What the comparisons of nodes preserve holds of all related schemas. -/
theorem superset_induction {R : Members → Members → Prop}
    (step : ∀ candidate baseline, supersetStep (fun c b => R c b ∧ Superset candidateRoot baselineRoot c b)
      candidateRoot baselineRoot candidate baseline → R candidate baseline)
    (h : Superset candidateRoot baselineRoot candidate baseline) : R candidate baseline := by
  have hle : Superset candidateRoot baselineRoot ≤
      fun c b => R c b ∧ Superset candidateRoot baselineRoot c b :=
    OrderHom.lfp_le _ fun c b hs => ⟨step c b hs,
      superset_iff.2 (supersetStep_mono candidateRoot baselineRoot (fun _ _ => And.right) c b hs)⟩
  exact (hle candidate baseline h).1

/-! ## The comparison decides the relation -/

theorem additional_decides (h : ∀ c b, Decides (compare c b) (child c b)) :
    Decides (additionalIsSuperset compare candidate baseline)
      (AdditionalSuperset child (Json.pyGet (lit "additionalProperties") candidate)
        (Json.pyGet (lit "additionalProperties") baseline)) := by
  unfold additionalIsSuperset AdditionalSuperset
  dsimp only
  generalize Json.pyGet (lit "additionalProperties") candidate = c
  generalize Json.pyGet (lit "additionalProperties") baseline = b
  rcases b with _ | (_ | _) | _ | _ | _ | _ | _ <;> rcases c with _ | (_ | _) | _ | _ | _ | _ | _
  all_goals first
    | exact h _ _
    | exact decides_false id
    | exact decides_verdict ⟨fun _ => trivial, fun _ => rfl⟩

theorem object_decides (h : ∀ c b, Decides (compare c b) (child c b)) :
    Decides (objectIsSuperset compare candidate baseline)
      (ObjectSuperset child candidate baseline) := by
  rw [objectIsSuperset]
  split
  · next names names' hnames hnames' =>
    have hrequired : (names.all fun name => names'.contains name) = true ↔
        ∀ name ∈ names, name ∈ names' := by
      simp only [List.all_eq_true, List.contains_iff_mem]
    have hof (ho : ObjectSuperset child candidate baseline) : ∀ name ∈ names, name ∈ names' := by
      obtain ⟨n, n', hn, hn', hsub⟩ := ho.required
      cases hnames.symm.trans hn
      cases hnames'.symm.trans hn'
      exact hsub
    refine .check (fun ho => hrequired.2 (hof ho)) fun hsub => ?_
    split
    · next properties properties' hproperties hproperties' =>
      refine ((decides_all (R := fun m => ∃ s, propertySchema candidate m.1 = some s ∧ child s m.2)
        fun m _ => ?_).and fun _ => (additional_decides h).and fun _ =>
          decides_verdict Iff.rfl).congr ?_
      · split
        · next s hs =>
          exact (h s m.2).congr
            ⟨fun hchild => ⟨s, hs, hchild⟩, by
              rintro ⟨_, hs', hchild⟩
              exact Option.some.inj (hs.symm.trans hs') ▸ hchild⟩
        · next hs =>
          refine decides_false ?_
          rintro ⟨_, hs', _⟩
          cases hs.symm.trans hs'
      rw [Bool.and_eq_true, Bool.and_eq_true]
      refine ⟨?_, fun ho => ?_⟩
      · rintro ⟨hall, hadditional, ⟨hmin, hmax⟩, hwider⟩
        exact ⟨⟨names, names', hnames, hnames', hrequired.1 hsub⟩, by rw [hproperties]; rfl,
          ⟨properties', hproperties', hall⟩, hadditional, hmin, hmax, hwider⟩
      · obtain ⟨ps, hps, hall⟩ := ho.properties
        cases hproperties'.symm.trans hps
        exact ⟨hall, ho.additional, ⟨ho.minProperties, ho.maxProperties⟩, ho.propertyNames⟩
    · next hnot =>
      refine decides_false fun ho => ?_
      obtain ⟨ps, hps, -⟩ := ho.properties
      obtain ⟨ps', hps'⟩ := Option.isSome_iff_exists.1 ho.declared
      exact hnot ps' ps hps' hps
  · next hnot =>
    refine decides_false fun ho => ?_
    obtain ⟨n, n', hn, hn', -⟩ := ho.required
    exact hnot n n' hn hn'

theorem array_decides (h : ∀ c b, Decides (compare c b) (child c b)) :
    Decides (arrayIsSuperset compare candidate baseline) (ArraySuperset child candidate baseline) := by
  rw [arrayIsSuperset]
  split
  · next s s' hs hs' =>
    have hunique {j : Json} : isTrue j = true ↔ j = .bool true := by
      cases j <;> simp [isTrue]
    refine ((decides_verdict Iff.rfl).and fun _ => h s s').congr ?_
    rw [Bool.and_eq_true, Bool.and_eq_true, Bool.not_and, Bool.not_not, Bool.or_eq_true,
      Bool.not_eq_true', ← Bool.not_eq_true, hunique, hunique]
    refine ⟨fun ⟨⟨⟨hmin, hmax⟩, hu⟩, hchild⟩ => ?_, fun ha => ?_⟩
    · exact ⟨⟨s, s', hs, hs', hchild⟩, hmin, hmax, fun htrue => hu.resolve_left fun hn => hn htrue⟩
    · obtain ⟨i, i', hi, hi', hchild⟩ := ha.items
      cases hs.symm.trans hi
      cases hs'.symm.trans hi'
      exact ⟨⟨⟨ha.minItems, ha.maxItems⟩, (Classical.em _).symm.imp_right ha.uniqueItems⟩, hchild⟩
  · next hnot =>
    refine decides_false fun ha => ?_
    obtain ⟨i, i', hi, hi', -⟩ := ha.items
    exact hnot i i' hi hi'

theorem typed_decides (h : ∀ c b, Decides (compare c b) (child c b)) :
    Decides (typedIsSuperset compare candidate baseline) (TypedSuperset child candidate baseline) := by
  rw [typedIsSuperset]
  split
  · next t t' ht ht' =>
    have htype (hs : TypedSuperset child candidate baseline) :
        t = t' ∨ t = lit "number" ∧ t' = lit "integer" := by
      obtain ⟨u, u', hu, hu', hor⟩ := hs.type
      cases ht.symm.trans hu
      cases ht'.symm.trans hu'
      exact hor
    have hof {u : Text} : Json.pyGet (lit "type") candidate = .str u ↔ t = u := by
      rw [ht, Json.str.injEq]
    split
    · next hdiffer =>
      refine decides_false fun hs => ?_
      rcases htype hs with rfl | ⟨rfl, rfl⟩
      · simp at hdiffer
      · simp at hdiffer
    · next hsame =>
      refine .check (fun hs => hs.values) fun hvalues => .check (fun hs => hs.unknown) fun hunknown => ?_
      have htype' : t = t' ∨ t = lit "number" ∧ t' = lit "integer" := by
        simpa [or_iff_not_imp_left] using hsame
      have hiff : TypedSuperset child candidate baseline ↔
          (t = lit "string" → stringIsSuperset candidate baseline = true) ∧
          (t = lit "integer" ∨ t = lit "number" → numberIsSuperset candidate baseline = true) ∧
          (t = lit "array" → ArraySuperset child candidate baseline) ∧
          (t = lit "object" → ObjectSuperset child candidate baseline) := by
        rw [← hof, ← hof, ← hof, ← hof, ← hof]
        exact ⟨fun hs => ⟨hs.string, hs.number, hs.array, hs.object⟩, fun ⟨hs, hn, ha, ho⟩ =>
          ⟨⟨t, t', ht, ht', htype'⟩, hvalues, hunknown, hs, hn, ha, ho⟩⟩
      rw [hiff]
      -- the keywords of the other types do not matter
      split_ifs with hstring hnumber harray hobject
      · subst hstring
        exact decides_verdict ⟨fun hb => ⟨fun _ => hb, fun he => absurd he (by decide),
          fun he => absurd he (by decide), fun he => absurd he (by decide)⟩, fun hs => hs.1 rfl⟩
      · rw [Bool.or_eq_true, decide_eq_true_iff, decide_eq_true_iff] at hnumber
        refine decides_verdict ⟨fun hb => ⟨fun he => absurd he hstring, fun _ => hb, fun he => ?_,
          fun he => ?_⟩, fun hs => hs.2.1 hnumber⟩
        all_goals
          rw [he] at hnumber
          exact absurd hnumber (by decide)
      · rw [Bool.or_eq_true, decide_eq_true_iff, decide_eq_true_iff] at hnumber
        subst harray
        exact (array_decides h).congr ⟨fun ha => ⟨fun he => absurd he hstring,
          fun he => absurd he hnumber, fun _ => ha, fun he => absurd he (by decide)⟩,
          fun hs => hs.2.2.1 rfl⟩
      · rw [Bool.or_eq_true, decide_eq_true_iff, decide_eq_true_iff] at hnumber
        exact (object_decides h).congr ⟨fun ho => ⟨fun he => absurd he hstring,
          fun he => absurd he hnumber, fun he => absurd he harray, fun _ => ho⟩,
          fun hs => hs.2.2.2 hobject⟩
      · rw [Bool.or_eq_true, decide_eq_true_iff, decide_eq_true_iff] at hnumber
        exact decides_verdict ⟨fun _ => ⟨fun he => absurd he hstring, fun he => absurd he hnumber,
          fun he => absurd he harray, fun he => absurd he hobject⟩, fun _ => rfl⟩
  · next hnot =>
    refine decides_false fun hs => ?_
    obtain ⟨t, t', ht, ht', -⟩ := hs.type
    exact hnot t t' ht ht'

theorem resolved_decides (h : ∀ c b, Decides (compare c b) (child c b)) :
    Decides (resolvedIsSuperset compare candidate baseline)
      (ResolvedSuperset child candidate baseline) := by
  rw [resolvedIsSuperset]
  split
  · next variants variants' hv hv' =>
    split
    · next hany =>
      rw [Bool.or_eq_true] at hany
      refine (decides_all fun v' _ => decides_any fun v _ => h v v').congr ⟨fun hall => ?_, fun hr => ?_⟩
      · refine ⟨⟨variants, variants', hv, hv', fun _ => hall⟩, fun hc hb => ?_⟩
        rw [hc, hb] at hany
        exact absurd hany (by decide)
      · obtain ⟨us, us', hus, hus', hall⟩ := hr.variants
        cases hv.symm.trans hus
        cases hv'.symm.trans hus'
        exact hall hany
    · next hnone =>
      rw [Bool.or_eq_true, not_or, Option.not_isSome_iff_eq_none, Option.not_isSome_iff_eq_none] at hnone
      refine (typed_decides h).congr ⟨fun ht => ?_, fun hr => hr.typed hnone.1 hnone.2⟩
      refine ⟨⟨variants, variants', hv, hv', fun hany => ?_⟩, fun _ _ => ht⟩
      rw [hnone.1, hnone.2] at hany
      exact absurd hany (by decide)
  · next hnot =>
    refine decides_false fun hr => ?_
    obtain ⟨us, us', hus, hus', -⟩ := hr.variants
    exact hnot us us' hus hus'

/-- `_is_superset` decides the relation, however deep it may be nested. -/
theorem isSuperset_decides (depth : ℕ) :
    Decides (isSuperset candidateRoot baselineRoot depth candidate baseline)
      (Superset candidateRoot baselineRoot candidate baseline) := by
  induction depth generalizing candidate baseline with
  | zero => exact fun _ _ _ h => nomatch h
  | succ depth ih =>
    rw [isSuperset]
    refine (decides_consume.and (Q := Superset candidateRoot baselineRoot candidate baseline)
      fun _ => ?_).congr ⟨And.right, fun hs => ⟨trivial, hs⟩⟩
    rw [superset_iff, supersetStep]
    split
    · next s s' hs hs' =>
      refine (resolved_decides fun _ _ => ih).congr ⟨fun hr => ⟨s, s', hs, hs', hr⟩, ?_⟩
      rintro ⟨r, r', hr, hr', hresolved⟩
      cases hs.symm.trans hr
      cases hs'.symm.trans hr'
      exact hresolved
    · next hnot => exact decides_false fun ⟨s, s', hs, hs', _⟩ => hnot s s' hs hs'

/-! ## The budget of a comparison -/

/-- A comparison that begins within the budget and succeeds ends within it. -/
def Solvent (x : Comparison Bool) : Prop :=
  ∀ remaining rest, x remaining = some (true, rest) → 0 ≤ remaining → 0 ≤ rest

theorem solvent_verdict {b : Bool} : Solvent (.verdict b) := by
  intro remaining rest h h0
  cases h
  exact h0

theorem Solvent.and (hx : Solvent x) (hy : Solvent y) : Solvent (x.and y) := by
  intro remaining rest h h0
  rw [Comparison.and] at h
  split at h
  · next rest₁ h₁ => exact hy _ _ h (hx _ _ h₁ h0)
  · next hfail => exact absurd h (hfail rest)

theorem Solvent.check {b : Bool} (hx : Solvent x) :
    Solvent (if b then .verdict false else x) := by
  cases b with
  | false => exact hx
  | true => exact solvent_verdict

theorem solvent_all {l : List α} (h : ∀ a, Solvent (f a)) : Solvent (.all f l) := by
  induction l with
  | nil => exact solvent_verdict
  | cons a l ih => exact (h a).and ih

/-- What is compared last has succeeded, and so within the budget. -/
theorem solvent_any {l : List α}
    (h : ∀ a remaining rest, f a remaining = some (true, rest) → 0 ≤ rest) :
    Solvent (.any f l) := by
  suffices hany : ∀ remaining rest, Comparison.any f l remaining = some (true, rest) → 0 ≤ rest from
    fun remaining rest hx _ => hany remaining rest hx
  intro remaining rest hx
  induction l generalizing remaining with
  | nil => cases hx
  | cons a l ih =>
    rw [Comparison.any] at hx
    dsimp only at hx
    split at hx
    · next rest₁ _ => exact ih rest₁ hx
    · exact h a _ _ hx

section

variable (h : ∀ c b remaining rest, compare c b remaining = some (true, rest) → 0 ≤ rest)
include h

theorem additional_solvent : Solvent (additionalIsSuperset compare candidate baseline) := by
  unfold additionalIsSuperset
  dsimp only
  split
  case h_3 => exact fun remaining rest hx _ => h _ _ remaining rest hx
  all_goals exact solvent_verdict

theorem object_solvent : Solvent (objectIsSuperset compare candidate baseline) := by
  rw [objectIsSuperset]
  split
  · refine .check ?_
    split
    · refine (solvent_all fun m => ?_).and ((additional_solvent h).and solvent_verdict)
      split
      · exact fun remaining rest hx _ => h _ _ remaining rest hx
      · exact solvent_verdict
    · exact solvent_verdict
  · exact solvent_verdict

theorem array_solvent : Solvent (arrayIsSuperset compare candidate baseline) := by
  rw [arrayIsSuperset]
  split
  · exact solvent_verdict.and fun remaining rest hx _ => h _ _ remaining rest hx
  · exact solvent_verdict

theorem resolved_solvent : Solvent (resolvedIsSuperset compare candidate baseline) := by
  rw [resolvedIsSuperset]
  split
  · split
    · exact solvent_all fun v' => solvent_any fun v => h v v'
    · rw [typedIsSuperset]
      split
      · refine .check (.check (.check ?_))
        split_ifs
        · exact solvent_verdict
        · exact solvent_verdict
        · exact array_solvent h
        · exact object_solvent h
        · exact solvent_verdict
      · exact solvent_verdict
  · exact solvent_verdict

end

/-- A call is made within the budget only. -/
theorem Solvent.consume {remaining rest : ℤ} (hx : Solvent x)
    (h : Comparison.consume.and x remaining = some (true, rest)) : 0 ≤ rest := by
  rw [Comparison.and, Comparison.consume] at h
  rcases lt_or_ge (remaining - 1) 0 with hneg | hpos
  · rw [decide_eq_false hneg.not_ge] at h
    cases h
  · rw [decide_eq_true hpos] at h
    exact hx _ _ h hpos

/-- `_is_superset` succeeds within its budget only. -/
theorem isSuperset_solvent {depth : ℕ} {remaining rest : ℤ}
    (h : isSuperset candidateRoot baselineRoot depth candidate baseline remaining =
      some (true, rest)) : 0 ≤ rest := by
  induction depth generalizing candidate baseline remaining rest with
  | zero => cases h
  | succ depth ih =>
    rw [isSuperset] at h
    refine Solvent.consume ?_ h
    split
    · exact resolved_solvent fun _ _ _ _ => ih
    · exact solvent_verdict

/-! ## The classification -/

/-- The relation that the comparison of a direction decides. -/
def Compatible (previous current : Members) : SchemaDirection → Prop
  | .input => Superset current previous current previous
  | .output => Superset previous current previous current

/-- The comparison of a direction stays within its budget. -/
def WithinBudget (depth : ℕ) (previous current : Members) (direction : SchemaDirection) : Prop :=
  ∃ v rest, compatibility depth previous current direction = some (v, rest) ∧ 0 ≤ rest

variable {hashing : Hashing} {depth : ℕ} {previous current : Members}
  {direction : SchemaDirection}

theorem compatibility_decides {v : Bool} {rest : ℤ}
    (h : compatibility depth previous current direction = some (v, rest)) :
    (v = true → Compatible previous current direction) ∧
      (0 ≤ rest → Compatible previous current direction → v = true) := by
  cases direction with
  | input => exact (isSuperset_decides depth _ _ _ h).2
  | output => exact (isSuperset_decides depth _ _ _ h).2

/-- A comparison that finds the schemas compatible stays within its budget. -/
theorem withinBudget_of_compatibility {rest : ℤ}
    (h : compatibility depth previous current direction = some (true, rest)) :
    WithinBudget depth previous current direction := by
  refine ⟨true, rest, h, ?_⟩
  cases direction with
  | input => exact isSuperset_solvent h
  | output => exact isSuperset_solvent h

/-- The classification compares two schemas whose fingerprints differ. -/
theorem classifySchemaChange_eq_some {change : SchemaChange} :
    classifySchemaChange hashing depth previous current direction = some change ↔
      ∃ digest digest', hashing.fingerprint (.obj previous) = some digest ∧
        hashing.fingerprint (.obj current) = some digest' ∧
          (digest = digest' ∧ change = .identical ∨ digest ≠ digest' ∧
            ∃ v rest, compatibility depth previous current direction = some (v, rest) ∧
              change = if v then .nonBreaking else .breaking) := by
  rw [classifySchemaChange]
  simp only [Option.bind_eq_bind, Option.bind_eq_some_iff]
  refine exists_congr fun digest => ?_
  constructor
  · rintro ⟨hprevious, digest', hcurrent, h⟩
    refine ⟨digest', hprevious, hcurrent, ?_⟩
    split_ifs at h with heq
    · exact .inl ⟨heq, (Option.some.inj h).symm⟩
    · obtain ⟨⟨v, rest⟩, hcompare, h⟩ := Option.bind_eq_some_iff.1 h
      exact .inr ⟨heq, v, rest, hcompare, (Option.some.inj h).symm⟩
  · rintro ⟨digest', hprevious, hcurrent, ⟨heq, rfl⟩ | ⟨hne, v, rest, hcompare, rfl⟩⟩
    · exact ⟨hprevious, digest', hcurrent, if_pos heq⟩
    · refine ⟨hprevious, digest', hcurrent, ?_⟩
      rw [if_neg hne, hcompare]
      rfl

/-- Schemas whose change is not breaking are the same, or a comparison within its budget
    has found them compatible. -/
theorem same_or_compatible {change : SchemaChange}
    (h : classifySchemaChange hashing depth previous current direction = some change)
    (hchange : change ≠ .breaking)
    (hcollision : hashing.NoCollision (.obj previous) (.obj current)) :
    (Json.obj previous).Same (.obj current) ∨
      hashing.fingerprint (.obj previous) ≠ hashing.fingerprint (.obj current) ∧
        WithinBudget depth previous current direction ∧ Compatible previous current direction := by
  obtain ⟨digest, digest', hprevious, hcurrent, ⟨rfl, -⟩ | ⟨hne, v, rest, hcompare, rfl⟩⟩ :=
    classifySchemaChange_eq_some.1 h
  · exact .inl (Hashing.same_of_fingerprint hprevious hcurrent hcollision)
  · cases v with
    | false => exact absurd rfl hchange
    | true =>
      refine .inr ⟨?_, withinBudget_of_compatibility hcompare,
        (compatibility_decides hcompare).1 rfl⟩
      rwa [hprevious, hcurrent, Ne, Option.some.injEq]

/-- The change between schemas that are the same or compatible is not breaking. -/
theorem classify_of_compatible {digest digest' : Text}
    (hprevious : hashing.fingerprint (.obj previous) = some digest)
    (hcurrent : hashing.fingerprint (.obj current) = some digest')
    (hbudget : digest ≠ digest' → WithinBudget depth previous current direction)
    (h : digest = digest' ∨ Compatible previous current direction) :
    ∃ change, classifySchemaChange hashing depth previous current direction = some change ∧
      change ≠ .breaking := by
  by_cases heq : digest = digest'
  · exact ⟨.identical, classifySchemaChange_eq_some.2
      ⟨digest, digest', hprevious, hcurrent, .inl ⟨heq, rfl⟩⟩, nofun⟩
  · obtain ⟨v, rest, hcompare, hrest⟩ := hbudget heq
    obtain rfl := (compatibility_decides hcompare).2 hrest (h.resolve_left heq)
    exact ⟨.nonBreaking, classifySchemaChange_eq_some.2
      ⟨digest, digest', hprevious, hcurrent, .inr ⟨heq, true, rest, hcompare, rfl⟩⟩, nofun⟩

end Schema

end McpRuntime
