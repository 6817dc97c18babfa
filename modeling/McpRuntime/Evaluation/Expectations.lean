import McpRuntime.Evaluation.Pointer

/-!
# Expectations

What a case expects of a result is a value, or assertions about parts of it. The
code judges both by the equality of Python, by which a boolean equals a number, and
judges assertions without looking at whether there is a result.

* `Json.MeetsNumber`: a boolean of one value is where the other has the number that
  it converts to.
* `EvaluationExpectation.Satisfied`: a completed result satisfies the expectation, by the
  equality of JSON.
* `satisfied_iff_plain`: an expectation that is judged passed is satisfied exactly
  when the result is completed, no pointer is misread and no boolean is taken for a
  number.
* `failed_and_passed`: a cancelled call that passes.
-/

namespace McpRuntime

namespace Json

/-! ## Booleans and numbers -/

/-- At some depth, a boolean of one value is where the other has the number that it
    converts to. -/
inductive MeetsNumber : Json → Json → Prop
  | left {b : Bool} {j : Json} : j.number = some (if b then 1 else 0) → MeetsNumber (.bool b) j
  | right {b : Bool} {j : Json} : j.number = some (if b then 1 else 0) → MeetsNumber j (.bool b)
  | item {items items' : List Json} {j j' : Json} : (j, j') ∈ items.zip items' → MeetsNumber j j' →
      MeetsNumber (.arr items) (.arr items')
  | member {members members' : List (Text × Json)} {m : Text × Json} {j' : Json} : m ∈ members →
      get m.1 members' = some j' → MeetsNumber m.2 j' → MeetsNumber (.obj members) (.obj members')

/-- A scalar in which a boolean is a number. -/
def Scalar.loosen : Scalar → Scalar
  | .bool b => .number (if b then 1 else 0)
  | x => x

theorem scalar_true (a : Json) : a.scalar true = (a.scalar false).map Scalar.loosen := by
  cases a with
  | float x => cases h : x.isFinite <;> simp [scalar, h, Scalar.loosen]
  | null | bool | int | str | arr | obj => rfl

/-- Values that are equal in JSON are equal in Python. -/
theorem pyEq_of_equal {a b : Json} (h : Equal a b) : a.pyEq b = true := by
  induction a using Json.induct generalizing b with
  | null | bool | int | float | str =>
    rw [Equal, equalWith_scalar rfl] at h
    rw [pyEq, equalWith_scalar (scalar_true _), scalar_true, h]
    rfl
  | arr items ih =>
    cases b with
    | arr items' =>
      rw [Equal, equalWith_arr, List.forall₂_iff_zip] at h
      rw [pyEq, equalWith_arr, List.forall₂_iff_zip]
      exact ⟨h.1, fun hmem => ih _ (List.of_mem_zip hmem).1 (h.2 hmem)⟩
    | obj => cases h
    | null | bool | int | float | str => exact absurd h (by simp [equalWith, scalar])
  | obj members ih =>
    cases b with
    | obj members' =>
      rw [Equal, equalWith_obj] at h
      rw [pyEq, equalWith_obj]
      refine ⟨h.1, fun m hm => ?_⟩
      obtain ⟨j', hj', hequal⟩ := h.2 m hm
      exact ⟨j', hj', ih m hm hequal⟩
    | arr => cases h
    | null | bool | int | float | str => exact absurd h (by simp [equalWith, scalar])

/-- Only a boolean is a number in Python and none in JSON. -/
theorem scalar_false_cases (a : Json) :
    (∃ b, a = .bool b) ∨ (a.scalar false = a.scalar true ∧ ∀ q, a.scalar true = some (.number q) →
      a.number = some q) := by
  cases a with
  | bool b => exact .inl ⟨b, rfl⟩
  | int n => exact .inr ⟨rfl, fun q h => congrArg some (Scalar.number.inj (Option.some.inj h))⟩
  | float x =>
    refine .inr ⟨rfl, fun q h => ?_⟩
    rw [scalar] at h
    rw [number]
    split_ifs at h ⊢ with hfinite
    · exact congrArg some (Scalar.number.inj (Option.some.inj h))
    · cases h
  | null | str | arr | obj => exact .inr ⟨rfl, fun q h => by cases h⟩

/-- Scalars that are equal in Python are equal in JSON unless one is a boolean and the
    other is a number. -/
theorem equal_scalar_iff {a b : Json} (hscalar : (a.scalar true).isSome = true)
    (h : a.pyEq b = true) : Equal a b ↔ ¬ MeetsNumber a b := by
  obtain ⟨x, ha⟩ := Option.isSome_iff_exists.1 hscalar
  have hb : b.scalar true = some x := (equalWith_scalar ha).1 h
  obtain ⟨y, hy, -⟩ := Option.map_eq_some_iff.1 ((scalar_true a).symm.trans ha)
  rw [Equal, equalWith_scalar hy, ← hy]
  rcases scalar_false_cases a with ⟨p, rfl⟩ | ⟨hafalse, hanumber⟩
  · rcases scalar_false_cases b with ⟨q, rfl⟩ | ⟨hbfalse, hbnumber⟩
    · -- a boolean is the only one with its number
      have hpq : q = p := by
        have hnumber := Scalar.number.inj (Option.some.inj (hb.trans ha.symm))
        cases p <;> cases q <;> first | rfl | exact absurd hnumber (by norm_num)
      subst hpq
      refine iff_of_true rfl fun h => ?_
      cases h with
      | left h => cases h
      | right h => cases h
    · refine iff_of_false (fun h => ?_) fun h => h (.left (hbnumber _ (hb.trans ha.symm)))
      cases (hbfalse.symm.trans h).symm.trans (hb.trans ha.symm)
  · rcases scalar_false_cases b with ⟨q, rfl⟩ | ⟨hbfalse, hbnumber⟩
    · refine iff_of_false (fun h => ?_) fun h => h (.right (hanumber _ (ha.trans hb.symm)))
      cases (hafalse.symm.trans h.symm).symm.trans (ha.trans hb.symm)
    · refine iff_of_true (hbfalse.trans (hb.trans (ha.symm.trans hafalse.symm))) fun h => ?_
      cases h with
      | left => cases hafalse
      | right => cases hbfalse
      | item | member => cases ha

/-- Values that are equal in Python are equal in JSON unless a boolean is where the
    other has a number. -/
theorem equal_iff_of_pyEq {a b : Json} (h : a.pyEq b = true) : Equal a b ↔ ¬ MeetsNumber a b := by
  induction a using Json.induct generalizing b with
  | null | bool | int | float | str =>
    exact equal_scalar_iff rfl h
  | arr items ih =>
    cases b with
    | arr items' =>
      rw [pyEq, equalWith_arr, List.forall₂_iff_zip] at h
      rw [Equal, equalWith_arr, List.forall₂_iff_zip, and_iff_right h.1]
      constructor
      · intro hequal hmeets
        cases hmeets with
        | item hmem hmeets => exact (ih _ (List.of_mem_zip hmem).1 (h.2 hmem)).1 (hequal hmem) hmeets
      · intro hmeets j j' hmem
        exact (ih _ (List.of_mem_zip hmem).1 (h.2 hmem)).2 fun hitem => hmeets (.item hmem hitem)
    | obj => cases h
    | null | bool | int | float | str => exact absurd h (by simp [equalWith, scalar])
  | obj members ih =>
    cases b with
    | obj members' =>
      rw [pyEq, equalWith_obj] at h
      rw [Equal, equalWith_obj, and_iff_right h.1]
      constructor
      · intro hequal hmeets
        cases hmeets with
        | @member _ _ m j' hm hget hmeets =>
          obtain ⟨j'', hj'', hloose⟩ := h.2 m hm
          obtain ⟨k, hk, hstrict⟩ := hequal m hm
          obtain rfl := Option.some.inj (hget.symm.trans hj'')
          obtain rfl := Option.some.inj (hget.symm.trans hk)
          exact (ih m hm hloose).1 hstrict hmeets
      · intro hmeets m hm
        obtain ⟨j', hj', hloose⟩ := h.2 m hm
        exact ⟨j', hj', (ih m hm hloose).2 fun hmember => hmeets (.member hm hj' hmember)⟩
    | arr => cases h
    | null | bool | int | float | str => exact absurd h (by simp [equalWith, scalar])

end Json

namespace Evaluation

/-! ## Satisfied expectations -/

/-- The call ended with a result: it was not cancelled, and is no error. -/
def EvaluationObservation.Completed (observation : EvaluationObservation) : Prop :=
  observation.cancelled = false ∧ observation.errorCode = none

/-- A value contains another one: a text has it as a part, an array as an item and an
    object as a key. -/
inductive Contains : Json → Json → Prop
  | part {t part : Text} : t.hasPart part = true → Contains (.str t) (.str part)
  | item {items : List Json} {j value : Json} : j ∈ items → Json.Equal value j →
      Contains (.arr items) value
  | key {members : List (Text × Json)} {key : Text} : (Json.get key members).isSome = true →
      Contains (.obj members) (.str key)

/-- The document is as the assertion says. -/
def EvaluationAssertion.Satisfied (assertion : EvaluationAssertion) (document : Json) : Prop :=
  let value := rfc6901 document assertion.pointer
  match assertion.operator with
  | .exists => ∃ j, value = some j
  | .absent => value = none
  | .equals => ∃ j, value = some j ∧ Json.Equal j assertion.value
  | .notEquals => ∃ j, value = some j ∧ ¬ Json.Equal j assertion.value
  | .contains => ∃ j, value = some j ∧ Contains j assertion.value
  | .notContains => ∃ j, value = some j ∧ ¬ Contains j assertion.value

/-- The observation is a completed result that satisfies the expectation; nothing is
    said of the expectation of an error or of a cancellation. -/
def EvaluationExpectation.Satisfied (observation : EvaluationObservation) :
    EvaluationExpectation → Prop
  | .structuredResult value =>
    observation.Completed ∧ Json.Equal observation.structuredResult value
  | .assertions items => observation.Completed ∧
    ∀ assertion ∈ items, assertion.Satisfied observation.structuredResult
  | .error _ | .cancellation => True

/-! ## Plain expectations -/

variable (platform : Platform)

/-- No token of the pointer is misread, and the value that it designates does not equal
    or contain the value of the assertion only as a boolean is taken for a number. -/
structure EvaluationAssertion.Plain (assertion : EvaluationAssertion) (document : Json) : Prop where
  pointer : ¬ Misread platform (Text.split 47 assertion.pointer.tail) document
  equals : ∀ j, assertion.operator = .equals → rfc6901 document assertion.pointer = some j →
    ¬ j.MeetsNumber assertion.value
  contains : ∀ items, assertion.operator = .contains →
    rfc6901 document assertion.pointer = some (.arr items) →
      ∃ j ∈ items, assertion.value.pyEq j = true ∧ ¬ assertion.value.MeetsNumber j

/-- The result is completed, and is not what the expectation says only as a boolean is
    taken for a number or a token misread. A structured result is looked at only if it
    is completed. -/
def EvaluationExpectation.Plain (observation : EvaluationObservation) : EvaluationExpectation → Prop
  | .structuredResult value => ¬ observation.structuredResult.MeetsNumber value
  | .assertions items => observation.Completed ∧
    ∀ assertion ∈ items, assertion.Plain platform observation.structuredResult
  | .error _ | .cancellation => True

variable {platform} {assertion : EvaluationAssertion} {document j value : Json}

/-- All of a list pass a test when each does. -/
theorem allM_eq_true {α : Type} {test : α → Option Bool} {l : List α} :
    allM test l = some true ↔ ∀ a ∈ l, test a = some true := by
  induction l with
  | nil => simp [allM]
  | cons a l ih =>
    rw [allM, List.forall_mem_cons, ← ih]
    cases test a with
    | none => simp
    | some b => cases b <;> simp [pure]

/-- What is not contained in Python is not contained in JSON. -/
theorem not_contains_of_pyIn (h : pyIn value j = some false) : ¬ Contains j value := by
  intro hcontains
  cases hcontains with
  | part hpart => cases hpart.symm.trans (Option.some.inj h)
  | item hmem hequal =>
    have hany := List.any_eq_true.2 ⟨_, hmem, Json.pyEq_of_equal hequal⟩
    cases hany.symm.trans (Option.some.inj h)
  | key hkey => cases hkey.symm.trans (Option.some.inj h)

/-- What is contained in Python is contained in JSON, in an array unless all of its
    items that are equal in Python have a boolean for a number. -/
theorem contains_iff_of_pyIn (h : pyIn value j = some true) :
    Contains j value ↔ ∀ items, j = .arr items →
      ∃ item ∈ items, value.pyEq item = true ∧ ¬ value.MeetsNumber item := by
  cases j with
  | str t =>
    refine iff_of_true ?_ fun items hitems => by cases hitems
    cases value with
    | str part => exact .part (Option.some.inj h)
    | null | bool | int | float | arr | obj => cases h
  | arr items =>
    constructor
    · intro hcontains items' hitems
      obtain rfl := Json.arr.inj hitems
      cases hcontains with
      | item hmem hequal =>
        have hloose := Json.pyEq_of_equal hequal
        exact ⟨_, hmem, hloose, (Json.equal_iff_of_pyEq hloose).1 hequal⟩
    · intro hplain
      obtain ⟨item, hmem, hloose, hmeets⟩ := hplain items rfl
      exact .item hmem ((Json.equal_iff_of_pyEq hloose).2 hmeets)
  | obj members =>
    refine iff_of_true ?_ fun items hitems => by cases hitems
    cases value with
    | str key => exact .key (Option.some.inj h)
    | null | bool | int | float | arr | obj => cases h
  | null | bool | int | float => cases h

/-- What an assertion that passes is judged by. -/
inductive Passes (value : Json) : AssertionOperator → Option Json → Prop
  | exists {j : Json} : Passes value .exists (some j)
  | absent : Passes value .absent none
  | equals {j : Json} : j.pyEq value = true → Passes value .equals (some j)
  | notEquals {j : Json} : j.pyEq value = false → Passes value .notEquals (some j)
  | contains {j : Json} : pyIn value j = some true → Passes value .contains (some j)
  | notContains {j : Json} : pyIn value j = some false → Passes value .notContains (some j)

theorem passes_of_assertionPassed (h : assertionPassed platform assertion document = some true) :
    ∃ actual, resolvePointer platform document assertion.pointer = some actual ∧
      Passes assertion.value assertion.operator actual := by
  obtain ⟨actual, hactual, hpassed⟩ := Option.bind_eq_some_iff.1 h
  refine ⟨actual, hactual, ?_⟩
  cases hoperator : assertion.operator with
  | «exists» =>
    rw [hoperator] at hpassed
    cases actual with
    | none => cases hpassed
    | some j => exact .exists
  | absent =>
    rw [hoperator] at hpassed
    cases actual with
    | none => exact .absent
    | some j => cases hpassed
  | equals =>
    rw [hoperator] at hpassed
    cases actual with
    | none => cases hpassed
    | some j => exact .equals (Option.some.inj hpassed)
  | notEquals =>
    rw [hoperator] at hpassed
    cases actual with
    | none => cases hpassed
    | some j =>
      replace hpassed : (!j.pyEq assertion.value) = true := Option.some.inj hpassed
      rw [Bool.not_eq_true'] at hpassed
      exact .notEquals hpassed
  | contains =>
    -- Where `in` raises, the assertion does not pass.
    rw [hoperator] at hpassed
    cases actual with
    | none => cases hpassed
    | some j =>
      refine .contains ?_
      replace hpassed : (pyIn assertion.value j).getD false = true := Option.some.inj hpassed
      cases hin : pyIn assertion.value j with
      | none => cases hin ▸ hpassed
      | some b => exact congrArg some (by rwa [hin] at hpassed)
  | notContains =>
    rw [hoperator] at hpassed
    cases actual with
    | none => cases hpassed
    | some j =>
      refine .notContains ?_
      replace hpassed : ((pyIn assertion.value j).map not).getD false = true :=
        Option.some.inj hpassed
      cases hin : pyIn assertion.value j with
      | none => cases hin ▸ hpassed
      | some b =>
        replace hpassed : (!b) = true := by rwa [hin] at hpassed
        rw [Bool.not_eq_true'] at hpassed
        exact congrArg some hpassed

/-- Only an equality and a containment may take a boolean for a number. -/
theorem plain_of_operator {pointer : Text} {operator : AssertionOperator}
    (hmisread : ¬ Misread platform (Text.split 47 pointer.tail) document)
    (hequals : operator ≠ .equals) (hcontains : operator ≠ .contains) :
    EvaluationAssertion.Plain platform ⟨pointer, operator, value⟩ document where
  pointer := hmisread
  equals _ h := absurd h hequals
  contains _ h := absurd h hcontains

/-- An assertion that passes is satisfied exactly when it is plain. -/
theorem assertion_satisfied_iff (hvalid : assertion.Valid)
    (h : assertionPassed platform assertion document = some true) :
    assertion.Satisfied document ↔ assertion.Plain platform document := by
  obtain ⟨actual, hactual, hpasses⟩ := passes_of_assertionPassed h
  have hmisread := resolve_iff_not_misread platform document hvalid.pointer
  have hdesignated {j : Json} (hj : rfc6901 document assertion.pointer = some j) : actual = some j :=
    Option.some.inj (hactual.symm.trans (resolvePointer_of_rfc6901 platform hvalid.pointer.2 hj))
  rw [hactual, Option.some_inj] at hmisread
  obtain ⟨pointer, operator, value⟩ := assertion
  dsimp only at hpasses hmisread hdesignated
  -- Either the document has what was read under the pointer, and the operator decides, or the
  -- pointer was misread.
  by_cases hread : actual = rfc6901 document pointer
  · have hplain := hmisread.1 hread
    have hunique {j j' : Json} (hj : some j = rfc6901 document pointer)
        (hj' : rfc6901 document pointer = some j') : j' = j :=
      Option.some.inj (hj'.symm.trans hj.symm)
    cases hpasses with
    | «exists» =>
      exact iff_of_true ⟨_, hread.symm⟩ (plain_of_operator hplain (by decide) (by decide))
    | absent => exact iff_of_true hread.symm (plain_of_operator hplain (by decide) (by decide))
    | notEquals hne =>
      refine iff_of_true ⟨_, hread.symm, fun hequal => ?_⟩
        (plain_of_operator hplain (by decide) (by decide))
      cases hne.symm.trans (Json.pyEq_of_equal hequal)
    | notContains hnot =>
      exact iff_of_true ⟨_, hread.symm, not_contains_of_pyIn hnot⟩
        (plain_of_operator hplain (by decide) (by decide))
    | @equals j hloose =>
      -- Equality of Python is that of JSON where no boolean stands for a number.
      have hequal := Json.equal_iff_of_pyEq hloose
      constructor
      · rintro ⟨j', hj', hsame⟩
        rw [hunique hread hj'] at hsame
        refine ⟨hplain, fun j' _ hj' => ?_, (fun _ hcontains => by cases hcontains)⟩
        rw [hunique hread hj']
        exact hequal.1 hsame
      · intro h
        exact ⟨j, hread.symm, hequal.2 (h.equals j rfl hread.symm)⟩
    | @contains j hin =>
      have hcontains := contains_iff_of_pyIn hin
      constructor
      · rintro ⟨j', hj', hcontained⟩
        rw [hunique hread hj'] at hcontained
        refine ⟨hplain, (fun _ hequals => by cases hequals), fun items _ hitems => ?_⟩
        exact hcontains.1 hcontained items (hunique hread hitems).symm
      · intro h
        refine ⟨j, hread.symm, hcontains.2 fun items hitems => ?_⟩
        exact h.contains items rfl (hread.symm.trans (congrArg some hitems))
  · -- the assertion is about a value that its pointer does not designate
    have hnone : rfc6901 document pointer = none := by
      cases hvalue : rfc6901 document pointer with
      | none => rfl
      | some j => exact absurd ((hdesignated hvalue).trans hvalue.symm) hread
    refine iff_of_false (fun hsatisfied => ?_) fun hplain => hread (hmisread.2 hplain.pointer)
    cases hpasses with
    | absent => exact hread hnone.symm
    | «exists» =>
      obtain ⟨j, hj⟩ := hsatisfied
      cases hnone.symm.trans hj
    | equals | notEquals | contains | notContains =>
      obtain ⟨j, hj, -⟩ := hsatisfied
      cases hnone.symm.trans hj

/-- An expectation that is judged passed is satisfied exactly when it is plain. -/
theorem satisfied_iff_plain (platform : Platform) {expectation : EvaluationExpectation}
    {observation : EvaluationObservation} (hvalid : expectation.Valid)
    (h : expectationPassed platform expectation observation = some true) :
    expectation.Satisfied observation ↔ expectation.Plain platform observation := by
  cases expectation with
  | structuredResult value =>
    have hpassed := Option.some.inj h
    simp only [Bool.and_eq_true, Bool.not_eq_true', Option.isNone_iff_eq_none] at hpassed
    exact (and_iff_right hpassed.1).trans (Json.equal_iff_of_pyEq hpassed.2)
  | assertions items =>
    have hpassed := allM_eq_true.1 h
    refine and_congr_right fun _ => forall₂_congr fun assertion hmem => ?_
    exact assertion_satisfied_iff (hvalid.2 assertion hmem) (hpassed assertion hmem)
  | error | cancellation => exact Iff.rfl

/-! ## Examples -/

/-- A result of one member. -/
def memberResult : EvaluationObservation where
  structuredResult := .obj [(lit "ok", .bool true)]
  schemaValid := true

/-- An assertion about the member, by an operator and a value. -/
def memberAssertion (operator : AssertionOperator) (value : Json) : EvaluationExpectation :=
  .assertions [⟨lit "/ok", operator, value⟩]

/-- The member is a boolean, as the assertion says. -/
theorem satisfied_iff_plain_example :
    (memberAssertion .equals (.bool true)).Satisfied memberResult := by
  have hdesignated : designated (Text.split 47 (lit "ok")) memberResult.structuredResult =
      some (.bool true) := rfl
  refine (satisfied_iff_plain superscriptPlatform (by decide) rfl).2 ⟨⟨rfl, rfl⟩, ?_⟩
  rw [List.forall_mem_singleton]
  refine ⟨not_misread_of_designated hdesignated, fun j _ hj hmeets => ?_, fun _ h => by cases h⟩
  obtain rfl := Option.some.inj (hdesignated.symm.trans hj)
  cases hmeets with
  | left h => cases h
  | right h => cases h

/-- A cancelled call passes an assertion about what is absent, and a boolean passes for
    a number. -/
theorem failed_and_passed :
    (expectationPassed superscriptPlatform (memberAssertion .absent .null)
        { cancelled := true, schemaValid := true } = some true ∧
      ¬ (memberAssertion .absent .null).Satisfied { cancelled := true, schemaValid := true }) ∧
    expectationPassed superscriptPlatform (.structuredResult (.obj [(lit "ok", .int 1)]))
        memberResult = some true ∧
      ¬ (EvaluationExpectation.structuredResult (.obj [(lit "ok", .int 1)])).Satisfied memberResult := by
  refine ⟨⟨rfl, fun h => by cases h.1.1⟩, rfl, fun h => ?_⟩
  cases h.2

end Evaluation

end McpRuntime
