import McpRuntime.Tool.Manifest
import McpRuntime.Python.JsonEquality
import McpRuntime.Python.DateTime

/-!
# Evaluation bundles

The cases of an evaluation and the policy for promotion, with what their models
check (`EvaluationBundle.Valid`), their document, and the binding of the artifacts
that were evaluated. A bundle may have been made without the checks, so the code
validates it again (`revalidate`), which puts its sets in order.
-/

namespace McpRuntime

namespace Evaluation

/-! ## Enumerations -/

/-- `AssertionOperator`. -/
inductive AssertionOperator
  | equals
  | notEquals
  | «exists»
  | absent
  | contains
  | notContains
  deriving DecidableEq

def AssertionOperator.value : AssertionOperator → Text
  | .equals => lit "equals"
  | .notEquals => lit "not_equals"
  | .exists => lit "exists"
  | .absent => lit "absent"
  | .contains => lit "contains"
  | .notContains => lit "not_contains"

/-- `EvaluationMetric`. -/
inductive EvaluationMetric
  | correctness
  | schemaConformance
  | secretLeakage
  | tenantIsolation
  | authorizationDenial
  | idempotency
  | latency
  | availability
  deriving DecidableEq

namespace EvaluationMetric

def value : EvaluationMetric → Text
  | correctness => lit "correctness"
  | schemaConformance => lit "schema_conformance"
  | secretLeakage => lit "secret_leakage"
  | tenantIsolation => lit "tenant_isolation"
  | authorizationDenial => lit "authorization_denial"
  | idempotency => lit "idempotency"
  | latency => lit "latency"
  | availability => lit "availability"

/-- The metrics, in the order of their definition. -/
def all : List EvaluationMetric :=
  [correctness, schemaConformance, secretLeakage, tenantIsolation, authorizationDenial, idempotency,
    latency, availability]

theorem value_inj : Function.Injective value := by
  intro metric metric' h
  cases metric <;> cases metric' <;> first | rfl | exact absurd h (by decide)

end EvaluationMetric

/-- `EvaluationMode`. -/
inductive EvaluationMode
  | inProcess
  | streamableHttp
  deriving DecidableEq

def EvaluationMode.value : EvaluationMode → Text
  | .inProcess => lit "in_process"
  | .streamableHttp => lit "streamable_http"

theorem EvaluationMode.value_inj : Function.Injective EvaluationMode.value := by
  intro mode mode' h
  cases mode <;> cases mode' <;> first | rfl | exact absurd h (by decide)

/-- `PromotionStage`. -/
inductive PromotionStage
  | experimental
  | internal
  | ga
  deriving DecidableEq

def PromotionStage.value : PromotionStage → Text
  | .experimental => lit "experimental"
  | .internal => lit "internal"
  | .ga => lit "ga"

/-- `ReviewerRole`. -/
inductive ReviewerRole
  | evaluationOwner
  | securityReviewer
  | registryOwner
  | releaseReviewer
  deriving DecidableEq

def ReviewerRole.value : ReviewerRole → Text
  | .evaluationOwner => lit "evaluation_owner"
  | .securityReviewer => lit "security_reviewer"
  | .registryOwner => lit "registry_owner"
  | .releaseReviewer => lit "release_reviewer"

/-! ## Patterns and bounds -/

/-- A text of so many characters. -/
def Bounded (least most : ℕ) (t : Text) : Prop := least ≤ t.length ∧ t.length ≤ most

instance (least most : ℕ) (t : Text) : Decidable (Bounded least most t) :=
  inferInstanceAs (Decidable (_ ∧ _))

/-- `_IDENTIFIER.fullmatch`. -/
def isIdentifier (t : Text) : Bool :=
  let ends : CodePoint → Bool := fun c => c.isLower || c.isDigit
  t.length ≤ 128 && t.head?.any ends && t.getLast?.any ends &&
    t.all fun c => ends c || (lit "._-").contains c

/-- `0|[1-9][0-9]*` -/
def isDecimal (t : Text) : Bool := t.all CodePoint.isDigit && (t = [48] || t.head?.any (· ≠ 48))

/-- `_SEMVER.fullmatch`: the first alternative of the pattern is `0` by itself. -/
def isSemver (t : Text) : Bool :=
  let core := t.takeWhile (· ≠ 45)
  let label := t.dropWhile (· ≠ 45)
  t = [48] || ((match Text.split 46 core with
    | [major, minor, patch] => isDecimal major && major ≠ [48] && isDecimal minor && isDecimal patch
    | _ => false) &&
      (label.isEmpty || (label.length ≠ 1 &&
        label.tail.all fun c => c.isAlphanumeric || (lit ".-").contains c)))

/-- `_ISSUE.fullmatch`. -/
def isIssue (t : Text) : Bool :=
  let isName (name : Text) : Bool :=
    !name.isEmpty && name.all fun c => c.isAlphanumeric || (lit "_.-").contains c
  match Text.split 47 t with
  | [scheme, empty, host, owner, repository, issues, number] =>
    scheme = lit "https:" && empty.isEmpty && host = lit "github.com" && isName owner &&
      isName repository && issues = lit "issues" && isDecimal number && number ≠ [48]
  | _ => false

/-- `_DIGEST.fullmatch`. -/
def isArtifactDigest (t : Text) : Bool := (lit "sha256:").isPrefixOf t && isDigest (t.drop 7)

/-- `_TIMESTAMP.fullmatch`. -/
def isTimestamp (t : Text) : Bool :=
  let d := DateTime.ofFields t.dropLast
  d.isoformat ++ [90] = t && d.microsecond = 0 && 1900 ≤ d.year && d.year ≤ 2099 && 1 ≤ d.month &&
    d.month ≤ 12 && 1 ≤ d.day && d.day ≤ 31 && d.hour ≤ 23 && d.minute ≤ 59 && d.second ≤ 59

/-! ## The models -/

structure EvaluationApproval where
  required : Bool
  granted : Bool
  approvalId : Option Text := none

structure EvaluationContext where
  tenant : Text
  scopes : List Text
  approval : EvaluationApproval
  idempotencyKey : Option Text := none

structure EvaluationAssertion where
  pointer : Text
  operator : AssertionOperator
  value : Json := .null

/-- `EvaluationExpectation`. -/
inductive EvaluationExpectation
  | structuredResult (value : Json)
  | assertions (assertions : List EvaluationAssertion)
  | error (code : Text)
  | cancellation

def EvaluationExpectation.isError : EvaluationExpectation → Bool
  | error _ => true
  | _ => false

structure TelemetryExpectation where
  requiredEvents : List Text := []
  forbiddenEvents : List Text := []

structure EvaluationQuarantine where
  owner : Text
  issue : Text
  reason : Text

structure PromotionMetricGate where
  metric : EvaluationMetric
  minimumScore : PyFloat

structure PromotionStagePolicy where
  stage : PromotionStage
  gates : List PromotionMetricGate
  allowedModes : List EvaluationMode
  requiredReviewerRoles : List ReviewerRole
  minimumReviewers : ℕ
  allowQuarantine : Bool

structure EvaluationPromotionPolicy where
  stages : List PromotionStagePolicy

structure EvaluationCase where
  caseId : Text
  tool : Text
  arguments : List (Text × Json)
  expectation : EvaluationExpectation
  tags : List Text
  context : EvaluationContext
  metrics : List EvaluationMetric
  blockingMetrics : List EvaluationMetric
  telemetry : TelemetryExpectation := {}
  latencyBudgetMs : ℕ
  timeoutMs : ℕ := 60000
  attempts : ℕ := 1
  quarantine : Option EvaluationQuarantine := none

structure EvaluationBundle where
  name : Text
  version : Text
  cases : List EvaluationCase
  promotionPolicy : EvaluationPromotionPolicy

/-- The digests of the artifacts that are evaluated. -/
@[ext]
structure EvaluationArtifactBinding where
  sourceDigest : Text
  runtimeDigest : Text
  manifestDigest : Text
  imageDigest : Text
  datasetDigest : Text
  deriving DecidableEq

/-! ## Validation -/

/-- `_contains_value`. -/
def containsValue (expected : Text) : Json → Bool
  | .str t => t = expected
  | .arr items => containsItem items
  | .obj members => containsMember members
  | _ => false
where
  containsItem : List Json → Bool
    | [] => false
    | j :: items => containsValue expected j || containsItem items
  containsMember : List (Text × Json) → Bool
    | [] => false
    | (_, j) :: members => containsValue expected j || containsMember members

/-- `SECRET_CANARY_PLACEHOLDER`. -/
def secretCanaryPlaceholder : Text := lit "$\x7bTESSERIX_EVAL_SECRET_CANARY\x7d"

/-- `TENANT_CANARY_PLACEHOLDER`. -/
def tenantCanaryPlaceholder : Text := lit "$\x7bTESSERIX_EVAL_TENANT_CANARY\x7d"

@[mk_iff]
structure EvaluationApproval.Valid (approval : EvaluationApproval) : Prop where
  approvalId : ∀ id ∈ approval.approvalId, Bounded 1 128 id
  granted : approval.granted = approval.approvalId.isSome

instance (approval : EvaluationApproval) : Decidable approval.Valid :=
  decidable_of_iff _ approval.valid_iff.symm

@[mk_iff]
structure EvaluationContext.Valid (context : EvaluationContext) : Prop where
  tenant : Bounded 1 128 context.tenant
  scopes_le : context.scopes.length ≤ 64
  scopes : context.scopes.Nodup ∧ ∀ scope ∈ context.scopes, Bounded 1 128 scope
  approval : context.approval.Valid
  idempotencyKey : ∀ key ∈ context.idempotencyKey, Bounded 1 256 key

instance (context : EvaluationContext) : Decidable context.Valid :=
  decidable_of_iff _ context.valid_iff.symm

/-- `EvaluationAssertion.validate_value` looks at the value only where the operator
    is about existence. -/
@[mk_iff]
structure EvaluationAssertion.Valid (assertion : EvaluationAssertion) : Prop where
  pointer : Bounded 1 512 assertion.pointer ∧ assertion.pointer.head? = some 47
  value : assertion.operator = .exists ∨ assertion.operator = .absent →
    assertion.value matches .null

instance (assertion : EvaluationAssertion) : Decidable assertion.Valid :=
  decidable_of_iff _ assertion.valid_iff.symm

/-- The checks of the models of expectations. -/
def EvaluationExpectation.Valid : EvaluationExpectation → Prop
  | structuredResult _ | cancellation => True
  | assertions items => (1 ≤ items.length ∧ items.length ≤ 64) ∧ ∀ assertion ∈ items, assertion.Valid
  | error code => Bounded 1 128 code ∧ isIdentifier code

instance : DecidablePred EvaluationExpectation.Valid
  | .structuredResult _ | .cancellation => inferInstanceAs (Decidable True)
  | .assertions _ | .error _ => inferInstanceAs (Decidable (_ ∧ _))

@[mk_iff]
structure TelemetryExpectation.Valid (telemetry : TelemetryExpectation) : Prop where
  required : telemetry.requiredEvents.length ≤ 32 ∧ telemetry.requiredEvents.Nodup
  forbidden : telemetry.forbiddenEvents.length ≤ 32 ∧ telemetry.forbiddenEvents.Nodup
  disjoint : ∀ event ∈ telemetry.requiredEvents, event ∉ telemetry.forbiddenEvents
  identifiers : ∀ event ∈ telemetry.requiredEvents ++ telemetry.forbiddenEvents, isIdentifier event

instance (telemetry : TelemetryExpectation) : Decidable telemetry.Valid :=
  decidable_of_iff _ telemetry.valid_iff.symm

@[mk_iff]
structure EvaluationQuarantine.Valid (quarantine : EvaluationQuarantine) : Prop where
  owner : Bounded 1 128 quarantine.owner ∧ isIdentifier quarantine.owner
  issue : Bounded 1 512 quarantine.issue ∧ isIssue quarantine.issue
  reason : Bounded 1 512 quarantine.reason

instance (quarantine : EvaluationQuarantine) : Decidable quarantine.Valid :=
  decidable_of_iff _ quarantine.valid_iff.symm

@[mk_iff]
structure PromotionStagePolicy.Valid (policy : PromotionStagePolicy) : Prop where
  gates : policy.gates ≠ [] ∧ ∀ gate ∈ policy.gates,
    (PyFloat.finite 0).le gate.minimumScore ∧ gate.minimumScore.le (.finite 1)
  gates_unique : (policy.gates.map PromotionMetricGate.metric).Nodup
  allowedModes : policy.allowedModes ≠ [] ∧ policy.allowedModes.Nodup
  requiredReviewerRoles : policy.requiredReviewerRoles ≠ [] ∧ policy.requiredReviewerRoles.Nodup
  minimumReviewers : 1 ≤ policy.minimumReviewers ∧ policy.minimumReviewers ≤ 16

instance (policy : PromotionStagePolicy) : Decidable policy.Valid :=
  decidable_of_iff _ policy.valid_iff.symm

@[mk_iff]
structure EvaluationPromotionPolicy.Valid (policy : EvaluationPromotionPolicy) : Prop where
  length : 1 ≤ policy.stages.length ∧ policy.stages.length ≤ 3
  stages : ∀ stage ∈ policy.stages, stage.Valid
  stages_unique : (policy.stages.map PromotionStagePolicy.stage).Nodup

instance (policy : EvaluationPromotionPolicy) : Decidable policy.Valid :=
  decidable_of_iff _ policy.valid_iff.symm

/-- The constraints on the fields of a case, and `validate_metrics`. -/
@[mk_iff]
structure EvaluationCase.Valid (case : EvaluationCase) : Prop where
  caseId : Bounded 1 128 case.caseId ∧ isIdentifier case.caseId
  tool : Bounded 1 256 case.tool ∧ isIdentifier case.tool
  expectation : case.expectation.Valid
  tags : (1 ≤ case.tags.length ∧ case.tags.length ≤ 32) ∧ case.tags.Nodup ∧
    ∀ tag ∈ case.tags, isIdentifier tag
  context : case.context.Valid
  metrics : case.metrics ≠ [] ∧ case.metrics.Nodup
  blocking : case.blockingMetrics.Nodup ∧ case.blockingMetrics ⊆ case.metrics
  telemetry : case.telemetry.Valid
  times : (1 ≤ case.latencyBudgetMs ∧ case.latencyBudgetMs ≤ 60000) ∧
    (1 ≤ case.timeoutMs ∧ case.timeoutMs ≤ 60000) ∧ case.latencyBudgetMs ≤ case.timeoutMs
  attempts : 1 ≤ case.attempts ∧ case.attempts ≤ 10
  quarantine : ∀ quarantine ∈ case.quarantine, quarantine.Valid
  secretCanary : containsValue secretCanaryPlaceholder (.obj case.arguments) =
    decide (EvaluationMetric.secretLeakage ∈ case.metrics)
  tenantCanary : containsValue tenantCanaryPlaceholder (.obj case.arguments) =
    decide (EvaluationMetric.tenantIsolation ∈ case.metrics)
  idempotency : EvaluationMetric.idempotency ∈ case.metrics →
    2 ≤ case.attempts ∧ case.context.idempotencyKey.isSome
  denial : EvaluationMetric.authorizationDenial ∈ case.metrics → case.expectation.isError

instance (case : EvaluationCase) : Decidable case.Valid :=
  decidable_of_iff _ case.valid_iff.symm

/-- What the models of a bundle check. -/
@[mk_iff]
structure EvaluationBundle.Valid (bundle : EvaluationBundle) : Prop where
  name : Bounded 1 128 bundle.name ∧ isIdentifier bundle.name
  version : Bounded 5 64 bundle.version ∧ isSemver bundle.version
  length : 1 ≤ bundle.cases.length ∧ bundle.cases.length ≤ 1000
  cases : ∀ case ∈ bundle.cases, case.Valid
  promotionPolicy : bundle.promotionPolicy.Valid
  caseIds : (bundle.cases.map EvaluationCase.caseId).Nodup

instance (bundle : EvaluationBundle) : Decidable bundle.Valid :=
  decidable_of_iff _ bundle.valid_iff.symm

/-- `EvaluationPromotionPolicy.for_stage`, which raises `EvaluationContractError`. -/
def EvaluationPromotionPolicy.forStage (policy : EvaluationPromotionPolicy) (stage : PromotionStage) :
    Option PromotionStagePolicy :=
  policy.stages.find? fun p => p.stage = stage

/-! ## Documents -/

/-- What the code takes from the interpreter and from its library of models. -/
structure Platform where
  hashing : Hashing
  /-- The rounding of a division of integers. -/
  rounding : Rounding
  /-- `model_dump(mode="json")` of a `JsonValue`. -/
  dumpValue : Json → Json
  /-- `model_dump_json()` of a bundle. -/
  dumpJson : EvaluationBundle → Text
  /-- The characters beyond ASCII that belong to words. -/
  word : CodePoint → Bool
  /-- `str.isdigit` of a character. -/
  isDigit : CodePoint → Bool
  /-- The value of a character that `int` reads. -/
  decimal : CodePoint → Option ℕ

namespace Platform

variable (platform : Platform)

/-- `_canonical_json`, as the text that is encoded; not every value has one, and
    UTF-8 may not encode it. -/
def canonicalJson (value : Json) : Option Text :=
  let text := platform.hashing.writer.render value.sorted
  if platform.hashing.writer.refuses value ∨ ¬ text.Encodable then none else some text

/-- `_sha256`. -/
def sha256 (value : Json) : Option Text :=
  (platform.canonicalJson value).map fun text => lit "sha256:" ++ (platform.hashing.sha256 text).text

end Platform

/-- An optional text. -/
def optionalText : Option Text → Json
  | some t => .str t
  | none => .null

/-- A list of texts. -/
def texts (values : List Text) : Json := .arr (values.map .str)

def EvaluationApproval.document (approval : EvaluationApproval) : Json :=
  .obj [(lit "required", .bool approval.required), (lit "granted", .bool approval.granted),
    (lit "approval_id", optionalText approval.approvalId)]

def EvaluationContext.document (context : EvaluationContext) : Json :=
  .obj [(lit "tenant", .str context.tenant), (lit "scopes", texts context.scopes),
    (lit "approval", context.approval.document),
    (lit "idempotency_key", optionalText context.idempotencyKey)]

def TelemetryExpectation.document (telemetry : TelemetryExpectation) : Json :=
  .obj [(lit "required_events", texts telemetry.requiredEvents),
    (lit "forbidden_events", texts telemetry.forbiddenEvents)]

def EvaluationQuarantine.document (quarantine : EvaluationQuarantine) : Json :=
  .obj [(lit "owner", .str quarantine.owner), (lit "issue", .str quarantine.issue),
    (lit "reason", .str quarantine.reason)]

def PromotionMetricGate.document (gate : PromotionMetricGate) : Json :=
  .obj [(lit "metric", .str gate.metric.value), (lit "minimum_score", .float gate.minimumScore)]

def PromotionStagePolicy.document (policy : PromotionStagePolicy) : Json :=
  .obj [(lit "stage", .str policy.stage.value),
    (lit "gates", .arr (policy.gates.map PromotionMetricGate.document)),
    (lit "allowed_modes", texts (policy.allowedModes.map EvaluationMode.value)),
    (lit "required_reviewer_roles", texts (policy.requiredReviewerRoles.map ReviewerRole.value)),
    (lit "minimum_reviewers", .int policy.minimumReviewers),
    (lit "allow_quarantine", .bool policy.allowQuarantine)]

def EvaluationPromotionPolicy.document (policy : EvaluationPromotionPolicy) : Json :=
  .obj [(lit "stages", .arr (policy.stages.map PromotionStagePolicy.document))]

section

variable (platform : Platform)

def EvaluationAssertion.document (assertion : EvaluationAssertion) : Json :=
  .obj [(lit "pointer", .str assertion.pointer), (lit "operator", .str assertion.operator.value),
    (lit "value", platform.dumpValue assertion.value)]

def EvaluationExpectation.document : EvaluationExpectation → Json
  | structuredResult value =>
    .obj [(lit "kind", .str (lit "structured_result")), (lit "value", platform.dumpValue value)]
  | assertions items => .obj [(lit "kind", .str (lit "assertions")),
    (lit "assertions", .arr (items.map (EvaluationAssertion.document platform)))]
  | error code => .obj [(lit "kind", .str (lit "error")), (lit "code", .str code)]
  | cancellation => .obj [(lit "kind", .str (lit "cancellation"))]

def EvaluationCase.document (case : EvaluationCase) : Json :=
  .obj [(lit "schema_version", .int 1), (lit "case_id", .str case.caseId), (lit "tool", .str case.tool),
    (lit "arguments", .obj (case.arguments.map fun m => (m.1, platform.dumpValue m.2))),
    (lit "expectation", case.expectation.document platform), (lit "tags", texts case.tags),
    (lit "context", case.context.document),
    (lit "metrics", texts (case.metrics.map EvaluationMetric.value)),
    (lit "blocking_metrics", texts (case.blockingMetrics.map EvaluationMetric.value)),
    (lit "telemetry", case.telemetry.document), (lit "latency_budget_ms", .int case.latencyBudgetMs),
    (lit "timeout_ms", .int case.timeoutMs), (lit "attempts", .int case.attempts),
    (lit "quarantine", (case.quarantine.map EvaluationQuarantine.document).getD .null)]

def EvaluationBundle.document (bundle : EvaluationBundle) : Json :=
  .obj [(lit "schema_version", .int 1), (lit "name", .str bundle.name),
    (lit "version", .str bundle.version),
    (lit "cases", .arr (bundle.cases.map (EvaluationCase.document platform))),
    (lit "promotion_policy", bundle.promotionPolicy.document)]

/-- `EvaluationBundle.dataset_digest`. -/
def EvaluationBundle.datasetDigest (bundle : EvaluationBundle) : Option Text :=
  platform.sha256 (bundle.document platform)

/-! ## Validating again -/

/-- `sorted(items, key=str)`. -/
def sortedBy {α : Type} (str : α → Text) (items : List α) : List α :=
  items.insertionSort fun item item' => str item ≤ str item'

/-- `str` of the document of a gate. -/
def PromotionMetricGate.text (gate : PromotionMetricGate) : Text :=
  lit "\x7b'metric': '" ++ gate.metric.value ++ lit "', 'minimum_score': " ++
    platform.hashing.writer.floatText gate.minimumScore ++ lit "\x7d"

def EvaluationExpectation.reread : EvaluationExpectation → EvaluationExpectation
  | structuredResult value => structuredResult (platform.dumpValue value)
  | assertions items => assertions (items.map fun assertion =>
    { assertion with value := platform.dumpValue assertion.value })
  | error code => error code
  | cancellation => cancellation

/-- The case that is read from the document of a case, with its sets in order. -/
def EvaluationCase.reread (case : EvaluationCase) : EvaluationCase :=
  { case with
    arguments := case.arguments.map fun m => (m.1, platform.dumpValue m.2)
    expectation := case.expectation.reread platform
    tags := sortedBy id case.tags
    context := { case.context with scopes := sortedBy id case.context.scopes }
    metrics := sortedBy EvaluationMetric.value case.metrics
    blockingMetrics := sortedBy EvaluationMetric.value case.blockingMetrics
    telemetry := {
      requiredEvents := sortedBy id case.telemetry.requiredEvents
      forbiddenEvents := sortedBy id case.telemetry.forbiddenEvents } }

def PromotionStagePolicy.reread (policy : PromotionStagePolicy) : PromotionStagePolicy :=
  { policy with
    gates := sortedBy (PromotionMetricGate.text platform) policy.gates
    allowedModes := sortedBy EvaluationMode.value policy.allowedModes
    requiredReviewerRoles := sortedBy ReviewerRole.value policy.requiredReviewerRoles }

/-- The bundle that is read from the document of a bundle. -/
def EvaluationBundle.reread (bundle : EvaluationBundle) : EvaluationBundle :=
  { bundle with
    cases := bundle.cases.map (EvaluationCase.reread platform)
    promotionPolicy := ⟨bundle.promotionPolicy.stages.map (PromotionStagePolicy.reread platform)⟩ }

/-- `_revalidate_bundle`, which raises `EvaluationContractError`. -/
def revalidateBundle (bundle : EvaluationBundle) : Option EvaluationBundle :=
  if (bundle.reread platform).Valid then some (bundle.reread platform) else none

end

variable {platform : Platform} {bundle bundle' : EvaluationBundle}

theorem revalidateBundle_eq_some :
    revalidateBundle platform bundle = some bundle' ↔ bundle'.Valid ∧ bundle.reread platform = bundle' := by
  rw [revalidateBundle]
  split_ifs with h
  · refine ⟨fun he => ?_, fun he => congrArg some he.2⟩
    obtain rfl := Option.some.inj he
    exact ⟨h, rfl⟩
  · refine ⟨nofun, fun he => absurd ?_ h⟩
    rw [he.2]
    exact he.1

theorem sortedBy_perm {α : Type} (str : α → Text) (items : List α) : (sortedBy str items).Perm items :=
  List.perm_insertionSort _ _

@[simp] theorem mem_sortedBy {α : Type} {str : α → Text} {items : List α} {item : α} :
    item ∈ sortedBy str items ↔ item ∈ items :=
  (sortedBy_perm str items).mem_iff

end Evaluation

end McpRuntime
