import McpRuntime.Evaluation.Bundle
import McpRuntime.Python.Base64
import McpRuntime.Python.JsonFields
import McpRuntime.Python.Dict

/-!
# Evaluation reports

A report of an evaluation, its signature, and what is decided on it:
`verify_evaluation_report` checks the signature and recomputes what the results of
the cases determine, and `assess_evaluation_promotion` gives the reasons against
a promotion.
-/

namespace McpRuntime

namespace Evaluation

/-! ## The models -/

/-- `EvaluationStatus`. -/
inductive EvaluationStatus
  | passed
  | failed
  | incomplete
  | quarantined
  deriving DecidableEq

def EvaluationStatus.value : EvaluationStatus → Text
  | .passed => lit "passed"
  | .failed => lit "failed"
  | .incomplete => lit "incomplete"
  | .quarantined => lit "quarantined"

theorem EvaluationStatus.value_inj : Function.Injective EvaluationStatus.value := by
  intro status status' h
  cases status <;> cases status' <;> first | rfl | exact absurd h (by decide)

@[ext]
structure EvaluationMetricResult where
  metric : EvaluationMetric
  passed : Bool
  code : Text

@[ext]
structure EvaluationCaseResult where
  caseId : Text
  status : EvaluationStatus
  attempts : ℕ
  durationMs : PyFloat
  outcomeDigest : Text
  telemetryDigest : Text
  metrics : List EvaluationMetricResult
  failureCodes : List Text
  quarantineOwner : Option Text := none
  quarantineIssue : Option Text := none

@[ext]
structure EvaluationMetricSummary where
  metric : EvaluationMetric
  passedCases : ℕ
  totalCases : ℕ
  score : PyFloat

/-- A signature, whose algorithm is `ed25519`. -/
structure EvaluationSignature where
  keyId : Text
  value : Text

structure EvaluationReviewer where
  subject : Text
  roles : List ReviewerRole

structure EvaluationReview where
  author : Text
  reviewers : List EvaluationReviewer

structure EvaluationPromotionDecision where
  stage : PromotionStage
  approved : Bool
  reasons : List Text
  evidenceDigest : Text

/-- The fields of a report other than the signature. -/
@[ext]
structure UnsignedReport where
  bundleName : Text
  bundleVersion : Text
  mode : EvaluationMode
  createdAt : Text
  binding : EvaluationArtifactBinding
  cases : List EvaluationCaseResult
  metrics : List EvaluationMetricSummary
  complete : Bool
  passed : Bool

structure EvaluationReport extends UnsignedReport where
  signature : Option EvaluationSignature := none

@[mk_iff]
structure EvaluationArtifactBinding.Valid (binding : EvaluationArtifactBinding) : Prop where
  source : isArtifactDigest binding.sourceDigest
  runtime : isArtifactDigest binding.runtimeDigest
  manifest : isArtifactDigest binding.manifestDigest
  image : isArtifactDigest binding.imageDigest
  dataset : isArtifactDigest binding.datasetDigest

instance (binding : EvaluationArtifactBinding) : Decidable binding.Valid :=
  decidable_of_iff _ binding.valid_iff.symm

@[mk_iff]
structure EvaluationCaseResult.Valid (result : EvaluationCaseResult) : Prop where
  attempts : result.attempts ≤ 10
  durationMs : (PyFloat.finite 0).le result.durationMs ∧ result.durationMs.le (.finite 600000)

instance (result : EvaluationCaseResult) : Decidable result.Valid :=
  decidable_of_iff _ result.valid_iff.symm

@[mk_iff]
structure EvaluationMetricSummary.Valid (summary : EvaluationMetricSummary) : Prop where
  totalCases : 1 ≤ summary.totalCases
  score : (PyFloat.finite 0).le summary.score ∧ summary.score.le (.finite 1)

instance (summary : EvaluationMetricSummary) : Decidable summary.Valid :=
  decidable_of_iff _ summary.valid_iff.symm

@[mk_iff]
structure EvaluationSignature.Valid (signature : EvaluationSignature) : Prop where
  keyId : Bounded 1 128 signature.keyId ∧ isIdentifier signature.keyId
  value : Bounded 88 88 signature.value

instance (signature : EvaluationSignature) : Decidable signature.Valid :=
  decidable_of_iff _ signature.valid_iff.symm

@[mk_iff]
structure EvaluationReviewer.Valid (reviewer : EvaluationReviewer) : Prop where
  subject : Bounded 1 128 reviewer.subject ∧ isIdentifier reviewer.subject
  roles : (1 ≤ reviewer.roles.length ∧ reviewer.roles.length ≤ 4) ∧ reviewer.roles.Nodup

instance (reviewer : EvaluationReviewer) : Decidable reviewer.Valid :=
  decidable_of_iff _ reviewer.valid_iff.symm

/-- The constraints on the fields of a review, and `validate_independence`. -/
@[mk_iff]
structure EvaluationReview.Valid (review : EvaluationReview) : Prop where
  author : Bounded 1 128 review.author ∧ isIdentifier review.author
  reviewers : review.reviewers.length ≤ 16 ∧ ∀ reviewer ∈ review.reviewers, reviewer.Valid
  subjects_unique : (review.reviewers.map EvaluationReviewer.subject).Nodup
  independent : review.author ∉ review.reviewers.map EvaluationReviewer.subject

instance (review : EvaluationReview) : Decidable review.Valid :=
  decidable_of_iff _ review.valid_iff.symm

/-- What the models of a report check. -/
@[mk_iff]
structure EvaluationReport.Valid (report : EvaluationReport) : Prop where
  binding : report.binding.Valid
  cases : ∀ result ∈ report.cases, result.Valid
  metrics : ∀ summary ∈ report.metrics, summary.Valid
  signature : ∀ signature ∈ report.signature, signature.Valid

instance (report : EvaluationReport) : Decidable report.Valid :=
  decidable_of_iff _ report.valid_iff.symm

/-! ## Documents -/

def EvaluationArtifactBinding.document (binding : EvaluationArtifactBinding) : Json :=
  .obj [(lit "source_digest", .str binding.sourceDigest),
    (lit "runtime_digest", .str binding.runtimeDigest),
    (lit "manifest_digest", .str binding.manifestDigest),
    (lit "image_digest", .str binding.imageDigest),
    (lit "dataset_digest", .str binding.datasetDigest)]

def EvaluationMetricResult.document (result : EvaluationMetricResult) : Json :=
  .obj [(lit "metric", .str result.metric.value), (lit "passed", .bool result.passed),
    (lit "code", .str result.code)]

def EvaluationCaseResult.document (result : EvaluationCaseResult) : Json :=
  .obj [(lit "case_id", .str result.caseId), (lit "status", .str result.status.value),
    (lit "attempts", .int result.attempts), (lit "duration_ms", .float result.durationMs),
    (lit "outcome_digest", .str result.outcomeDigest),
    (lit "telemetry_digest", .str result.telemetryDigest),
    (lit "metrics", .arr (result.metrics.map EvaluationMetricResult.document)),
    (lit "failure_codes", texts result.failureCodes),
    (lit "quarantine_owner", optionalText result.quarantineOwner),
    (lit "quarantine_issue", optionalText result.quarantineIssue)]

def EvaluationMetricSummary.document (summary : EvaluationMetricSummary) : Json :=
  .obj [(lit "metric", .str summary.metric.value), (lit "passed_cases", .int summary.passedCases),
    (lit "total_cases", .int summary.totalCases), (lit "score", .float summary.score)]

def EvaluationSignature.document (signature : EvaluationSignature) : Json :=
  .obj [(lit "algorithm", .str (lit "ed25519")), (lit "key_id", .str signature.keyId),
    (lit "value", .str signature.value)]

/-- `report.model_dump(mode="json", exclude=…)`. -/
def UnsignedReport.members (report : UnsignedReport) : List (Text × Json) :=
  [(lit "schema_version", .int 1), (lit "bundle_name", .str report.bundleName),
    (lit "bundle_version", .str report.bundleVersion), (lit "mode", .str report.mode.value),
    (lit "created_at", .str report.createdAt), (lit "binding", report.binding.document),
    (lit "cases", .arr (report.cases.map EvaluationCaseResult.document)),
    (lit "metrics", .arr (report.metrics.map EvaluationMetricSummary.document)),
    (lit "complete", .bool report.complete), (lit "passed", .bool report.passed)]

/-- `report.model_dump(mode="json")`. -/
def EvaluationReport.document (report : EvaluationReport) : Json :=
  .obj (report.members ++
    [(lit "signature", (report.signature.map EvaluationSignature.document).getD .null)])

/-! ## Signatures -/

/-- The signatures of Ed25519, of messages given by the texts that their bytes encode. -/
structure Ed25519 where
  PrivateKey : Type
  PublicKey : Type
  publicKey : PrivateKey → PublicKey
  sign : PrivateKey → Text → List UInt8
  verify : PublicKey → List UInt8 → Text → Bool
  length_sign : ∀ key message, (sign key message).length = 64
  verify_sign : ∀ key message, verify (publicKey key) (sign key message) message = true

/-- `EvaluationVerificationError`, by its code, and what else is raised. -/
inductive EvaluationVerificationError
  | alreadySigned
  | invalidBundle
  | datasetDigestMismatch
  | bindingMismatch
  | bundleIdentityMismatch
  | signatureMissing
  | signingKeyUnknown
  | signatureInvalid
  | reportInconsistent
  | promotionStageMissing (stage : PromotionStage)
  | validationError
  | valueError
  deriving DecidableEq

section

variable (platform : Platform)

/-- `_report_signature_payload`. -/
def signaturePayload (report : UnsignedReport) : Option Text :=
  platform.canonicalJson (.obj report.members)

/-- `sign_evaluation_report`. -/
def signEvaluationReport (scheme : Ed25519) (report : EvaluationReport) (keyId : Text)
    (privateKey : scheme.PrivateKey) : Except EvaluationVerificationError EvaluationReport :=
  if report.signature.isSome then .error .alreadySigned
  else
    match signaturePayload platform report.toUnsignedReport with
    | none => .error .valueError
    | some payload =>
      let signature : EvaluationSignature :=
        { keyId, value := Base64.encode (scheme.sign privateKey payload) }
      if signature.Valid then .ok { report with signature := some signature }
      else .error .validationError

/-! ## Verification -/

/-- `tuple(sorted(set(values)))`. -/
def sortedSet (values : List Text) : List Text := values.dedup.insertionSort (· ≤ ·)

/-- Whether the result of a metric, which the case has once, is a pass. -/
def EvaluationCaseResult.metricPassed (result : EvaluationCaseResult) (metric : EvaluationMetric) :
    Bool :=
  result.metrics.any fun r => r.metric = metric && r.passed

/-- The failure codes that the results of the metrics determine. -/
def expectedFailures (result : EvaluationCaseResult) : List Text :=
  sortedSet ((result.metrics.filter fun r => !r.passed).map EvaluationMetricResult.code)

/-- The status that `_validate_report_against_bundle` expects. -/
def statusConsistent (case : EvaluationCase) (result : EvaluationCaseResult) : Bool :=
  match case.quarantine with
  | some _ => !case.blockingMetrics.any result.metricPassed && result.status = .quarantined
  | none =>
    if result.status = .incomplete then result.attempts < case.attempts
    else result.attempts = case.attempts && result.status =
      if case.blockingMetrics.any fun metric => !result.metricPassed metric then .failed else .passed

/-- What `_validate_report_against_bundle` checks of the result of a case. -/
def caseConsistent (case : EvaluationCase) (result : EvaluationCaseResult) : Bool :=
  let metrics := result.metrics.map EvaluationMetricResult.metric
  metrics.Nodup && metrics ⊆ case.metrics && case.metrics ⊆ metrics &&
    isArtifactDigest result.outcomeDigest && isArtifactDigest result.telemetryDigest &&
    result.failureCodes = expectedFailures result &&
    result.quarantineOwner = case.quarantine.map EvaluationQuarantine.owner &&
    result.quarantineIssue = case.quarantine.map EvaluationQuarantine.issue &&
    statusConsistent case result

/-- The summary of a metric that some case has. -/
def summarizeMetric (results : List EvaluationCaseResult) (metric : EvaluationMetric) :
    Option EvaluationMetricSummary :=
  let matching := (results.flatMap EvaluationCaseResult.metrics).filter fun r => r.metric = metric
  let passed := matching.countP EvaluationMetricResult.passed
  if matching.isEmpty then none
  else some {
    metric
    passedCases := passed
    totalCases := matching.length
    score := platform.rounding (passed / matching.length) }

/-- `_summarize_metrics`. -/
def summarizeMetrics (results : List EvaluationCaseResult) : List EvaluationMetricSummary :=
  EvaluationMetric.all.filterMap (summarizeMetric platform results)

/-- `==` of summaries, whose scores are compared as numbers. -/
def EvaluationMetricSummary.pyEq (summary summary' : EvaluationMetricSummary) : Bool :=
  summary.metric = summary'.metric && summary.passedCases = summary'.passedCases &&
    summary.totalCases = summary'.totalCases && summary.score.eq summary'.score

/-- `==` of tuples of summaries. -/
def summariesEqual : List EvaluationMetricSummary → List EvaluationMetricSummary → Bool
  | [], [] => true
  | summary :: summaries, summary' :: summaries' =>
    summary.pyEq summary' && summariesEqual summaries summaries'
  | _, _ => false

/-- Whether every case was completed. -/
def allComplete (results : List EvaluationCaseResult) : Bool :=
  results.all fun result => result.status ≠ .incomplete

/-- Whether every case was completed and passed. -/
def allPassed (results : List EvaluationCaseResult) : Bool :=
  allComplete results && results.all fun result => result.status = .passed

/-- `_validate_report_against_bundle`, which raises where this is false. -/
def reportConsistent (report : UnsignedReport) (bundle : EvaluationBundle) : Bool :=
  isTimestamp report.createdAt &&
    report.cases.map EvaluationCaseResult.caseId = bundle.cases.map EvaluationCase.caseId &&
    ((bundle.cases.zip report.cases).all fun (case, result) => caseConsistent case result) &&
    summariesEqual report.metrics (summarizeMetrics platform report.cases) &&
    report.complete = allComplete report.cases && report.passed = allPassed report.cases

/-- `verify_evaluation_report`. A payload that has no text is a `ValueError`, which
    is caught. -/
def verifyEvaluationReport (scheme : Ed25519) (report : EvaluationReport) (bundle : EvaluationBundle)
    (binding : EvaluationArtifactBinding) (publicKeys : Dict Text scheme.PublicKey) :
    Except EvaluationVerificationError Unit := do
  let bundle ← (revalidateBundle platform bundle).elim (.error .invalidBundle) .ok
  let datasetDigest ← (bundle.datasetDigest platform).elim (.error .valueError) .ok
  if binding.datasetDigest ≠ datasetDigest then throw .datasetDigestMismatch
  if report.binding ≠ binding then throw .bindingMismatch
  if report.bundleName ≠ bundle.name ∨ report.bundleVersion ≠ bundle.version then
    throw .bundleIdentityMismatch
  let signature ← report.signature.elim (.error .signatureMissing) .ok
  let publicKey ← (publicKeys.lookup signature.keyId).elim (.error .signingKeyUnknown) .ok
  let rawSignature ← (Base64.decode signature.value).elim (.error .signatureInvalid) .ok
  if rawSignature.length ≠ 64 then throw .signatureInvalid
  let payload ← (signaturePayload platform report.toUnsignedReport).elim (.error .signatureInvalid) .ok
  if !scheme.verify publicKey rawSignature payload then throw .signatureInvalid
  if !reportConsistent platform report.toUnsignedReport bundle then throw .reportInconsistent

/-! ## Promotion -/

/-- The reason that a gate gives against a promotion, with the summary of the metric. -/
def gateReason (report : EvaluationReport) (gate : PromotionMetricGate) : Option Text :=
  match report.metrics.reverse.find? fun summary => summary.metric = gate.metric with
  | none => some (lit "metric_missing:" ++ gate.metric.value)
  | some summary =>
    if summary.score.lt gate.minimumScore then
      some (lit "metric_below_threshold:" ++ gate.metric.value)
    else none

/-- The reasons of `assess_evaluation_promotion`. -/
def promotionReasons (report : EvaluationReport) (policy : PromotionStagePolicy)
    (review : EvaluationReview) : List Text :=
  let observedRoles := review.reviewers.flatMap EvaluationReviewer.roles
  (if report.complete then [] else [lit "report_incomplete"]) ++
    (if report.passed then [] else [lit "blocking_case_failed"]) ++
    (if report.mode ∈ policy.allowedModes then [] else [lit "execution_mode_not_allowed"]) ++
    (if !policy.allowQuarantine && report.cases.any fun result => result.status = .quarantined then
      [lit "quarantine_not_allowed"] else []) ++
    policy.gates.filterMap (gateReason report) ++
    (if review.reviewers.length < policy.minimumReviewers then [lit "reviewers_insufficient"] else []) ++
    policy.requiredReviewerRoles.filterMap fun role =>
      if role ∈ observedRoles then none else some (lit "reviewer_role_missing:" ++ role.value)

/-- `assess_evaluation_promotion`. -/
def assessEvaluationPromotion (scheme : Ed25519) (report : EvaluationReport)
    (bundle : EvaluationBundle) (binding : EvaluationArtifactBinding)
    (publicKeys : Dict Text scheme.PublicKey) (stage : PromotionStage) (review : EvaluationReview) :
    Except EvaluationVerificationError EvaluationPromotionDecision := do
  verifyEvaluationReport platform scheme report bundle binding publicKeys
  let policy ← (bundle.promotionPolicy.forStage stage).elim (.error (.promotionStageMissing stage)) .ok
  let reasons := promotionReasons report policy review
  let evidenceDigest ← (platform.sha256 report.document).elim (.error .valueError) .ok
  return { stage, approved := reasons.isEmpty, reasons := sortedSet reasons, evidenceDigest }

end

end Evaluation

end McpRuntime
