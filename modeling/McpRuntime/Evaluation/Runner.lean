import McpRuntime.Evaluation.Report
import McpRuntime.Redaction.Redactor

/-!
# The evaluation runner

`EvaluationRunner` invokes a target for every attempt of every case, judges what it
observes by the metrics of the case, and reports the results. The target is
whatever it does on each invocation; no invocation is made twice.
-/

namespace McpRuntime

namespace Evaluation

/-! ## Targets -/

structure EvaluationInvocation where
  caseId : Text
  tool : Text
  arguments : Json
  context : EvaluationContext
  attempt : ℕ

structure EvaluationObservation where
  structuredResult : Json := .null
  errorCode : Option Text := none
  cancelled : Bool := false
  available : Bool := true
  schemaValid : Bool
  telemetryEvents : List Text := []
  sideEffectDigest : Option Text := none

/-- How the observation of an invocation ends. -/
inductive Ended
  | observed (observation : EvaluationObservation)
  /-- `CancelledError`, while the task of the runner is not cancelled. -/
  | targetCancelled
  /-- `CancelledError`, as the task of the runner is cancelled. -/
  | runnerCancelled
  | timedOut
  /-- Any other exception. -/
  | raised

/-- The observation of an invocation, and `(monotonic() - started) * 1_000` after it. -/
structure Attempt where
  ended : Ended
  milliseconds : PyFloat

/-- Whether an observation fails, so that the case is incomplete. -/
def Attempt.fails (attempt : Attempt) : Bool :=
  match attempt.ended with
  | .timedOut | .raised => true
  | _ => false

/-- `EvaluationTarget`, with what it does on each invocation. -/
structure EvaluationTarget where
  mode : EvaluationMode
  observe : EvaluationInvocation → Attempt

/-! ## Canaries -/

/-- `_replace_value`. -/
def replaceValue (expected replacement : Text) : Json → Json
  | .str t => .str (if t = expected then replacement else t)
  | .arr items => .arr (replaceItems items)
  | .obj members => .obj (replaceMembers members)
  | j => j
where
  replaceItems : List Json → List Json
    | [] => []
    | j :: items => replaceValue expected replacement j :: replaceItems items
  replaceMembers : List (Text × Json) → List (Text × Json)
    | [] => []
    | (key, j) :: members => (key, replaceValue expected replacement j) :: replaceMembers members

section

variable (platform : Platform)

/-- `_derive_canary`. -/
def deriveCanary (binding : EvaluationArtifactBinding) (caseId kind : Text) : Option Text :=
  (platform.canonicalJson (.obj [(lit "binding", binding.document), (lit "case_id", .str caseId),
    (lit "kind", .str kind)])).map fun seed =>
      lit "tesserix-eval-" ++ kind ++ lit "-canary-" ++ (platform.hashing.sha256 seed).text

/-- The places of a text, from one of them on. -/
def places (before : Text) : Text → List (Cursor CodePoint)
  | [] => [⟨before, []⟩]
  | c :: t => ⟨before, c :: t⟩ :: places (c :: before) t

/-- Whether a pattern has a match somewhere in a text. -/
def searches (pattern : Regex CodePoint) (t : Text) : Bool :=
  (places [] t).any fun place => !(pattern.run place).isEmpty

/-- `[A-Za-z0-9._~+/=-]`, in any case. -/
def isTokenChar (c : CodePoint) : Bool :=
  c.isAlphanumeric || (lit "._~+/=-").contains c || c.val == 0x130 || c.val == 0x131 ||
    c.val == 0x17F || c.val == 0x212A

/-- `_BEARER` -/
def bearer : Regex CodePoint :=
  .all [.boundary (Pattern.isWord platform.word), Pattern.letters "bearer", Pattern.space.plus,
    (Regex.char isTokenChar).atLeast 8]

/-- `\s*[:=]\s*` -/
def assigns : Regex CodePoint :=
  .all [.star Pattern.space, Pattern.oneOf (lit ":="), .star Pattern.space]

/-- `[^\s,;\"}\[{]{4,}` -/
def assigned : Regex CodePoint :=
  (Regex.char fun c => !c.isSpace && !(lit ",;\"\x7d[\x7b").contains c).atLeast 4

/-- The first alternative of `_SECRET_ASSIGNMENT`. -/
def secretAssignment : Regex CodePoint :=
  let joint := (Pattern.oneOf (lit "_-")).optional
  .all [.boundary (Pattern.isWord platform.word),
    (Regex.all [Pattern.letters "api", joint, Pattern.letters "key"]).first
      [.all [Pattern.letters "access", joint, Pattern.letters "token"], Pattern.letters "password",
        Pattern.letters "credential", Pattern.letters "secret"], assigns, assigned]

/-- The second alternative of `_SECRET_ASSIGNMENT`, up to what must not come next. -/
def authorizationPrefix : Regex CodePoint :=
  .all [.boundary (Pattern.isWord platform.word), Pattern.letters "authorization", assigns]

/-- What must not come next: `(?:action|rules)\s*:`. -/
def ruleName : Regex CodePoint :=
  .all [(Pattern.letters "action").first [Pattern.letters "rules"], .star Pattern.space,
    Pattern.oneOf (lit ":")]

/-- Whether the second alternative of `_SECRET_ASSIGNMENT` has a match in a text. -/
def assignsAuthorization (t : Text) : Bool :=
  (places [] t).any fun place => ((authorizationPrefix platform).run place).any fun n =>
    (ruleName.run (place.advance n)).isEmpty && !(assigned.run (place.advance n)).isEmpty

/-- `scan_journey_surfaces`, which raises `JourneyEvidenceError` where this is false. -/
def scanJourneySurfaces (surfaces canaries : List Text) : Bool :=
  surfaces.length ≤ 256 && (surfaces.all fun text => text.utf8Length ≤ 1048576) &&
    (surfaces.map Text.utf8Length).sum ≤ 8388608 &&
    surfaces.all fun text => !(canaries.any text.hasPart || searches (bearer platform) text ||
      searches (secretAssignment platform) text || assignsAuthorization platform text)

/-! ## Expectations -/

/-- `part.isdigit()`. -/
def isDigits (part : Text) : Bool :=
  !part.isEmpty && part.all fun c => if c.val < 0x80 then c.isDigit else platform.isDigit c

/-- `int(part)` of digits, of which not all are decimal: it raises `ValueError`. -/
def intOf (part : Text) : Option ℕ :=
  (part.mapM fun c => if c.val < 0x80 then some (c.val - 48) else platform.decimal c).map
    (List.foldl (fun n d => 10 * n + d) 0)

/-- `_resolve_pointer`, along the parts of a pointer: what they lead to, unless `int`
    raises. -/
def resolveParts : List Text → Json → Option (Option Json)
  | [], current => some (some current)
  | rawPart :: parts, current =>
    let part := (rawPart.replace (lit "~1") (lit "/")).replace (lit "~0") (lit "~")
    match current with
    | .obj members =>
      match Json.get part members with
      | some j => resolveParts parts j
      | none => some none
    | .arr items =>
      if isDigits platform part then
        match intOf platform part with
        | none => none
        | some index =>
          match items[index]? with
          | some j => resolveParts parts j
          | none => some none
      else some none
    | _ => some none

/-- `_resolve_pointer`. -/
def resolvePointer (document : Json) (pointer : Text) : Option (Option Json) :=
  let path := if pointer.head? = some 47 then pointer.tail else pointer
  resolveParts platform (Text.split 47 path) document

/-- `value in actual`, which may raise `TypeError`. -/
def pyIn (value : Json) : Json → Option Bool
  | .str t => match value with
    | .str part => some (t.hasPart part)
    | _ => none
  | .arr items => some (items.any value.pyEq)
  | .obj members => match value with
    | .str key => some (Json.get key members).isSome
    | .arr _ | .obj _ => none
    | _ => some false
  | _ => none

/-- `_assertion_passed`. -/
def assertionPassed (assertion : EvaluationAssertion) (document : Json) : Option Bool := do
  let actual ← resolvePointer platform document assertion.pointer
  match assertion.operator, actual with
  | .exists, actual => return actual.isSome
  | .absent, actual => return actual.isNone
  | _, none => return false
  | .equals, some actual => return actual.pyEq assertion.value
  | .notEquals, some actual => return !actual.pyEq assertion.value
  | .contains, some actual => return (pyIn assertion.value actual).getD false
  | .notContains, some actual => return ((pyIn assertion.value actual).map not).getD false

/-- `all` of a test that may raise. -/
def allM {α : Type} (test : α → Option Bool) : List α → Option Bool
  | [] => some true
  | a :: l => do
    if ← test a then allM test l else return false

/-- `_expectation_passed`. -/
def expectationPassed (expectation : EvaluationExpectation) (observation : EvaluationObservation) :
    Option Bool :=
  match expectation with
  | .structuredResult value => some (!observation.cancelled && observation.errorCode.isNone &&
      observation.structuredResult.pyEq value)
  | .error code => some (!observation.cancelled && observation.errorCode = some code)
  | .cancellation => some (observation.cancelled && observation.errorCode.isNone)
  | .assertions items =>
    allM (fun assertion => assertionPassed platform assertion observation.structuredResult) items

/-- `_telemetry_passed`. -/
def telemetryPassed (expectation : TelemetryExpectation) (observation : EvaluationObservation) : Bool :=
  expectation.requiredEvents ⊆ observation.telemetryEvents &&
    !expectation.forbiddenEvents.any (observation.telemetryEvents.contains ·)

/-! ## Metrics -/

/-- `observation.model_dump(mode="json", exclude={"telemetry_events"})`. -/
def EvaluationObservation.outcome (observation : EvaluationObservation) : List (Text × Json) :=
  [(lit "structured_result", platform.dumpValue observation.structuredResult),
    (lit "error_code", optionalText observation.errorCode),
    (lit "cancelled", .bool observation.cancelled), (lit "available", .bool observation.available),
    (lit "schema_valid", .bool observation.schemaValid),
    (lit "side_effect_digest", optionalText observation.sideEffectDigest)]

/-- `observation.model_dump(mode="json")`. -/
def EvaluationObservation.document (observation : EvaluationObservation) : Json :=
  .obj (observation.outcome platform ++ [(lit "telemetry_events", texts observation.telemetryEvents)])

/-- `_observations_exclude_canary`. -/
def observationsExcludeCanary (observations : List EvaluationObservation) (canary : Text) :
    Option Bool :=
  (observations.mapM fun observation => platform.canonicalJson (observation.document platform)).map
    fun surfaces => scanJourneySurfaces platform surfaces [canary]

/-- What `_metric_passed` takes the digest of, for an observation. -/
def outcomeDocument (observation : EvaluationObservation) : Json :=
  .obj [(lit "cancelled", .bool observation.cancelled),
    (lit "error_code", optionalText observation.errorCode),
    (lit "structured_result", observation.structuredResult)]

/-- `_metric_passed`. -/
def metricPassed (case : EvaluationCase) (observations : List EvaluationObservation)
    (durations : List PyFloat) (secretCanary tenantCanary : Option Text) (metric : EvaluationMetric) :
    Option Bool :=
  let expected := allM (fun observation => expectationPassed platform case.expectation observation)
  let complete := allM fun observation => do
    if ← expectationPassed platform case.expectation observation then
      return telemetryPassed case.telemetry observation
    else return false
  match metric with
  | .schemaConformance => some (observations.all EvaluationObservation.schemaValid)
  | .latency => some (durations.all fun duration => duration.le (.finite case.latencyBudgetMs))
  | .availability => some (observations.all EvaluationObservation.available)
  | .secretLeakage =>
    match secretCanary with
    | none => some false
    | some canary => observationsExcludeCanary platform observations canary
  | .tenantIsolation =>
    match tenantCanary with
    | none => some false
    | some canary => do
      if ← observationsExcludeCanary platform observations canary then expected observations
      else return false
  | .idempotency => do
    let digests ← observations.mapM fun observation => platform.sha256 (outcomeDocument observation)
    let effects := observations.map EvaluationObservation.sideEffectDigest
    if 2 ≤ observations.length && effects.all Option.isSome && effects.dedup.length = 1 &&
        digests.dedup.length = 1 then
      complete observations
    else return false
  | .correctness | .authorizationDenial => complete observations

/-! ## Cases -/

/-- `max(durations, default=0.0)`. -/
def maxDuration : List PyFloat → PyFloat
  | [] => .finite 0
  | duration :: durations => durations.foldl PyFloat.max duration

/-- The result of a metric. -/
def metricResult (metric : EvaluationMetric) (passed : Bool) : EvaluationMetricResult :=
  { metric, passed, code := if passed then lit "passed" else metric.value }

/-- A result that the models accept. -/
def validResult (result : EvaluationCaseResult) : Option EvaluationCaseResult :=
  if result.Valid then some result else none

/-- The results of the metrics, of which a quarantine turns the blocking ones to
    failures. -/
def quarantined (case : EvaluationCase) (results : List EvaluationMetricResult) :
    List EvaluationMetricResult :=
  if case.quarantine.isSome then results.map fun result =>
    if result.metric ∈ case.blockingMetrics then { result with passed := false, code := lit "quarantined" }
    else result
  else results

/-- `_evaluate_case`. -/
def evaluateCase (case : EvaluationCase) (observations : List EvaluationObservation)
    (durations : List PyFloat) (secretCanary tenantCanary : Option Text) :
    Option EvaluationCaseResult := do
  let verdicts ← case.metrics.mapM
    (metricPassed platform case observations durations secretCanary tenantCanary)
  let results := List.zipWith metricResult case.metrics verdicts
  let failedBlocking := results.any fun result =>
    !result.passed && case.blockingMetrics.contains result.metric
  let outcomeDigest ← platform.sha256
    (.arr (observations.map fun observation => .obj (observation.outcome platform)))
  let telemetryDigest ← platform.sha256
    (.arr (observations.map fun observation => texts observation.telemetryEvents))
  validResult {
    caseId := case.caseId
    status := if case.quarantine.isSome then .quarantined else if failedBlocking then .failed else .passed
    attempts := observations.length
    durationMs := maxDuration durations
    outcomeDigest
    telemetryDigest
    metrics := quarantined case results
    failureCodes := sortedSet (((quarantined case results).filter fun result => !result.passed).map
      EvaluationMetricResult.code)
    quarantineOwner := case.quarantine.map EvaluationQuarantine.owner
    quarantineIssue := case.quarantine.map EvaluationQuarantine.issue }

/-- `_incomplete_result`. -/
def incompleteResult (case : EvaluationCase) (durations : List PyFloat) (attempts : ℕ) (code : Text) :
    Option EvaluationCaseResult := do
  let outcomeDigest ← platform.sha256 (.obj [(lit "code", .str code)])
  let telemetryDigest ← platform.sha256 (.arr [])
  validResult {
    caseId := case.caseId
    status := .incomplete
    attempts
    durationMs := maxDuration durations
    outcomeDigest
    telemetryDigest
    metrics := case.metrics.map fun metric => { metric, passed := false, code }
    failureCodes := [code]
    quarantineOwner := case.quarantine.map EvaluationQuarantine.owner
    quarantineIssue := case.quarantine.map EvaluationQuarantine.issue }

/-- How the attempts of a case end. -/
inductive AttemptsRun
  | completed (observations : List EvaluationObservation) (durations : List PyFloat)
  | incomplete (durations : List PyFloat) (attempts : ℕ) (code : Text)

/-- The attempts that are left, after some observations; the cancellation of the
    runner is raised. -/
def runAttempts (observe : ℕ → Attempt) :
    ℕ → ℕ → List EvaluationObservation → List PyFloat → Option AttemptsRun
  | 0, _, observations, durations => some (.completed observations durations)
  | left + 1, attempt, observations, durations =>
    let durations := durations ++ [PyFloat.max (.finite 0) (observe attempt).milliseconds]
    match (observe attempt).ended with
    | .observed observation =>
      runAttempts observe left (attempt + 1) (observations ++ [observation]) durations
    | .targetCancelled =>
      runAttempts observe left (attempt + 1)
        (observations ++ [{ cancelled := true, schemaValid := true }]) durations
    | .runnerCancelled => none
    | .timedOut => some (.incomplete durations observations.length (lit "timeout"))
    | .raised => some (.incomplete durations observations.length (lit "target_error"))

/-! ## The runner -/

/-- `EvaluationRunner`; the clock is read once, and has the time in UTC. -/
structure EvaluationRunner where
  bundle : EvaluationBundle
  binding : EvaluationArtifactBinding
  target : EvaluationTarget
  now : DateTime

/-- `strftime("%Y-%m-%dT%H:%M:%SZ")`, which does not pad the year. -/
def timestamp (now : DateTime) : Text :=
  natText now.year ++ 45 :: padded 2 now.month ++ 45 :: padded 2 now.day ++ 84 :: padded 2 now.hour ++
    58 :: padded 2 now.minute ++ 58 :: padded 2 now.second ++ [90]

namespace EvaluationRunner

/-- The constructor. -/
def create (bundle : EvaluationBundle) (binding : EvaluationArtifactBinding) (target : EvaluationTarget)
    (now : DateTime) : Option EvaluationRunner := do
  let bundle ← revalidateBundle platform bundle
  let datasetDigest ← bundle.datasetDigest platform
  if binding.datasetDigest = datasetDigest then some { bundle, binding, target, now } else none

variable (runner : EvaluationRunner)

/-- The canary of a case that evaluates a metric. -/
def canary (case : EvaluationCase) (metric : EvaluationMetric) (kind : Text) : Option (Option Text) :=
  if metric ∈ case.metrics then (deriveCanary platform runner.binding case.caseId kind).map some
  else some none

/-- The arguments of a case, with the canaries in place. -/
def arguments (case : EvaluationCase) (secretCanary tenantCanary : Option Text) : Json :=
  let arguments := match secretCanary with
    | some canary => replaceValue secretCanaryPlaceholder canary (.obj case.arguments)
    | none => .obj case.arguments
  match tenantCanary with
  | some canary => replaceValue tenantCanaryPlaceholder canary arguments
  | none => arguments

/-- What the target does on an attempt of a case. -/
def attempt (case : EvaluationCase) (secretCanary tenantCanary : Option Text) (attempt : ℕ) : Attempt :=
  runner.target.observe {
    caseId := case.caseId
    tool := case.tool
    arguments := arguments case secretCanary tenantCanary
    context := case.context
    attempt }

/-- `_run_case`. -/
def runCase (case : EvaluationCase) : Option EvaluationCaseResult := do
  let secretCanary ← runner.canary platform case .secretLeakage (lit "secret")
  let tenantCanary ← runner.canary platform case .tenantIsolation (lit "tenant")
  match ← runAttempts (runner.attempt case secretCanary tenantCanary) case.attempts 1 [] [] with
  | .completed observations durations =>
    evaluateCase platform case observations durations secretCanary tenantCanary
  | .incomplete durations attempts code => incompleteResult platform case durations attempts code

/-- `run`. -/
def run : Option EvaluationReport := do
  if !scanJourneySurfaces platform [platform.dumpJson runner.bundle] [] then none
  let results ← runner.bundle.cases.mapM (runner.runCase platform)
  let summaries := summarizeMetrics platform results
  if ¬ ∀ summary ∈ summaries, summary.Valid then none
  return {
    bundleName := runner.bundle.name
    bundleVersion := runner.bundle.version
    mode := runner.target.mode
    createdAt := timestamp runner.now
    binding := runner.binding
    cases := results
    metrics := summaries
    complete := allComplete results
    passed := allPassed results }

end EvaluationRunner

end

end Evaluation

end McpRuntime
