import McpRuntime.Evaluation.Promotion
import McpRuntime.Evaluation.Runner
import Mathlib.Data.List.Dedup

/-!
# The runner and the verifier

* `caseConsistent_runCase`: the verifier accepts the result of a case exactly when
  the case is not both quarantined and incomplete.
* `verify_run`: it accepts the signed report of a run exactly when no quarantined
  case has an attempt that fails, and the year is one that its pattern has.
-/

namespace McpRuntime

namespace Evaluation

/-! ## Attempts -/

/-- What the attempts that are left come to, after some observations: all of them are
    observed, or the case is incomplete after one of them fails. -/
def AttemptsRun.Follows (observe : ℕ → Attempt) (left attempt seen : ℕ) : AttemptsRun → Prop
  | .completed observations _ => observations.length = seen + left ∧
    ∀ i < left, (observe (attempt + i)).fails = false
  | .incomplete _ attempts _ => attempts < seen + left ∧
    ∃ i < left, (observe (attempt + i)).fails = true

section

variable {observe : ℕ → Attempt} {left attempt seen : ℕ} {r : AttemptsRun}

/-- An attempt that is observed leaves the others. -/
theorem AttemptsRun.Follows.succ (hfails : (observe attempt).fails = false)
    (h : r.Follows observe left (attempt + 1) (seen + 1)) :
    r.Follows observe (left + 1) attempt seen := by
  have hnext (i : ℕ) : attempt + (i + 1) = attempt + 1 + i := by omega
  cases r with
  | completed observations durations =>
    obtain ⟨hlength, hall⟩ := h
    refine ⟨by omega, fun i hi => ?_⟩
    cases i with
    | zero => exact hfails
    | succ i =>
      rw [hnext]
      exact hall i (Nat.lt_of_succ_lt_succ hi)
  | incomplete durations attempts code =>
    obtain ⟨hlt, i, hi, hfail⟩ := h
    refine ⟨by omega, i + 1, Nat.succ_lt_succ hi, ?_⟩
    rw [hnext]
    exact hfail

theorem follows_of_fails {durations : List PyFloat} {code : Text}
    (hfails : (observe attempt).fails = true) :
    (AttemptsRun.incomplete durations seen code).Follows observe (left + 1) attempt seen :=
  ⟨by omega, 0, Nat.succ_pos _, hfails⟩

theorem runAttempts_follows {observations : List EvaluationObservation} {durations : List PyFloat}
    (h : runAttempts observe left attempt observations durations = some r) :
    r.Follows observe left attempt observations.length := by
  induction left generalizing attempt observations durations with
  | zero =>
    obtain rfl := Option.some.inj h
    exact ⟨rfl, fun i hi => absurd hi (Nat.not_lt_zero i)⟩
  | succ left ih =>
    have hobserved {observation : EvaluationObservation} {durations : List PyFloat}
        (h : runAttempts observe left (attempt + 1) (observations ++ [observation]) durations = some r) :
        r.Follows observe left (attempt + 1) (observations.length + 1) := by
      have hrest := ih h
      rwa [List.length_append, List.length_singleton] at hrest
    rw [runAttempts] at h
    split at h
    · next hended => exact (hobserved h).succ (by rw [Attempt.fails, hended])
    · next hended => exact (hobserved h).succ (by rw [Attempt.fails, hended])
    · cases h
    · next hended =>
      obtain rfl := Option.some.inj h
      exact follows_of_fails (by rw [Attempt.fails, hended])
    · next hended =>
      obtain rfl := Option.some.inj h
      exact follows_of_fails (by rw [Attempt.fails, hended])

end

/-! ## Results -/

section

variable {platform : Platform} {case : EvaluationCase} {result : EvaluationCaseResult}

theorem isArtifactDigest_of_sha256 {value : Json} {digest : Text}
    (h : platform.sha256 value = some digest) : isArtifactDigest digest = true := by
  obtain ⟨text, -, rfl⟩ := Option.map_eq_some_iff.1 h
  rw [isArtifactDigest, Bool.and_eq_true]
  exact ⟨List.isPrefixOf_iff_prefix.2 (List.prefix_append _ _), (platform.hashing.sha256 text).isDigest⟩

theorem validResult_eq_some {result' : EvaluationCaseResult} (h : validResult result = some result') :
    result = result' := by
  rw [validResult] at h
  split_ifs at h
  exact Option.some.inj h

/-- The checks of a result apart from its status, where they follow from how it was
    made. -/
theorem caseConsistent_iff (hcase : case.Valid)
    (hmetrics : result.metrics.map EvaluationMetricResult.metric = case.metrics)
    (houtcome : isArtifactDigest result.outcomeDigest = true)
    (htelemetry : isArtifactDigest result.telemetryDigest = true)
    (hfailures : result.failureCodes = expectedFailures result)
    (howner : result.quarantineOwner = case.quarantine.map EvaluationQuarantine.owner)
    (hissue : result.quarantineIssue = case.quarantine.map EvaluationQuarantine.issue) :
    caseConsistent case result = true ↔ statusConsistent case result = true := by
  simp only [caseConsistent, hmetrics, houtcome, htelemetry, ← hfailures, howner, hissue,
    decide_eq_true hcase.metrics.2, decide_eq_true (List.Subset.refl case.metrics), decide_true,
    Bool.true_and, Bool.and_true]

/-- The status of a case that is not quarantined and was completed. -/
theorem statusConsistent_of_ordinary (hquarantine : case.quarantine = none)
    (hattempts : result.attempts = case.attempts) (hstatus : result.status =
      if case.blockingMetrics.any fun metric => !result.metricPassed metric then .failed else .passed) :
    statusConsistent case result = true := by
  have hcomplete : result.status ≠ .incomplete := by
    rw [hstatus]
    split_ifs <;> decide
  rw [statusConsistent, hquarantine, if_neg hcomplete, Bool.and_eq_true]
  exact ⟨decide_eq_true hattempts, decide_eq_true hstatus⟩

/-- The status of a case that is quarantined. -/
theorem statusConsistent_of_quarantined (hquarantine : case.quarantine.isSome)
    (hstatus : result.status = .quarantined)
    (hblocking : ∀ metric ∈ case.blockingMetrics, result.metricPassed metric = false) :
    statusConsistent case result = true := by
  obtain ⟨quarantine, hsome⟩ := Option.isSome_iff_exists.1 hquarantine
  rw [statusConsistent, hsome, Bool.and_eq_true, Bool.not_eq_true', List.any_eq_false]
  refine ⟨fun metric hmetric => ?_, decide_eq_true hstatus⟩
  rw [hblocking metric hmetric]
  exact Bool.false_ne_true

/-- The result of an incomplete case is accepted unless the case is quarantined. -/
theorem caseConsistent_incompleteResult {durations : List PyFloat} {attempts : ℕ} {code : Text}
    (hcase : case.Valid) (hattempts : attempts < case.attempts)
    (h : incompleteResult platform case durations attempts code = some result) :
    result.caseId = case.caseId ∧ (caseConsistent case result = true ↔ case.quarantine = none) := by
  simp only [incompleteResult, Option.bind_eq_bind, Option.bind_eq_some_iff] at h
  obtain ⟨outcomeDigest, houtcome, telemetryDigest, htelemetry, hresult⟩ := h
  obtain rfl := validResult_eq_some hresult
  refine ⟨rfl, (caseConsistent_iff hcase ?_ (isArtifactDigest_of_sha256 houtcome)
    (isArtifactDigest_of_sha256 htelemetry) ?_ rfl rfl).trans ?_⟩
  · rw [List.map_map]
    exact List.map_id _
  · have hlength : (case.metrics.map fun _ => code).length ≠ 0 := by
      rw [List.length_map]
      exact fun hzero => hcase.metrics.1 (List.length_eq_zero_iff.1 hzero)
    have hcodes : (case.metrics.map fun _ => code) = List.replicate case.metrics.length code :=
      List.map_const'
    rw [List.length_map] at hlength
    rw [expectedFailures, List.filter_eq_self.2 (List.forall_mem_map.2 fun _ _ => rfl), List.map_map,
      sortedSet]
    change [code] = List.insertionSort _ (case.metrics.map fun _ => code).dedup
    rw [hcodes, List.replicate_dedup hlength]
    rfl
  · rw [statusConsistent]
    cases hquarantine : case.quarantine with
    | none => simpa using hattempts
    | some quarantine => simp

/-- The result of a metric that a result has once. -/
theorem metricPassed_of_mem (hnodup : (result.metrics.map EvaluationMetricResult.metric).Nodup)
    {r : EvaluationMetricResult} (hr : r ∈ result.metrics) :
    result.metricPassed r.metric = r.passed := by
  rw [Bool.eq_iff_iff, metricPassed_iff]
  refine ⟨fun ⟨r', hr', hmetric, hpassed⟩ => ?_, fun hpassed => ⟨r, hr, rfl, hpassed⟩⟩
  rwa [← List.inj_on_of_nodup_map hnodup hr' hr hmetric]

theorem metric_zipWith {metrics : List EvaluationMetric} {verdicts : List Bool}
    (h : metrics.length = verdicts.length) :
    (List.zipWith metricResult metrics verdicts).map EvaluationMetricResult.metric = metrics := by
  induction metrics generalizing verdicts with
  | nil => rfl
  | cons metric metrics ih =>
    cases verdicts with
    | nil => cases h
    | cons verdict verdicts =>
      rw [List.zipWith_cons_cons, List.map_cons, ih (Nat.succ.inj h)]
      rfl

/-- A quarantine changes no metric. -/
theorem metric_quarantined (results : List EvaluationMetricResult) :
    (quarantined case results).map EvaluationMetricResult.metric =
      results.map EvaluationMetricResult.metric := by
  rw [quarantined]
  split_ifs
  · rw [List.map_map]
    refine List.map_congr_left fun r _ => ?_
    rw [Function.comp_apply]
    split_ifs <;> rfl
  · rfl

theorem quarantined_of_none (h : case.quarantine = none) (results : List EvaluationMetricResult) :
    quarantined case results = results := by
  rw [quarantined, h]
  rfl

/-- A quarantined case passes no blocking metric. -/
theorem not_metricPassed_of_quarantined {results : List EvaluationMetricResult}
    (hquarantine : case.quarantine.isSome) (hmetrics : result.metrics = quarantined case results)
    {metric : EvaluationMetric} (hblocking : metric ∈ case.blockingMetrics) :
    result.metricPassed metric = false := by
  refine Bool.eq_false_of_not_eq_true fun hpassed => ?_
  obtain ⟨r, hr, hmetric, hr'⟩ := metricPassed_iff.1 hpassed
  rw [hmetrics, quarantined, if_pos hquarantine] at hr
  obtain ⟨r₀, -, rfl⟩ := List.mem_map.1 hr
  by_cases h : r₀.metric ∈ case.blockingMetrics
  · rw [if_pos h] at hr'
    cases hr'
  · rw [if_neg h] at hmetric
    exact h (hmetric ▸ hblocking)

/-- Some result of a blocking metric fails exactly when some blocking metric does. -/
theorem any_failed_iff (hcase : case.Valid)
    (hmetrics : result.metrics.map EvaluationMetricResult.metric = case.metrics) :
    (result.metrics.any fun r => !r.passed && case.blockingMetrics.contains r.metric) =
      case.blockingMetrics.any fun metric => !result.metricPassed metric := by
  have hnodup : (result.metrics.map EvaluationMetricResult.metric).Nodup := hmetrics ▸ hcase.metrics.2
  rw [Bool.eq_iff_iff, List.any_eq_true, List.any_eq_true]
  constructor
  · rintro ⟨r, hr, hfailed⟩
    rw [Bool.and_eq_true, List.contains_iff_mem] at hfailed
    exact ⟨r.metric, hfailed.2, by rw [metricPassed_of_mem hnodup hr, hfailed.1]⟩
  · rintro ⟨metric, hblocking, hfailed⟩
    obtain ⟨r, hr, rfl⟩ := List.mem_map.1 (hmetrics ▸ hcase.blocking.2 hblocking)
    rw [metricPassed_of_mem hnodup hr] at hfailed
    exact ⟨r, hr, by rw [hfailed, List.contains_iff_mem.2 hblocking]; rfl⟩

/-- The result of a case whose attempts were all observed is accepted. -/
theorem caseConsistent_evaluateCase {observations : List EvaluationObservation}
    {durations : List PyFloat} {secretCanary tenantCanary : Option Text} (hcase : case.Valid)
    (hattempts : observations.length = case.attempts)
    (h : evaluateCase platform case observations durations secretCanary tenantCanary = some result) :
    result.caseId = case.caseId ∧ caseConsistent case result = true := by
  simp only [evaluateCase, Option.bind_eq_bind, Option.bind_eq_some_iff] at h
  obtain ⟨verdicts, hverdicts, outcomeDigest, houtcome, telemetryDigest, htelemetry, hresult⟩ := h
  have hlength := (mapM_eq_some.1 hverdicts).length_eq
  obtain rfl := validResult_eq_some hresult
  refine ⟨rfl, ?_⟩
  have hmetrics := (@metric_quarantined case _).trans (metric_zipWith hlength)
  refine (caseConsistent_iff hcase hmetrics (isArtifactDigest_of_sha256 houtcome)
    (isArtifactDigest_of_sha256 htelemetry) rfl rfl rfl).2 ?_
  cases hquarantine : case.quarantine with
  | none =>
    refine statusConsistent_of_ordinary hquarantine hattempts ?_
    rw [← any_failed_iff hcase hmetrics, quarantined_of_none hquarantine]
    rfl
  | some quarantine =>
    have hsome : case.quarantine.isSome := by rw [hquarantine]; rfl
    exact statusConsistent_of_quarantined hsome rfl fun metric hblocking =>
      not_metricPassed_of_quarantined hsome rfl hblocking

end

/-! ## Timestamps -/

section

variable {now : DateTime}

theorem digits_of_padded {width n : ℕ} {c : CodePoint} (hc : c ∈ padded width n) :
    c.isDigit = true := by
  rw [CodePoint.isDigit, Bool.and_eq_true, decide_eq_true_eq, decide_eq_true_eq]
  rcases List.mem_append.1 hc with hc | hc
  · rw [List.eq_of_mem_replicate hc]
    decide
  · exact natText_digit hc

/-- A year of four digits is not padded. -/
theorem timestamp_eq (h : 1000 ≤ now.year) :
    timestamp now = { now with microsecond := 0 }.isoformat ++ [90] := by
  have hlength : ¬ (natText now.year).length ≤ 3 := by
    rw [natText, List.length_map, Nat.length_toDigits_le_iff (by decide) (by decide)]
    omega
  have hpadded : padded 4 now.year = natText now.year := by
    rw [padded, show 4 - (natText now.year).length = 0 by omega]
    rfl
  simp only [timestamp, DateTime.isoformat, hpadded, if_true, List.append_nil, List.append_assoc]

/-- A year is what stands before the first hyphen. -/
theorem year_eq_of_append {year year' width : ℕ} {rest rest' : Text}
    (h : natText year ++ 45 :: rest = padded width year' ++ 45 :: rest') : year = year' := by
  have hstop (rest : Text) : NoDigit (45 :: rest) := by
    intro c hc
    obtain rfl := Option.some.inj hc
    rfl
  have hdigits : ∀ c ∈ natText year, c.isDigit = true := (isNumeral_natText year).1.2
  have htake := congrArg (List.takeWhile CodePoint.isDigit) h
  rw [(takeWhile_digits hdigits (hstop rest)).1,
    (takeWhile_digits (fun _ => digits_of_padded) (hstop rest')).1] at htake
  rw [← natValue_natText year, htake, natValue_padded]

/-- The pattern of the verifier has the years from 1900 to 2099. -/
theorem isTimestamp_timestamp (h : now.isValid = true) :
    isTimestamp (timestamp now) = true ↔ 1900 ≤ now.year ∧ now.year ≤ 2099 := by
  constructor
  · intro ht
    simp only [isTimestamp, Bool.and_eq_true, decide_eq_true_eq] at ht
    obtain ⟨⟨⟨⟨⟨⟨⟨⟨⟨⟨htext, -⟩, hleast⟩, hmost⟩, -⟩, -⟩, -⟩, -⟩, -⟩, -⟩, -⟩ := ht
    generalize DateTime.ofFields (timestamp now).dropLast = d at htext hleast hmost
    simp only [timestamp, DateTime.isoformat, List.append_assoc, List.cons_append] at htext
    rw [year_eq_of_append htext.symm]
    exact ⟨hleast, hmost⟩
  · rintro ⟨hleast, hmost⟩
    have hvalid : { now with microsecond := 0 }.isValid = true := by
      simp [DateTime.isValid] at h ⊢
      exact h.1
    rw [isTimestamp, timestamp_eq (by omega), List.dropLast_concat,
      DateTime.ofFields_isoformat hvalid rfl]
    simp only [DateTime.isValid, Bool.and_eq_true, decide_eq_true_eq] at h
    have hdays : DateTime.daysInMonth now.year now.month ≤ 31 := by
      rw [DateTime.daysInMonth]
      split_ifs <;> decide
    simp only [Bool.and_eq_true, decide_eq_true_eq, true_and]
    omega

end

/-! ## Runs -/

section

variable {platform : Platform} {runner : EvaluationRunner} {case : EvaluationCase}
  {result : EvaluationCaseResult} {report : EvaluationReport}

/-- Some attempt of a case times out or raises, invoked with the canaries of the case. -/
def EvaluationRunner.SomeAttemptFails (platform : Platform) (runner : EvaluationRunner)
    (case : EvaluationCase) : Prop :=
  ∃ secretCanary ∈ runner.canary platform case .secretLeakage (lit "secret"),
    ∃ tenantCanary ∈ runner.canary platform case .tenantIsolation (lit "tenant"),
      ∃ i < case.attempts, (runner.attempt case secretCanary tenantCanary (1 + i)).fails = true

/-- The verifier accepts the result of a case unless the case is quarantined and one of
    its attempts failed. -/
theorem caseConsistent_runCase (hcase : case.Valid) (h : runner.runCase platform case = some result) :
    result.caseId = case.caseId ∧ (caseConsistent case result = true ↔
      (case.quarantine.isSome → ¬ runner.SomeAttemptFails platform case)) := by
  simp only [EvaluationRunner.runCase, Option.bind_eq_bind, Option.bind_eq_some_iff] at h
  obtain ⟨secretCanary, hsecret, tenantCanary, htenant, r, hr, hresult⟩ := h
  have hfollows := runAttempts_follows hr
  rw [List.length_nil] at hfollows
  cases r with
  | completed observations durations =>
    -- No attempt fails, so the results of a quarantined case are not looked for.
    obtain ⟨hlength, hall⟩ := hfollows
    obtain ⟨hid, hconsistent⟩ :=
      caseConsistent_evaluateCase hcase (hlength.trans (Nat.zero_add _)) hresult
    refine ⟨hid, fun _ _ => ?_, fun _ => hconsistent⟩
    rintro ⟨secret, hsecret', tenant, htenant', i, hi, hfails⟩
    obtain rfl := Option.some.inj (hsecret.symm.trans hsecret')
    obtain rfl := Option.some.inj (htenant.symm.trans htenant')
    exact Bool.false_ne_true ((hall i hi).symm.trans hfails)
  | incomplete durations attempts code =>
    -- An attempt fails, so the result is consistent exactly without a quarantine.
    obtain ⟨hlt, i, hi, hfails⟩ := hfollows
    obtain ⟨hid, hiff⟩ :=
      caseConsistent_incompleteResult hcase (hlt.trans_eq (Nat.zero_add _)) hresult
    refine ⟨hid, hiff.trans ⟨fun hnone hsome => ?_, fun himp => ?_⟩⟩
    · rw [hnone] at hsome
      cases hsome
    · exact Option.not_isSome_iff_eq_none.1 fun hsome =>
        himp hsome ⟨secretCanary, hsecret, tenantCanary, htenant, i, hi, hfails⟩

/-- Related lists, whose related items satisfy a condition on the first of them. -/
theorem forall₂_iff_forall_mem {α β : Type} {R S : α → β → Prop} {P : α → Prop} {l : List α}
    {l' : List β} (h : l.Forall₂ R l') (hiff : ∀ a ∈ l, ∀ b, R a b → (S a b ↔ P a)) :
    l.Forall₂ S l' ↔ ∀ a ∈ l, P a := by
  induction h with
  | nil => simp
  | cons hR _ ih =>
    rw [List.forall₂_cons, List.forall_mem_cons, hiff _ List.mem_cons_self _ hR,
      ih fun a ha => hiff a (List.mem_cons_of_mem _ ha)]

theorem summariesEqual_self {summaries : List EvaluationMetricSummary}
    (h : ∀ summary ∈ summaries, summary.Valid) : summariesEqual summaries summaries = true := by
  induction summaries with
  | nil => rfl
  | cons summary summaries ih =>
    rw [List.forall_mem_cons] at h
    have hscore : summary.score.le summary.score = true := by
      have hne := (ne_nan_of_le h.1.score.1).2
      cases hx : summary.score with
      | finite q => exact decide_eq_true le_rfl
      | negZero | posInf | negInf => rfl
      | nan => exact absurd hx hne
    rw [summariesEqual, ih h.2, EvaluationMetricSummary.pyEq, PyFloat.eq, hscore]
    simp

/-- What a runner is made of. -/
theorem create_eq_some {bundle : EvaluationBundle} {binding : EvaluationArtifactBinding}
    {target : EvaluationTarget} {now : DateTime}
    (h : EvaluationRunner.create platform bundle binding target now = some runner) :
    (bundle.reread platform).Valid ∧
      (bundle.reread platform).datasetDigest platform = some binding.datasetDigest ∧
      runner = { bundle := bundle.reread platform, binding, target, now } := by
  simp only [EvaluationRunner.create, Option.bind_eq_bind, Option.bind_eq_some_iff,
    revalidateBundle_eq_some] at h
  obtain ⟨_, ⟨hvalid, rfl⟩, digest, hdigest, hrunner⟩ := h
  split_ifs at hrunner with heq
  exact ⟨hvalid, heq ▸ hdigest, (Option.some.inj hrunner).symm⟩

/-- What a run reports. -/
theorem run_eq_some (h : runner.run platform = some report) :
    ∃ results, runner.bundle.cases.Forall₂ (fun case result => runner.runCase platform case = some result)
        results ∧ (∀ summary ∈ summarizeMetrics platform results, summary.Valid) ∧
      report = {
        bundleName := runner.bundle.name
        bundleVersion := runner.bundle.version
        mode := runner.target.mode
        createdAt := timestamp runner.now
        binding := runner.binding
        cases := results
        metrics := summarizeMetrics platform results
        complete := allComplete results
        passed := allPassed results } := by
  simp only [EvaluationRunner.run, Option.bind_eq_bind] at h
  split_ifs at h
  · cases h
  · simp only [Option.bind_eq_some_iff] at h
    obtain ⟨results, hresults, h⟩ := h
    split_ifs at h with hvalid
    · exact ⟨results, mapM_eq_some.1 hresults, hvalid, (Option.some.inj h).symm⟩
    · cases h

variable {scheme : Ed25519} {signed : EvaluationReport} {keyId : Text} {privateKey : scheme.PrivateKey}

/-- A report that is signed has the signature of its payload. -/
theorem sign_eq_ok (h : signEvaluationReport platform scheme report keyId privateKey = .ok signed) :
    ∃ payload, signaturePayload platform report.toUnsignedReport = some payload ∧
      signed = { report with
        signature := some ⟨keyId, Base64.encode (scheme.sign privateKey payload)⟩ } := by
  rw [signEvaluationReport] at h
  split_ifs at h
  split at h
  · cases h
  · next payload hpayload =>
    dsimp only at h
    split_ifs at h
    exact ⟨payload, hpayload, (Except.ok.inj h).symm⟩

variable {bundle : EvaluationBundle} {binding : EvaluationArtifactBinding} {target : EvaluationTarget}
  {now : DateTime} {publicKeys : Dict Text scheme.PublicKey}

/-- **The verifier accepts the signed report of a run exactly when no quarantined case
    is incomplete**, in a year that its pattern has. -/
theorem verify_run (hnow : now.isValid = true)
    (hrunner : EvaluationRunner.create platform bundle binding target now = some runner)
    (hrun : runner.run platform = some report)
    (hsign : signEvaluationReport platform scheme report keyId privateKey = .ok signed)
    (hkey : publicKeys.lookup keyId = some (scheme.publicKey privateKey)) :
    verifyEvaluationReport platform scheme signed bundle binding publicKeys = .ok () ↔
      (1900 ≤ now.year ∧ now.year ≤ 2099) ∧ ∀ case ∈ runner.bundle.cases,
        case.quarantine.isSome → ¬ runner.SomeAttemptFails platform case := by
  obtain ⟨hvalid, hdigest, rfl⟩ := create_eq_some hrunner
  obtain ⟨results, hresults, hsummaries, rfl⟩ := run_eq_some hrun
  obtain ⟨payload, hpayload, rfl⟩ := sign_eq_ok hsign
  have hcases := forall₂_iff_forall_mem hresults fun case hmem result hresult =>
    (and_iff_right (caseConsistent_runCase (hvalid.cases case hmem) hresult).1).trans
      (caseConsistent_runCase (hvalid.cases case hmem) hresult).2
  -- Of what the verifier checks, the run itself leaves the year and the quarantined cases open.
  rw [verify_eq_ok, ← isTimestamp_timestamp hnow, ← hcases]
  constructor
  · intro h
    obtain ⟨htimestamp, hconsistent, -, -, -⟩ := reportConsistent_iff.1 h.consistent
    exact ⟨htimestamp, hconsistent⟩
  · rintro ⟨htimestamp, hconsistent⟩
    exact {
      bundle_valid := hvalid
      dataset := hdigest
      binding_eq := rfl
      identity := ⟨rfl, rfl⟩
      signed := ⟨_, rfl, _, hkey, _, Base64.decode_encode _, scheme.length_sign _ _, payload, hpayload,
        scheme.verify_sign _ _⟩
      consistent := reportConsistent_iff.2 ⟨htimestamp, hconsistent, summariesEqual_self hsummaries,
        rfl, rfl⟩ }

end

/-! ## A run -/

/-- A platform that writes the document of a bundle. -/
def writingPlatform : Platform :=
  { markedPlatform [] with
    dumpJson := fun bundle => JsonWriter.plain.render (bundle.document (markedPlatform [])) }

/-- A target that does the same on each invocation. -/
def steadyTarget (ended : Ended) : EvaluationTarget where
  mode := .inProcess
  observe _ := ⟨ended, .finite 1⟩

/-- A bundle whose cases are quarantined. -/
def quarantinedBundle : EvaluationBundle :=
  { orderBundle with
    cases := orderBundle.cases.map fun case => { case with
      quarantine := some {
        owner := lit "runtime-team"
        issue := lit "https://github.com/tesserix/tesserix-mcp-runtime/issues/28"
        reason := lit "nondeterministic upstream behavior" } } }

def newYear : DateTime := ⟨2026, 1, 1, 0, 0, 0, 0⟩

/-- The verdict on the signed report of a run. -/
def verdict (bundle : EvaluationBundle) (ended : Ended) : Option Bool := do
  let runner ← EvaluationRunner.create writingPlatform bundle orderBinding (steadyTarget ended) newYear
  let report ← runner.run writingPlatform
  let signed ← (signEvaluationReport writingPlatform flatScheme report (lit "key") ()).toOption
  return (verifyEvaluationReport writingPlatform flatScheme signed bundle orderBinding
    (AList.singleton (lit "key") ())).isOk

theorem exists_of_verdict {bundle : EvaluationBundle} {ended : Ended} {accepted : Bool}
    (h : verdict bundle ended = some accepted) :
    ∃ runner report signed, EvaluationRunner.create writingPlatform bundle orderBinding
        (steadyTarget ended) newYear = some runner ∧ runner.run writingPlatform = some report ∧
      signEvaluationReport writingPlatform flatScheme report (lit "key") () = .ok signed ∧
      (verifyEvaluationReport writingPlatform flatScheme signed bundle orderBinding
        (AList.singleton (lit "key") ())).isOk = accepted := by
  simp only [verdict, Option.bind_eq_bind, Option.bind_eq_some_iff] at h
  obtain ⟨runner, hrunner, report, hreport, signed, hsign, hverdict⟩ := h
  exact ⟨runner, report, signed, hrunner, hreport, eq_ok_of_toOption hsign, Option.some.inj hverdict⟩

theorem verify_run_example : ∃ runner report signed,
    EvaluationRunner.create writingPlatform orderBundle orderBinding (steadyTarget .targetCancelled)
      newYear = some runner ∧ runner.run writingPlatform = some report ∧
    signEvaluationReport writingPlatform flatScheme report (lit "key") () = .ok signed ∧
    verifyEvaluationReport writingPlatform flatScheme signed orderBundle orderBinding
      (AList.singleton (lit "key") ()) = .ok () := by
  have haccepted : verdict orderBundle .targetCancelled = some true := by decide +kernel
  obtain ⟨runner, report, signed, hrunner, hreport, hsign, -⟩ := exists_of_verdict haccepted
  have hordinary : ∀ case ∈ (orderBundle.reread writingPlatform).cases,
      case.quarantine.isSome = false := by decide +kernel
  refine ⟨runner, report, signed, hrunner, hreport, hsign,
    (verify_run (by decide) hrunner hreport hsign rfl).2
      ⟨by decide, fun case hcase hquarantine => ?_⟩⟩
  rw [(create_eq_some hrunner).2.2] at hcase
  rw [hordinary case hcase] at hquarantine
  cases hquarantine

/-- A quarantined case that times out is reported, and the report is rejected. -/
theorem quarantined_timeout_rejected : ∃ runner report signed,
    EvaluationRunner.create writingPlatform quarantinedBundle orderBinding (steadyTarget .timedOut)
      newYear = some runner ∧ runner.run writingPlatform = some report ∧
    signEvaluationReport writingPlatform flatScheme report (lit "key") () = .ok signed ∧
    verifyEvaluationReport writingPlatform flatScheme signed quarantinedBundle orderBinding
      (AList.singleton (lit "key") ()) ≠ .ok () := by
  have hrejected : verdict quarantinedBundle .timedOut = some false := by decide +kernel
  obtain ⟨runner, report, signed, hrunner, hreport, hsign, hverdict⟩ := exists_of_verdict hrejected
  refine ⟨runner, report, signed, hrunner, hreport, hsign, fun hok => ?_⟩
  rw [hok] at hverdict
  cases hverdict

end Evaluation

end McpRuntime
