import McpRuntime.Evaluation.Order
import McpRuntime.Evaluation.Report
import McpRuntime.Python.Except

/-!
# Soundness of promotion

* `verify_eq_ok`: what a report that is verified satisfies.
* `promotion_sound`: what an approved promotion rests on, whatever the content of
  the report: a signature of all its fields, a result for every case that passed
  its blocking metrics, a pass ratio for every gate, and independent reviewers; and
  the digest of the bundle, exactly when the sets of the bundle are in the order in
  which they are read again.
-/

namespace McpRuntime

namespace Evaluation

/-! ## The payload of a signature -/

section

variable {platform : Platform} {value value' : Json} {text : Text}

/-- Finite values with one text have one canonical form. -/
theorem Platform.same_of_canonicalJson (h : platform.canonicalJson value = some text)
    (h' : platform.canonicalJson value' = some text) (hfinite : value.allFinite)
    (hfinite' : value'.allFinite) : value.Same value' := by
  exact (JsonWriter.Cancels.of_finite hfinite hfinite').same
    ((canonicalJson_eq_some h).trans (canonicalJson_eq_some h').symm)

@[simp] theorem same_optionalText {t t' : Option Text} :
    (optionalText t).Same (optionalText t') ↔ t = t' := by
  constructor
  · intro h
    cases t <;> cases t'
    · rfl
    · cases h
    · cases h
    · exact congrArg some (Json.same_str.1 h)
  · rintro rfl
    rfl

@[simp] theorem same_binding {binding binding' : EvaluationArtifactBinding} :
    binding.document.Same binding'.document ↔ binding = binding' := by
  refine ⟨fun h => ?_, fun h => h ▸ rfl⟩
  have hfields := Json.same_members h rfl (of_decide_eq_true rfl)
  simp only [List.forall₂_cons, List.forall₂_nil_left_iff, Json.same_str, and_true] at hfields
  obtain ⟨hsource, hruntime, hmanifest, himage, hdataset⟩ := hfields
  exact EvaluationArtifactBinding.ext hsource hruntime hmanifest himage hdataset

/-- The document of the result of a metric determines it. -/
theorem EvaluationMetricResult.document_inj {result result' : EvaluationMetricResult}
    (h : result.document.Same result'.document) : result = result' := by
  have hfields := Json.same_members h rfl (of_decide_eq_true rfl)
  simp only [List.forall₂_cons, List.forall₂_nil_left_iff, Json.same_str, Json.same_bool,
    and_true] at hfields
  obtain ⟨hmetric, hpassed, hcode⟩ := hfields
  exact EvaluationMetricResult.ext (EvaluationMetric.value_inj hmetric) hpassed hcode

/-- The document of the result of a case determines it. -/
theorem EvaluationCaseResult.document_inj {result result' : EvaluationCaseResult}
    (h : result.document.Same result'.document) : result = result' := by
  have hfields := Json.same_members h rfl (of_decide_eq_true rfl)
  simp only [List.forall₂_cons, List.forall₂_nil_left_iff, Json.same_str, Json.same_int,
    Json.same_float, Nat.cast_inj, same_texts, same_optionalText, and_true] at hfields
  obtain ⟨hcase, hstatus, hattempts, hduration, houtcome, htelemetry, hmetrics, hcodes, howner,
    hissue⟩ := hfields
  exact EvaluationCaseResult.ext hcase (EvaluationStatus.value_inj hstatus) hattempts hduration houtcome
    htelemetry (Json.map_eq_of_same (fun _ _ _ _ => EvaluationMetricResult.document_inj) hmetrics)
    hcodes howner hissue

/-- The document of a summary determines it. -/
theorem EvaluationMetricSummary.document_inj {summary summary' : EvaluationMetricSummary}
    (h : summary.document.Same summary'.document) : summary = summary' := by
  have hfields := Json.same_members h rfl (of_decide_eq_true rfl)
  simp only [List.forall₂_cons, List.forall₂_nil_left_iff, Json.same_str, Json.same_int,
    Json.same_float, Nat.cast_inj, and_true] at hfields
  obtain ⟨hmetric, hpassed, htotal, hscore⟩ := hfields
  exact EvaluationMetricSummary.ext (EvaluationMetric.value_inj hmetric) hpassed htotal hscore

/-- The document of a report determines the fields that are signed. -/
theorem UnsignedReport.members_inj {report report' : UnsignedReport}
    (h : (Json.obj report.members).Same (.obj report'.members)) : report = report' := by
  have hfields := Json.same_members h rfl (of_decide_eq_true rfl)
  simp only [UnsignedReport.members, List.forall₂_cons, List.forall₂_nil_left_iff, Json.same_str,
    Json.same_int, Json.same_bool, same_binding, and_true, true_and] at hfields
  obtain ⟨hname, hversion, hmode, hcreated, hbinding, hcases, hmetrics, hcomplete, hpassed⟩ := hfields
  exact UnsignedReport.ext hname hversion (EvaluationMode.value_inj hmode) hcreated hbinding
    (Json.map_eq_of_same (fun _ _ _ _ => EvaluationCaseResult.document_inj) hcases)
    (Json.map_eq_of_same (fun _ _ _ _ => EvaluationMetricSummary.document_inj) hmetrics)
    hcomplete hpassed

/-- A number between two others is finite. -/
theorem isFinite_of_bounds {x : PyFloat} {a b : ℚ} (h : (PyFloat.finite a).le x ∧ x.le (.finite b)) :
    x.isFinite := by
  cases x with
  | finite | negZero => rfl
  | posInf => cases h.2
  | negInf => cases h.1
  | nan => cases h.1

/-- The numbers of a report are finite. -/
theorem EvaluationReport.Valid.allFinite {report : EvaluationReport} (h : report.Valid) :
    (Json.obj report.members).allFinite := by
  have hstr (t : Text) : (Json.str t).allFinite = true := rfl
  have hbool (b : Bool) : (Json.bool b).allFinite = true := rfl
  have hint (n : ℤ) : (Json.int n).allFinite = true := rfl
  have hcases : (Json.arr (report.cases.map EvaluationCaseResult.document)).allFinite := by
    refine Json.allFinite_arr.2 fun j hj => ?_
    obtain ⟨result, hmem, rfl⟩ := List.mem_map.1 hj
    have hduration : (Json.float result.durationMs).allFinite :=
      isFinite_of_bounds (h.cases result hmem).durationMs
    have hmetrics : (Json.arr (result.metrics.map EvaluationMetricResult.document)).allFinite :=
      Json.allFinite_arr.2 (List.forall_mem_map.2 fun _ _ => rfl)
    refine Json.allFinite_obj.2 ?_
    simp [hduration, hmetrics, allFinite_texts, allFinite_optionalText, hstr, hint]
  have hmetrics : (Json.arr (report.metrics.map EvaluationMetricSummary.document)).allFinite := by
    refine Json.allFinite_arr.2 fun j hj => ?_
    obtain ⟨summary, hmem, rfl⟩ := List.mem_map.1 hj
    have hscore : (Json.float summary.score).allFinite :=
      isFinite_of_bounds (h.metrics summary hmem).score
    refine Json.allFinite_obj.2 ?_
    simp [hscore, hstr, hint]
  have hbinding : report.binding.document.allFinite := rfl
  refine Json.allFinite_obj.2 ?_
  simp [UnsignedReport.members, hcases, hmetrics, hbinding, hstr, hint, hbool]

/-- A payload is that of one report, up to the signature. -/
theorem eq_of_signaturePayload {report report' : EvaluationReport} (h : report.Valid) (h' : report'.Valid)
    (hpayload : signaturePayload platform report.toUnsignedReport = some text)
    (hpayload' : signaturePayload platform report'.toUnsignedReport = some text) :
    report.toUnsignedReport = report'.toUnsignedReport :=
  UnsignedReport.members_inj (platform.same_of_canonicalJson hpayload hpayload' h.allFinite h'.allFinite)

end

/-! ## Verification -/

section

variable {platform : Platform} {scheme : Ed25519} {report : EvaluationReport}
  {bundle : EvaluationBundle} {binding : EvaluationArtifactBinding}
  {publicKeys : Dict Text scheme.PublicKey}

/-- A signature of the payload of a report, by one of the keys. -/
def SignedBy (platform : Platform) (scheme : Ed25519) (report : EvaluationReport)
    (publicKeys : Dict Text scheme.PublicKey) : Prop :=
  ∃ signature ∈ report.signature, ∃ key ∈ publicKeys.lookup signature.keyId,
    ∃ raw ∈ Base64.decode signature.value, raw.length = 64 ∧
      ∃ payload ∈ signaturePayload platform report.toUnsignedReport, scheme.verify key raw payload = true

/-- What `verify_evaluation_report` checks, of the bundle that is read again. -/
structure Verified (platform : Platform) (scheme : Ed25519) (report : EvaluationReport)
    (bundle : EvaluationBundle) (binding : EvaluationArtifactBinding)
    (publicKeys : Dict Text scheme.PublicKey) : Prop where
  bundle_valid : (bundle.reread platform).Valid
  dataset : (bundle.reread platform).datasetDigest platform = some binding.datasetDigest
  binding_eq : report.binding = binding
  identity : report.bundleName = bundle.name ∧ report.bundleVersion = bundle.version
  signed : SignedBy platform scheme report publicKeys
  consistent : reportConsistent platform report.toUnsignedReport (bundle.reread platform) = true

theorem elim_eq_ok {ε α : Type} {o : Option α} {e : ε} {a : α} :
    o.elim (.error e) .ok = (.ok a : Except ε α) ↔ o = some a := by
  cases o <;> simp

/-- A report is verified when it passes all the checks. -/
theorem verify_eq_ok : verifyEvaluationReport platform scheme report bundle binding publicKeys = .ok () ↔
    Verified platform scheme report bundle binding publicKeys := by
  simp only [verifyEvaluationReport, bind_eq_ok, elim_eq_ok, check_eq_ok, lastCheck_eq_ok,
    revalidateBundle_eq_some]
  constructor
  · rintro ⟨_, ⟨hvalid, rfl⟩, digest, hdigest, hdataset, hbinding, hidentity, signature, hsignature, key,
      hkey, raw, hraw, hlength, payload, hpayload, hverify, hconsistent, -⟩
    rw [ne_eq, not_not] at hdataset hbinding hlength
    rw [ne_eq, ne_eq, not_or, not_not, not_not] at hidentity
    rw [Bool.not_eq_true, Bool.not_eq_false'] at hverify hconsistent
    exact { bundle_valid := hvalid
            dataset := hdataset ▸ hdigest
            binding_eq := hbinding
            identity := hidentity
            signed := ⟨signature, hsignature, key, hkey, raw, hraw, hlength, payload, hpayload, hverify⟩
            consistent := hconsistent }
  · intro h
    obtain ⟨signature, hsignature, key, hkey, raw, hraw, hlength, payload, hpayload, hverify⟩ := h.signed
    exact ⟨_, ⟨h.bundle_valid, rfl⟩, _, h.dataset, not_not.2 rfl, not_not.2 h.binding_eq,
      not_or.2 ⟨not_not.2 h.identity.1, not_not.2 h.identity.2⟩, signature, hsignature, key, hkey, raw,
      hraw, not_not.2 hlength, payload, hpayload, by simp [hverify], by simp [h.consistent], rfl⟩

/-- Lists with the same keys, whose pairs satisfy a condition. -/
theorem forall₂_iff_zip_all {α β κ : Type} (f : α → κ) (g : β → κ) (p : α → β → Bool) {l : List α}
    {l' : List β} : (l'.map g = l.map f ∧ (l.zip l').all (fun (a, b) => p a b) = true) ↔
      l.Forall₂ (fun a b => g b = f a ∧ p a b = true) l' := by
  induction l generalizing l' with
  | nil => cases l' <;> simp
  | cons a l ih =>
    cases l' with
    | nil => simp
    | cons b l' =>
      rw [List.forall₂_cons, ← ih]
      simp only [List.map_cons, List.cons.injEq, List.zip_cons_cons, List.all_cons, Bool.and_eq_true]
      tauto

/-- What `_validate_report_against_bundle` checks. -/
theorem reportConsistent_iff {report : UnsignedReport} : reportConsistent platform report bundle = true ↔
    isTimestamp report.createdAt = true ∧
      bundle.cases.Forall₂ (fun case result => result.caseId = case.caseId ∧
        caseConsistent case result = true) report.cases ∧
      summariesEqual report.metrics (summarizeMetrics platform report.cases) = true ∧
      report.complete = allComplete report.cases ∧ report.passed = allPassed report.cases := by
  rw [← forall₂_iff_zip_all EvaluationCase.caseId EvaluationCaseResult.caseId caseConsistent]
  simp only [reportConsistent, Bool.and_eq_true, decide_eq_true_eq, and_assoc]

end

/-! ## Results of cases -/

section

variable {case : EvaluationCase} {result : EvaluationCaseResult} {metric : EvaluationMetric}

theorem metricPassed_iff : result.metricPassed metric = true ↔
    ∃ r ∈ result.metrics, r.metric = metric ∧ r.passed = true := by
  simp [EvaluationCaseResult.metricPassed]

/-- A case is not quarantined, and its result has completed all attempts and passed
    the blocking metrics. -/
structure PassedCase (case : EvaluationCase) (result : EvaluationCaseResult) : Prop where
  caseId : result.caseId = case.caseId
  metrics : (result.metrics.map EvaluationMetricResult.metric).Perm case.metrics
  attempts : result.attempts = case.attempts
  quarantine : case.quarantine = none
  blocking : ∀ metric ∈ case.blockingMetrics, ∃ r ∈ result.metrics, r.metric = metric ∧ r.passed = true

/-- The metrics of a consistent result are those of the case, each once. -/
theorem metrics_of_consistent (h : caseConsistent case result = true) :
    (result.metrics.map EvaluationMetricResult.metric).Nodup ∧
      ∀ metric, metric ∈ result.metrics.map EvaluationMetricResult.metric ↔ metric ∈ case.metrics := by
  simp only [caseConsistent, Bool.and_eq_true, decide_eq_true_eq] at h
  obtain ⟨⟨⟨⟨⟨⟨⟨⟨hnodup, hsub⟩, hsup⟩, -⟩, -⟩, -⟩, -⟩, -⟩, -⟩ := h
  exact ⟨hnodup, fun metric => ⟨fun hm => hsub hm, fun hm => hsup hm⟩⟩

/-- A consistent result whose status is that of a pass. -/
theorem passed_of_consistent (h : caseConsistent case result = true) (hstatus : result.status = .passed) :
    case.quarantine = none ∧ result.attempts = case.attempts ∧
      ∀ metric ∈ case.blockingMetrics, result.metricPassed metric = true := by
  have hconsistent : statusConsistent case result = true := by
    rw [caseConsistent, Bool.and_eq_true] at h
    exact h.2
  rw [statusConsistent, hstatus] at hconsistent
  split at hconsistent
  · rw [Bool.and_eq_true] at hconsistent
    exact absurd hconsistent.2 (by decide)
  · next hquarantine =>
    rw [if_neg (by decide), Bool.and_eq_true, decide_eq_true_eq, decide_eq_true_eq] at hconsistent
    refine ⟨hquarantine, hconsistent.1, fun metric hmetric => ?_⟩
    have hany := hconsistent.2
    split_ifs at hany with hfailed
    rw [Bool.not_eq_true, List.any_eq_false] at hfailed
    simpa using hfailed metric hmetric

end

/-! ## Summaries -/

section

variable {platform : Platform} {metric : EvaluationMetric} {cases : List EvaluationCase}
  {results : List EvaluationCaseResult} {summaries summaries' : List EvaluationMetricSummary}

/-- Of the items of a list with distinct keys, one at most has a given key. -/
theorem countP_key {α κ : Type} [DecidableEq κ] {key : α → κ} {l : List α} (hnodup : (l.map key).Nodup)
    (k : κ) (p : α → Bool) :
    l.countP (fun a => key a = k && p a) = if l.any fun a => key a = k && p a then 1 else 0 := by
  induction l with
  | nil => rfl
  | cons a l ih =>
    rw [List.map_cons, List.nodup_cons] at hnodup
    rw [List.countP_cons, ih hnodup.2, List.any_cons]
    cases ha : decide (key a = k) && p a with
    | false => simp
    | true =>
      have hother : (l.any fun b => key b = k && p b) = false := by
        rw [Bool.and_eq_true, decide_eq_true_eq] at ha
        refine List.any_eq_false.2 fun b hb hmatch => hnodup.1 ?_
        rw [Bool.and_eq_true, decide_eq_true_eq] at hmatch
        exact ha.1.trans hmatch.1.symm ▸ List.mem_map_of_mem hb
      rw [hother]
      rfl

/-- The results of a metric, over all cases. -/
def matching (results : List EvaluationCaseResult) (metric : EvaluationMetric) :
    List EvaluationMetricResult :=
  (results.flatMap EvaluationCaseResult.metrics).filter fun r => r.metric = metric

/-- There is a result for each case that evaluates the metric. -/
theorem length_matching
    (h : cases.Forall₂ (fun case result => result.caseId = case.caseId ∧
      caseConsistent case result = true) results) :
    (matching results metric).length = cases.countP fun case => metric ∈ case.metrics := by
  rw [matching, ← List.countP_eq_length_filter]
  induction h with
  | nil => rfl
  | @cons case result cases results hcase _ ih =>
    obtain ⟨hnodup, hmetrics⟩ := metrics_of_consistent hcase.2
    have hcount := countP_key hnodup metric fun _ => true
    simp only [Bool.and_true] at hcount
    rw [List.flatMap_cons, List.countP_append, ih, hcount, List.countP_cons, Nat.add_comm]
    have hany : (result.metrics.any fun r => decide (r.metric = metric)) =
        decide (metric ∈ case.metrics) := by
      rw [← decide_eq_decide.2 (hmetrics metric), Bool.eq_iff_iff, List.any_eq_true, decide_eq_true_eq,
        List.mem_map]
      simp only [decide_eq_true_eq]
    rw [hany]

/-- The results that are passes are those of the cases that pass the metric. -/
theorem countP_matching
    (h : cases.Forall₂ (fun case result => result.caseId = case.caseId ∧
      caseConsistent case result = true) results) :
    (matching results metric).countP EvaluationMetricResult.passed =
      results.countP fun result => result.metricPassed metric := by
  rw [matching, List.countP_filter]
  induction h with
  | nil => rfl
  | @cons case result cases results hcase _ ih =>
    have hcount := countP_key (metrics_of_consistent hcase.2).1 metric EvaluationMetricResult.passed
    simp only [Bool.and_comm] at ih hcount ⊢
    rw [List.flatMap_cons, List.countP_append, ih, hcount, List.countP_cons, Nat.add_comm]
    simp only [EvaluationCaseResult.metricPassed, Bool.and_comm]

/-- Equal tuples have equal summaries. -/
theorem exists_of_summariesEqual (h : summariesEqual summaries summaries' = true)
    {summary : EvaluationMetricSummary} (hmem : summary ∈ summaries) :
    ∃ summary' ∈ summaries', summary.pyEq summary' = true := by
  induction summaries generalizing summaries' with
  | nil => cases hmem
  | cons s summaries ih =>
    cases summaries' with
    | nil => cases h
    | cons s' summaries' =>
      rw [summariesEqual, Bool.and_eq_true] at h
      rcases List.mem_cons.1 hmem with rfl | hmem
      · exact ⟨s', List.mem_cons_self, h.1⟩
      · obtain ⟨summary', hmem', heq⟩ := ih h.2 hmem
        exact ⟨summary', List.mem_cons_of_mem _ hmem', heq⟩

/-- A summary that is recomputed has the score of the results. -/
theorem score_of_mem {summary : EvaluationMetricSummary}
    (h : summary ∈ summarizeMetrics platform results) :
    matching results summary.metric ≠ [] ∧ summary.score = platform.rounding
      ((matching results summary.metric).countP EvaluationMetricResult.passed /
        (matching results summary.metric).length) := by
  obtain ⟨metric, -, hsummary⟩ := List.mem_filterMap.1 h
  rw [summarizeMetric] at hsummary
  split_ifs at hsummary with hempty
  obtain rfl := Option.some.inj hsummary
  rw [Bool.not_eq_true, List.isEmpty_eq_false_iff] at hempty
  exact ⟨hempty, rfl⟩

end

/-! ## Promotion -/

section

variable {platform : Platform} {scheme : Ed25519} {report : EvaluationReport}
  {bundle : EvaluationBundle} {binding : EvaluationArtifactBinding}
  {publicKeys : Dict Text scheme.PublicKey} {stage : PromotionStage} {review : EvaluationReview}
  {decision : EvaluationPromotionDecision} {policy : PromotionStagePolicy}

/-- The metric of a gate is evaluated by some case, and the ratio of the cases that
    pass it is at least the minimum of the gate. -/
def GatePassed (platform : Platform) (bundle : EvaluationBundle) (report : EvaluationReport)
    (gate : PromotionMetricGate) : Prop :=
  let total := bundle.cases.countP fun case => gate.metric ∈ case.metrics
  let passed := report.cases.countP fun result => result.metricPassed gate.metric
  (∃ summary ∈ report.metrics, summary.metric = gate.metric) ∧ 0 < total ∧
    gate.minimumScore.le (platform.rounding (passed / total)) = true

/-- The owners of the keys have signed all fields of a report but the signature. -/
def Covered (platform : Platform) (scheme : Ed25519) (Signed : scheme.PublicKey → Text → Prop)
    (publicKeys : Dict Text scheme.PublicKey) (report : EvaluationReport) : Prop :=
  ∃ signature ∈ report.signature, ∃ key ∈ publicKeys.lookup signature.keyId,
    ∃ payload ∈ signaturePayload platform report.toUnsignedReport, Signed key payload ∧
      ∀ report' : EvaluationReport, report'.Valid →
        signaturePayload platform report'.toUnsignedReport = some payload →
          report'.toUnsignedReport = report.toUnsignedReport

/-- The reviewers are independent, and are enough for a stage. -/
structure Reviewed (policy : PromotionStagePolicy) (review : EvaluationReview) : Prop where
  distinct : (review.reviewers.map EvaluationReviewer.subject).Nodup
  independent : review.author ∉ review.reviewers.map EvaluationReviewer.subject
  enough : policy.minimumReviewers ≤ review.reviewers.length
  roles : ∀ role ∈ policy.requiredReviewerRoles, ∃ reviewer ∈ review.reviewers, role ∈ reviewer.roles

/-- What a promotion rests on, whatever the order of the sets of the bundle. -/
structure Evidenced (platform : Platform) (scheme : Ed25519) (Signed : scheme.PublicKey → Text → Prop)
    (report : EvaluationReport) (bundle : EvaluationBundle) (binding : EvaluationArtifactBinding)
    (publicKeys : Dict Text scheme.PublicKey) (stage : PromotionStage) (review : EvaluationReview) :
    Prop where
  covered : Covered platform scheme Signed publicKeys report
  binding_eq : report.binding = binding
  caseIds : (bundle.cases.map EvaluationCase.caseId).Nodup
  cases : bundle.cases.Forall₂ PassedCase report.cases
  policy : ∃ policy ∈ bundle.promotionPolicy.forStage stage, report.mode ∈ policy.allowedModes ∧
    (∀ gate ∈ policy.gates, GatePassed platform bundle report gate) ∧ Reviewed policy review

/-- What a promotion is to rest on: the evidence, for the bundle of this digest. -/
structure Promotable (platform : Platform) (scheme : Ed25519) (Signed : scheme.PublicKey → Text → Prop)
    (report : EvaluationReport) (bundle : EvaluationBundle) (binding : EvaluationArtifactBinding)
    (publicKeys : Dict Text scheme.PublicKey) (stage : PromotionStage) (review : EvaluationReview) :
    Prop extends
    Evidenced platform scheme Signed report bundle binding publicKeys stage review where
  dataset : bundle.datasetDigest platform = some report.binding.datasetDigest

/-- The cases that are read again are in order, with the metrics of the cases. -/
theorem forall₂_reread {R : EvaluationCase → EvaluationCaseResult → Prop}
    {results : List EvaluationCaseResult} (h : (bundle.reread platform).cases.Forall₂ R results) :
    bundle.cases.Forall₂ (fun case result => R (case.reread platform) result) results :=
  List.forall₂_map_left_iff.1 h

theorem mem_reread_metrics {case : EvaluationCase} {metric : EvaluationMetric} :
    metric ∈ (case.reread platform).metrics ↔ metric ∈ case.metrics :=
  mem_sortedBy

/-- A case that passed, of the bundle as it was given. -/
theorem passedCase_of_consistent {case : EvaluationCase} {result : EvaluationCaseResult}
    (hid : result.caseId = case.caseId) (h : caseConsistent (case.reread platform) result = true)
    (hnodup : (case.reread platform).metrics.Nodup) (hstatus : result.status = .passed) :
    PassedCase case result := by
  obtain ⟨hquarantine, hattempts, hblocking⟩ := passed_of_consistent h hstatus
  obtain ⟨hunique, hmetrics⟩ := metrics_of_consistent h
  exact { caseId := hid
          metrics := ((List.perm_ext_iff_of_nodup hunique hnodup).2 hmetrics).trans (sortedBy_perm _ _)
          attempts := hattempts
          quarantine := hquarantine
          blocking := fun metric hmetric =>
            metricPassed_iff.1 (hblocking metric (mem_sortedBy.2 hmetric)) }

/-- The reasons against a promotion are none. -/
theorem promotionReasons_eq_nil (h : promotionReasons report policy review = []) :
    report.passed = true ∧ report.mode ∈ policy.allowedModes ∧
      (∀ gate ∈ policy.gates, gateReason report gate = none) ∧
      policy.minimumReviewers ≤ review.reviewers.length ∧
      ∀ role ∈ policy.requiredReviewerRoles, ∃ reviewer ∈ review.reviewers, role ∈ reviewer.roles := by
  simp only [promotionReasons, List.append_eq_nil_iff, List.filterMap_eq_nil_iff] at h
  obtain ⟨⟨⟨⟨⟨⟨-, hpassed⟩, hmode⟩, -⟩, hgates⟩, henough⟩, hroles⟩ := h
  refine ⟨?_, ?_, hgates, ?_, fun role hrole => ?_⟩
  · by_contra hne
    rw [if_neg hne] at hpassed
    cases hpassed
  · by_contra hne
    rw [if_neg hne] at hmode
    cases hmode
  · by_contra hlt
    rw [if_pos (not_le.1 hlt)] at henough
    cases henough
  · by_contra hmissing
    have hrole := hroles role hrole
    rw [if_neg (by simpa [List.mem_flatMap] using hmissing)] at hrole
    cases hrole

/-- A gate that gives no reason has a summary that is not below its minimum. -/
theorem gateReason_eq_none {gate : PromotionMetricGate} (h : gateReason report gate = none) :
    ∃ summary ∈ report.metrics, summary.metric = gate.metric ∧
      summary.score.lt gate.minimumScore = false := by
  rw [gateReason] at h
  split at h
  · cases h
  · next summary hfound =>
    have hmetric := List.find?_some hfound
    split_ifs at h with hlt
    exact ⟨summary, List.mem_reverse.1 (List.mem_of_find?_eq_some hfound), of_decide_eq_true hmetric,
      Bool.eq_false_of_not_eq_true hlt⟩

theorem ne_nan_of_le {x y : PyFloat} (h : x.le y = true) : x ≠ .nan ∧ y ≠ .nan := by
  constructor
  · rintro rfl
    cases h
  · rintro rfl
    cases x <;> cases h

/-- The minima of gates are finite, as the bundle is validated again. -/
theorem finiteGates_of_valid (h : (bundle.reread platform).Valid)
    (hpolicy : policy ∈ bundle.promotionPolicy.stages) : FiniteGates policy := by
  have hmem : policy.reread platform ∈ (bundle.reread platform).promotionPolicy.stages :=
    List.mem_map_of_mem hpolicy
  intro gate hgate
  exact isFinite_of_bounds ((h.promotionPolicy.stages _ hmem).gates.2 gate (mem_sortedBy.2 hgate))

theorem ne_nan_of_isFinite {x : PyFloat} (h : x.isFinite) : x ≠ .nan := by
  rintro rfl
  cases h

/-- A gate that gives no reason against a verified report is passed. -/
theorem gatePassed_of_verified (h : Verified platform scheme report bundle binding publicKeys)
    (hpolicy : policy ∈ bundle.promotionPolicy.forStage stage) {gate : PromotionMetricGate}
    (hgate : gate ∈ policy.gates) (hreason : gateReason report gate = none) :
    GatePassed platform bundle report gate := by
  obtain ⟨-, hcases, hsummaries, -, -⟩ := reportConsistent_iff.1 h.consistent
  obtain ⟨summary, hmem, hmetric, hnotlt⟩ := gateReason_eq_none hreason
  obtain ⟨summary', hmem', heq⟩ := exists_of_summariesEqual hsummaries hmem
  obtain ⟨hnonempty, hscore⟩ := score_of_mem hmem'
  simp only [EvaluationMetricSummary.pyEq, PyFloat.eq, Bool.and_eq_true, decide_eq_true_eq] at heq
  obtain ⟨⟨⟨hmetric', -⟩, -⟩, hle, -⟩ := heq
  rw [← hmetric', hmetric] at hnonempty hscore
  have hlength := @length_matching gate.metric _ _ hcases
  have htotal : (bundle.reread platform).cases.countP (fun case => gate.metric ∈ case.metrics) =
      bundle.cases.countP fun case => gate.metric ∈ case.metrics := by
    rw [EvaluationBundle.reread, List.countP_map]
    refine List.countP_congr fun case _ => ?_
    simp only [Function.comp_apply, mem_reread_metrics]
  rw [htotal] at hlength
  have hfinite := finiteGates_of_valid h.bundle_valid (List.mem_of_find?_eq_some hpolicy) gate hgate
  have hminimum := PyFloat.le_of_lt_eq_false (ne_nan_of_le hle).1 (ne_nan_of_isFinite hfinite) hnotlt
  refine ⟨⟨summary, hmem, hmetric⟩, hlength ▸ List.length_pos_iff.2 hnonempty, ?_⟩
  rw [← hlength, ← countP_matching hcases, ← hscore]
  exact PyFloat.le_trans hminimum hle

/-- **An approved promotion rests on evidence.** -/
theorem evidenced_of_approved {Signed : scheme.PublicKey → Text → Prop}
    (hunforgeable : ∀ key raw payload, scheme.verify key raw payload = true → Signed key payload)
    (hreport : report.Valid) (hreview : review.Valid)
    (hverified : Verified platform scheme report bundle binding publicKeys)
    (hpolicy : policy ∈ bundle.promotionPolicy.forStage stage)
    (hreasons : promotionReasons report policy review = []) :
    Evidenced platform scheme Signed report bundle binding publicKeys stage review := by
  obtain ⟨hpassed, hmode, hgates, henough, hroles⟩ := promotionReasons_eq_nil hreasons
  obtain ⟨-, hcases, -, -, hall⟩ := reportConsistent_iff.1 hverified.consistent
  rw [hpassed, eq_comm, allPassed, Bool.and_eq_true, List.all_eq_true] at hall
  obtain ⟨signature, hsignature, key, hkey, raw, -, -, payload, hpayload, hsigned⟩ := hverified.signed
  exact {
    covered := ⟨signature, hsignature, key, hkey, payload, hpayload, hunforgeable _ _ _ hsigned,
      fun report' hreport' hpayload' => eq_of_signaturePayload hreport' hreport hpayload' hpayload⟩
    binding_eq := hverified.binding_eq
    caseIds := by
      have hnodup := hverified.bundle_valid.caseIds
      rwa [EvaluationBundle.reread, List.map_map] at hnodup
    cases := by
      obtain ⟨hlength, hpairs⟩ := List.forall₂_iff_zip.1 (forall₂_reread hcases)
      refine List.forall₂_iff_zip.2 ⟨hlength, fun {case result} hmem => ?_⟩
      obtain ⟨hcase, hresult⟩ := List.of_mem_zip hmem
      have hconsistent := hpairs hmem
      have hvalid := hverified.bundle_valid.cases _ (List.mem_map_of_mem hcase)
      exact passedCase_of_consistent hconsistent.1 hconsistent.2 hvalid.metrics.2
        (of_decide_eq_true (hall.2 result hresult))
    policy := ⟨policy, hpolicy, hmode, fun gate hgate =>
      gatePassed_of_verified hverified hpolicy hgate (hgates gate hgate),
      { distinct := hreview.subjects_unique
        independent := hreview.independent
        enough := henough
        roles := hroles }⟩ }

/-- An approved promotion rests on evidence, and on the digest of its bundle exactly when
    the sets of the bundle are in the order in which they are read again. -/
theorem promotion_sound {Signed : scheme.PublicKey → Text → Prop}
    (hunforgeable : ∀ key raw payload, scheme.verify key raw payload = true → Signed key payload)
    (hdump : ∀ j, platform.dumpValue (platform.dumpValue j) = platform.dumpValue j)
    (hcollision : platform.NoCollision (bundle.document platform)
      ((bundle.reread platform).document platform))
    (hreport : report.Valid) (hreview : review.Valid)
    (h : assessEvaluationPromotion platform scheme report bundle binding publicKeys stage review =
      .ok decision) (happroved : decision.approved = true) :
    Evidenced platform scheme Signed report bundle binding publicKeys stage review ∧
      (Promotable platform scheme Signed report bundle binding publicKeys stage review ↔
        bundle.InOrder platform) := by
  simp only [assessEvaluationPromotion, bind_eq_ok, elim_eq_ok, pure_eq_ok] at h
  obtain ⟨_, hverify, policy, hpolicy, evidenceDigest, -, rfl⟩ := h
  have hverified := verify_eq_ok.1 hverify
  have hevidenced : Evidenced platform scheme Signed report bundle binding publicKeys stage review :=
    evidenced_of_approved hunforgeable hreport hreview hverified hpolicy
      (List.isEmpty_iff.1 happroved)
  have hdigest := datasetDigest_reread_iff hdump
    (fun _ => finiteGates_of_valid hverified.bundle_valid) hcollision hverified.dataset
  rw [← hverified.binding_eq] at hdigest
  exact ⟨hevidenced, fun hpromotable => hdigest.1 hpromotable.dataset,
    fun horder => ⟨hevidenced, hdigest.2 horder⟩⟩

end

/-! ## An approved promotion -/

/-- A platform whose SHA-256 has one digest for a text, and another one for all
    other texts. -/
def markedPlatform (marked : Text) : Platform where
  hashing := {
    writer := .plain
    sha256 t := if t = marked then ⟨List.replicate 64 49, isDigest_ones⟩ else ⟨List.replicate 64 48, isDigest_zeros⟩ }
  rounding := .finite
  dumpValue := id
  dumpJson _ := []
  word _ := false
  isDigit _ := false
  decimal _ := none

/-- Signatures of one key, which are all alike. -/
def flatScheme : Ed25519 where
  PrivateKey := Unit
  PublicKey := Unit
  publicKey := id
  sign _ _ := List.replicate 64 0
  verify _ _ _ := true
  length_sign _ _ := List.length_replicate
  verify_sign _ _ := rfl

/-- A bundle of one case. Its gates came in the order of their minima, as they do
    from documents in which the minimum is before the metric. -/
def orderBundle : EvaluationBundle where
  name := lit "orders"
  version := lit "1.0.0"
  cases := [{
    caseId := lit "find"
    tool := lit "find"
    arguments := []
    expectation := .cancellation
    tags := [lit "happy"]
    context := {
      tenant := lit "tenant"
      scopes := []
      approval := { required := false, granted := false } }
    metrics := [.correctness, .latency]
    blockingMetrics := [.correctness]
    latencyBudgetMs := 1000 }]
  promotionPolicy := ⟨[{
    stage := .experimental
    gates := [⟨.latency, .finite (1 / 2)⟩, ⟨.correctness, .finite 1⟩]
    allowedModes := [.inProcess]
    requiredReviewerRoles := [.evaluationOwner]
    minimumReviewers := 1
    allowQuarantine := true }]⟩

/-- A platform that tells the document of the bundle from the one that is read again. -/
def orderPlatform : Platform :=
  markedPlatform (JsonWriter.plain.render (orderBundle.document (markedPlatform [])).sorted)

def zeroDigest : Text := lit "sha256:" ++ List.replicate 64 48

def orderBinding : EvaluationArtifactBinding := ⟨zeroDigest, zeroDigest, zeroDigest, zeroDigest, zeroDigest⟩

def orderReport : EvaluationReport where
  bundleName := lit "orders"
  bundleVersion := lit "1.0.0"
  mode := .inProcess
  createdAt := lit "2026-01-01T00:00:00Z"
  binding := orderBinding
  cases := [{
    caseId := lit "find"
    status := .passed
    attempts := 1
    durationMs := .finite 0
    outcomeDigest := zeroDigest
    telemetryDigest := zeroDigest
    metrics := [⟨.correctness, true, lit "passed"⟩, ⟨.latency, true, lit "passed"⟩]
    failureCodes := [] }]
  metrics := [⟨.correctness, 1, 1, .finite 1⟩, ⟨.latency, 1, 1, .finite 1⟩]
  complete := true
  passed := true
  signature := some { keyId := lit "key", value := Base64.encode (List.replicate 64 0) }

def orderReview : EvaluationReview where
  author := lit "author"
  reviewers := [⟨lit "reviewer", [.evaluationOwner]⟩]

/-- The promotion of the report is approved. -/
theorem orderReport_approved : ∃ decision, assessEvaluationPromotion orderPlatform flatScheme orderReport
    orderBundle orderBinding (AList.singleton (lit "key") ()) .experimental orderReview = .ok decision ∧
      decision.approved = true := by
  have happroved : (assessEvaluationPromotion orderPlatform flatScheme orderReport orderBundle
      orderBinding (AList.singleton (lit "key") ()) .experimental orderReview).toOption.map
        EvaluationPromotionDecision.approved = some true := by
    decide +kernel
  obtain ⟨decision, hdecision, htrue⟩ := Option.map_eq_some_iff.1 happroved
  exact ⟨decision, eq_ok_of_toOption hdecision, htrue⟩

/-- Signatures of two keys, one of which is nobody's: no signature under it is valid.
    A signature repeats the length of the message. -/
def ownedScheme : Ed25519 where
  PrivateKey := Unit
  PublicKey := Bool
  publicKey _ := true
  sign _ message := List.replicate 64 (.ofNat message.length)
  verify key raw message := key && raw == List.replicate 64 (.ofNat message.length)
  length_sign _ _ := List.length_replicate
  verify_sign _ _ := by rw [beq_self_eq_true, Bool.and_self]

def ownedKeys : Dict Text Bool := (AList.singleton (lit "key") true).insert (lit "other") false

/-- The bundle with its gates in order. -/
def settledBundle : EvaluationBundle :=
  { orderBundle with promotionPolicy := ⟨orderBundle.promotionPolicy.stages.map fun policy =>
      { policy with gates := policy.gates.reverse }⟩ }

def settledReport : EvaluationReport :=
  ((signEvaluationReport (markedPlatform []) ownedScheme { orderReport with signature := none }
    (lit "key") ()).toOption).getD orderReport

theorem inOrder_settledBundle : settledBundle.InOrder (markedPlatform []) where
  cases := by
    refine List.forall_mem_singleton.2 ?_
    constructor <;> decide
  stages := by
    refine List.forall_mem_singleton.2 ?_
    constructor <;> decide

theorem promotion_sound_example : Promotable (markedPlatform []) ownedScheme (fun key _ => key = true)
    settledReport settledBundle orderBinding ownedKeys .experimental orderReview := by
  have happroved : (assessEvaluationPromotion (markedPlatform []) ownedScheme settledReport
      settledBundle orderBinding ownedKeys .experimental orderReview).toOption.map
        EvaluationPromotionDecision.approved = some true := by
    decide +kernel
  obtain ⟨decision, hdecision, htrue⟩ := Option.map_eq_some_iff.1 happroved
  -- the bundle is in order, so its document is the one that is read again
  have hcollision : (markedPlatform []).NoCollision (settledBundle.document (markedPlatform []))
      ((settledBundle.reread (markedPlatform [])).document (markedPlatform [])) := by
    rw [inOrder_settledBundle.document_reread fun _ => rfl]
    intro s t hs ht _
    exact Option.some.inj (hs.symm.trans ht)
  exact (promotion_sound (fun key _ _ hverify => (Bool.and_eq_true_iff.1 hverify).1) (fun _ => rfl)
    hcollision (by decide +kernel) (by decide +kernel) (eq_ok_of_toOption hdecision) htrue).2.2
    inOrder_settledBundle

/-- The digest of the dataset is not that of the bundle as it was given. -/
theorem dataset_of_other_document :
    orderBundle.Valid ∧ orderBinding.Valid ∧ orderReport.Valid ∧ orderReview.Valid ∧
      (∃ decision, assessEvaluationPromotion orderPlatform flatScheme orderReport orderBundle orderBinding
        (AList.singleton (lit "key") ()) .experimental orderReview = .ok decision ∧
          decision.approved = true) ∧
      orderBundle.datasetDigest orderPlatform ≠ some orderReport.binding.datasetDigest :=
  ⟨by decide +kernel, by decide +kernel, by decide +kernel, by decide +kernel, orderReport_approved,
    by decide +kernel⟩

end Evaluation

end McpRuntime
