import McpRuntime.Evaluation.Bundle
import McpRuntime.Python.JsonFields
import McpRuntime.Python.Sorted

/-!
# The order of the sets of a bundle

The sets of a bundle are tuples, which are sorted by `str` when its models read them:
as raw objects, whose keys may be in another order than those of the document that
is read again. The bundle that is read again has the digest of the bundle exactly
when the sets of this one are in the order of the second reading.

* `EvaluationBundle.InOrder`: the order of the second reading.
* `document_reread_iff`: the documents have one canonical text exactly when the sets
  are in order.
* `datasetDigest_reread_iff`: so the digests are equal, unless SHA-256 collides.
-/

namespace McpRuntime

namespace Evaluation

/-! ## Sets in order -/

/-- The items are in the order of their texts. -/
def Ordered {α : Type} (str : α → Text) (items : List α) : Prop :=
  items.Pairwise fun item item' => str item ≤ str item'

instance {α : Type} (str : α → Text) (items : List α) : Decidable (Ordered str items) :=
  inferInstanceAs (Decidable (items.Pairwise _))

/-- The items in order are those that sorting keeps. -/
theorem sortedBy_eq_self_iff {α : Type} {str : α → Text} {items : List α} :
    sortedBy str items = items ↔ Ordered str items := by
  refine ⟨fun h => ?_, List.Pairwise.insertionSort_eq⟩
  have := @sortedBy_total _ _ _ str
  have := @sortedBy_trans _ _ _ str
  rw [Ordered, ← h]
  exact List.pairwise_insertionSort _ items

variable (platform : Platform)

structure EvaluationCase.InOrder (case : EvaluationCase) : Prop where
  tags : Ordered id case.tags
  scopes : Ordered id case.context.scopes
  metrics : Ordered EvaluationMetric.value case.metrics
  blockingMetrics : Ordered EvaluationMetric.value case.blockingMetrics
  requiredEvents : Ordered id case.telemetry.requiredEvents
  forbiddenEvents : Ordered id case.telemetry.forbiddenEvents

structure PromotionStagePolicy.InOrder (policy : PromotionStagePolicy) : Prop where
  gates : Ordered (PromotionMetricGate.text platform) policy.gates
  allowedModes : Ordered EvaluationMode.value policy.allowedModes
  requiredReviewerRoles : Ordered ReviewerRole.value policy.requiredReviewerRoles

/-- The sets of a bundle are in the order in which they are read again. -/
structure EvaluationBundle.InOrder (bundle : EvaluationBundle) : Prop where
  cases : ∀ case ∈ bundle.cases, case.InOrder
  stages : ∀ policy ∈ bundle.promotionPolicy.stages, policy.InOrder platform

variable {platform} {case : EvaluationCase} {policy : PromotionStagePolicy}
  {bundle : EvaluationBundle}

/-! ## The document that is read again -/

section

variable (hdump : ∀ j, platform.dumpValue (platform.dumpValue j) = platform.dumpValue j)
include hdump

theorem document_reread_expectation (expectation : EvaluationExpectation) :
    (expectation.reread platform).document platform = expectation.document platform := by
  cases expectation with
  | structuredResult value => rw [EvaluationExpectation.reread, EvaluationExpectation.document, hdump]; rfl
  | assertions items =>
    have hassertions : (items.map fun assertion =>
        { assertion with value := platform.dumpValue assertion.value }).map
          (EvaluationAssertion.document platform) = items.map (EvaluationAssertion.document platform) := by
      rw [List.map_map]
      refine List.map_congr_left fun assertion _ => ?_
      simp only [Function.comp_apply, EvaluationAssertion.document, hdump]
    rw [EvaluationExpectation.reread, EvaluationExpectation.document, hassertions]
    rfl
  | error code => rfl
  | cancellation => rfl

theorem document_reread_arguments :
    (case.reread platform).arguments.map (fun m => (m.1, platform.dumpValue m.2)) =
      case.arguments.map fun m => (m.1, platform.dumpValue m.2) := by
  simp only [EvaluationCase.reread, List.map_map, Function.comp_def, hdump]

/-- A case whose sets are in order has the document of the case that is read again. -/
theorem EvaluationCase.InOrder.document_reread (h : case.InOrder) :
    (case.reread platform).document platform = case.document platform := by
  rw [EvaluationCase.document, document_reread_arguments hdump]
  simp only [EvaluationCase.reread, document_reread_expectation hdump,
    sortedBy_eq_self_iff.2 h.tags, sortedBy_eq_self_iff.2 h.scopes,
    sortedBy_eq_self_iff.2 h.metrics, sortedBy_eq_self_iff.2 h.blockingMetrics,
    sortedBy_eq_self_iff.2 h.requiredEvents, sortedBy_eq_self_iff.2 h.forbiddenEvents]
  rfl

/-- A bundle whose sets are in order has the document of the bundle that is read again. -/
theorem EvaluationBundle.InOrder.document_reread (h : bundle.InOrder platform) :
    (bundle.reread platform).document platform = bundle.document platform := by
  have hcases : (bundle.reread platform).cases.map (EvaluationCase.document platform) =
      bundle.cases.map (EvaluationCase.document platform) := by
    rw [EvaluationBundle.reread, List.map_map]
    exact List.map_congr_left fun case hcase => (h.cases case hcase).document_reread hdump
  have hstages : bundle.promotionPolicy.stages.map (PromotionStagePolicy.reread platform) =
      bundle.promotionPolicy.stages := by
    refine (List.map_congr_left fun policy hpolicy => ?_).trans (List.map_id _)
    have hpolicy := h.stages policy hpolicy
    rw [PromotionStagePolicy.reread, sortedBy_eq_self_iff.2 hpolicy.gates,
      sortedBy_eq_self_iff.2 hpolicy.allowedModes, sortedBy_eq_self_iff.2 hpolicy.requiredReviewerRoles]
    rfl
  rw [EvaluationBundle.document, hcases, EvaluationBundle.reread, hstages]
  rfl

end

/-! ## Documents with one text -/

theorem allFinite_texts (values : List Text) : (texts values).allFinite :=
  Json.allFinite_arr.2 (List.forall_mem_map.2 fun _ _ => rfl)

theorem allFinite_optionalText (t : Option Text) : (optionalText t).allFinite := by
  cases t <;> rfl

theorem allFinite_context (context : EvaluationContext) : context.document.allFinite := by
  have happroval : context.approval.document.allFinite := by
    rw [EvaluationApproval.document, Json.allFinite_obj]
    simp [allFinite_optionalText, Json.allFinite]
  rw [EvaluationContext.document, Json.allFinite_obj]
  simp [allFinite_texts, allFinite_optionalText, happroval, Json.allFinite]

theorem allFinite_telemetry (telemetry : TelemetryExpectation) : telemetry.document.allFinite := by
  rw [TelemetryExpectation.document, Json.allFinite_obj]
  simp [allFinite_texts]

/-- The minima of the gates of a policy are finite. -/
def FiniteGates (policy : PromotionStagePolicy) : Prop :=
  ∀ gate ∈ policy.gates, gate.minimumScore.isFinite

theorem FiniteGates.allFinite (h : FiniteGates policy) : policy.document.allFinite := by
  have hgates : (Json.arr (policy.gates.map PromotionMetricGate.document)).allFinite := by
    refine Json.allFinite_arr.2 (List.forall_mem_map.2 fun gate hgate => ?_)
    rw [PromotionMetricGate.document, Json.allFinite_obj]
    simp [Json.allFinite, h gate hgate]
  have hint (n : ℤ) : (Json.int n).allFinite = true := rfl
  have hbool (b : Bool) : (Json.bool b).allFinite = true := rfl
  have hstr (t : Text) : (Json.str t).allFinite = true := rfl
  rw [PromotionStagePolicy.document, Json.allFinite_obj]
  simp [hgates, allFinite_texts, hint, hbool, hstr]

/-- The values of a case that is read again are those of the case, but for the order of
    its sets, and these are finite. -/
theorem cancels_case (w : JsonWriter)
    (hdump : ∀ j, platform.dumpValue (platform.dumpValue j) = platform.dumpValue j)
    (case : EvaluationCase) :
    w.Cancels (case.document platform).sorted ((case.reread platform).document platform).sorted := by
  -- A set has no infinite value, in whatever order it is.
  have htexts (values values' : List Text) : w.Cancels (texts values).sorted (texts values').sorted :=
    .of_finite (allFinite_texts _) (allFinite_texts _)
  have hcontext (context context' : EvaluationContext) :
      w.Cancels context.document.sorted context'.document.sorted :=
    .of_finite (allFinite_context _) (allFinite_context _)
  have htelemetry (telemetry telemetry' : TelemetryExpectation) :
      w.Cancels telemetry.document.sorted telemetry'.document.sorted :=
    .of_finite (allFinite_telemetry _) (allFinite_telemetry _)
  rw [EvaluationCase.document, EvaluationCase.document, document_reread_arguments hdump]
  refine .sorted_obj ?_
  simp only [EvaluationCase.reread, document_reread_expectation hdump, List.forall₂_cons,
    List.forall₂_nil_left_iff, true_and, and_true]
  exact ⟨.refl _, .refl _, .refl _, .refl _, .refl _, htexts _ _, hcontext _ _, htexts _ _,
    htexts _ _, htelemetry _ _, .refl _, .refl _, .refl _, .refl _⟩

/-- So are those of a bundle. -/
theorem cancels_bundle (w : JsonWriter)
    (hdump : ∀ j, platform.dumpValue (platform.dumpValue j) = platform.dumpValue j)
    (hfinite : ∀ policy ∈ bundle.promotionPolicy.stages, FiniteGates policy) :
    w.Cancels (bundle.document platform).sorted
      ((bundle.reread platform).document platform).sorted := by
  -- The cases keep their order, and each of them cancels.
  have hcases : w.Cancels (Json.arr (bundle.cases.map (EvaluationCase.document platform))).sorted
      (Json.arr ((bundle.reread platform).cases.map (EvaluationCase.document platform))).sorted := by
    refine .sorted_arr ?_
    rw [EvaluationBundle.reread, List.map_map, List.forall₂_map_left_iff, List.forall₂_map_right_iff,
      List.forall₂_same]
    exact fun case _ => cancels_case w hdump case
  -- The gates are sorted, and their scores are finite as the bundle is valid.
  have hpolicy : w.Cancels bundle.promotionPolicy.document.sorted
      (bundle.reread platform).promotionPolicy.document.sorted := by
    refine .sorted_obj ?_
    simp only [List.forall₂_cons, List.forall₂_nil_left_iff, true_and, and_true]
    refine .sorted_arr ?_
    rw [EvaluationBundle.reread, List.map_map, List.forall₂_map_left_iff, List.forall₂_map_right_iff,
      List.forall₂_same]
    refine fun policy hpolicy => .of_finite (hfinite policy hpolicy).allFinite
      (FiniteGates.allFinite fun gate hgate => hfinite policy hpolicy gate (mem_sortedBy.1 hgate))
  refine .sorted_obj ?_
  simp only [List.forall₂_cons, List.forall₂_nil_left_iff, true_and, and_true]
  exact ⟨.refl _, .refl _, .refl _, hcases, hpolicy⟩

/-! ## What one text tells -/

@[simp] theorem same_texts {values values' : List Text} :
    (texts values).Same (texts values') ↔ values = values' := by
  refine ⟨Json.map_eq_of_same fun _ _ _ _ => Json.same_str.1, ?_⟩
  rintro rfl
  rfl

/-- Items that show the texts of the sorted items are in order. -/
theorem ordered_of_map_eq {α : Type} {str : α → Text} {items : List α}
    (h : items.map str = (sortedBy str items).map str) : Ordered str items := by
  rw [Ordered, ← List.pairwise_map (R := (· ≤ ·)), h]
  exact pairwise_keys items

theorem PromotionMetricGate.document_inj {gate gate' : PromotionMetricGate}
    (h : gate.document.Same gate'.document) : gate = gate' := by
  have hfields := Json.same_members h rfl (of_decide_eq_true rfl)
  simp only [List.forall₂_cons, List.forall₂_nil_left_iff, Json.same_str, Json.same_float,
    and_true] at hfields
  obtain ⟨hmetric, hminimum⟩ := hfields
  cases gate
  cases gate'
  cases EvaluationMetric.value_inj hmetric
  cases hminimum
  rfl

/-- The sets of a case are in order when its document is that of the case that is read
    again. -/
theorem EvaluationCase.inOrder_of_same
    (h : (case.document platform).Same ((case.reread platform).document platform)) :
    case.InOrder := by
  have hfields := Json.same_members h rfl (of_decide_eq_true rfl)
  simp only [EvaluationCase.reread, List.forall₂_cons, List.forall₂_nil_left_iff, same_texts,
    and_true] at hfields
  obtain ⟨-, -, -, -, -, htags, hcontext, hmetrics, hblocking, htelemetry, -⟩ := hfields
  have hcontext := Json.same_members hcontext rfl (of_decide_eq_true rfl)
  have htelemetry := Json.same_members htelemetry rfl (of_decide_eq_true rfl)
  simp only [List.forall₂_cons, List.forall₂_nil_left_iff, same_texts, and_true] at hcontext htelemetry
  exact {
    tags := sortedBy_eq_self_iff.1 htags.symm
    scopes := sortedBy_eq_self_iff.1 hcontext.2.1.symm
    metrics := ordered_of_map_eq hmetrics
    blockingMetrics := ordered_of_map_eq hblocking
    requiredEvents := sortedBy_eq_self_iff.1 htelemetry.1.symm
    forbiddenEvents := sortedBy_eq_self_iff.1 htelemetry.2.symm }

theorem PromotionStagePolicy.inOrder_of_same
    (h : policy.document.Same (policy.reread platform).document) : policy.InOrder platform := by
  have hfields := Json.same_members h rfl (of_decide_eq_true rfl)
  simp only [PromotionStagePolicy.reread, List.forall₂_cons, List.forall₂_nil_left_iff, same_texts,
    and_true] at hfields
  obtain ⟨-, hgates, hmodes, hroles, -⟩ := hfields
  exact {
    gates := sortedBy_eq_self_iff.1
      (Json.map_eq_of_same (fun _ _ _ _ => PromotionMetricGate.document_inj) hgates).symm
    allowedModes := ordered_of_map_eq hmodes
    requiredReviewerRoles := ordered_of_map_eq hroles }

/-- The sets of a bundle are in order when its document is that of the bundle that is read
    again. -/
theorem EvaluationBundle.inOrder_of_same
    (h : (bundle.document platform).Same ((bundle.reread platform).document platform)) :
    bundle.InOrder platform := by
  have hfields := Json.same_members h rfl (of_decide_eq_true rfl)
  simp only [EvaluationBundle.reread, List.forall₂_cons, List.forall₂_nil_left_iff,
    and_true] at hfields
  obtain ⟨-, -, -, hcases, hpolicy⟩ := hfields
  have hpolicy := Json.same_members hpolicy rfl (of_decide_eq_true rfl)
  simp only [List.forall₂_cons, List.forall₂_nil_left_iff, and_true] at hpolicy
  rw [List.map_map] at hcases hpolicy
  exact ⟨fun case hcase => case.inOrder_of_same (Json.same_of_map hcases case hcase),
    fun policy hmem => policy.inOrder_of_same (Json.same_of_map hpolicy policy hmem)⟩

/-! ## The digest that is read again -/

/-- The canonical texts of two values do not collide under SHA-256. -/
def Platform.NoCollision (platform : Platform) (a b : Json) : Prop :=
  ∀ s t, platform.canonicalJson a = some s → platform.canonicalJson b = some t →
    platform.hashing.sha256 s = platform.hashing.sha256 t → s = t

theorem Platform.canonicalJson_eq_some {value : Json} {text : Text}
    (h : platform.canonicalJson value = some text) :
    platform.hashing.writer.render value.sorted = text := by
  rw [Platform.canonicalJson] at h
  split_ifs at h
  exact Option.some.inj h

/-- Values with one digest have one canonical text. -/
theorem Platform.NoCollision.render_eq {a b : Json} {digest : Text}
    (h : platform.NoCollision a b) (ha : platform.sha256 a = some digest)
    (hb : platform.sha256 b = some digest) :
    platform.hashing.writer.render a.sorted = platform.hashing.writer.render b.sorted := by
  obtain ⟨s, hs, hdigest⟩ := Option.map_eq_some_iff.1 ha
  obtain ⟨t, ht, hdigest'⟩ := Option.map_eq_some_iff.1 hb
  have hsha := Digest.ext (List.append_cancel_left (hdigest.trans hdigest'.symm))
  rw [canonicalJson_eq_some hs, canonicalJson_eq_some ht, h s t hs ht hsha]

/-- The digest of the bundle that is read again is that of the bundle exactly when the
    sets of the bundle are in order. -/
theorem datasetDigest_reread_iff {digest : Text}
    (hdump : ∀ j, platform.dumpValue (platform.dumpValue j) = platform.dumpValue j)
    (hfinite : ∀ policy ∈ bundle.promotionPolicy.stages, FiniteGates policy)
    (hcollision : platform.NoCollision (bundle.document platform)
      ((bundle.reread platform).document platform))
    (h : (bundle.reread platform).datasetDigest platform = some digest) :
    bundle.datasetDigest platform = some digest ↔ bundle.InOrder platform := by
  constructor
  · intro hdigest
    exact EvaluationBundle.inOrder_of_same
      ((cancels_bundle _ hdump hfinite).same (hcollision.render_eq hdigest h))
  · intro horder
    rwa [EvaluationBundle.datasetDigest, ← horder.document_reread hdump]

end Evaluation

end McpRuntime
