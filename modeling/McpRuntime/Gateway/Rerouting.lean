import McpRuntime.Gateway.Eligibility

/-!
# Rerouting

After an evaluation, the servers with a route are those that were admitted. The
next evaluation finds them routed, and decides every server as before: routes do
not flap.

* `rerouted_verdict`: a server that was refused is refused again, for the same
  reason, as all others are taken then.
* `evaluate_rerouted`: the second evaluation.
* `no_flapping`: any number of evaluations.
-/

namespace McpRuntime.Gateway

/-- A candidate that is, or is not, routed at present. -/
def GatewayEligibilityCandidate.mark (candidate : GatewayEligibilityCandidate) (routed : Bool) :
    GatewayEligibilityCandidate :=
  { candidate with currentlyRouted := routed }

/-- A decision on the candidate that is routed according to it. -/
def GatewayEligibilityDecision.settled (d : GatewayEligibilityDecision) :
    GatewayEligibilityDecision :=
  { d with candidate := d.candidate.mark (d.reason = .eligible) }

/-- The candidates of the decisions, of which exactly the admitted ones are routed. -/
def rerouted (decisions : List GatewayEligibilityDecision) : List GatewayEligibilityCandidate :=
  decisions.map fun d => d.settled.candidate

/-- The decisions after `n` evaluations, each followed by the routing of what it
    admits, and one evaluation more. -/
def evaluateAfter (hashing : Hashing) (policy : GatewayEligibilityPolicy) :
    ℕ → List GatewayEligibilityCandidate → Option (List GatewayEligibilityDecision)
  | 0, candidates => evaluateGatewayEligibility hashing policy candidates
  | n + 1, candidates => do
    let decisions ← evaluateGatewayEligibility hashing policy candidates
    evaluateAfter hashing policy n (rerouted decisions)

variable {hashing : Hashing} {policy : GatewayEligibilityPolicy}
  {candidates : List GatewayEligibilityCandidate} {candidate : GatewayEligibilityCandidate}
  {decisions : List GatewayEligibilityDecision}

/-- A candidate that is marked as it is. -/
theorem mark_eq {routed : Bool} (h : candidate.currentlyRouted = routed) :
    candidate.mark routed = candidate := by
  subst h
  rfl

/-- A structurally eligible candidate of the decisions, with a route or without, is
    the candidate of one with that decision. -/
theorem mem_structural_rerouted {routed : Bool} :
    candidate ∈ structural policy routed (rerouted decisions) ↔
      ∃ d ∈ decisions, d.settled.candidate = candidate ∧ decide (d.reason = .eligible) = routed ∧
        baseReason policy d.candidate = .eligible := by
  rw [mem_structural, rerouted, List.mem_map]
  constructor
  · rintro ⟨⟨d, hd, rfl⟩, hrouted, hbase⟩
    exact ⟨d, hd, rfl, hrouted, hbase⟩
  · rintro ⟨d, hd, rfl, hrouted, hbase⟩
    exact ⟨⟨d, hd, rfl⟩, hrouted, hbase⟩

/-- The routes of the decisions do not depend on what is routed. -/
theorem routeKeys_settled :
    routeKeys (decisions.map GatewayEligibilityDecision.settled) = routeKeys decisions := by
  rw [routeKeys, List.filterMap_map]
  rfl

/-- The decision on a candidate does not depend on whether it is routed. -/
theorem decision_settled {reason : GatewayEligibilityReason} {d : GatewayEligibilityDecision}
    (h : decision hashing candidate reason = some d) :
    decision hashing d.settled.candidate reason = some d.settled := by
  rw [decision] at h ⊢
  split_ifs at h ⊢ with heligible
  · obtain ⟨route, hroute, rfl⟩ := Option.map_eq_some_iff.1 h
    exact Option.map_eq_some_iff.2 ⟨route, hroute, rfl⟩
  · cases h
    rfl

section Evaluated

variable (h : evaluateGatewayEligibility hashing policy candidates = some decisions)
include h

/-- The candidates are still distinct. -/
theorem distinct_rerouted : Distinct (rerouted decisions) := by
  obtain ⟨-, hdistinct, -⟩ := evaluate_spec.1 h
  rw [← map_candidate h] at hdistinct
  rw [Distinct, List.map_map, List.map_map] at hdistinct
  rw [rerouted, Distinct, List.map_map, List.map_map]
  exact hdistinct

/-- The candidates that are routed then are those of the eligible decisions. -/
theorem structural_rerouted :
    structural policy true (rerouted decisions) =
      (decisions.filter fun d => d.reason = .eligible).map fun d => d.settled.candidate := by
  rw [structural, rerouted, List.filter_map]
  refine congrArg (List.map _) (List.filter_congr fun d hd => decide_eq_decide.2 ?_)
  refine ⟨fun hrouted => of_decide_eq_true hrouted.1, fun heligible => ?_⟩
  refine ⟨decide_eq_true heligible, ?_⟩
  rcases decides_eligible.1 (heligible ▸ (decides_of_mem h hd).2) with ⟨hbase, -⟩ | hv
  · exact hbase
  · exact (mem_structural.1 (structural_of_verdict hv)).2.2

/-- What is taken before the second evaluation is what is taken after the first. -/
theorem taken_rerouted :
    ((structural policy true (rerouted decisions)).map
      GatewayEligibilityCandidate.tenantId).Perm
      (Quota.takenAfter policy.limits GatewayEligibilityCandidate.tenantId
        ((structural policy true candidates).map GatewayEligibilityCandidate.tenantId)
        (pending policy candidates)) := by
  rw [structural_rerouted h, List.map_map]
  exact (taken_perm h).symm

/-- No more candidates are routed than there may be routes. -/
theorem length_structural_rerouted :
    (structural policy true (rerouted decisions)).length ≤ maxRoutes := by
  obtain ⟨-, -, hcard, -⟩ := evaluate_spec.1 h
  have hlength := (taken_rerouted h).length_eq
  rw [List.length_map] at hlength
  rw [hlength]
  refine (Quota.length_takenAfter_le_max _ _).trans (max_le ?_ policy.globalRouteLimit_le)
  rw [List.length_map]
  exact hcard

/-- A structurally eligible candidate without a route has been refused. -/
theorem refused_of_not_eligible {d : GatewayEligibilityDecision} (hd : d ∈ decisions)
    (hreason : d.reason ≠ .eligible) (hbase : baseReason policy d.candidate = .eligible) :
    d.settled.candidate = d.candidate ∧ ∃ v, v ≠ .admitted ∧ d.reason = verdictReason v ∧
      (d.candidate, v) ∈ verdicts policy candidates := by
  generalize heq : d.reason = reason at hreason
  have hdecides := heq ▸ (decides_of_mem h hd).2
  cases hdecides with
  | ineligible hbase' => exact absurd hbase hbase'
  | kept => exact absurd rfl hreason
  | @new v hv =>
    refine ⟨mark_eq ?_, v, fun hadmitted => hreason (hadmitted ▸ rfl), rfl, hv⟩
    rw [(mem_structural.1 (structural_of_verdict hv)).2.1, heq]
    exact (decide_eq_false hreason).symm

/-- A candidate that was refused is refused again, for the same reason. -/
theorem rerouted_verdict {v : Quota.Verdict} (hv : (candidate, v) ∈ verdicts policy candidates)
    (hrefused : v ≠ .admitted) :
    Quota.verdict policy.limits
      ((structural policy true (rerouted decisions)).map GatewayEligibilityCandidate.tenantId)
      candidate.tenantId = v := by
  rw [Quota.verdict_perm (taken_rerouted h)]
  exact Quota.verdict_takenAfter hv hrefused

/-- The second evaluation refuses all candidates that are new to it, at once. -/
theorem verdicts_rerouted :
    verdicts policy (rerouted decisions) = (pending policy (rerouted decisions)).map fun c =>
      (c, Quota.verdict policy.limits ((structural policy true (rerouted decisions)).map
        GatewayEligibilityCandidate.tenantId) c.tenantId) := by
  refine Quota.admissions_of_refused fun c hc => ?_
  obtain ⟨d, hd, rfl, hreason, hbase⟩ := mem_structural_rerouted.1 (pending_perm.mem_iff.1 hc)
  obtain ⟨hsettled, v, hrefused, -, hv⟩ :=
    refused_of_not_eligible h hd (of_decide_eq_false hreason) hbase
  rw [hsettled, rerouted_verdict h hv hrefused]
  exact hrefused

/-- Each candidate is decided as before. -/
theorem decides_rerouted {d : GatewayEligibilityDecision} (hd : d ∈ decisions) :
    Decides policy (rerouted decisions) d.settled.candidate d.reason := by
  obtain ⟨hmem, hdecides⟩ := decides_of_mem h hd
  by_cases hbase : baseReason policy d.candidate = .eligible
  -- An admitted candidate is routed now, and is kept; a refused one is considered again.
  · by_cases hreason : d.reason = .eligible
    · rw [hreason]
      exact .kept hbase (decide_eq_true hreason)
    · obtain ⟨hsettled, v, hrefused, hv, hmem⟩ := refused_of_not_eligible h hd hreason hbase
      have hpending : d.settled.candidate ∈ pending policy (rerouted decisions) :=
        pending_perm.mem_iff.2
          (mem_structural_rerouted.2 ⟨d, hd, rfl, decide_eq_false hreason, hbase⟩)
      rw [hv]
      refine .new ?_
      rw [verdicts_rerouted h, List.mem_map]
      refine ⟨_, hpending, Prod.ext rfl ?_⟩
      rw [hsettled]
      exact rerouted_verdict h hmem hrefused
  · obtain ⟨_, hdistinct, -⟩ := evaluate_spec.1 h
    have heq : d.reason = baseReason policy d.candidate :=
      decides_unique hdistinct hmem hdecides (.ineligible hbase)
    rw [heq]
    exact .ineligible hbase

/-- The second evaluation makes the same decisions. -/
theorem evaluate_rerouted :
    evaluateGatewayEligibility hashing policy (rerouted decisions) =
      some (decisions.map GatewayEligibilityDecision.settled) := by
  obtain ⟨hlength, -, -, hall, hroutes⟩ := evaluate_spec.1 h
  refine evaluate_spec.2 ⟨?_, distinct_rerouted h, length_structural_rerouted h, ?_, ?_⟩
  · rw [rerouted, List.length_map, ← hall.length_eq]
    exact hlength
  · rw [rerouted, List.forall₂_map_left_iff, List.forall₂_map_right_iff, List.forall₂_same]
    intro d hd
    obtain ⟨c, -, reason, -, hdecision⟩ := exists_of_forall₂ hall.flip hd
    have hreason := (decision_eq_some hdecision).2
    exact ⟨d.reason, decides_rerouted h hd, hreason ▸ decision_settled hdecision⟩
  · rw [routeKeys_settled]
    exact hroutes

end Evaluated

/-- The candidates are rerouted once and for all. -/
theorem rerouted_settled :
    rerouted (decisions.map GatewayEligibilityDecision.settled) = rerouted decisions := by
  rw [rerouted, List.map_map]
  rfl

/-- Once the candidates are rerouted, all evaluations are one. -/
theorem evaluateAfter_rerouted
    (h : evaluateGatewayEligibility hashing policy candidates = some decisions) (n : ℕ) :
    evaluateAfter hashing policy n (rerouted decisions) =
      some (decisions.map GatewayEligibilityDecision.settled) := by
  induction n with
  | zero => exact evaluate_rerouted h
  | succ n ih => rw [evaluateAfter, evaluate_rerouted h, Option.bind_eq_bind, Option.bind_some,
      rerouted_settled, ih]

/-- Routes do not flap: where the candidates are evaluated and what is admitted, and
    nothing else, is routed, any number of times, each evaluation succeeds and
    decides every reference as the first one. -/
theorem no_flapping (h : evaluateGatewayEligibility hashing policy candidates = some decisions)
    (n : ℕ) :
    ∃ decisions', evaluateAfter hashing policy n candidates = some decisions' ∧
      decisions'.map (fun d => (d.candidate.ref, d.reason, d.route)) =
        decisions.map fun d => (d.candidate.ref, d.reason, d.route) := by
  cases n with
  | zero => exact ⟨decisions, h, rfl⟩
  | succ n =>
    refine ⟨decisions.map GatewayEligibilityDecision.settled, ?_, ?_⟩
    · rw [evaluateAfter, h]
      exact evaluateAfter_rerouted h n
    · rw [List.map_map]
      rfl

/-- One new server of the tenant is admitted each time, and the other is refused. -/
theorem no_flapping_example :
    ∃ decisions, evaluateAfter flatHashing examplePolicy 3 exampleCandidates = some decisions ∧
      decisions.map GatewayEligibilityDecision.reason = [.eligible, .eligible, .tenantQuotaExceeded] := by
  have hreasons : (evaluateGatewayEligibility flatHashing examplePolicy exampleCandidates).map
      (fun decisions => decisions.map GatewayEligibilityDecision.reason) =
        some [.eligible, .eligible, .tenantQuotaExceeded] := by decide +kernel
  obtain ⟨decisions, hdecisions, heq⟩ := Option.map_eq_some_iff.1 hreasons
  obtain ⟨decisions', hafter, hsame⟩ := no_flapping hdecisions 3
  refine ⟨decisions', hafter, heq ▸ ?_⟩
  have hreason := congrArg (List.map fun x => x.2.1) hsame
  rw [List.map_map, List.map_map] at hreason
  exact hreason

end McpRuntime.Gateway
