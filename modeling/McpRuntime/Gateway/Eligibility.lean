import McpRuntime.Gateway.Route
import McpRuntime.Python.DateTime
import McpRuntime.Python.Except
import McpRuntime.Quota
import Mathlib.Data.Finset.Card
import Mathlib.Data.List.Perm.Basic

/-!
# Eligibility

`evaluateGatewayEligibility` decides which servers get a route at the gateway. A
server that is structurally eligible keeps the route that it has; the others are
admitted in the order of their publication, as long as their tenant and the
gateway are within their limits.

* `verdicts`: the same admission in terms of quotas, which the loop over the
  pending servers simulates (`Admission.Represents`).
* `evaluate_spec`: what a decision is, by the verdicts.
* `eligibility`: routes are kept, the limits bind what is new, what is new is
  admitted in order, and the order of the candidates does not matter.
-/

namespace McpRuntime.Gateway

/-- `GatewayApprovalState`. -/
inductive GatewayApprovalState
  | approved
  | pending
  | denied
  deriving DecidableEq

/-- `GatewayTenantState`. -/
inductive GatewayTenantState
  | ready
  | pending
  | suspended
  | deactivated
  deriving DecidableEq

/-- `ManifestLifecycle`. -/
inductive ManifestLifecycle
  | active
  | deprecated
  deriving DecidableEq

/-- `ManifestVisibility`. -/
inductive ManifestVisibility
  | «public»
  | internal
  | «private»
  deriving DecidableEq

/-- `GatewayEligibilityReason`. -/
inductive GatewayEligibilityReason
  | eligible
  | activationNotReady
  | lifecycleIneligible
  | visibilityIneligible
  | tenantNotReady
  | gatewayDisabled
  | approvalRequired
  | wrongEnvironment
  | scopeNotReady
  | tenantQuotaExceeded
  | globalQuotaExceeded
  deriving DecidableEq

/-- `_ENVIRONMENT`. -/
def isEnvironment (t : Text) : Bool :=
  t.head?.any CodePoint.isLower && t.all (fun c => isDnsChar c || c = 45) && t.length ≤ 32

/-- Registry-owned facts used to decide the eligibility of one exact server. -/
structure GatewayEligibilityCandidate where
  ref : Text
  tenantId : Text
  serverName : Text
  registryDigest : Text
  artifactDigest : Text
  activationGeneration : ℕ
  publishedAt : Text
  lifecycle : ManifestLifecycle
  visibility : ManifestVisibility
  tenantState : GatewayTenantState
  gatewayEnabled : Bool
  approvalState : GatewayApprovalState
  environment : Text
  activationReady : Bool
  scopeReady : Bool
  currentlyRouted : Bool
  tenantId_isDnsLabel : isDnsLabel tenantId
  serverName_isServerName : isServerName serverName ∧ 3 ≤ serverName.length ∧ serverName.length ≤ 200
  digests_valid : isRegistryDigest registryDigest ∧ isRegistryDigest artifactDigest
  generation_bounded : 1 ≤ activationGeneration ∧ activationGeneration < 2 ^ 63
  publishedAt_canonical : (DateTime.canonicalTimestamp publishedAt).isSome
  environment_valid : isEnvironment environment
  identity_matches_ref : ref.length ≤ 512 ∧ matchesRef ref tenantId serverName
  deriving DecidableEq

/-- Bounded target-environment admission limits for one complete snapshot. -/
structure GatewayEligibilityPolicy where
  targetEnvironment : Text
  tenantRouteLimit : ℕ := 50
  globalRouteLimit : ℕ := 500
  maxCandidates : ℕ := 2000
  targetEnvironment_valid : isEnvironment targetEnvironment
  tenantRouteLimit_pos : 1 ≤ tenantRouteLimit
  globalRouteLimit_le : globalRouteLimit ≤ 1000
  maxCandidates_bounded : 1 ≤ maxCandidates ∧ maxCandidates ≤ 2000
  tenant_limit_fits_global_limit : tenantRouteLimit ≤ globalRouteLimit

/-- Payload-free admission decision and derived identity for one candidate. -/
structure GatewayEligibilityDecision where
  candidate : GatewayEligibilityCandidate
  reason : GatewayEligibilityReason
  route : Option GatewayRouteIdentity
  route_matches_reason : reason = .eligible ↔ route.isSome

namespace GatewayEligibilityCandidate

variable (candidate : GatewayEligibilityCandidate)

/-- The key that candidates are sorted by: the instant and the reference. -/
def publicationKey : List ℕ ×ₗ Text :=
  toLex (((DateTime.canonicalTimestamp candidate.publishedAt).get
    candidate.publishedAt_canonical).key, candidate.ref)

/-- The key of a server in `seen_servers`. -/
def server : Text × Text := (candidate.tenantId, candidate.serverName)

end GatewayEligibilityCandidate

/-- `_MAX_ROUTES`. -/
def maxRoutes : ℕ := 1000

/-- `_base_reason`. -/
def baseReason (policy : GatewayEligibilityPolicy) (candidate : GatewayEligibilityCandidate) :
    GatewayEligibilityReason :=
  if candidate.tenantState ≠ .ready then .tenantNotReady
  else if !candidate.activationReady then .activationNotReady
  else if candidate.lifecycle ≠ .active then .lifecycleIneligible
  else if candidate.visibility = .private then .visibilityIneligible
  else if !candidate.gatewayEnabled then .gatewayDisabled
  else if candidate.approvalState ≠ .approved then .approvalRequired
  else if candidate.environment ≠ policy.targetEnvironment then .wrongEnvironment
  else if !candidate.scopeReady then .scopeNotReady
  else .eligible

/-- The base reasons by reference. A reference or a server that was seen before
    raises `GatewayReconciliationContractError`. -/
def collectReasons (policy : GatewayEligibilityPolicy) (seenRefs : Finset Text)
    (seenServers : Finset (Text × Text)) (reasons : Dict Text GatewayEligibilityReason) :
    List GatewayEligibilityCandidate → Option (Dict Text GatewayEligibilityReason)
  | [] => some reasons
  | candidate :: candidates =>
    if candidate.ref ∈ seenRefs ∨ candidate.server ∈ seenServers then none
    else collectReasons policy (insert candidate.ref seenRefs) (insert candidate.server seenServers)
      (reasons.insert candidate.ref (baseReason policy candidate)) candidates

/-- The local state of the loop over the pending candidates. -/
structure Admission where
  admitted : Finset Text
  tenantCounts : Dict Text ℕ
  globalCount : ℕ
  quotaReasons : Dict Text GatewayEligibilityReason

/-- The body of the loop over the pending candidates. -/
def admitCandidate (policy : GatewayEligibilityPolicy) (state : Admission)
    (candidate : GatewayEligibilityCandidate) : Admission :=
  let tenantCount := (state.tenantCounts.lookup candidate.tenantId).getD 0
  if policy.tenantRouteLimit ≤ tenantCount then
    { state with
      quotaReasons := state.quotaReasons.insert candidate.ref .tenantQuotaExceeded }
  else if policy.globalRouteLimit ≤ state.globalCount then
    { state with
      quotaReasons := state.quotaReasons.insert candidate.ref .globalQuotaExceeded }
  else
    { state with
      admitted := insert candidate.ref state.admitted
      tenantCounts := state.tenantCounts.insert candidate.tenantId (tenantCount + 1)
      globalCount := state.globalCount + 1 }

/-- The counts of the candidates that are admitted already. -/
def countAdmitted (admitted : Finset Text) (counts : Dict Text ℕ) :
    List GatewayEligibilityCandidate → Dict Text ℕ
  | [] => counts
  | candidate :: candidates =>
    if candidate.ref ∈ admitted then
      countAdmitted admitted (counts.insert candidate.tenantId
        ((counts.lookup candidate.tenantId).getD 0 + 1)) candidates
    else countAdmitted admitted counts candidates

/-- The reason of a decision: a quota, for a structurally eligible candidate that
    was not admitted. -/
def finalReason (reasons : Dict Text GatewayEligibilityReason) (final : Admission)
    (candidate : GatewayEligibilityCandidate) : Option GatewayEligibilityReason :=
  match reasons.lookup candidate.ref with
  | some .eligible =>
    if candidate.ref ∈ final.admitted then some .eligible
    else final.quotaReasons.lookup candidate.ref
  | reason => reason

/-- The decision on a candidate, with a route when it is eligible. -/
def decision (hashing : Hashing) (candidate : GatewayEligibilityCandidate)
    (reason : GatewayEligibilityReason) : Option GatewayEligibilityDecision :=
  if h : reason = .eligible then
    (deriveGatewayRouteIdentity hashing candidate.tenantId candidate.serverName).map fun route =>
      ⟨candidate, reason, some route, iff_of_true h rfl⟩
  else some ⟨candidate, reason, none, iff_of_false h Bool.false_ne_true⟩

/-- The key of a route in `seen_routes`. -/
def GatewayRouteIdentity.key (route : GatewayRouteIdentity) : Text × Text × Text :=
  (route.resourceName, route.routePath, route.scope)

/-- The routes seen with one more decision. A route that was seen before raises
    `GatewayReconciliationContractError`. -/
def seeRoute (seenRoutes : Finset (Text × Text × Text)) (d : GatewayEligibilityDecision) :
    Option (Finset (Text × Text × Text)) :=
  match d.route with
  | none => some seenRoutes
  | some route => if route.key ∈ seenRoutes then none else some (insert route.key seenRoutes)

/-- The loop that makes the decisions. -/
def decideCandidates (hashing : Hashing) (reasons : Dict Text GatewayEligibilityReason)
    (final : Admission) (seenRoutes : Finset (Text × Text × Text)) :
    List GatewayEligibilityCandidate → Option (List GatewayEligibilityDecision)
  | [] => some []
  | candidate :: candidates => do
    let reason ← finalReason reasons final candidate
    let d ← decision hashing candidate reason
    let seenRoutes ← seeRoute seenRoutes d
    some (d :: (← decideCandidates hashing reasons final seenRoutes candidates))

/-- The candidates with a base reason `ELIGIBLE` that are, or are not, routed. -/
def eligibleCandidates (reasons : Dict Text GatewayEligibilityReason) (routed : Bool)
    (candidates : List GatewayEligibilityCandidate) : List GatewayEligibilityCandidate :=
  candidates.filter fun candidate =>
    candidate.currentlyRouted = routed ∧ reasons.lookup candidate.ref = some .eligible

/-- The admission of a set of candidates: those that are admitted already, then the
    pending ones in order. -/
def admitCandidates (policy : GatewayEligibilityPolicy)
    (reasons : Dict Text GatewayEligibilityReason) (candidates : List GatewayEligibilityCandidate) :
    Option Admission :=
  let admitted := ((eligibleCandidates reasons true candidates).map
    GatewayEligibilityCandidate.ref).toFinset
  let pending := (eligibleCandidates reasons false candidates).insertionSort fun c c' =>
    c.publicationKey ≤ c'.publicationKey
  if maxRoutes < admitted.card then none
  else some (pending.foldl (admitCandidate policy)
    ⟨admitted, countAdmitted admitted ∅ candidates, admitted.card, ∅⟩)

/-- `evaluate_gateway_eligibility`, which raises `GatewayReconciliationContractError`
    for candidates that are too many, not distinct, or whose routes are not. -/
def evaluateGatewayEligibility (hashing : Hashing) (policy : GatewayEligibilityPolicy)
    (candidates : List GatewayEligibilityCandidate) : Option (List GatewayEligibilityDecision) :=
  if policy.maxCandidates < candidates.length then none
  else do
    let reasons ← collectReasons policy ∅ ∅ ∅ candidates
    let final ← admitCandidates policy reasons candidates
    decideCandidates hashing reasons final ∅ candidates

variable {hashing : Hashing} {policy : GatewayEligibilityPolicy}
  {candidates : List GatewayEligibilityCandidate} {candidate : GatewayEligibilityCandidate}

/-! ## The candidates -/

/-- No two candidates have the same reference or the same server. -/
def Distinct (candidates : List GatewayEligibilityCandidate) : Prop :=
  (candidates.map GatewayEligibilityCandidate.ref).Nodup ∧
    (candidates.map GatewayEligibilityCandidate.server).Nodup

/-- Being distinct does not depend on the order. -/
theorem Distinct.perm {candidates' : List GatewayEligibilityCandidate} (h : Distinct candidates)
    (hperm : candidates.Perm candidates') : Distinct candidates' :=
  ⟨((hperm.map _).nodup_iff).1 h.1, ((hperm.map _).nodup_iff).1 h.2⟩

/-- Candidates of one reference are one candidate. -/
theorem Distinct.eq_of_ref (h : Distinct candidates) {c c' : GatewayEligibilityCandidate}
    (hc : c ∈ candidates) (hc' : c' ∈ candidates) (href : c.ref = c'.ref) : c = c' :=
  List.inj_on_of_nodup_map h.1 hc hc' href

/-- The base reasons are collected when no reference and no server was seen
    before. -/
theorem collectReasons_eq_some {seenRefs : Finset Text} {seenServers : Finset (Text × Text)}
    {reasons reasons' : Dict Text GatewayEligibilityReason} :
    collectReasons policy seenRefs seenServers reasons candidates = some reasons' ↔
      (Distinct candidates ∧ (∀ c ∈ candidates, c.ref ∉ seenRefs ∧ c.server ∉ seenServers)) ∧
        candidates.foldl (fun d c => AList.insert c.ref (baseReason policy c) d) reasons =
          reasons' := by
  induction candidates generalizing seenRefs seenServers reasons with
  | nil => simp [collectReasons, Distinct]
  | cons c candidates ih =>
    rw [collectReasons]
    split_ifs with hseen
    · refine ⟨nofun, fun h => ?_⟩
      have hfresh := h.1.2 c List.mem_cons_self
      exact absurd hseen (not_or.2 hfresh)
    · rw [ih, List.foldl_cons]
      refine and_congr_left fun _ => ?_
      simp only [Distinct, List.map_cons, List.nodup_cons, List.mem_map, List.forall_mem_cons,
        Finset.mem_insert, not_or, not_exists, not_and]
      rw [not_or] at hseen
      constructor
      · rintro ⟨⟨hrefs, hservers⟩, hfresh⟩
        exact ⟨⟨⟨fun c' hc' => (hfresh c' hc').1.1, hrefs⟩, fun c' hc' => (hfresh c' hc').2.1, hservers⟩,
          hseen, fun c' hc' => ⟨(hfresh c' hc').1.2, (hfresh c' hc').2.2⟩⟩
      · rintro ⟨⟨⟨href, hrefs⟩, hserver, hservers⟩, -, hfresh⟩
        exact ⟨⟨hrefs, hservers⟩, fun c' hc' =>
          ⟨⟨href c' hc', (hfresh c' hc').1⟩, hserver c' hc', (hfresh c' hc').2⟩⟩

/-- The structurally eligible candidates that are, or are not, routed. -/
def structural (policy : GatewayEligibilityPolicy) (routed : Bool)
    (candidates : List GatewayEligibilityCandidate) : List GatewayEligibilityCandidate :=
  candidates.filter fun c => c.currentlyRouted = routed ∧ baseReason policy c = .eligible

/-- The new candidates, in the order of publication. -/
def pending (policy : GatewayEligibilityPolicy) (candidates : List GatewayEligibilityCandidate) :
    List GatewayEligibilityCandidate :=
  (structural policy false candidates).insertionSort fun c c' =>
    c.publicationKey ≤ c'.publicationKey

/-- A structurally eligible candidate is one of the candidates. -/
theorem mem_structural {routed : Bool} :
    candidate ∈ structural policy routed candidates ↔
      candidate ∈ candidates ∧ candidate.currentlyRouted = routed ∧
        baseReason policy candidate = .eligible := by
  rw [structural, List.mem_filter, decide_eq_true_iff]

/-- The new candidates are sorted by their keys. -/
theorem pending_sorted :
    (pending policy candidates).Pairwise fun c c' => c.publicationKey ≤ c'.publicationKey := by
  have : IsTrans GatewayEligibilityCandidate fun c c' => c.publicationKey ≤ c'.publicationKey :=
    ⟨fun _ _ _ => le_trans⟩
  have : Std.Total fun c c' : GatewayEligibilityCandidate =>
      c.publicationKey ≤ c'.publicationKey := ⟨fun _ _ => le_total _ _⟩
  exact List.pairwise_insertionSort _ _

/-- The new candidates are the structurally eligible ones without a route. -/
theorem pending_perm : (pending policy candidates).Perm (structural policy false candidates) :=
  List.perm_insertionSort _ _

/-- The order of publication does not depend on the order of the candidates. -/
theorem pending_eq_of_perm {candidates' : List GatewayEligibilityCandidate}
    (h : Distinct candidates) (hperm : candidates.Perm candidates') :
    pending policy candidates = pending policy candidates' := by
  have hpending : (pending policy candidates).Perm (pending policy candidates') :=
    pending_perm.trans ((hperm.filter _).trans pending_perm.symm)
  refine hpending.eq_of_pairwise (fun c c' hc hc' hle hle' => ?_) pending_sorted pending_sorted
  have hkey := congrArg (fun key => (ofLex key).2) (le_antisymm hle hle')
  exact h.eq_of_ref (mem_structural.1 (pending_perm.mem_iff.1 hc)).1
    (hperm.mem_iff.2 (mem_structural.1 (pending_perm.mem_iff.1 hc')).1) hkey

/-! ## The admission -/

/-- The limits of a policy. -/
def GatewayEligibilityPolicy.limits (policy : GatewayEligibilityPolicy) : Quota.Limits :=
  ⟨policy.tenantRouteLimit, policy.globalRouteLimit⟩

/-- The verdicts on the new candidates, in order. The routed candidates were taken
    before. -/
def verdicts (policy : GatewayEligibilityPolicy) (candidates : List GatewayEligibilityCandidate) :
    List (GatewayEligibilityCandidate × Quota.Verdict) :=
  Quota.admissions policy.limits GatewayEligibilityCandidate.tenantId
    ((structural policy true candidates).map GatewayEligibilityCandidate.tenantId)
    (pending policy candidates)

/-- Every new candidate gets a verdict, in order. -/
theorem verdicts_fst : (verdicts policy candidates).map Prod.fst = pending policy candidates :=
  Quota.admissions_fst _ _

/-- The reason that a verdict gives. -/
def verdictReason : Quota.Verdict → GatewayEligibilityReason
  | .admitted => .eligible
  | .groupFull => .tenantQuotaExceeded
  | .totalFull => .globalQuotaExceeded

/-- The state of the loop counts what was taken. -/
structure Admission.Represents (state : Admission) (taken : List Text) : Prop where
  counts : Counts state.tenantCounts taken
  total : state.globalCount = taken.length

/-- The body of the loop gives the verdict on a candidate. -/
theorem admitCandidate_represents {state : Admission} {taken : List Text}
    (h : state.Represents taken) :
    (admitCandidate policy state candidate).Represents
        (Quota.take policy.limits taken candidate.tenantId) ∧
      (admitCandidate policy state candidate).admitted =
        (if Quota.verdict policy.limits taken candidate.tenantId = .admitted then
          insert candidate.ref state.admitted else state.admitted) ∧
      (admitCandidate policy state candidate).quotaReasons =
        (if Quota.verdict policy.limits taken candidate.tenantId = .admitted then
          state.quotaReasons
        else state.quotaReasons.insert candidate.ref
          (verdictReason (Quota.verdict policy.limits taken candidate.tenantId))) := by
  simp only [admitCandidate, h.counts.getD_lookup, Quota.take]
  by_cases htenant : policy.tenantRouteLimit ≤ occurrences candidate.tenantId taken
  · have hverdict : Quota.verdict policy.limits taken candidate.tenantId = .groupFull :=
      if_pos htenant
    rw [hverdict, if_pos htenant]
    exact ⟨⟨h.counts, h.total⟩, rfl, rfl⟩
  · by_cases hglobal : policy.globalRouteLimit ≤ taken.length
    · have hverdict : Quota.verdict policy.limits taken candidate.tenantId = .totalFull :=
        (if_neg htenant).trans (if_pos hglobal)
      rw [hverdict, if_neg htenant, if_pos (h.total ▸ hglobal)]
      exact ⟨⟨h.counts, h.total⟩, rfl, rfl⟩
    · have hverdict : Quota.verdict policy.limits taken candidate.tenantId = .admitted :=
        (if_neg htenant).trans (if_neg hglobal)
      rw [hverdict, if_neg htenant, if_neg (h.total ▸ hglobal)]
      exact ⟨⟨h.counts.insert_succ, congrArg Nat.succ h.total⟩, rfl, rfl⟩

/-- The loop admits, and refuses, by the verdicts, and leaves the references of
    other candidates as they were. -/
theorem foldl_admitCandidate {l : List GatewayEligibilityCandidate} {state : Admission}
    {taken : List Text} (h : state.Represents taken)
    (hnodup : (l.map GatewayEligibilityCandidate.ref).Nodup) :
    (∀ x ∈ Quota.admissions policy.limits GatewayEligibilityCandidate.tenantId taken l,
      x.1.ref ∉ state.admitted →
        (x.1.ref ∈ (l.foldl (admitCandidate policy) state).admitted ↔ x.2 = .admitted) ∧
        (x.2 ≠ .admitted → (l.foldl (admitCandidate policy) state).quotaReasons.lookup x.1.ref =
          some (verdictReason x.2))) ∧
    ∀ ref ∉ l.map GatewayEligibilityCandidate.ref,
      (ref ∈ (l.foldl (admitCandidate policy) state).admitted ↔ ref ∈ state.admitted) ∧
      (l.foldl (admitCandidate policy) state).quotaReasons.lookup ref =
        state.quotaReasons.lookup ref := by
  induction l generalizing state taken with
  | nil => exact ⟨fun x hx => absurd hx List.not_mem_nil, fun _ _ => ⟨Iff.rfl, rfl⟩⟩
  | cons c l ih =>
    obtain ⟨hfresh, hnodup⟩ := List.nodup_cons.1 hnodup
    obtain ⟨hstate, hadmitted, hreasons⟩ := @admitCandidate_represents policy c _ _ h
    obtain ⟨hitems, hothers⟩ := ih hstate hnodup
    refine ⟨fun x hx hnew => ?_, fun ref href => ?_⟩
    · rcases List.mem_cons.1 hx with rfl | hx
      · -- the candidate itself: what is left of the loop does not touch it
        obtain ⟨hmem, hlookup⟩ := hothers c.ref hfresh
        rw [List.foldl_cons, hmem, hlookup, hadmitted, hreasons]
        refine ⟨?_, fun hrefused => ?_⟩
        · split_ifs with hverdict
          · exact iff_of_true (Finset.mem_insert_self _ _) hverdict
          · exact iff_of_false hnew hverdict
        · rw [if_neg hrefused]
          exact AList.lookup_insert _
      · refine hitems x hx fun hmem => ?_
        rw [hadmitted] at hmem
        have hne : x.1.ref ≠ c.ref := fun heq =>
          hfresh (heq ▸ List.mem_map_of_mem (Quota.mem_of_mem_admit hx))
        split_ifs at hmem
        · exact hnew ((Finset.mem_insert.1 hmem).resolve_left hne)
        · exact hnew hmem
    · rw [List.map_cons, List.mem_cons, not_or] at href
      obtain ⟨hmem, hlookup⟩ := hothers ref href.2
      rw [List.foldl_cons, hmem, hlookup, hadmitted, hreasons]
      split_ifs
      · exact ⟨by rw [Finset.mem_insert, or_iff_right href.1], rfl⟩
      · exact ⟨Iff.rfl, AList.lookup_insert_ne href.1⟩

/-- The first counts are those of the candidates that are admitted already. -/
theorem countAdmitted_counts {admitted : Finset Text} {counts : Dict Text ℕ} {taken : List Text}
    (h : Counts counts taken) :
    Counts (countAdmitted admitted counts candidates)
      ((candidates.filter fun c => c.ref ∈ admitted).map GatewayEligibilityCandidate.tenantId ++
        taken) := by
  induction candidates generalizing counts taken with
  | nil => exact h
  | cons c candidates ih =>
    rw [countAdmitted]
    split_ifs with hmem
    · rw [h.getD_lookup]
      refine (ih h.insert_succ).perm ?_
      rw [List.filter_cons_of_pos (by simpa using hmem), List.map_cons]
      exact List.perm_middle
    · rw [List.filter_cons_of_neg (by simpa using hmem)]
      exact ih h

/-- The state before the loop over the new candidates. -/
def initialAdmission (policy : GatewayEligibilityPolicy)
    (candidates : List GatewayEligibilityCandidate) : Admission :=
  let admitted := ((structural policy true candidates).map GatewayEligibilityCandidate.ref).toFinset
  ⟨admitted, countAdmitted admitted ∅ candidates, admitted.card, ∅⟩

/-- The state after the loop over the new candidates. -/
def finalAdmission (policy : GatewayEligibilityPolicy)
    (candidates : List GatewayEligibilityCandidate) : Admission :=
  (pending policy candidates).foldl (admitCandidate policy) (initialAdmission policy candidates)

/-- The references of distinct candidates are distinct, in a part of them too. -/
theorem Distinct.structural_nodup (h : Distinct candidates) (routed : Bool) :
    ((structural policy routed candidates).map GatewayEligibilityCandidate.ref).Nodup :=
  h.1.sublist (List.filter_sublist.map _)

/-- A candidate is admitted before the loop when it is structurally eligible and
    routed. -/
theorem mem_initialAdmission (h : Distinct candidates) (hmem : candidate ∈ candidates) :
    candidate.ref ∈ (initialAdmission policy candidates).admitted ↔
      candidate.currentlyRouted = true ∧ baseReason policy candidate = .eligible := by
  rw [initialAdmission, List.mem_toFinset, List.mem_map]
  constructor
  · rintro ⟨c, hc, href⟩
    obtain ⟨hc, hbase⟩ := mem_structural.1 hc
    exact h.eq_of_ref hc hmem href ▸ hbase
  · intro hbase
    exact ⟨candidate, mem_structural.2 ⟨hmem, hbase⟩, rfl⟩

/-- Before the loop, what is taken are the routed candidates. -/
theorem initialAdmission_represents (h : Distinct candidates) :
    (initialAdmission policy candidates).Represents
      ((structural policy true candidates).map GatewayEligibilityCandidate.tenantId) := by
  constructor
  · have hfilter : (candidates.filter fun c =>
        c.ref ∈ (initialAdmission policy candidates).admitted) = structural policy true candidates :=
      List.filter_congr fun c hc => decide_eq_decide.2 (mem_initialAdmission h hc)
    have hcounts := @countAdmitted_counts candidates
      (initialAdmission policy candidates).admitted _ _ Counts.nil
    rw [List.append_nil, hfilter] at hcounts
    exact hcounts
  · rw [List.length_map]
    exact (List.toFinset_card_of_nodup (h.structural_nodup true)).trans (List.length_map _)

/-- Every new candidate has a verdict. -/
theorem exists_verdict (hmem : candidate ∈ structural policy false candidates) :
    ∃ v, (candidate, v) ∈ verdicts policy candidates := by
  have hpending := pending_perm.mem_iff.2 hmem
  rw [← verdicts_fst] at hpending
  obtain ⟨⟨c, v⟩, hv, rfl⟩ := List.mem_map.1 hpending
  exact ⟨v, hv⟩

/-- A candidate with a verdict is new. -/
theorem structural_of_verdict {v : Quota.Verdict} (h : (candidate, v) ∈ verdicts policy candidates) :
    candidate ∈ structural policy false candidates :=
  pending_perm.mem_iff.1 (Quota.mem_of_mem_admit h)

/-! ## The decisions -/

/-- The reason of the decision on a candidate. -/
inductive Decides (policy : GatewayEligibilityPolicy)
    (candidates : List GatewayEligibilityCandidate) (candidate : GatewayEligibilityCandidate) :
    GatewayEligibilityReason → Prop
  /-- The candidate is not structurally eligible. -/
  | ineligible : baseReason policy candidate ≠ .eligible →
      Decides policy candidates candidate (baseReason policy candidate)
  /-- The candidate keeps its route. -/
  | kept : baseReason policy candidate = .eligible → candidate.currentlyRouted = true →
      Decides policy candidates candidate .eligible
  /-- The candidate is new. -/
  | new {v : Quota.Verdict} : (candidate, v) ∈ verdicts policy candidates →
      Decides policy candidates candidate (verdictReason v)

/-- Every candidate is decided. -/
theorem exists_decides (hmem : candidate ∈ candidates) :
    ∃ reason, Decides policy candidates candidate reason := by
  by_cases hbase : baseReason policy candidate = .eligible
  · cases hrouted : candidate.currentlyRouted with
    | true => exact ⟨_, .kept hbase hrouted⟩
    | false =>
      obtain ⟨v, hv⟩ := exists_verdict (mem_structural.2 ⟨hmem, hrouted, hbase⟩)
      exact ⟨_, .new hv⟩
  · exact ⟨_, .ineligible hbase⟩

/-- The reason that the code gives is that of the decision. -/
theorem finalReason_eq_some {reasons : Dict Text GatewayEligibilityReason}
    {reason : GatewayEligibilityReason} (h : Distinct candidates)
    (hreasons : ∀ c ∈ candidates, reasons.lookup c.ref = some (baseReason policy c))
    (hmem : candidate ∈ candidates) :
    finalReason reasons (finalAdmission policy candidates) candidate = some reason ↔
      Decides policy candidates candidate reason := by
  have hpending : ((pending policy candidates).map GatewayEligibilityCandidate.ref).Nodup :=
    ((pending_perm.map _).nodup_iff).2 (h.structural_nodup false)
  obtain ⟨hitems, hothers⟩ := foldl_admitCandidate (initialAdmission_represents h) hpending
  have hdecides {r : GatewayEligibilityReason} (hr : Decides policy candidates candidate r) :
      finalReason reasons (finalAdmission policy candidates) candidate = some r := by
    rw [finalReason, hreasons candidate hmem]
    cases hr with
    | ineligible hbase =>
      cases hreason : baseReason policy candidate with
      | eligible => exact absurd hreason hbase
      | _ => rfl
    | kept hbase hrouted =>
      rw [hbase]
      refine if_pos ((hothers _ fun hin => ?_).1.2 ((mem_initialAdmission h hmem).2 ⟨hrouted, hbase⟩))
      -- a routed candidate is not new
      obtain ⟨c, hc, href⟩ := List.mem_map.1 hin
      obtain ⟨hc, hrouted', -⟩ := mem_structural.1 (pending_perm.mem_iff.1 hc)
      rw [h.eq_of_ref hc hmem href, hrouted] at hrouted'
      cases hrouted'
    | @new v hv =>
      obtain ⟨-, hrouted, hbase⟩ := mem_structural.1 (structural_of_verdict hv)
      obtain ⟨hadmitted, hrefused⟩ := hitems _ hv fun hin => by
        rw [((mem_initialAdmission h hmem).1 hin).1] at hrouted
        cases hrouted
      rw [hbase]
      by_cases hv' : v = .admitted
      · subst hv'
        exact if_pos (hadmitted.2 rfl)
      · exact (if_neg fun hin => hv' (hadmitted.1 hin)).trans (hrefused hv')
  refine ⟨fun hr => ?_, hdecides⟩
  obtain ⟨r, hr'⟩ := @exists_decides policy _ _ hmem
  rw [hdecides hr', Option.some.injEq] at hr
  exact hr ▸ hr'

/-- The routes of the decisions. -/
def routeKeys (decisions : List GatewayEligibilityDecision) : List (Text × Text × Text) :=
  decisions.filterMap fun d => d.route.map GatewayRouteIdentity.key

/-- The routes when the first decision has none. -/
theorem routeKeys_of_none {d : GatewayEligibilityDecision} {ds : List GatewayEligibilityDecision}
    (h : d.route = none) : routeKeys (d :: ds) = routeKeys ds := by
  rw [routeKeys, List.filterMap_cons, h]
  rfl

/-- The routes when the first decision has one. -/
theorem routeKeys_of_some {d : GatewayEligibilityDecision} {ds : List GatewayEligibilityDecision}
    {route : GatewayRouteIdentity} (h : d.route = some route) :
    routeKeys (d :: ds) = route.key :: routeKeys ds := by
  rw [routeKeys, List.filterMap_cons, h]
  rfl

/-- Each candidate is decided in turn, and no route is seen twice. -/
theorem decideCandidates_eq_some {reasons : Dict Text GatewayEligibilityReason} {final : Admission}
    {seenRoutes : Finset (Text × Text × Text)} {decisions : List GatewayEligibilityDecision} :
    decideCandidates hashing reasons final seenRoutes candidates = some decisions ↔
      candidates.Forall₂ (fun c d => ∃ reason, finalReason reasons final c = some reason ∧
        decision hashing c reason = some d) decisions ∧
      (routeKeys decisions).Nodup ∧ ∀ key ∈ routeKeys decisions, key ∉ seenRoutes := by
  induction candidates generalizing seenRoutes decisions with
  | nil =>
    rw [decideCandidates, Option.some.injEq]
    refine ⟨fun h => h ▸ ⟨.nil, List.nodup_nil, nofun⟩, fun h => ?_⟩
    cases h.1
    rfl
  | cons c candidates ih =>
    -- The routes that were seen grow with each decision that has one.
    simp only [decideCandidates, Option.bind_eq_bind, Option.bind_eq_some_iff, Option.some.injEq]
    constructor
    · rintro ⟨reason, hreason, d, hd, seenRoutes', hseen, ds, hds, rfl⟩
      obtain ⟨hall, hnodup, hfresh⟩ := ih.1 hds
      refine ⟨.cons ⟨reason, hreason, hd⟩ hall, ?_⟩
      rw [seeRoute] at hseen
      cases hroute : d.route with
      | none =>
        rw [hroute] at hseen
        cases hseen
        rw [routeKeys_of_none hroute]
        exact ⟨hnodup, hfresh⟩
      | some route =>
        rw [hroute] at hseen
        dsimp only at hseen
        split_ifs at hseen with hmem
        cases hseen
        rw [routeKeys_of_some hroute]
        refine ⟨List.nodup_cons.2 ⟨fun hin => hfresh _ hin (Finset.mem_insert_self _ _), hnodup⟩,
          List.forall_mem_cons.2 ⟨hmem, fun key hkey hin => ?_⟩⟩
        exact hfresh key hkey (Finset.mem_insert_of_mem hin)
    · rintro ⟨hall, hnodup, hfresh⟩
      cases hall with
      | @cons _ d _ ds hd hall =>
        obtain ⟨reason, hreason, hd⟩ := hd
        cases hroute : d.route with
        | none =>
          rw [routeKeys_of_none hroute] at hnodup hfresh
          exact ⟨reason, hreason, d, hd, seenRoutes, by rw [seeRoute, hroute], ds,
            ih.2 ⟨hall, hnodup, hfresh⟩, rfl⟩
        | some route =>
          rw [routeKeys_of_some hroute] at hnodup hfresh
          obtain ⟨hnew, hnodup⟩ := List.nodup_cons.1 hnodup
          obtain ⟨hmem, hfresh⟩ := List.forall_mem_cons.1 hfresh
          refine ⟨reason, hreason, d, hd, insert route.key seenRoutes, ?_, ds,
            ih.2 ⟨hall, hnodup, fun key hkey hin => ?_⟩, rfl⟩
          · rw [seeRoute, hroute]
            exact if_neg hmem
          · rcases Finset.mem_insert.1 hin with rfl | hin
            · exact hnew hkey
            · exact hfresh key hkey hin

/-- The admission by the table of base reasons is that of the structurally eligible
    candidates. -/
theorem admitCandidates_eq_some {reasons : Dict Text GatewayEligibilityReason} {final : Admission}
    (h : Distinct candidates)
    (hreasons : ∀ c ∈ candidates, reasons.lookup c.ref = some (baseReason policy c)) :
    admitCandidates policy reasons candidates = some final ↔
      (structural policy true candidates).length ≤ maxRoutes ∧
        finalAdmission policy candidates = final := by
  have heligible (routed : Bool) :
      eligibleCandidates reasons routed candidates = structural policy routed candidates :=
    List.filter_congr fun c hc => decide_eq_decide.2 (by rw [hreasons c hc, Option.some.injEq])
  have hcard : ((structural policy true candidates).map
      GatewayEligibilityCandidate.ref).toFinset.card = (structural policy true candidates).length :=
    (List.toFinset_card_of_nodup (h.structural_nodup true)).trans (List.length_map _)
  rw [admitCandidates, heligible, heligible, hcard]
  split_ifs with hmany
  · exact iff_of_false nofun fun hfinal => absurd hfinal.1 (Nat.not_le_of_gt hmany)
  · rw [Option.some.injEq, ← hcard]
    exact (and_iff_right (hcard ▸ Nat.le_of_not_lt hmany)).symm

/-- When there are decisions, and what they are. -/
theorem evaluate_spec {decisions : List GatewayEligibilityDecision} :
    evaluateGatewayEligibility hashing policy candidates = some decisions ↔
      candidates.length ≤ policy.maxCandidates ∧ Distinct candidates ∧
      (structural policy true candidates).length ≤ maxRoutes ∧
      candidates.Forall₂ (fun c d => ∃ reason, Decides policy candidates c reason ∧
        decision hashing c reason = some d) decisions ∧
      (routeKeys decisions).Nodup := by
  have hforall {reasons : Dict Text GatewayEligibilityReason} (hdistinct : Distinct candidates)
      (hreasons : ∀ c ∈ candidates, reasons.lookup c.ref = some (baseReason policy c)) :
      decideCandidates hashing reasons (finalAdmission policy candidates) ∅ candidates =
        some decisions ↔
      candidates.Forall₂ (fun c d => ∃ reason, Decides policy candidates c reason ∧
        decision hashing c reason = some d) decisions ∧ (routeKeys decisions).Nodup := by
    rw [decideCandidates_eq_some, and_iff_left (fun key _ => Finset.notMem_empty key)]
    refine and_congr_left fun _ => forall₂_congr_of_mem fun c hc d => ?_
    exact exists_congr fun reason => and_congr_left fun _ =>
      finalReason_eq_some hdistinct hreasons hc
  rw [evaluateGatewayEligibility]
  split_ifs with hmany
  · exact iff_of_false nofun fun h => absurd h.1 (Nat.not_le_of_gt hmany)
  · rw [and_iff_right (Nat.le_of_not_lt hmany)]
    simp only [Option.bind_eq_bind, Option.bind_eq_some_iff]
    constructor
    · rintro ⟨reasons, hcollect, final, hfinal, hdecide⟩
      obtain ⟨⟨hdistinct, -⟩, rfl⟩ := collectReasons_eq_some.1 hcollect
      have hreasons := (Dict.lookup_foldl_insert (baseReason policy) hdistinct.1 ∅).1
      obtain ⟨hcard, rfl⟩ := (admitCandidates_eq_some hdistinct hreasons).1 hfinal
      exact ⟨hdistinct, hcard, (hforall hdistinct hreasons).1 hdecide⟩
    · rintro ⟨hdistinct, hcard, hdecide⟩
      have hreasons := (Dict.lookup_foldl_insert (baseReason policy) hdistinct.1 ∅).1
      exact ⟨_, collectReasons_eq_some.2 ⟨⟨hdistinct, fun c _ =>
        ⟨Finset.notMem_empty _, Finset.notMem_empty _⟩⟩, rfl⟩, _,
        (admitCandidates_eq_some hdistinct hreasons).2 ⟨hcard, rfl⟩,
        (hforall hdistinct hreasons).2 hdecide⟩

/-! ## Eligibility -/

/-- A decision is about its candidate and has its reason. -/
theorem decision_eq_some {reason : GatewayEligibilityReason} {d : GatewayEligibilityDecision}
    (h : decision hashing candidate reason = some d) : d.candidate = candidate ∧ d.reason = reason := by
  rw [decision] at h
  split_ifs at h
  · obtain ⟨route, -, rfl⟩ := Option.map_eq_some_iff.1 h
    exact ⟨rfl, rfl⟩
  · cases h
    exact ⟨rfl, rfl⟩

/-- A decision is eligible when its candidate keeps its route or is admitted. -/
theorem decides_eligible :
    Decides policy candidates candidate .eligible ↔
      (baseReason policy candidate = .eligible ∧ candidate.currentlyRouted = true) ∨
        (candidate, .admitted) ∈ verdicts policy candidates := by
  constructor
  · intro h
    generalize hreason : GatewayEligibilityReason.eligible = reason at h
    cases h with
    | ineligible hbase => exact absurd hreason.symm hbase
    | kept hbase hrouted => exact .inl ⟨hbase, hrouted⟩
    | @new v hv =>
      cases v with
      | admitted => exact .inr hv
      | groupFull => cases hreason
      | totalFull => cases hreason
  · rintro (⟨hbase, hrouted⟩ | hv)
    · exact .kept hbase hrouted
    · exact .new hv

/-- No base reason is a quota. -/
theorem baseReason_ne_quota :
    baseReason policy candidate ≠ .tenantQuotaExceeded ∧
      baseReason policy candidate ≠ .globalQuotaExceeded := by
  rw [baseReason]
  split_ifs <;> exact ⟨nofun, nofun⟩

/-- A quota is the reason only where it is the verdict. -/
theorem verdict_of_refused {v : Quota.Verdict} (hv : v ≠ .admitted)
    (h : Decides policy candidates candidate (verdictReason v)) :
    (candidate, v) ∈ verdicts policy candidates := by
  generalize hreason : verdictReason v = reason at h
  cases h with
  | ineligible =>
    cases v with
    | admitted => exact absurd rfl hv
    | groupFull => exact absurd hreason.symm baseReason_ne_quota.1
    | totalFull => exact absurd hreason.symm baseReason_ne_quota.2
  | kept =>
    cases v with
    | admitted => exact absurd rfl hv
    | groupFull | totalFull => cases hreason
  | @new v' hmem =>
    have heq : v = v' := by
      cases v <;> cases v' <;> first | rfl | cases hreason
    exact heq ▸ hmem

/-- Two decisions on a candidate have one reason. -/
theorem decides_unique (h : Distinct candidates) (hmem : candidate ∈ candidates)
    {reason reason' : GatewayEligibilityReason} (hr : Decides policy candidates candidate reason)
    (hr' : Decides policy candidates candidate reason') : reason = reason' := by
  have hreasons := (Dict.lookup_foldl_insert (baseReason policy) h.1 ∅).1
  rw [← finalReason_eq_some h hreasons hmem] at hr hr'
  exact Option.some.inj (hr.symm.trans hr')

section Decisions

variable {decisions : List GatewayEligibilityDecision}
  (h : evaluateGatewayEligibility hashing policy candidates = some decisions)
include h

/-- There is a decision on each candidate in turn. -/
theorem map_candidate : decisions.map GatewayEligibilityDecision.candidate = candidates := by
  obtain ⟨-, -, -, hall, -⟩ := evaluate_spec.1 h
  refine (List.forall₂_eq_eq_eq ▸ List.forall₂_map_left_iff.2 (hall.flip.imp ?_) :)
  rintro d c ⟨reason, -, hd⟩
  exact (decision_eq_some hd).1

/-- The reason of each decision. -/
theorem decides_of_mem {d : GatewayEligibilityDecision} (hd : d ∈ decisions) :
    d.candidate ∈ candidates ∧ Decides policy candidates d.candidate d.reason := by
  obtain ⟨-, -, -, hall, -⟩ := evaluate_spec.1 h
  obtain ⟨c, hc, reason, hreason, hdecision⟩ := exists_of_forall₂ hall.flip hd
  obtain ⟨rfl, rfl⟩ := decision_eq_some hdecision
  exact ⟨hc, hreason⟩

/-- The eligible candidates are those that are admitted and those that keep their
    route. -/
theorem eligible_perm :
    ((decisions.filter fun d => d.reason = .eligible).map
      GatewayEligibilityDecision.candidate).Perm
      (((verdicts policy candidates).filter fun x => x.2 = .admitted).map Prod.fst ++
        structural policy true candidates) := by
  obtain ⟨-, hdistinct, -⟩ := evaluate_spec.1 h
  have hnodup : candidates.Nodup := List.Nodup.of_map _ hdistinct.1
  have hpending : (pending policy candidates).Nodup :=
    pending_perm.nodup_iff.2 (hnodup.filter _)
  -- Neither list has a candidate twice, so it is enough that both have the same ones.
  refine (List.perm_ext_iff_of_nodup ?_ ?_).2 fun c => ?_
  · exact (map_candidate h ▸ hnodup).sublist (List.filter_sublist.map _)
  · refine List.nodup_append.2 ⟨?_, hnodup.filter _, fun c hc c' hc' heq => ?_⟩
    · rw [← verdicts_fst] at hpending
      exact hpending.sublist (List.filter_sublist.map _)
    · obtain ⟨⟨_, v⟩, hv, rfl⟩ := List.mem_map.1 hc
      have hnew := mem_structural.1 (structural_of_verdict (List.mem_filter.1 hv).1)
      have hkept := mem_structural.1 (heq ▸ hc')
      exact absurd (hnew.2.1.symm.trans hkept.2.1) Bool.false_ne_true
  · rw [List.mem_append, mem_structural]
    constructor
    · intro hc
      obtain ⟨d, hd, rfl⟩ := List.mem_map.1 hc
      rw [List.mem_filter, decide_eq_true_iff] at hd
      obtain ⟨hmem, hdecides⟩ := decides_of_mem h hd.1
      rw [hd.2, decides_eligible] at hdecides
      rcases hdecides with ⟨hbase, hrouted⟩ | hv
      · exact .inr ⟨hmem, hrouted, hbase⟩
      · exact .inl (List.mem_map.2 ⟨_, List.mem_filter.2 ⟨hv, decide_eq_true rfl⟩, rfl⟩)
    · intro hc
      have hdecides : c ∈ candidates ∧ Decides policy candidates c .eligible := by
        rcases hc with hc | ⟨hmem, hrouted, hbase⟩
        · obtain ⟨⟨_, v⟩, hv, rfl⟩ := List.mem_map.1 hc
          obtain ⟨hv, hadmitted⟩ := List.mem_filter.1 hv
          obtain rfl := of_decide_eq_true hadmitted
          exact ⟨(mem_structural.1 (structural_of_verdict hv)).1, .new hv⟩
        · exact ⟨hmem, .kept hbase hrouted⟩
      obtain ⟨d, hd, rfl⟩ := List.mem_map.1 (map_candidate h ▸ hdecides.1)
      refine List.mem_map.2 ⟨d, List.mem_filter.2 ⟨hd, decide_eq_true ?_⟩, rfl⟩
      exact decides_unique hdistinct hdecides.1 (decides_of_mem h hd).2 hdecides.2

/-- What is taken at the end are the tenants of the eligible decisions. -/
theorem taken_perm :
    (Quota.takenAfter policy.limits GatewayEligibilityCandidate.tenantId
      ((structural policy true candidates).map GatewayEligibilityCandidate.tenantId)
      (pending policy candidates)).Perm
      ((decisions.filter fun d => d.reason = .eligible).map fun d => d.candidate.tenantId) := by
  have hperm := ((eligible_perm h).map GatewayEligibilityCandidate.tenantId).symm
  rw [List.map_append, List.map_map, List.map_map] at hperm
  exact (Quota.takenAfter_perm _ _).trans hperm

/-- What a tenant has taken at the end are its eligible decisions. -/
theorem occurrences_taken (tenantId : Text) :
    occurrences tenantId (Quota.takenAfter policy.limits GatewayEligibilityCandidate.tenantId
      ((structural policy true candidates).map GatewayEligibilityCandidate.tenantId)
      (pending policy candidates)) =
      (decisions.filter fun d => d.reason = .eligible ∧ d.candidate.tenantId = tenantId).length := by
  rw [occurrences_perm (taken_perm h), occurrences, List.countP_map, List.countP_eq_length_filter,
    List.filter_filter]
  refine congrArg List.length (List.filter_congr fun d _ => ?_)
  rw [Bool.decide_and, Bool.and_comm]
  rfl

/-- All that is taken at the end are the eligible decisions. -/
theorem length_taken :
    (Quota.takenAfter policy.limits GatewayEligibilityCandidate.tenantId
      ((structural policy true candidates).map GatewayEligibilityCandidate.tenantId)
      (pending policy candidates)).length =
      (decisions.filter fun d => d.reason = .eligible).length := by
  rw [(taken_perm h).length_eq, List.length_map]

/-- Where a new candidate is admitted, its tenant and the whole end within the
    limits. -/
theorem eligible_bounded {d : GatewayEligibilityDecision} (hd : d ∈ decisions)
    (hnew : d.candidate.currentlyRouted = false) (heligible : d.reason = .eligible) :
    (decisions.filter fun d' => d'.reason = .eligible ∧
      d'.candidate.tenantId = d.candidate.tenantId).length ≤ policy.tenantRouteLimit ∧
    (decisions.filter fun d' => d'.reason = .eligible).length ≤ policy.globalRouteLimit := by
  have hdecides := heligible ▸ (decides_of_mem h hd).2
  have hv : (d.candidate, .admitted) ∈ verdicts policy candidates :=
    (decides_eligible.1 hdecides).resolve_left fun hkept =>
      absurd (hnew.symm.trans hkept.2) Bool.false_ne_true
  obtain ⟨htenant, hglobal⟩ := Quota.takenAfter_bounded hv
  exact ⟨occurrences_taken h _ ▸ htenant, length_taken h ▸ hglobal⟩

/-- A candidate is refused for a quota only where the quota is full. -/
theorem quota_full {d : GatewayEligibilityDecision} (hd : d ∈ decisions) :
    (d.reason = .tenantQuotaExceeded → policy.tenantRouteLimit ≤
      (decisions.filter fun d' => d'.reason = .eligible ∧
        d'.candidate.tenantId = d.candidate.tenantId).length) ∧
    (d.reason = .globalQuotaExceeded → policy.globalRouteLimit ≤
      (decisions.filter fun d' => d'.reason = .eligible).length) := by
  have hrefused {v : Quota.Verdict} (hv : v ≠ .admitted) (hreason : d.reason = verdictReason v) :
      (d.candidate, v) ∈ verdicts policy candidates :=
    verdict_of_refused hv (hreason ▸ (decides_of_mem h hd).2)
  constructor
  · intro hreason
    have hverdict := Quota.verdict_takenAfter (hrefused (v := .groupFull) nofun hreason) nofun
    exact occurrences_taken h _ ▸ Quota.group_le_of_verdict hverdict
  · intro hreason
    have hverdict := Quota.verdict_takenAfter (hrefused (v := .totalFull) nofun hreason) nofun
    exact length_taken h ▸ Quota.total_le_of_verdict hverdict

/-- New candidates are refused, and admitted, in the order of publication. -/
theorem admitted_in_order {d d' : GatewayEligibilityDecision} (hd : d ∈ decisions)
    (hd' : d' ∈ decisions) (hnew : d'.candidate.currentlyRouted = false)
    (hlt : d.candidate.publicationKey < d'.candidate.publicationKey) :
    (d.reason = .tenantQuotaExceeded → d'.candidate.tenantId = d.candidate.tenantId →
      d'.reason ≠ .eligible) ∧
    (d.reason = .globalQuotaExceeded → d'.reason ≠ .eligible) := by
  have hsorted : (verdicts policy candidates).Pairwise fun x y =>
      x.1.publicationKey ≤ y.1.publicationKey := by
    have hpending := @pending_sorted policy candidates
    rwa [← verdicts_fst, List.pairwise_map] at hpending
  have hpairwise := @Quota.admissions_pairwise _ _ _ policy.limits GatewayEligibilityCandidate.tenantId
    ((structural policy true candidates).map GatewayEligibilityCandidate.tenantId)
    (pending policy candidates)
  have hrefused {v : Quota.Verdict} (hv : v ≠ .admitted) (hreason : d.reason = verdictReason v) :
      (d.candidate, v) ∈ verdicts policy candidates :=
    verdict_of_refused hv (hreason ▸ (decides_of_mem h hd).2)
  have hadmitted (heligible : d'.reason = .eligible) :
      (d'.candidate, .admitted) ∈ verdicts policy candidates :=
    (decides_eligible.1 (heligible ▸ (decides_of_mem h hd').2)).resolve_left fun hkept =>
      absurd (hnew.symm.trans hkept.2) Bool.false_ne_true
  constructor
  · intro hreason htenant heligible
    exact (Quota.rel_of_key_lt hsorted hpairwise (hrefused (v := .groupFull) nofun hreason)
      (hadmitted heligible) hlt).2 rfl htenant rfl
  · intro hreason heligible
    exact (Quota.rel_of_key_lt hsorted hpairwise (hrefused (v := .totalFull) nofun hreason)
      (hadmitted heligible) hlt).1 rfl rfl

end Decisions

/-- The reason of a decision does not depend on the order of the candidates. -/
theorem decides_perm {candidates' : List GatewayEligibilityCandidate} (h : Distinct candidates)
    (hperm : candidates.Perm candidates') {reason : GatewayEligibilityReason} :
    Decides policy candidates candidate reason ↔ Decides policy candidates' candidate reason := by
  have hverdicts : verdicts policy candidates = verdicts policy candidates' := by
    rw [verdicts, verdicts, pending_eq_of_perm h hperm]
    exact Quota.admissions_perm ((hperm.filter _).map _) _
  constructor
  · intro hr
    cases hr with
    | ineligible hbase => exact .ineligible hbase
    | kept hbase hrouted => exact .kept hbase hrouted
    | new hv => exact .new (hverdicts ▸ hv)
  · intro hr
    cases hr with
    | ineligible hbase => exact .ineligible hbase
    | kept hbase hrouted => exact .kept hbase hrouted
    | new hv => exact .new (hverdicts ▸ hv)

/-- The decisions on the candidates in another order are the same decisions in
    another order. -/
theorem evaluate_perm {candidates' : List GatewayEligibilityCandidate}
    {decisions : List GatewayEligibilityDecision} (hperm : candidates.Perm candidates')
    (h : evaluateGatewayEligibility hashing policy candidates = some decisions) :
    ∃ decisions', evaluateGatewayEligibility hashing policy candidates' = some decisions' ∧
      decisions.Perm decisions' := by
  obtain ⟨hlength, hdistinct, hcard, hall, hroutes⟩ := evaluate_spec.1 h
  obtain ⟨decisions', hall', hdecisions⟩ := List.perm_comp_forall₂ hperm.symm hall
  refine ⟨decisions', evaluate_spec.2 ⟨hperm.length_eq ▸ hlength, hdistinct.perm hperm,
    ((hperm.filter _).length_eq ▸ hcard :), ?_, ?_⟩, hdecisions.symm⟩
  · refine hall'.imp ?_
    rintro c d ⟨reason, hreason, hd⟩
    exact ⟨reason, (decides_perm hdistinct hperm).1 hreason, hd⟩
  · exact (hdecisions.filterMap _).nodup_iff.2 hroutes

/-- Candidates that are routed keep their route while they are structurally
    eligible; a new one is admitted only within the limits, in the order of
    publication, and is refused for a limit only where this is reached; and the
    order of the candidates does not matter. -/
theorem eligibility {decisions : List GatewayEligibilityDecision}
    (h : evaluateGatewayEligibility hashing policy candidates = some decisions) :
    decisions.map GatewayEligibilityDecision.candidate = candidates ∧
    (candidates.map GatewayEligibilityCandidate.ref).Nodup ∧
    (∀ d ∈ decisions, d.reason = .eligible → baseReason policy d.candidate = .eligible) ∧
    (∀ d ∈ decisions, d.candidate.currentlyRouted = true →
      baseReason policy d.candidate = .eligible → d.reason = .eligible) ∧
    (∀ d ∈ decisions, d.candidate.currentlyRouted = false → d.reason = .eligible →
      (decisions.filter fun d' => d'.reason = .eligible ∧
        d'.candidate.tenantId = d.candidate.tenantId).length ≤ policy.tenantRouteLimit ∧
      (decisions.filter fun d' => d'.reason = .eligible).length ≤ policy.globalRouteLimit) ∧
    (∀ d ∈ decisions, ∀ d' ∈ decisions, d'.candidate.currentlyRouted = false →
      d.candidate.publicationKey < d'.candidate.publicationKey →
      (d.reason = .tenantQuotaExceeded → d'.candidate.tenantId = d.candidate.tenantId →
        d'.reason ≠ .eligible) ∧
      (d.reason = .globalQuotaExceeded → d'.reason ≠ .eligible)) ∧
    (∀ d ∈ decisions,
      (d.reason = .tenantQuotaExceeded → policy.tenantRouteLimit ≤
        (decisions.filter fun d' => d'.reason = .eligible ∧
          d'.candidate.tenantId = d.candidate.tenantId).length) ∧
      (d.reason = .globalQuotaExceeded → policy.globalRouteLimit ≤
        (decisions.filter fun d' => d'.reason = .eligible).length)) ∧
    ∀ candidates', candidates.Perm candidates' → ∃ decisions',
      evaluateGatewayEligibility hashing policy candidates' = some decisions' ∧
        decisions.Perm decisions' := by
  obtain ⟨-, hdistinct, -⟩ := evaluate_spec.1 h
  refine ⟨map_candidate h, hdistinct.1, fun d hd heligible => ?_, fun d hd hrouted hbase => ?_,
    fun d hd => eligible_bounded h hd, fun d hd d' hd' => admitted_in_order h hd hd',
    fun d hd => quota_full h hd, fun candidates' hperm => evaluate_perm hperm h⟩
  · rcases decides_eligible.1 (heligible ▸ (decides_of_mem h hd).2) with ⟨hbase, -⟩ | hv
    · exact hbase
    · exact (mem_structural.1 (structural_of_verdict hv)).2.2
  · obtain ⟨hmem, hdecides⟩ := decides_of_mem h hd
    exact decides_unique hdistinct hmem hdecides (.kept hbase hrouted)

/-- SHA-256, as far as one digest for every text will do. -/
def flatHashing : Hashing where
  writer := .plain
  sha256 _ := ⟨List.replicate 64 48, isDigest_zeros⟩

/-- A server of the tenant `t`, with a name of one letter. -/
def exampleCandidate (letter : CodePoint) (currentlyRouted : Bool)
    (h : isServerName [120, 47, letter] ∧
      matchesRef (lit "mcpservers/t/" ++ [120, 47, letter, 64, 49]) (lit "t") [120, 47, letter]) :
    GatewayEligibilityCandidate where
  ref := lit "mcpservers/t/" ++ [120, 47, letter, 64, 49]
  tenantId := lit "t"
  serverName := [120, 47, letter]
  registryDigest := lit "sha256:" ++ List.replicate 64 48
  artifactDigest := lit "sha256:" ++ List.replicate 64 48
  activationGeneration := 1
  publishedAt := lit "2025-01-01T00:00:00Z"
  lifecycle := .active
  visibility := .public
  tenantState := .ready
  gatewayEnabled := true
  approvalState := .approved
  environment := lit "e"
  activationReady := true
  scopeReady := true
  currentlyRouted
  tenantId_isDnsLabel := by decide
  serverName_isServerName := ⟨h.1, by simp, by simp⟩
  digests_valid := by decide
  generation_bounded := by decide
  publishedAt_canonical := by decide +kernel
  environment_valid := by decide
  identity_matches_ref := ⟨by simp [lit], h.2⟩

/-- Two routes for each tenant. -/
def examplePolicy : GatewayEligibilityPolicy where
  targetEnvironment := lit "e"
  tenantRouteLimit := 2
  targetEnvironment_valid := by decide
  tenantRouteLimit_pos := by decide
  globalRouteLimit_le := by decide
  maxCandidates_bounded := by decide
  tenant_limit_fits_global_limit := by decide

/-- A routed server of the tenant, and two new ones. -/
def exampleCandidates : List GatewayEligibilityCandidate :=
  [exampleCandidate 97 true (by decide), exampleCandidate 98 false (by decide),
    exampleCandidate 99 false (by decide)]

/-- The first new server is admitted, and the other is refused, in any order of the
    three. -/
theorem eligibility_example :
    (evaluateGatewayEligibility flatHashing examplePolicy exampleCandidates).map
        (fun decisions => decisions.map GatewayEligibilityDecision.reason) =
      some [.eligible, .eligible, .tenantQuotaExceeded] ∧
    (exampleCandidates.map GatewayEligibilityCandidate.ref).Nodup ∧
    ∀ candidates', exampleCandidates.Perm candidates' → ∃ decisions',
      evaluateGatewayEligibility flatHashing examplePolicy candidates' = some decisions' := by
  have hreasons : (evaluateGatewayEligibility flatHashing examplePolicy exampleCandidates).map
      (fun decisions => decisions.map GatewayEligibilityDecision.reason) =
        some [.eligible, .eligible, .tenantQuotaExceeded] := by decide +kernel
  obtain ⟨decisions, hdecisions, -⟩ := Option.map_eq_some_iff.1 hreasons
  obtain ⟨-, hrefs, -, -, -, -, -, hperm⟩ := eligibility hdecisions
  refine ⟨hreasons, hrefs, fun candidates' h => ?_⟩
  obtain ⟨decisions', hdecisions', -⟩ := hperm candidates' h
  exact ⟨decisions', hdecisions'⟩

end McpRuntime.Gateway
