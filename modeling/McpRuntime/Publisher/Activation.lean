import McpRuntime.Machine
import McpRuntime.Publisher.Delegates
import Mathlib.Algebra.Order.Field.Rat
import Mathlib.Tactic.Linarith
import Mathlib.Tactic.NormNum

/-!
# Waiting for an activation

`ActivationWaiter.wait` polls the status of an activation until it reaches a phase,
cannot reach it any more, or the deadline passes. The statuses are those of any
client, and the clock is monotonic: the wait is a machine whose events are the
rounds of the loop, with what the client and the clock did.

* `Wait.Sound`: the accepted statuses, and the one that is returned or attached to
  an exception, are about the target and have one generation.
* `run_punctual_iff`: every state of a run is sound exactly when no status that comes
  after the deadline is about something else.
* `observed_in_order`, `fetches_before_deadline`, `rounds_bounded`: what holds of
  every run.
-/

namespace McpRuntime.Publisher

/-- `ActivationPhase`. -/
inductive ActivationPhase
  | draft
  | published
  | deployed
  | probed
  | active
  | degraded
  | deprecated
  | retired
  | failed
  deriving DecidableEq

/-- `_PROGRESS_RANK`. -/
def ActivationPhase.progressRank : ActivationPhase → Option ℕ
  | .draft => some 0
  | .published => some 1
  | .deployed => some 2
  | .probed => some 3
  | .active => some 4
  | _ => none

/-- What the waiter reads of an `ActivationStatus`. The time of the observation is an
    instant, in microseconds. -/
structure ActivationStatus where
  ref : Text
  registryDigest : Text
  artifactDigest : Text
  generation : ℕ
  phase : ActivationPhase
  observedAt : ℤ
  deriving DecidableEq

/-- `ActivationTarget`. -/
structure ActivationTarget where
  ref : Text
  registryDigest : Text
  artifactDigest : Text
  generation : Option ℕ
  deriving DecidableEq

/-- `_matches_target`. -/
def matchesTarget (status : ActivationStatus) (target : ActivationTarget) (generation : ℕ) : Bool :=
  status.ref = target.ref && status.registryDigest = target.registryDigest &&
    status.artifactDigest = target.artifactDigest && status.generation = generation

/-- `_reached`. -/
def reached (actual target : ActivationPhase) : Bool :=
  actual = target ||
    match actual.progressRank, target.progressRank with
    | some rank, some rank' => rank' ≤ rank
    | _, _ => false

/-- What the waiter is asked for, as `_validate_parameters` accepts it, and the first
    reading of its clock. -/
structure WaitParameters where
  target : ActivationTarget
  targetPhase : ActivationPhase
  timeoutSeconds : ℚ
  pollIntervalSeconds : ℚ
  startedAt : ℚ
  timeout_bounded : 1 / 10 ≤ timeoutSeconds ∧ timeoutSeconds ≤ 900
  pollInterval_bounded : 1 / 10 ≤ pollIntervalSeconds ∧ pollIntervalSeconds ≤ 30
  pollInterval_le : pollIntervalSeconds ≤ timeoutSeconds

/-- The deadline of the wait. -/
def WaitParameters.deadline (parameters : WaitParameters) : ℚ :=
  parameters.startedAt + parameters.timeoutSeconds

/-- What a fetch under a timeout does. -/
inductive Response
  | status (status : ActivationStatus)
  /-- `TimeoutError`. -/
  | timedOut
  | raises (e : Raised)

/-- A round of the loop: what the fetch does, and the readings of the clock at the
    start, after the fetch, and before the sleep. -/
structure Round where
  start : ℚ
  response : Response
  after : ℚ
  last : ℚ

/-- How a wait ends. -/
inductive Ending
  | returned (status : ActivationStatus)
  /-- `ActivationTimeoutError`, or without a status a `PublicationError`. -/
  | timeout (status : Option ActivationStatus)
  /-- `ActivationTerminalError`. -/
  | terminal (status : ActivationStatus)
  /-- `ActivationContractError`. -/
  | contractInvalid
  /-- `ActivationSupersededError`. -/
  | superseded
  /-- What the fetch raises. -/
  | raised (e : Raised)

/-- The status that is returned or attached to an exception. -/
def Ending.status : Ending → Option ActivationStatus
  | .returned status | .terminal status => some status
  | .timeout status => status
  | _ => none

/-- The state of a wait. -/
structure Wait where
  generation : Option ℕ
  lastStatus : Option ActivationStatus := none
  lastObservedAt : Option ℤ := none
  /-- The clock reads no less at the start of the next round. -/
  wake : ℚ
  /-- The statuses that passed all checks, the last one first. -/
  accepted : List ActivationStatus := []
  /-- The readings of the clock at which a fetch started, the last one first. -/
  fetches : List ℚ := []
  ending : Option Ending := none

namespace Wait

/-- The wait ends. -/
def finish (s : Wait) (ending : Ending) : Wait := { s with ending := some ending }

variable (parameters : WaitParameters)

/-- The wait sleeps for the poll interval, and no longer than to the deadline. -/
def sleep (s : Wait) (now : ℚ) : Wait :=
  if parameters.deadline - now ≤ 0 then s.finish (.timeout s.lastStatus)
  else { s with wake := now + min parameters.pollIntervalSeconds (parameters.deadline - now) }

/-- The rest of a round whose fetch gave a status. -/
def observe (s : Wait) (r : Round) (status : ActivationStatus) : Wait :=
  let s := { s with lastStatus := some status }
  if parameters.deadline - r.after ≤ 0 then s.finish (.timeout (some status))
  else if s.lastObservedAt.any (status.observedAt < ·) then s.finish .contractInvalid
  else
    let generation := s.generation.getD status.generation
    let s := { s with lastObservedAt := some status.observedAt, generation := some generation }
    if !matchesTarget status parameters.target generation then s.finish .superseded
    else
      let s := { s with accepted := status :: s.accepted }
      if reached status.phase parameters.targetPhase then s.finish (.returned status)
      else if [.deprecated, .retired, .failed].contains status.phase then s.finish (.terminal status)
      else s.sleep parameters r.last

/-- A round of the loop. -/
def round (s : Wait) (r : Round) : Wait :=
  if parameters.deadline - r.start ≤ 0 then s.finish (.timeout s.lastStatus)
  else
    let s := { s with fetches := r.start :: s.fetches }
    match r.response with
    | .status status => s.observe parameters r status
    | .timedOut => s.finish (.timeout s.lastStatus)
    | .raises (.publication e) =>
      if !e.retryable then s.finish (.raised (.publication e)) else s.sleep parameters r.after
    | .raises e => s.finish (.raised e)

/-- The clock is monotonic, and a sleep is as long as it was asked for. -/
def Timely (s : Wait) (r : Round) : Prop := s.wake ≤ r.start ∧ r.start ≤ r.after ∧ r.after ≤ r.last

instance (s : Wait) (r : Round) : Decidable (s.Timely r) := inferInstanceAs (Decidable (_ ∧ _))

/-- `wait`. -/
def wait : Machine Wait Round where
  init := { generation := parameters.target.generation, wake := parameters.startedAt }
  step s r := if s.ending.isNone ∧ s.Timely r then some (s.round parameters r) else none

/-! ## Soundness -/

/-- The statuses that are accepted, returned or attached are about the target, and
    have one generation. -/
def Sound (s : Wait) : Prop :=
  ∃ generation : ℕ, (∀ g ∈ parameters.target.generation, g = generation) ∧
    (∀ status ∈ s.accepted, matchesTarget status parameters.target generation = true) ∧
    ∀ ending ∈ s.ending, ∀ status ∈ ending.status,
      matchesTarget status parameters.target generation = true

/-- A status that comes after the deadline is about the target, with the generation
    of the wait. -/
def Punctual (s : Wait) (r : Round) : Prop :=
  ∀ status, r.response = .status status → r.start < parameters.deadline →
    parameters.deadline ≤ r.after →
      matchesTarget status parameters.target (s.generation.getD status.generation) = true

instance (s : Wait) (r : Round) : Decidable (s.Punctual parameters r) :=
  match h : r.response with
  | .status status =>
    decidable_of_iff (r.start < parameters.deadline → parameters.deadline ≤ r.after →
        matchesTarget status parameters.target (s.generation.getD status.generation) = true)
      ⟨fun hpunctual _ h' => Response.status.inj (h.symm.trans h') ▸ hpunctual,
        fun hpunctual => hpunctual status h⟩
  | .timedOut | .raises _ => .isTrue fun _ h' => nomatch h.symm.trans h'

/-! ## Rounds -/

/-- The wait after a fetch has started. -/
def fetching (s : Wait) (r : Round) : Wait := { s with fetches := r.start :: s.fetches }

/-- The wait after a status was accepted. -/
def accept (s : Wait) (r : Round) (status : ActivationStatus) : Wait :=
  { s.fetching r with
    lastStatus := some status
    lastObservedAt := some status.observedAt
    generation := some (s.generation.getD status.generation)
    accepted := status :: s.accepted }

/-- What a round can do. -/
inductive Outcome (s : Wait) (r : Round) : Wait → Prop
  /-- The deadline passes before the fetch. -/
  | expired : parameters.deadline ≤ r.start → Outcome s r (s.finish (.timeout s.lastStatus))
  /-- The fetch gives no status, and the wait ends. -/
  | stopped {ending : Ending} : r.start < parameters.deadline →
      (∀ status, r.response ≠ .status status) →
        (ending.status = none ∨ ending.status = s.lastStatus) →
          Outcome s r ((s.fetching r).finish ending)
  /-- The fetch gives no status, and is tried again. -/
  | retried : r.start < parameters.deadline → (∀ status, r.response ≠ .status status) →
      parameters.deadline - r.after > 0 → Outcome s r { s.fetching r with
        wake := r.after + min parameters.pollIntervalSeconds (parameters.deadline - r.after) }
  /-- The status comes after the deadline. -/
  | late {status : ActivationStatus} : r.response = .status status → r.start < parameters.deadline →
      parameters.deadline ≤ r.after →
        Outcome s r ({ s.fetching r with lastStatus := some status }.finish (.timeout (some status)))
  /-- The status is refused. -/
  | refused {s' : Wait} {ending : Ending} : r.start < parameters.deadline →
      r.after < parameters.deadline → s'.fetches = r.start :: s.fetches → s'.accepted = s.accepted →
        (∀ generation ∈ s.generation, s'.generation = some generation) → ending.status = none →
          Outcome s r (s'.finish ending)
  /-- The status is accepted, and the wait ends. -/
  | accepted {status : ActivationStatus} {ending : Ending} : r.start < parameters.deadline →
      r.after < parameters.deadline → (∀ observedAt ∈ s.lastObservedAt, observedAt ≤ status.observedAt) →
        matchesTarget status parameters.target (s.generation.getD status.generation) = true →
          ending.status = some status → Outcome s r ((s.accept r status).finish ending)
  /-- The status is accepted, and the wait goes on. -/
  | observed {status : ActivationStatus} : r.start < parameters.deadline →
      r.after < parameters.deadline → (∀ observedAt ∈ s.lastObservedAt, observedAt ≤ status.observedAt) →
        matchesTarget status parameters.target (s.generation.getD status.generation) = true →
          parameters.deadline - r.last > 0 → Outcome s r { s.accept r status with
            wake := r.last + min parameters.pollIntervalSeconds (parameters.deadline - r.last) }

variable {parameters} {s s' : Wait} {r : Round}

/-- What a round does. -/
theorem outcome_round (s : Wait) (r : Round) : Outcome parameters s r (s.round parameters r) := by
  -- The cases are the checks of `round`, in the order in which it makes them.
  rw [round]
  split
  · next hstart => exact .expired (sub_nonpos.1 hstart)
  · next hstart =>
    rw [not_le, sub_pos] at hstart
    dsimp only
    split
    · next status hstatus =>
      rw [observe]
      dsimp only
      split
      · next hafter => exact .late hstatus hstart (sub_nonpos.1 hafter)
      · next hafter =>
        rw [not_le, sub_pos] at hafter
        split
        · exact .refused hstart hafter rfl rfl (fun _ hgeneration => hgeneration) rfl
        · next hobserved =>
          have hordered : ∀ observedAt ∈ s.lastObservedAt, observedAt ≤ status.observedAt := by
            intro observedAt hmem
            by_contra hlt
            exact hobserved ((Option.any_eq_true _ _).2 ⟨observedAt, hmem, decide_eq_true (not_le.1 hlt)⟩)
          split
          · refine .refused hstart hafter rfl rfl (fun generation hgeneration => ?_) rfl
            exact congrArg (fun o : Option ℕ => some (o.getD status.generation)) hgeneration
          · next hmatches =>
            rw [Bool.not_eq_true', Bool.not_eq_false] at hmatches
            split
            · exact .accepted hstart hafter hordered hmatches rfl
            · split
              · exact .accepted hstart hafter hordered hmatches rfl
              · rw [sleep]
                split
                · exact .accepted hstart hafter hordered hmatches rfl
                · next hlast => exact .observed hstart hafter hordered hmatches (not_le.1 hlast)
    · next hresponse => exact .stopped hstart (by rw [hresponse]; exact fun _ => nofun) (.inr rfl)
    · next hresponse =>
      have hstatus : ∀ status, r.response ≠ .status status := by
        rw [hresponse]
        exact fun _ => nofun
      split
      · exact .stopped hstart hstatus (.inl rfl)
      · rw [sleep]
        split
        · exact .stopped hstart hstatus (.inr rfl)
        · next hafter => exact .retried hstart hstatus (not_le.1 hafter)
    · next hresponse => exact .stopped hstart (by rw [hresponse]; exact fun _ => nofun) (.inl rfl)

/-! ## The statuses -/

/-- The invariant of runs without a late status about something else: the wait has
    one generation. -/
structure Pinned (parameters : WaitParameters) (s : Wait) : Prop where
  target : ∀ generation ∈ parameters.target.generation, s.generation = some generation
  accepted : ∀ status ∈ s.accepted, ∃ generation ∈ s.generation,
    matchesTarget status parameters.target generation = true
  source : s.ending = none → ∀ generation ∈ s.generation,
    parameters.target.generation = some generation ∨ s.accepted ≠ []
  last : s.ending = none → s.lastStatus = s.accepted.head?
  ending : ∀ ending ∈ s.ending, ∀ status ∈ ending.status,
    matchesTarget status parameters.target (s.generation.getD status.generation) = true

/-- A pinned wait is sound. -/
theorem Pinned.sound (h : s.Pinned parameters) : s.Sound parameters := by
  cases hgeneration : s.generation with
  | some generation =>
    refine ⟨generation, fun g hg => ?_, fun status hstatus => ?_, fun ending hending status hstatus => ?_⟩
    · exact Option.some.inj ((h.target g hg).symm.trans hgeneration)
    · obtain ⟨g, hg, hmatches⟩ := h.accepted status hstatus
      exact Option.some.inj (hg.symm.trans hgeneration) ▸ hmatches
    · have hmatches := h.ending ending hending status hstatus
      rwa [hgeneration] at hmatches
  | none =>
    -- the only status, if there is one, is that of the ending
    refine ⟨((s.ending.bind Ending.status).map ActivationStatus.generation).getD 0, fun g hg => ?_,
      fun status hstatus => ?_, fun ending hending status hstatus => ?_⟩
    · cases hgeneration.symm.trans (h.target g hg)
    · obtain ⟨g, hg, -⟩ := h.accepted status hstatus
      cases hgeneration.symm.trans hg
    · have hmatches := h.ending ending hending status hstatus
      rw [hgeneration] at hmatches
      rw [Option.mem_def.1 hending, Option.bind_some, Option.mem_def.1 hstatus]
      exact hmatches

/-- The generation of a status that matches. -/
theorem generation_of_matches {status : ActivationStatus} {target : ActivationTarget}
    {generation : ℕ} (h : matchesTarget status target generation = true) :
    status.generation = generation := by
  rw [matchesTarget, Bool.and_eq_true] at h
  exact of_decide_eq_true h.2

/-- What a wait that ends with a status, or without one, keeps. -/
theorem Pinned.finish (h : s.Pinned parameters) {ending : Ending}
    (hending : ∀ status ∈ ending.status,
      matchesTarget status parameters.target (s.generation.getD status.generation) = true) :
    (s.finish ending).Pinned parameters where
  target := h.target
  accepted := h.accepted
  source := nofun
  last := nofun
  ending := fun _ hmem status hstatus => by
    cases hmem
    exact hending status hstatus

/-- The last status of a wait is about the target. -/
theorem Pinned.matches_last (h : s.Pinned parameters) (hwaiting : s.ending = none)
    {status : ActivationStatus} (hstatus : s.lastStatus = some status) :
    matchesTarget status parameters.target (s.generation.getD status.generation) = true := by
  rw [h.last hwaiting] at hstatus
  obtain ⟨generation, hgeneration, hmatches⟩ := h.accepted status (List.mem_of_mem_head? hstatus)
  rw [Option.mem_def.1 hgeneration]
  exact hmatches

/-- The start of a fetch, and a sleep, do not change the statuses. -/
theorem Pinned.fetching (h : s.Pinned parameters) (wake : ℚ) :
    ({ s.fetching r with wake := wake } : Wait).Pinned parameters :=
  ⟨h.target, h.accepted, h.source, h.last, h.ending⟩

/-- A wait that accepts a status stays pinned. -/
theorem Pinned.accept (h : s.Pinned parameters) (hwaiting : s.ending = none) {status : ActivationStatus}
    (hmatches : matchesTarget status parameters.target (s.generation.getD status.generation) = true) :
    (s.accept r status).Pinned parameters where
  target := fun g hg => by
    have hgeneration := h.target g hg
    change some (s.generation.getD status.generation) = some g
    rw [hgeneration]
    rfl
  accepted := fun status' hstatus' => by
    refine ⟨_, rfl, ?_⟩
    rcases List.mem_cons.1 hstatus' with rfl | hstatus'
    · exact hmatches
    · obtain ⟨g, hg, hmatches'⟩ := h.accepted status' hstatus'
      rw [Option.mem_def.1 hg]
      exact hmatches'
  source := fun _ _ _ => .inr (List.cons_ne_nil _ _)
  last := fun _ => rfl
  ending := fun ending hending => by
    cases hwaiting.symm.trans (Option.mem_def.1 hending)

/-- A round of a pinned wait keeps it pinned when no late status is about something
    else, and is not sound otherwise. -/
theorem Pinned.outcome (h : s.Pinned parameters) (hwaiting : s.ending = none)
    (ho : Outcome parameters s r s') :
    (s.Punctual parameters r → s'.Pinned parameters) ∧
      (s'.Sound parameters → s.Punctual parameters r) := by
  cases ho with
  | expired hstart =>
    exact ⟨fun _ => h.finish fun status hstatus => h.matches_last hwaiting hstatus,
      fun _ status _ hlt => absurd hlt (not_lt.2 hstart)⟩
  | stopped hstart hresponse hstatus =>
    refine ⟨fun _ => (h.fetching s.wake).finish fun status hmem => ?_,
      fun _ status heq => absurd heq (hresponse status)⟩
    rcases hstatus with hnone | hlast
    · cases hnone.symm.trans (Option.mem_def.1 hmem)
    · exact h.matches_last hwaiting (hlast.symm.trans hmem)
  | retried hstart hresponse hafter =>
    exact ⟨fun _ => h.fetching _, fun _ status heq => absurd heq (hresponse status)⟩
  | @late status hstatus hstart hafter =>
    constructor
    · intro hpunctual
      have hmatches := hpunctual status hstatus hstart hafter
      exact { target := h.target, accepted := h.accepted, source := nofun, last := nofun
              ending := fun _ hmem status' hstatus' => by
                cases hmem
                cases hstatus'
                exact hmatches }
    · rintro ⟨generation, htarget, haccepted, hending⟩ status' hstatus' - -
      cases hstatus.symm.trans hstatus'
      have hmatches := hending _ rfl status rfl
      cases hgeneration : s.generation with
      | none => exact (generation_of_matches hmatches).symm ▸ hmatches
      | some g =>
        -- the generation of the wait is that of the target, or of a status accepted before
        have heq : g = generation := by
          rcases h.source hwaiting g hgeneration with htarget' | hne
          · exact htarget g htarget'
          · obtain ⟨first, hfirst⟩ := List.exists_mem_of_ne_nil _ hne
            obtain ⟨g', hg', hmatches'⟩ := h.accepted first hfirst
            cases hgeneration.symm.trans hg'
            exact (generation_of_matches hmatches').symm.trans
              (generation_of_matches (haccepted first hfirst))
        exact heq ▸ hmatches
  | @refused t ending hstart hafter hfetches haccepted hgeneration hstatus =>
    refine ⟨fun _ => ?_, fun _ _ _ _ hlate => absurd hafter (not_lt.2 hlate)⟩
    exact {
      target := fun g hg => hgeneration g (h.target g hg)
      accepted := fun status hmem => by
        obtain ⟨g, hg, hmatches⟩ := h.accepted status (haccepted ▸ hmem)
        exact ⟨g, hgeneration g hg, hmatches⟩
      source := nofun
      last := nofun
      ending := fun _ hmem status hstatus' => by
        cases hmem
        cases hstatus.symm.trans (Option.mem_def.1 hstatus') }
  | @accepted status ending hstart hafter hordered hmatches hstatus =>
    refine ⟨fun _ => (h.accept hwaiting hmatches).finish fun status' hstatus' => ?_,
      fun _ _ _ _ hlate => absurd hafter (not_lt.2 hlate)⟩
    cases hstatus.symm.trans (Option.mem_def.1 hstatus')
    exact hmatches
  | @observed status hstart hafter hordered hmatches hlast =>
    refine ⟨fun _ => ?_, fun _ _ _ _ hlate => absurd hafter (not_lt.2 hlate)⟩
    have haccept : (s.accept r status).Pinned parameters := h.accept hwaiting hmatches
    exact ⟨haccept.target, haccept.accepted, haccept.source, haccept.last, haccept.ending⟩

/-! ## Runs -/

/-- A step is a round of a wait that has not ended, at its time. -/
theorem step_eq_some (h : (wait parameters).step s r = some s') :
    s.ending = none ∧ s.Timely r ∧ Outcome parameters s r s' := by
  change (if _ then _ else _) = _ at h
  split_ifs at h with hwaiting
  cases h
  exact ⟨Option.isNone_iff_eq_none.1 hwaiting.1, hwaiting.2, outcome_round s r⟩

/-- A wait that has not ended goes on at its time. -/
theorem step_of_timely (hwaiting : s.ending = none) (htimely : s.Timely r) :
    (wait parameters).step s r = some (s.round parameters r) :=
  if_pos ⟨Option.isNone_iff_eq_none.2 hwaiting, htimely⟩

/-- The wait is sound after the round. -/
def SoundAfter (parameters : WaitParameters) (s : Wait) (r : Round) : Prop :=
  ∀ s' ∈ (wait parameters).step s r, s'.Sound parameters

/-- A run without late statuses about something else leads to a pinned wait. -/
theorem pinned_of_run {h : List Round} (hr : (wait parameters).Run (Punctual parameters) h s) :
    s.Pinned parameters := by
  refine hr.invariant ?_ fun s r s' hs hpunctual hstep => ?_
  · exact ⟨fun _ hg => hg, nofun, fun _ g hg => .inl hg, fun _ => rfl, nofun⟩
  · obtain ⟨hwaiting, -, houtcome⟩ := step_eq_some hstep
    exact (hs.outcome hwaiting houtcome).1 hpunctual

/-- All states of a run are sound exactly when no status that comes after the deadline
    is about something else. -/
theorem run_punctual_iff {h : List Round} :
    (wait parameters).Run (Punctual parameters) h s ↔
      (wait parameters).Run (SoundAfter parameters) h s := by
  constructor
  · intro hr
    induction hr with
    | init => exact .init
    | step hr hpunctual hstep ih =>
      refine .step ih (fun s' hs' => ?_) hstep
      obtain ⟨hwaiting, -, houtcome⟩ := step_eq_some hs'
      exact (((pinned_of_run hr).outcome hwaiting houtcome).1 hpunctual).sound
  · intro hr
    induction hr with
    | init => exact .init
    | step _ hsound hstep ih =>
      obtain ⟨hwaiting, -, houtcome⟩ := step_eq_some hstep
      exact .step ih (((pinned_of_run ih).outcome hwaiting houtcome).2 (hsound _ hstep)) hstep

/-- The observed times of the accepted statuses, the last one first. -/
structure Ordered (s : Wait) : Prop where
  pairwise : s.accepted.Pairwise fun later earlier => earlier.observedAt ≤ later.observedAt
  last : s.ending = none → s.lastObservedAt = s.accepted.head?.map ActivationStatus.observedAt

/-- A status that is not older than the last one is not older than any. -/
theorem Ordered.accept (h : s.Ordered) (hwaiting : s.ending = none) {status : ActivationStatus}
    (hordered : ∀ observedAt ∈ s.lastObservedAt, observedAt ≤ status.observedAt) :
    (s.accept r status).Ordered := by
  refine ⟨List.pairwise_cons.2 ⟨fun earlier hmem => ?_, h.pairwise⟩, fun _ => rfl⟩
  rw [h.last hwaiting] at hordered
  cases haccepted : s.accepted with
  | nil =>
    rw [haccepted] at hmem
    cases hmem
  | cons first rest =>
    have hpairwise := h.pairwise
    rw [haccepted] at hmem hordered hpairwise
    have hfirst := hordered first.observedAt rfl
    rcases List.mem_cons.1 hmem with rfl | hmem
    · exact hfirst
    · exact ((List.pairwise_cons.1 hpairwise).1 earlier hmem).trans hfirst

/-- The observed times of successive accepted statuses never decrease. -/
theorem observed_in_order {h : List Round} (hr : (wait parameters).Run Machine.Free h s) :
    s.Ordered := by
  refine hr.invariant ⟨List.Pairwise.nil, fun _ => rfl⟩ fun s r s' hs _ hstep => ?_
  obtain ⟨hwaiting, -, houtcome⟩ := step_eq_some hstep
  cases houtcome with
  | expired | stopped | late => exact ⟨hs.pairwise, nofun⟩
  | retried => exact ⟨hs.pairwise, hs.last⟩
  | refused _ _ _ haccepted => exact ⟨haccepted.symm ▸ hs.pairwise, nofun⟩
  | accepted _ _ hordered => exact ⟨(hs.accept (r := r) hwaiting hordered).pairwise, nofun⟩
  | observed _ _ hordered =>
    exact ⟨(hs.accept (r := r) hwaiting hordered).pairwise, fun _ => rfl⟩

/-- No fetch starts after the deadline. -/
theorem fetches_before_deadline {h : List Round} (hr : (wait parameters).Run Machine.Free h s) :
    ∀ start ∈ s.fetches, start < parameters.deadline := by
  refine hr.invariant (I := fun s => ∀ start ∈ s.fetches, start < parameters.deadline)
    (fun _ hmem => absurd hmem List.not_mem_nil) fun s r s' hs _ hstep => ?_
  obtain ⟨-, -, houtcome⟩ := step_eq_some hstep
  cases houtcome with
  | expired => exact hs
  | stopped hstart | retried hstart | late _ hstart | accepted hstart | observed hstart =>
    exact List.forall_mem_cons.2 ⟨hstart, hs⟩
  | refused hstart _ hfetches => exact hfetches.symm ▸ List.forall_mem_cons.2 ⟨hstart, hs⟩

/-- How far the clock is after `n` rounds. -/
structure Elapsed (parameters : WaitParameters) (n : ℕ) (s : Wait) : Prop where
  waiting : s.ending = none → s.wake < parameters.deadline →
    parameters.startedAt + n * parameters.pollIntervalSeconds ≤ s.wake
  rounds : s.ending = none →
    n * parameters.pollIntervalSeconds ≤ parameters.timeoutSeconds + parameters.pollIntervalSeconds
  ended : n * parameters.pollIntervalSeconds ≤
    parameters.timeoutSeconds + 2 * parameters.pollIntervalSeconds

/-- A round that ends the wait. -/
theorem Elapsed.finish {n : ℕ} (h : s.Elapsed parameters n) (hwaiting : s.ending = none)
    (hended : s'.ending ≠ none) : s'.Elapsed parameters (n + 1) := by
  have hrounds := h.rounds hwaiting
  refine ⟨fun h => absurd h hended, fun h => absurd h hended, ?_⟩
  push_cast
  linarith

/-- A round that ends with a sleep. -/
theorem Elapsed.sleep {n : ℕ} (h : s.Elapsed parameters n) (hwaiting : s.ending = none)
    (htimely : s.wake ≤ r.start) (hstart : r.start < parameters.deadline) {now : ℚ}
    (hnow : r.start ≤ now)
    (hwake : s'.wake = now + min parameters.pollIntervalSeconds (parameters.deadline - now)) :
    s'.Elapsed parameters (n + 1) := by
  have hwaited := h.waiting hwaiting (htimely.trans_lt hstart)
  have hpoll := parameters.pollInterval_bounded.1
  rw [WaitParameters.deadline] at hstart hwake
  have hrounds : ((n + 1 : ℕ) : ℚ) * parameters.pollIntervalSeconds ≤
      parameters.timeoutSeconds + parameters.pollIntervalSeconds := by
    push_cast
    linarith
  refine ⟨fun _ hlt => ?_, fun _ => hrounds, by linarith⟩
  rw [WaitParameters.deadline] at hlt
  rw [hwake] at hlt ⊢
  rcases min_choice parameters.pollIntervalSeconds
      (parameters.startedAt + parameters.timeoutSeconds - now) with hmin | hmin
  · rw [hmin]
    push_cast
    linarith
  · -- a sleep to the deadline
    rw [hmin] at hlt
    linarith

/-- Each round takes at least the poll interval, or ends at the deadline. -/
theorem elapsed_of_run {h : List Round} (hr : (wait parameters).Run Machine.Free h s) :
    s.Elapsed parameters h.length := by
  have hpoll := parameters.pollInterval_bounded.1
  have htimeout := parameters.timeout_bounded.1
  refine hr.history_invariant (I := fun h s => s.Elapsed parameters h.length) ?_
    fun h s r s' hs _ hstep => ?_
  · have hstarted : (wait parameters).init.wake = parameters.startedAt := rfl
    constructor
    · intro _ _
      simp [hstarted]
    · intro _
      simp only [List.length_nil, Nat.cast_zero]
      linarith
    · simp only [List.length_nil, Nat.cast_zero]
      linarith
  · obtain ⟨hwaiting, htimely, houtcome⟩ := step_eq_some hstep
    cases houtcome with
    | expired | stopped | late | refused | accepted => exact hs.finish hwaiting nofun
    | retried hstart => exact hs.sleep hwaiting htimely.1 hstart htimely.2.1 rfl
    | observed hstart =>
      exact hs.sleep hwaiting htimely.1 hstart (htimely.2.1.trans htimely.2.2) rfl

/-- A wait makes no more rounds than poll intervals fit into its timeout, and two. -/
theorem rounds_bounded {h : List Round} (hr : (wait parameters).Run Machine.Free h s) :
    h.length * parameters.pollIntervalSeconds ≤
      parameters.timeoutSeconds + 2 * parameters.pollIntervalSeconds :=
  (elapsed_of_run hr).ended

/-- In every run, all states are sound exactly when no status that comes after the
    deadline is about something else; the observed times of accepted statuses never
    decrease; no fetch starts after the deadline; and the wait terminates: it goes on
    until it ends, and ends after so many rounds. -/
theorem wait_sound :
    (∀ h s, (wait parameters).Run (Punctual parameters) h s ↔
      (wait parameters).Run (SoundAfter parameters) h s) ∧
    (∀ h s, (wait parameters).Run (Punctual parameters) h s → s.Sound parameters) ∧
    ∀ h s, (wait parameters).Run Machine.Free h s →
      s.Ordered ∧ (∀ start ∈ s.fetches, start < parameters.deadline) ∧
      h.length * parameters.pollIntervalSeconds ≤
        parameters.timeoutSeconds + 2 * parameters.pollIntervalSeconds ∧
      (s.ending = none → ∀ r, s.Timely r → ((wait parameters).step s r).isSome) := by
  refine ⟨fun h s => run_punctual_iff, fun h s hr => (pinned_of_run hr).sound, fun h s hr => ?_⟩
  refine ⟨observed_in_order hr, fetches_before_deadline hr, rounds_bounded hr,
    fun hwaiting r htimely => ?_⟩
  rw [step_of_timely hwaiting htimely]
  rfl

/-! ## Examples -/

/-- A wait of a second for the activation of the second generation. -/
def exampleParameters : WaitParameters where
  target := ⟨lit "mcpservers/t/x@1", lit "a", lit "b", some 2⟩
  targetPhase := .active
  timeoutSeconds := 1
  pollIntervalSeconds := 1
  startedAt := 0
  timeout_bounded := by norm_num
  pollInterval_bounded := by norm_num
  pollInterval_le := le_rfl

/-- A status of a generation. -/
def exampleStatus (generation : ℕ) : ActivationStatus :=
  ⟨lit "mcpservers/t/x@1", lit "a", lit "b", generation, .active, 0⟩

/-- A status of a generation, after the deadline. -/
def lateRound (generation : ℕ) : Round := ⟨0, .status (exampleStatus generation), 2, 2⟩

/-- The late status is attached to an exception. -/
theorem step_lateRound (generation : ℕ) :
    ∃ s, (wait exampleParameters).step (wait exampleParameters).init (lateRound generation) = some s ∧
      s.ending = some (.timeout (some (exampleStatus generation))) := by
  have hdeadline : exampleParameters.deadline = 1 := zero_add 1
  have htimely : (wait exampleParameters).init.Timely (lateRound generation) :=
    ⟨le_rfl, zero_le_two, le_rfl⟩
  refine ⟨_, step_of_timely rfl htimely, ?_⟩
  have hstart : ¬ exampleParameters.deadline - (lateRound generation).start ≤ 0 := by
    rw [hdeadline]
    norm_num [lateRound]
  have hafter : exampleParameters.deadline - (lateRound generation).after ≤ 0 := by
    rw [hdeadline]
    norm_num [lateRound]
  rw [round, if_neg hstart]
  change (observe _ _ _ _).ending = _
  rw [observe, if_pos hafter]
  rfl

/-- The exception of a timeout has a status of another generation. -/
theorem late_status_attached :
    ∃ h s, (wait exampleParameters).Run Machine.Free h s ∧
      (∃ ending ∈ s.ending, ending.status = some (exampleStatus 3)) ∧
      matchesTarget (exampleStatus 3) exampleParameters.target 2 = false ∧
      ¬ s.Sound exampleParameters := by
  obtain ⟨s, hstep, hending⟩ := step_lateRound 3
  refine ⟨[lateRound 3], s, .step .init trivial hstep, ⟨_, hending, rfl⟩, rfl, ?_⟩
  rintro ⟨generation, htarget, -, hsound⟩
  obtain rfl := htarget 2 rfl
  exact Bool.false_ne_true (hsound _ hending _ rfl)

/-- A wait of three seconds for the activation of whatever generation there is. -/
def pollParameters : WaitParameters where
  target := ⟨lit "mcpservers/t/x@1", lit "a", lit "b", none⟩
  targetPhase := .active
  timeoutSeconds := 3
  pollIntervalSeconds := 1
  startedAt := 0
  timeout_bounded := by norm_num
  pollInterval_bounded := by norm_num
  pollInterval_le := by norm_num

/-- A status of a second generation that is published, a fetch that fails and may be tried
    again, and the status of the generation that is active. -/
def pollRounds : List Round :=
  [⟨0, .status { exampleStatus 2 with phase := .published }, 0, 0⟩,
    ⟨1, .raises (.publication { code := .activationFailed, retryable := true }), 1, 1⟩,
    ⟨2, .status { exampleStatus 2 with observedAt := 5 }, 2, 2⟩]

/-- The wait accepts two statuses of the generation of the first, and returns the second. -/
theorem wait_sound_example :
    ∃ s, (wait pollParameters).exec (wait pollParameters).init pollRounds = some s ∧
      s.accepted.length = 2 ∧ s.generation = some 2 ∧
      s.ending.bind Ending.status = some { exampleStatus 2 with observedAt := 5 } ∧
      s.Sound pollParameters := by
  have hends : ((wait pollParameters).exec (wait pollParameters).init pollRounds).any
      (fun s => s.accepted.length = 2 && s.generation = some 2 &&
        s.ending.bind Ending.status = some { exampleStatus 2 with observedAt := 5 }) = true := by
    decide +kernel
  obtain ⟨s, hexec, hs⟩ := (Option.any_eq_true ..).1 hends
  rw [Bool.and_eq_true, Bool.and_eq_true] at hs
  obtain ⟨⟨haccepted, hgeneration⟩, hending⟩ := hs
  have hr := Machine.run_of_exec (G := Punctual pollParameters) hexec (by decide +kernel)
  exact ⟨s, hexec, of_decide_eq_true haccepted, of_decide_eq_true hgeneration,
    of_decide_eq_true hending, wait_sound.2.1 _ s hr⟩

end Wait

end McpRuntime.Publisher
