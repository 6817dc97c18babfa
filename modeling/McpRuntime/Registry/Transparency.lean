import McpRuntime.Registry.ResolutionRuns

/-!
# Transparency of the cache

With a registry that answers the same to the same authority at all times, a call returns or
raises what it would without the cache and the other calls, up to the source that it gives,
unless the registry fails or hashes collide (`resolver_transparent`).
-/

namespace McpRuntime

namespace Registry

/-- A registry that does not change: its stubs by authority and query, and its artifacts by
    authority and digest. -/
structure SteadyRegistry (r : RegistryResolver) where
  stubs : CallContext → RegistrySearchQuery → List (RegistrySearchStub r.nfkc)
  artifact : CallContext → Text → RegistryArtifact r.hashing.writer
  stubs_eq : ∀ {context context' query query'}, SameAuthority context context' →
    SameQuery query query' → stubs context query = stubs context' query'
  artifact_eq : ∀ {context context'} digest, SameAuthority context context' →
    artifact context digest = artifact context' digest

section
variable {r : RegistryResolver} (registry : SteadyRegistry r) (call : ResolveCall r.nfkc)

/-- What `resolve` returns or raises when it asks the registry for everything. -/
def direct : Outcome r :=
  let stubs := registry.stubs call.context call.query
  match r.keyOf call with
  | none => .error .valueError
  | some _ =>
    if call.query.limit < stubs.length then .error .valueError
    else
      match choose call.query call.policy stubs with
      | (explanations, none) => r.resolution .network none explanations
      | (explanations, some stub) =>
        match r.artifactKeyOf call stub.toStubFields with
        | none => .error .valueError
        | some key =>
          r.finish call ⟨stub, key, explanations, true⟩ (registry.artifact call.context stub.digest)
            .network

/-- An outcome, up to its source. -/
def Outcome.result (outcome : Outcome r) :
    Except ResolveError (Option (RegistryADKServer r.nfkc) × List RegistryCandidateExplanation) :=
  outcome.map fun resolution => (resolution.server, resolution.explanations)

/-- The registry answers a call as it always does, and the times of the calls are valid. -/
def Answers (phase : Phase r) : Action r → Prop
  | .searched (.ok stubs) => stubs = registry.stubs call.context call.query
  | .fetched (.ok artifact) => ∀ choice, phase = .fetching choice →
    artifact = registry.artifact call.context choice.stub.digest
  | .searched (.error _) | .fetched (.error _) => True
  | .getSearch now | .getArtifact now | .getStale now => ∃ t, validateTime now = .ok t
  | .putSearch now => ∃ t, validateTime (r.searchExpiry now) = .ok t
  | .putArtifact now => ∃ fresh stale, validateTime (r.freshUntil now) = .ok fresh ∧
    validateTime (r.staleUntil now) = .ok stale ∧ fresh ≤ stale

/-- The guard of a run with a registry that does not change. -/
def Steady (s : ResolverState r) : ResolverEvent r → Prop
  | .resolve _ _ => True
  | .act i action => ∀ call phase, s.calls.lookup i = some (call, phase) →
    Answers registry call phase action

/-- The registry has raised the exception for the call. -/
def Failed (h : List (ResolverEvent r)) (i : ℕ) (e : ResolveError) : Prop :=
  .act i (.searched (.error e)) ∈ h ∨ .act i (.fetched (.error e)) ∈ h

/-- A call that goes on with the choice, and with the artifact of the registry, ends as the
    direct one. -/
structure Follows (choice : Choice r) : Prop where
  key : r.artifactKeyOf call choice.stub.toStubFields = some choice.key
  result : Outcome.result (r.finish call choice
      (registry.artifact call.context choice.stub.digest) .network) =
    Outcome.result (direct registry call)

/-- A call is where the direct one is, too. -/
def Phase.Agrees (h : List (ResolverEvent r)) (i : ℕ) : Phase r → Prop
  | .looking key | .searching key => r.keyOf call = some key
  | .storing key stubs => r.keyOf call = some key ∧
    stubs = registry.stubs call.context call.query ∧ stubs.length ≤ call.query.limit
  | .reading choice | .fetching choice => Follows registry call choice
  | .falling choice => Follows registry call choice ∧ Failed h i .unavailable
  | .keeping choice artifact => Follows registry call choice ∧
    artifact = registry.artifact call.context choice.stub.digest ∧
      r.verify call choice.stub artifact = .ok ()
  | .ended outcome => Outcome.result outcome = Outcome.result (direct registry call) ∨
    ∃ e, outcome = .error e ∧ Failed h i e

end

section
variable {r : RegistryResolver} {registry : SteadyRegistry r} {call : ResolveCall r.nfkc}
  {h : List (ResolverEvent r)} {i : ℕ}

theorem Failed.mono {e : ResolveError} (event : ResolverEvent r) (hf : Failed h i e) :
    Failed (event :: h) i e :=
  hf.imp (.tail _) (.tail _)

theorem Phase.Agrees.mono (event : ResolverEvent r) {phase : Phase r}
    (hp : phase.Agrees registry call h i) : phase.Agrees registry call (event :: h) i := by
  cases phase with
  | looking key => exact hp
  | searching key => exact hp
  | storing key stubs => exact hp
  | reading choice => exact hp
  | fetching choice => exact hp
  | falling choice => exact ⟨hp.1, hp.2.mono event⟩
  | keeping choice artifact => exact hp
  | ended outcome => exact hp.imp_right fun ⟨e, he, hf⟩ => ⟨e, he, hf.mono event⟩

/-! ## Outcomes up to the source -/

theorem result_resolution (source source' : RegistryResolutionSource)
    (server : Option (RegistryADKServer r.nfkc)) (explanations : List RegistryCandidateExplanation) :
    Outcome.result (r.resolution source server explanations) =
      Outcome.result (r.resolution source' server explanations) := by
  rw [RegistryResolver.resolution, RegistryResolver.resolution]
  split_ifs
  · rfl
  · rfl

theorem result_complete (source source' : RegistryResolutionSource) (choice : Choice r)
    (artifact : RegistryArtifact r.hashing.writer) :
    Outcome.result (r.complete call choice artifact source) =
      Outcome.result (r.complete call choice artifact source') := by
  rw [RegistryResolver.complete, RegistryResolver.complete]
  cases r.project artifact call.policy call.context.scopes with
  | ok server => exact result_resolution ..
  | error e =>
    cases e with
    | rejected reason => exact result_resolution ..
    | raised => rfl

theorem result_finish (source source' : RegistryResolutionSource) (choice : Choice r)
    (artifact : RegistryArtifact r.hashing.writer) :
    Outcome.result (r.finish call choice artifact source) =
      Outcome.result (r.finish call choice artifact source') := by
  rw [RegistryResolver.finish, RegistryResolver.finish]
  cases r.verify call choice.stub artifact with
  | error e => rfl
  | ok _ => exact result_complete ..

/-- A verified artifact is projected at the end. -/
theorem finish_of_verified {choice : Choice r} {artifact : RegistryArtifact r.hashing.writer}
    {source : RegistryResolutionSource} (hv : r.verify call choice.stub artifact = .ok ()) :
    r.finish call choice artifact source = r.complete call choice artifact source := by
  rw [RegistryResolver.finish, hv]
  rfl

/-! ## The steps of a call -/

theorem agrees_start : (r.start call).Agrees registry call h i := by
  rw [RegistryResolver.start]
  cases hkey : r.keyOf call with
  | none =>
    refine .inl ?_
    rw [direct, hkey]
  | some key =>
    dsimp only
    split_ifs
    · exact hkey
    · exact hkey

/-- The stubs of the registry are considered as by the direct call. -/
theorem agrees_consider {key : RegistrySearchCacheKey} {network : Bool}
    (hkey : r.keyOf call = some key) :
    (r.consider call (registry.stubs call.context call.query) network).Agrees registry call h i := by
  -- The direct call considers the same stubs, so that both take the same
  -- branches.
  have hdirect := direct.eq_1 registry call
  rw [hkey] at hdirect
  dsimp only at hdirect
  rw [RegistryResolver.consider]
  by_cases hlimit : call.query.limit < (registry.stubs call.context call.query).length
  · rw [if_pos hlimit] at hdirect ⊢
    exact .inl (congrArg _ hdirect.symm)
  · rw [if_neg hlimit] at hdirect ⊢
    cases hchoose : choose call.query call.policy (registry.stubs call.context call.query) with
    | mk explanations selected =>
      rw [hchoose] at hdirect
      cases selected with
      | none =>
        refine .inl ?_
        rw [hdirect]
        exact result_resolution ..
      | some stub =>
        dsimp only at hdirect ⊢
        cases hartifact : r.artifactKeyOf call stub.toStubFields with
        | none =>
          rw [hartifact] at hdirect
          exact .inl (congrArg _ hdirect.symm)
        | some artifactKey =>
          rw [hartifact] at hdirect
          have hfollows : Follows registry call ⟨stub, artifactKey, explanations, network⟩ :=
            ⟨hartifact, congrArg _ hdirect.symm⟩
          dsimp only
          split_ifs
          · exact hfollows
          · exact hfollows

/-- An artifact of the registry is verified and projected as by the direct call. -/
theorem agrees_finish {choice : Choice r} {source : RegistryResolutionSource}
    (hf : Follows registry call choice) :
    (Phase.ended (r.finish call choice (registry.artifact call.context choice.stub.digest)
      source)).Agrees registry call h i :=
  .inl ((result_finish ..).trans hf.result)

variable (registry h) in
/-- The cache holds what the registry answers the calls with the keys. -/
def CacheAgrees (cache : ResolverCache r) : Prop :=
  cache.Holds
    (fun key entry => ∃ j other, .resolve j other ∈ h ∧ r.keyOf other = some key ∧
      entry.stubs = registry.stubs other.context other.query)
    fun key entry => ∃ j other stub, .resolve j other ∈ h ∧ r.artifactKeyOf other stub = some key ∧
      entry.artifact = registry.artifact other.context stub.digest

section
variable {cache : ResolverCache r}

theorem CacheAgrees.mono (event : ResolverEvent r) (hcache : CacheAgrees registry h cache) :
    CacheAgrees registry (event :: h) cache :=
  InMemoryRegistryCache.Holds.mono hcache
    (fun _ _ ⟨j, other, hresolve, hkey, hstubs⟩ => ⟨j, other, .tail _ hresolve, hkey, hstubs⟩)
    fun _ _ ⟨j, other, stub, hresolve, hkey, hartifact⟩ =>
      ⟨j, other, stub, .tail _ hresolve, hkey, hartifact⟩

/-- The stubs that the cache holds for a call are those of the registry, as they were answered
    to a call of the same authority with the same query. -/
theorem CacheAgrees.stubs_eq (hcache : CacheAgrees registry h cache)
    (hseparate : Separate r h call) {key : RegistrySearchCacheKey}
    (hkey : r.keyOf call = some key) {entry : SearchCacheEntry (RegistrySearchStub r.nfkc)}
    (hmem : (key, entry) ∈ cache.search.entries) :
    entry.stubs = registry.stubs call.context call.query := by
  obtain ⟨j, other, hresolve, hkey', hstubs⟩ := hcache.search key entry hmem
  obtain ⟨hidentity, hquery⟩ := hseparate j other hresolve
  obtain ⟨hauthority, hsame⟩ := Projector.same_of_searchKey hkey' hkey hidentity hquery
  rw [hstubs, registry.stubs_eq hauthority hsame]

/-- So is the artifact that it holds for a stub. -/
theorem CacheAgrees.artifact_eq (hcache : CacheAgrees registry h cache)
    (hseparate : Separate r h call) {key : RegistryArtifactCacheKey} {stub : StubFields}
    (hkey : r.artifactKeyOf call stub = some key)
    {entry : ArtifactCacheEntry (RegistryArtifact r.hashing.writer)}
    (hmem : (key, entry) ∈ cache.artifacts.entries) :
    entry.artifact = registry.artifact call.context stub.digest := by
  obtain ⟨j, other, stub', hresolve, hkey', hartifact⟩ := hcache.artifacts key entry hmem
  have hauthority := Projector.sameAuthority_of_artifactKey hkey' hkey (hseparate j other hresolve).1
  have hdigest : stub'.digest = stub.digest :=
    (Projector.artifactKey_eq_some hkey').2.symm.trans (Projector.artifactKey_eq_some hkey).2
  rw [hartifact, hdigest, registry.artifact_eq _ hauthority]

theorem agrees_looking (hcache : CacheAgrees registry h cache) (hseparate : Separate r h call)
    {key : RegistrySearchCacheKey} {now : PyFloat}
    (hp : (Phase.looking key).Agrees registry call h i) (hnow : ∃ t, validateTime now = .ok t) :
    (r.afterLooking call key (cache.getSearch key now).1).Agrees registry call h i := by
  obtain ⟨t, ht⟩ := hnow
  cases hfound : (cache.getSearch key now).1 with
  | error e =>
    rw [InMemoryRegistryCache.getSearch_of_valid ht] at hfound
    cases hfound
  | ok found =>
    cases found with
    | none => exact hp
    | some stubs =>
      obtain ⟨entry, hmem, rfl, -⟩ := InMemoryRegistryCache.exists_of_getSearch hfound
      rw [hcache.stubs_eq hseparate hp hmem]
      exact agrees_consider hp

theorem agrees_reading (hcache : CacheAgrees registry h cache) (hseparate : Separate r h call)
    {choice : Choice r} {now : PyFloat} (hf : Follows registry call choice)
    (hnow : ∃ t, validateTime now = .ok t) :
    (r.afterReading call choice (cache.getArtifact choice.key now false).1).Agrees registry call h
      i := by
  obtain ⟨t, ht⟩ := hnow
  cases hfound : (cache.getArtifact choice.key now false).1 with
  | error e =>
    rw [InMemoryRegistryCache.getArtifact_of_valid ht] at hfound
    cases hfound
  | ok found =>
    cases found with
    | none => exact hf
    | some artifact =>
      obtain ⟨entry, hmem, rfl, -⟩ := InMemoryRegistryCache.exists_of_getArtifact hfound
      rw [hcache.artifact_eq hseparate hf.key hmem]
      exact agrees_finish hf

theorem agrees_falling (hcache : CacheAgrees registry h cache) (hseparate : Separate r h call)
    {choice : Choice r} {now : PyFloat} (hp : (Phase.falling choice).Agrees registry call h i)
    (hnow : ∃ t, validateTime now = .ok t) :
    (r.afterFalling call choice (cache.getArtifact choice.key now true).1).Agrees registry call h
      i := by
  obtain ⟨t, ht⟩ := hnow
  cases hfound : (cache.getArtifact choice.key now true).1 with
  | error e =>
    rw [InMemoryRegistryCache.getArtifact_of_valid ht] at hfound
    cases hfound
  | ok found =>
    cases found with
    | none =>
      -- The failure that the call fell back for is raised in the end.
      exact .inr ⟨.unavailable, rfl, hp.2⟩
    | some artifact =>
      obtain ⟨entry, hmem, rfl, -⟩ := InMemoryRegistryCache.exists_of_getArtifact hfound
      rw [hcache.artifact_eq hseparate hp.1.key hmem]
      exact agrees_finish hp.1

theorem agrees_storing {key : RegistrySearchCacheKey} {stubs : List (RegistrySearchStub r.nfkc)}
    {now : PyFloat} (hp : (Phase.storing key stubs).Agrees registry call h i)
    (hnow : ∃ t, validateTime (r.searchExpiry now) = .ok t) :
    (r.afterStoring call stubs (cache.putSearch r.bounds key stubs (r.searchExpiry now)).1).Agrees
      registry call h i := by
  obtain ⟨t, ht⟩ := hnow
  obtain ⟨hkey, rfl, hlimit⟩ := hp
  -- The stubs are not too many for the cache, as the limit of a query is not.
  have hshort := not_lt.2 (hlimit.trans call.query.limit_range.2)
  rw [InMemoryRegistryCache.putSearch, ht]
  dsimp only
  rw [if_neg hshort]
  exact agrees_consider hkey

theorem agrees_keeping {choice : Choice r} {artifact : RegistryArtifact r.hashing.writer}
    {now : PyFloat} (hp : (Phase.keeping choice artifact).Agrees registry call h i)
    (hnow : ∃ fresh stale, validateTime (r.freshUntil now) = .ok fresh ∧
      validateTime (r.staleUntil now) = .ok stale ∧ fresh ≤ stale) :
    (r.afterKeeping call choice artifact (cache.putArtifact r.bounds choice.key artifact
      (r.freshUntil now) (r.staleUntil now)).1).Agrees registry call h i := by
  obtain ⟨fresh, stale, hfresh, hstale, hle⟩ := hnow
  obtain ⟨hf, rfl, hverified⟩ := hp
  rw [InMemoryRegistryCache.putArtifact, hfresh, hstale]
  dsimp only
  rw [dif_pos hle]
  have hfinish : (Phase.ended (r.finish call choice
      (registry.artifact call.context choice.stub.digest) .network)).Agrees registry call h i :=
    agrees_finish hf
  rwa [finish_of_verified hverified] at hfinish

end

theorem agrees_searching {key : RegistrySearchCacheKey}
    {answer : Except ResolveError (List (RegistrySearchStub r.nfkc))}
    (hp : (Phase.searching key).Agrees registry call h i)
    (hanswer : Answers registry call (.searching key) (.searched answer)) :
    (r.afterSearching call key answer).Agrees registry call (.act i (.searched answer) :: h) i := by
  cases answer with
  | error e => exact .inr ⟨e, rfl, .inl (.head _)⟩
  | ok stubs =>
    rw [Answers] at hanswer
    subst hanswer
    have hconsider : (r.consider call (registry.stubs call.context call.query) true).Agrees registry
        call (.act i (.searched (.ok (registry.stubs call.context call.query))) :: h) i :=
      agrees_consider hp
    rw [RegistryResolver.afterSearching]
    split_ifs with hlimit
    · rw [RegistryResolver.consider, if_pos hlimit] at hconsider
      exact hconsider
    · exact ⟨hp, rfl, not_lt.1 hlimit⟩
    · exact hconsider

theorem agrees_fetching {choice : Choice r}
    {answer : Except ResolveError (RegistryArtifact r.hashing.writer)}
    (hf : Follows registry call choice)
    (hanswer : Answers registry call (.fetching choice) (.fetched answer)) :
    (r.afterFetching call choice answer).Agrees registry call (.act i (.fetched answer) :: h) i := by
  cases answer with
  | error e =>
    rw [RegistryResolver.afterFetching]
    -- The registry has raised for this call, which falls back or fails.
    split_ifs with hfall
    · obtain ⟨rfl, -⟩ := hfall
      exact ⟨hf, .inr (.head _)⟩
    · exact .inr ⟨e, rfl, .inr (.head _)⟩
  | ok artifact =>
    obtain rfl := hanswer choice rfl
    have hfinish : (Phase.ended (r.finish call choice
        (registry.artifact call.context choice.stub.digest) .network)).Agrees registry call
        (.act i (.fetched (.ok (registry.artifact call.context choice.stub.digest))) :: h) i :=
      agrees_finish hf
    rw [RegistryResolver.afterFetching]
    cases hv : r.verify call choice.stub (registry.artifact call.context choice.stub.digest) with
    | error e =>
      rw [RegistryResolver.finish, hv] at hfinish
      exact hfinish
    | ok _ =>
      dsimp only
      split_ifs
      · exact ⟨hf, rfl, hv⟩
      · rwa [finish_of_verified hv] at hfinish

/-- What a step of a call makes of the call and of the cache. -/
theorem agrees_act {cache cache' : ResolverCache r} {phase phase' : Phase r} {action : Action r}
    (hresolve : .resolve i call ∈ h) (hseparate : Separate r h call)
    (hcache : CacheAgrees registry h cache) (hp : phase.Agrees registry call h i)
    (hanswer : Answers registry call phase action)
    (hact : r.act call cache phase action = some (phase', cache')) :
    phase'.Agrees registry call (.act i action :: h) i ∧
      CacheAgrees registry (.act i action :: h) cache' := by
  have hp' := hp.mono (.act i action)
  have hcache' := hcache.mono (.act i action)
  have hresolve' := hresolve.tail (.act i action)
  -- The cases are the phases with the actions that fit them, in the order of
  -- `act`; the guard is used where the registry or the clock answers.
  unfold RegistryResolver.act at hact
  split at hact
  · obtain ⟨rfl, rfl⟩ := Prod.mk.inj (Option.some.inj hact)
    exact ⟨(agrees_looking hcache hseparate hp hanswer).mono _, hcache'.getSearch _ _⟩
  · obtain ⟨rfl, rfl⟩ := Prod.mk.inj (Option.some.inj hact)
    exact ⟨agrees_searching hp hanswer, hcache'⟩
  · obtain ⟨rfl, rfl⟩ := Prod.mk.inj (Option.some.inj hact)
    exact ⟨agrees_storing hp' hanswer, hcache'.putSearch ⟨i, call, hresolve', hp.1, hp.2.1⟩⟩
  · obtain ⟨rfl, rfl⟩ := Prod.mk.inj (Option.some.inj hact)
    exact ⟨(agrees_reading hcache hseparate hp hanswer).mono _, hcache'.getArtifact _ _ _⟩
  · obtain ⟨rfl, rfl⟩ := Prod.mk.inj (Option.some.inj hact)
    exact ⟨agrees_fetching hp hanswer, hcache'⟩
  · obtain ⟨rfl, rfl⟩ := Prod.mk.inj (Option.some.inj hact)
    exact ⟨(agrees_falling hcache hseparate hp hanswer).mono _, hcache'.getArtifact _ _ _⟩
  · obtain ⟨rfl, rfl⟩ := Prod.mk.inj (Option.some.inj hact)
    exact ⟨agrees_keeping hp' hanswer,
      hcache'.putArtifact fun _ => ⟨i, call, _, hresolve', hp.1.key, hp.2.1⟩⟩
  · cases hact

/-! ## Runs -/

variable (r h) in
/-- The documents of no two calls collide. -/
def Separated : Prop := ∀ i call, .resolve i call ∈ h → Separate r h call

theorem Separated.tail {event : ResolverEvent r} (hs : Separated r (event :: h)) : Separated r h :=
  fun i call hcall j other hother => hs i call (.tail _ hcall) j other (.tail _ hother)

/-- What holds of a resolver with a registry that does not change. -/
structure StateAgrees (registry : SteadyRegistry r) (h : List (ResolverEvent r))
    (s : ResolverState r) : Prop where
  calls : ∀ i call phase, s.calls.lookup i = some (call, phase) →
    .resolve i call ∈ h ∧ phase.Agrees registry call h i
  cache : CacheAgrees registry h s.cache

/-- The calls agree, when the one that an event is of does. -/
theorem StateAgrees.insert {s : ResolverState r} (hs : StateAgrees registry h s)
    (event : ResolverEvent r) {phase : Phase r} {cache : ResolverCache r}
    (hresolve : .resolve i call ∈ event :: h) (hp : phase.Agrees registry call (event :: h) i)
    (hcache : CacheAgrees registry (event :: h) cache) :
    StateAgrees registry (event :: h) ⟨cache, s.calls.insert i (call, phase)⟩ := by
  refine ⟨fun j other phase' hj => ?_, hcache⟩
  rw [Dict.lookup_insert] at hj
  split_ifs at hj with hji
  · cases hj
    subst hji
    exact ⟨hresolve, hp⟩
  · obtain ⟨hmem, hother⟩ := hs.calls j other phase' hj
    exact ⟨.tail _ hmem, hother.mono event⟩

theorem agrees_run {s : ResolverState r} (hr : (resolver r).Run (Steady registry) h s)
    (hseparated : Separated r h) : StateAgrees registry h s := by
  refine hr.history_invariant (I := fun h s => Separated r h → StateAgrees registry h s) ?_
    (fun h s e s' hs hsteady hstep hseparated => ?_) hseparated
  · exact fun _ => ⟨fun i call phase hi => (by cases hi),
      fun key entry hmem => absurd hmem List.not_mem_nil,
      fun key entry hmem => absurd hmem List.not_mem_nil⟩
  · have hs := hs hseparated.tail
    cases e with
    | resolve i call =>
      rw [resolver] at hstep
      dsimp only at hstep
      split_ifs at hstep with hi
      cases hstep
      exact hs.insert _ (.head _) agrees_start (hs.cache.mono _)
    | act i action =>
      obtain ⟨⟨call, phase⟩, hi, hstep⟩ := Option.bind_eq_some_iff.1 hstep
      obtain ⟨⟨phase', cache⟩, hact, hstep⟩ := Option.bind_eq_some_iff.1 hstep
      cases hstep
      obtain ⟨hresolve, hp⟩ := hs.calls i call phase hi
      obtain ⟨hphase, hcache⟩ := agrees_act hresolve (hseparated.tail i call hresolve) hs.cache hp
        (hsteady call phase hi) hact
      exact hs.insert _ (.tail _ hresolve) hphase hcache

/-- With a registry that does not change, and valid times, a call returns or raises what it
    would if it asked the registry for everything, unless the registry has raised for it. -/
theorem resolver_transparent {s : ResolverState r} (hr : (resolver r).Run (Steady registry) h s)
    (hseparated : Separated r h) {outcome : Outcome r}
    (hi : s.calls.lookup i = some (call, .ended outcome)) :
    Outcome.result outcome = Outcome.result (direct registry call) ∨
      ∃ e, outcome = .error e ∧ Failed h i e :=
  ((agrees_run hr hseparated).calls i call _ hi).2

/-- A registry that shows the server to the tenant of Alice only. -/
def notesRegistry : SteadyRegistry exampleResolver where
  stubs context _ :=
    if context.tenant = aliceCall.tenant then [agentStub, serverStub] else [agentStub]
  artifact _ _ := notesArtifact
  stubs_eq hauthority _ := by rw [hauthority.tenant]
  artifact_eq _ _ := rfl

/-- The calls of the example have the answers of the registry, at valid times. -/
theorem steady_exampleEvents {s : ResolverState exampleResolver}
    (hr : (resolver exampleResolver).Run Machine.Free exampleEvents.reverse s) :
    (resolver exampleResolver).Run (Steady notesRegistry) exampleEvents.reverse s := by
  have hzero : ∃ t, validateTime (.finite 0) = .ok t := ⟨0, by decide +kernel⟩
  have htwo : ∃ t, validateTime (.finite 2) = .ok t := ⟨2, by decide +kernel⟩
  have hput : ∃ t, validateTime (exampleResolver.searchExpiry (.finite 0)) = .ok t :=
    ⟨30, by decide +kernel⟩
  have hput' : ∃ t, validateTime (exampleResolver.searchExpiry (.finite 1)) = .ok t :=
    ⟨31, by decide +kernel⟩
  have hkept : ∃ fresh stale, validateTime (exampleResolver.freshUntil (.finite 1)) = .ok fresh ∧
      validateTime (exampleResolver.staleUntil (.finite 1)) = .ok stale ∧ fresh ≤ stale :=
    ⟨61, 61, by decide +kernel, by decide +kernel, le_rfl⟩
  refine hr.strengthen fun h s e hsuffix hr' => ?_
  -- The call of an event is the one that has started under its number.
  have hcall {i : ℕ} {call : ResolveCall exampleResolver.nfkc} {phase : Phase exampleResolver}
      (hi : s.calls.lookup i = some (call, phase)) :
      i ≠ 1 ∧ call = callFor aliceCall ∨ i = 1 ∧ call = callFor bobCall :=
    call_of_mem (hsuffix.subset (.tail _ ((holds_run hr').calls i call phase hi).1))
  have hmem : e ∈ exampleEvents := List.mem_reverse.1 (hsuffix.subset (.head _))
  simp only [exampleEvents, List.mem_cons, List.not_mem_nil, or_false] at hmem
  rcases hmem with rfl | rfl | rfl | rfl | rfl | rfl | rfl | rfl | rfl | rfl | rfl | rfl | rfl | rfl
  · trivial
  · exact fun _ _ _ => hzero
  · trivial
  · exact fun _ _ _ => hzero
  · intro call phase hi
    obtain ⟨-, rfl⟩ := (hcall hi).resolve_right fun h => absurd h.1 (by decide)
    rfl
  · exact fun _ _ _ => hput
  · exact fun _ _ _ => hzero
  · intro call phase hi
    obtain ⟨-, rfl⟩ := (hcall hi).resolve_left fun h => h.1 rfl
    rfl
  · exact fun _ _ _ => hput'
  · exact fun _ _ _ _ _ => rfl
  · exact fun _ _ _ => hkept
  · trivial
  · exact fun _ _ _ => htwo
  · exact fun _ _ _ => htwo

/-- The last call returns from the cache what it would from the registry. -/
theorem resolver_transparent_example :
    ∃ (s : ResolverState exampleResolver) (resolution : RegistryResolution exampleResolver.nfkc),
      s.calls.lookup 2 = some (callFor aliceCall, .ended (.ok resolution)) ∧
        resolution.source = .cache ∧ (∃ server, resolution.server = some server) ∧
        Outcome.result (r := exampleResolver) (.ok resolution) =
          Outcome.result (direct notesRegistry (callFor aliceCall)) := by
  obtain ⟨s, resolution, hexec, hi, hsource, hserver⟩ := exampleEvents_fromCache
  have hr := steady_exampleEvents (Machine.run_of_exec hexec (Machine.meets_free _ _))
  refine ⟨s, resolution, hi, hsource, hserver, ?_⟩
  rcases resolver_transparent hr (fun _ _ => separate_exampleEvents) hi with hresult | ⟨e, he, -⟩
  · exact hresult
  · cases he

end

end Registry

end McpRuntime
