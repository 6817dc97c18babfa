import McpRuntime.Registry.Resolution

/-!
# Runs of a resolver

What a call uses is found in the history of a run: the stubs and the artifact were answered to
the call itself, or to another one that put them into the cache.

* `holds_run`: what holds of every call, by where it is, and of the cache.
* `resolver_concludes`: a call that returns a server has projected the artifact of the first
  stub that it could choose.
* `resolver_isolates`: what a call uses was given to a caller of the same authority, and is
  used within its lifetime.
-/

namespace McpRuntime

namespace Registry

/-! ## Where stubs and artifacts come from -/

section
variable (r : RegistryResolver) (h : List (ResolverEvent r)) (i : ℕ)

/-- Some call searched under the key, was answered with the stubs, and put them into the cache
    at the time. -/
def StubsPut (key : RegistrySearchCacheKey) (stubs : List (RegistrySearchStub r.nfkc))
    (t : PyFloat) : Prop :=
  ∃ j call, .resolve j call ∈ h ∧ r.keyOf call = some key ∧
    .act j (.searched (.ok stubs)) ∈ h ∧ .act j (.putSearch t) ∈ h

/-- Some call fetched the artifact under the key, and put it into the cache at the time. -/
def ArtifactPut (key : RegistryArtifactCacheKey) (artifact : RegistryArtifact r.hashing.writer)
    (t : PyFloat) : Prop :=
  ∃ j call stub, .resolve j call ∈ h ∧ r.artifactKeyOf call stub = some key ∧
    .act j (.fetched (.ok artifact)) ∈ h ∧ .act j (.putArtifact t) ∈ h

/-- The call was answered by the registry. -/
def UsedNetwork : Prop :=
  ∃ action : Action r, .act i action ∈ h ∧ action.isAnswer

/-- The stubs of a call are those that it was answered with, or that the cache held for its key
    within their lifetime. -/
def Searched (key : RegistrySearchCacheKey) (stubs : List (RegistrySearchStub r.nfkc)) : Prop :=
  .act i (.searched (.ok stubs)) ∈ h ∨
    ∃ h' now t, (.act i (.getSearch now) :: h') <:+ h ∧ StubsPut r h' key stubs t ∧
      now.toRat < (r.searchExpiry t).toRat

/-- The cache held the artifact for the key, and it was fresh. -/
def Fresh (key : RegistryArtifactCacheKey) (artifact : RegistryArtifact r.hashing.writer) : Prop :=
  ∃ h' now t, (.act i (.getArtifact now) :: h') <:+ h ∧ ArtifactPut r h' key artifact t ∧
    now.toRat < (r.freshUntil t).toRat

/-- The registry was unavailable, which the policy allows for, and the cache held the artifact
    for the key, which was not stale. -/
def NotStale (key : RegistryArtifactCacheKey) (artifact : RegistryArtifact r.hashing.writer) : Prop :=
  r.cachePolicy.AllowsOffline ∧ ∃ h' now t, (.act i (.getStale now) :: h') <:+ h ∧
    .act i (.fetched (.error .unavailable)) ∈ h' ∧
    ArtifactPut r h' key artifact t ∧ now.toRat < (r.staleUntil t).toRat

/-- How a call has got an artifact, by the source that it gives. -/
def Obtained (key : RegistryArtifactCacheKey) (artifact : RegistryArtifact r.hashing.writer) :
    RegistryResolutionSource → Prop
  | .cache => Fresh r h i key artifact ∧ ¬UsedNetwork r h i
  | .network => (.act i (.fetched (.ok artifact)) ∈ h ∨ Fresh r h i key artifact) ∧ UsedNetwork r h i
  | .offline => NotStale r h i key artifact

variable (call : ResolveCall r.nfkc)

/-- The stub of a choice is the first of the stubs of the call that it can choose. -/
structure Leads (choice : Choice r) : Prop where
  stubs : ∃ key before after, r.keyOf call = some key ∧
    Searched r h i key (before ++ choice.stub :: after) ∧
    (before ++ choice.stub :: after).length ≤ call.query.limit ∧
    stubReasons call.query call.policy choice.stub.toStubFields = [] ∧
    before.Forall₂ (Rejects call.query call.policy) choice.rejected
  key : r.artifactKeyOf call choice.stub.toStubFields = some choice.key

/-- The artifact is the one of the stub, and its content has its digest. -/
structure Verified (stub : RegistrySearchStub r.nfkc) (artifact : RegistryArtifact r.hashing.writer) :
    Prop where
  same : RegistryResolver.SameArtifact stub.toStubFields artifact.toArtifactFields
  digest : artifact.digest = stub.digest
  computed : artifact.computedDigest = some artifact.digest

/-- No stub can be chosen. -/
structure Unmatched (resolution : RegistryResolution r.nfkc) : Prop where
  server : resolution.server = none
  stubs : ∃ key stubs, r.keyOf call = some key ∧ Searched r h i key stubs ∧
    stubs.length ≤ call.query.limit ∧
    stubs.Forall₂ (Rejects call.query call.policy) resolution.explanations
  source : (resolution.source = .network ∧ UsedNetwork r h i) ∨
    (resolution.source = .cache ∧ ¬UsedNetwork r h i)

/-- The artifact of the stub that is chosen has been projected, or rejected for a reason. -/
structure Matched (choice : Choice r) (artifact : RegistryArtifact r.hashing.writer)
    (resolution : RegistryResolution r.nfkc) : Prop where
  leads : Leads r h i call choice
  verified : Verified r choice.stub artifact
  obtained : Obtained r h i choice.key artifact resolution.source
  result :
    (∃ server, r.project artifact call.policy call.context.scopes = .ok server ∧
      resolution.server = some server ∧
      resolution.explanations = choice.rejected ++ [selection choice.stub]) ∨
    ∃ reason, r.project artifact call.policy call.context.scopes = .error (.rejected reason) ∧
      resolution.server = none ∧
      ∃ explanation, resolution.explanations = choice.rejected ++ [explanation] ∧
        explanation.ref = choice.stub.ref ∧ explanation.reasons = [.projection reason]

/-- What holds of a call, by where it is. -/
def Phase.Holds : Phase r → Prop
  | .looking key | .searching key => r.keyOf call = some key ∧ ¬UsedNetwork r h i
  | .storing key stubs => r.keyOf call = some key ∧ .act i (.searched (.ok stubs)) ∈ h
  | .reading choice | .fetching choice =>
    Leads r h i call choice ∧ (choice.network = true ↔ UsedNetwork r h i)
  | .falling choice => Leads r h i call choice ∧ .act i (.fetched (.error .unavailable)) ∈ h ∧
    r.cachePolicy.AllowsOffline
  | .keeping choice artifact =>
    Leads r h i call choice ∧ .act i (.fetched (.ok artifact)) ∈ h ∧ Verified r choice.stub artifact
  | .ended (.ok resolution) => Unmatched r h i call resolution ∨
    ∃ choice artifact, Matched r h i call choice artifact resolution
  | .ended (.error _) => True

end

/-! ## What the steps keep -/

section
variable {r : RegistryResolver} {h h' : List (ResolverEvent r)} {i : ℕ} {e : ResolverEvent r}
  {call : ResolveCall r.nfkc}

theorem StubsPut.mono {key : RegistrySearchCacheKey} {stubs : List (RegistrySearchStub r.nfkc)}
    {t : PyFloat} (hput : StubsPut r h key stubs t) : StubsPut r (e :: h) key stubs t := by
  obtain ⟨j, other, hresolve, hkey, hsearched, hput⟩ := hput
  exact ⟨j, other, .tail _ hresolve, hkey, .tail _ hsearched, .tail _ hput⟩

theorem ArtifactPut.mono {key : RegistryArtifactCacheKey}
    {artifact : RegistryArtifact r.hashing.writer} {t : PyFloat}
    (hput : ArtifactPut r h key artifact t) : ArtifactPut r (e :: h) key artifact t := by
  obtain ⟨j, other, stub, hresolve, hkey, hfetched, hput⟩ := hput
  exact ⟨j, other, stub, .tail _ hresolve, hkey, .tail _ hfetched, .tail _ hput⟩

theorem Searched.mono {key : RegistrySearchCacheKey} {stubs : List (RegistrySearchStub r.nfkc)}
    (hs : Searched r h i key stubs) : Searched r (e :: h) i key stubs := by
  rcases hs with hown | ⟨h', now, t, hsuffix, hrest⟩
  · exact .inl (.tail _ hown)
  · exact .inr ⟨h', now, t, hsuffix.trans (List.suffix_cons _ _), hrest⟩

theorem Fresh.mono {key : RegistryArtifactCacheKey} {artifact : RegistryArtifact r.hashing.writer}
    (hf : Fresh r h i key artifact) : Fresh r (e :: h) i key artifact := by
  obtain ⟨h', now, t, hsuffix, hrest⟩ := hf
  exact ⟨h', now, t, hsuffix.trans (List.suffix_cons _ _), hrest⟩

theorem NotStale.mono {key : RegistryArtifactCacheKey}
    {artifact : RegistryArtifact r.hashing.writer} (hn : NotStale r h i key artifact) :
    NotStale r (e :: h) i key artifact := by
  obtain ⟨hallows, h', now, t, hsuffix, hrest⟩ := hn
  exact ⟨hallows, h', now, t, hsuffix.trans (List.suffix_cons _ _), hrest⟩

theorem Leads.mono {choice : Choice r} (hl : Leads r h i call choice) :
    Leads r (e :: h) i call choice := by
  obtain ⟨⟨key, before, after, hkey, hsearched, hrest⟩, hartifact⟩ := hl
  exact ⟨⟨key, before, after, hkey, hsearched.mono, hrest⟩, hartifact⟩

/-- The event is not an answer of the registry to the call. -/
def Silent (i : ℕ) (e : ResolverEvent r) : Prop :=
  ∀ action : Action r, e = .act i action → action.isAnswer = false

theorem usedNetwork_cons (he : Silent i e) : UsedNetwork r (e :: h) i ↔ UsedNetwork r h i := by
  constructor
  · rintro ⟨action, hmem, hnetwork⟩
    rcases List.mem_cons.1 hmem with rfl | hmem
    · rw [he action rfl] at hnetwork
      cases hnetwork
    · exact ⟨action, hmem, hnetwork⟩
  · rintro ⟨action, hmem, hnetwork⟩
    exact ⟨action, .tail _ hmem, hnetwork⟩

theorem Obtained.mono {key : RegistryArtifactCacheKey}
    {artifact : RegistryArtifact r.hashing.writer} {source : RegistryResolutionSource}
    (he : Silent i e) (ho : Obtained r h i key artifact source) :
    Obtained r (e :: h) i key artifact source := by
  cases source with
  | cache => exact ⟨ho.1.mono, (usedNetwork_cons he).not.2 ho.2⟩
  | network => exact ⟨ho.1.imp (.tail _) Fresh.mono, (usedNetwork_cons he).2 ho.2⟩
  | offline => exact NotStale.mono ho

/-- What holds of a call, holds after an event that does not answer it. -/
theorem Phase.Holds.mono (he : Silent i e) {phase : Phase r} (hp : phase.Holds r h i call) :
    phase.Holds r (e :: h) i call := by
  cases phase with
  | looking key => exact ⟨hp.1, (usedNetwork_cons he).not.2 hp.2⟩
  | searching key => exact ⟨hp.1, (usedNetwork_cons he).not.2 hp.2⟩
  | storing key stubs => exact ⟨hp.1, .tail _ hp.2⟩
  | reading choice => exact ⟨hp.1.mono, hp.2.trans (usedNetwork_cons he).symm⟩
  | fetching choice => exact ⟨hp.1.mono, hp.2.trans (usedNetwork_cons he).symm⟩
  | falling choice => exact ⟨hp.1.mono, .tail _ hp.2.1, hp.2.2⟩
  | keeping choice artifact => exact ⟨hp.1.mono, .tail _ hp.2.1, hp.2.2⟩
  | ended outcome =>
    cases outcome with
    | error e => trivial
    | ok resolution =>
      rcases hp with ⟨hserver, ⟨key, stubs, hkey, hsearched, hrest⟩, hsource⟩ |
        ⟨choice, artifact, hleads, hverified, hobtained, hresult⟩
      · refine .inl ⟨hserver, ⟨key, stubs, hkey, hsearched.mono, hrest⟩, ?_⟩
        rwa [usedNetwork_cons he]
      · exact .inr ⟨choice, artifact, hleads.mono, hverified, hobtained.mono he, hresult⟩

theorem silent_act {action : Action r} (ha : action.isAnswer = false) :
    Silent i (.act i action) := by
  intro action' h
  cases h
  exact ha

theorem verify_eq_ok {stub : RegistrySearchStub r.nfkc}
    {artifact : RegistryArtifact r.hashing.writer} (hv : r.verify call stub artifact = .ok ()) :
    Verified r stub artifact := by
  rw [RegistryResolver.verify] at hv
  obtain ⟨hsame, hv⟩ := check_eq_ok.1 hv
  obtain ⟨hdigest, hv⟩ := check_eq_ok.1 hv
  cases hcomputed : artifact.computedDigest with
  | none =>
    rw [hcomputed] at hv
    cases hv
  | some digest =>
    rw [hcomputed] at hv
    obtain ⟨heq, -⟩ := check_eq_ok.1 hv
    rw [not_not] at hsame hdigest heq
    exact ⟨hsame, hdigest, hcomputed.trans (congrArg some heq)⟩

theorem resolution_eq_ok {source : RegistryResolutionSource}
    {server : Option (RegistryADKServer r.nfkc)} {explanations : List RegistryCandidateExplanation}
    {resolution : RegistryResolution r.nfkc}
    (hr : r.resolution source server explanations = .ok resolution) :
    resolution.source = source ∧ resolution.server = server ∧
      resolution.explanations = explanations := by
  rw [RegistryResolver.resolution] at hr
  split_ifs at hr
  cases hr
  exact ⟨rfl, rfl, rfl⟩

/-- A call that completes with a verified artifact holds what it has to. -/
theorem holds_complete {choice : Choice r} {artifact : RegistryArtifact r.hashing.writer}
    {source : RegistryResolutionSource} (hleads : Leads r h i call choice)
    (hverified : Verified r choice.stub artifact)
    (hobtained : Obtained r h i choice.key artifact source) :
    (Phase.ended (r.complete call choice artifact source)).Holds r h i call := by
  cases hc : r.complete call choice artifact source with
  | error e => trivial
  | ok resolution =>
    refine .inr ⟨choice, artifact, ?_⟩
    rw [RegistryResolver.complete] at hc
    cases hp : r.project artifact call.policy call.context.scopes with
    | ok server =>
      rw [hp] at hc
      obtain ⟨rfl, hserver, hexplanations⟩ := resolution_eq_ok hc
      exact ⟨hleads, hverified, hobtained, .inl ⟨server, hp, hserver, hexplanations⟩⟩
    | error e =>
      rw [hp] at hc
      cases e with
      | raised => cases hc
      | rejected reason =>
        obtain ⟨rfl, hserver, hexplanations⟩ := resolution_eq_ok hc
        exact ⟨hleads, hverified, hobtained,
          .inr ⟨reason, hp, hserver, _, hexplanations, rfl, rfl⟩⟩

theorem holds_finish {choice : Choice r} {artifact : RegistryArtifact r.hashing.writer}
    {source : RegistryResolutionSource} (hleads : Leads r h i call choice)
    (hobtained : Obtained r h i choice.key artifact source) :
    (Phase.ended (r.finish call choice artifact source)).Holds r h i call := by
  rw [RegistryResolver.finish]
  cases hv : r.verify call choice.stub artifact with
  | error e => trivial
  | ok _ => exact holds_complete hleads (verify_eq_ok hv) hobtained

/-- A call that chooses among stubs that it has searched holds what it has to. -/
theorem holds_consider {key : RegistrySearchCacheKey} {stubs : List (RegistrySearchStub r.nfkc)}
    {network : Bool} (hkey : r.keyOf call = some key) (hsearched : Searched r h i key stubs)
    (hnetwork : network = true ↔ UsedNetwork r h i) :
    (r.consider call stubs network).Holds r h i call := by
  rw [RegistryResolver.consider]
  by_cases hlimit : call.query.limit < stubs.length
  · rw [if_pos hlimit]
    trivial
  · rw [if_neg hlimit]
    cases hchoose : choose call.query call.policy stubs with
    | mk explanations selected =>
      cases selected with
      | none =>
        -- None of the stubs can be chosen, and the call ends without a match.
        dsimp only
        cases hr : r.resolution (RegistryResolver.sourceOf network) none explanations with
        | error e => trivial
        | ok resolution =>
          obtain ⟨hsource, hserver, rfl⟩ := resolution_eq_ok hr
          refine .inl ⟨hserver, ⟨key, stubs, hkey, hsearched, not_lt.1 hlimit,
            choose_eq_none hchoose⟩, ?_⟩
          rw [hsource, ← hnetwork]
          cases network with
          | true => exact .inl ⟨rfl, rfl⟩
          | false => exact .inr ⟨rfl, Bool.false_ne_true⟩
      | some stub =>
        dsimp only
        cases hartifact : r.artifactKeyOf call stub.toStubFields with
        | none => trivial
        | some artifactKey =>
          obtain ⟨before, after, rfl, hreasons, hbefore⟩ := choose_eq_some hchoose
          have hleads : Leads r h i call ⟨stub, artifactKey, explanations, network⟩ :=
            ⟨⟨key, before, after, hkey, hsearched, not_lt.1 hlimit, hreasons, hbefore⟩, hartifact⟩
          -- With a cache or without, the choice is the same.
          dsimp only
          split_ifs
          · exact ⟨hleads, hnetwork⟩
          · exact ⟨hleads, hnetwork⟩

theorem holds_start (hused : ¬UsedNetwork r h i) : (r.start call).Holds r h i call := by
  rw [RegistryResolver.start]
  cases hkey : r.keyOf call with
  | none => trivial
  | some key =>
    dsimp only
    split_ifs
    · exact ⟨hkey, hused⟩
    · exact ⟨hkey, hused⟩

variable (r h) in
/-- What the cache holds was put there by calls. -/
def CacheHolds (cache : ResolverCache r) : Prop :=
  cache.Holds
    (fun key entry => ∃ t, StubsPut r h key entry.stubs t ∧
      entry.expiresAt = (r.searchExpiry t).toRat)
    fun key entry => ∃ t, ArtifactPut r h key entry.artifact t ∧
      entry.freshUntil = (r.freshUntil t).toRat ∧ entry.staleUntil = (r.staleUntil t).toRat

theorem CacheHolds.mono {cache : ResolverCache r} (hc : CacheHolds r h cache) :
    CacheHolds r (e :: h) cache :=
  InMemoryRegistryCache.Holds.mono hc (fun _ _ ⟨t, hput, ht⟩ => ⟨t, hput.mono, ht⟩)
    fun _ _ ⟨t, hput, ht⟩ => ⟨t, hput.mono, ht⟩

/-! ## A step of a call -/

section
variable {cache : ResolverCache r} (hcache : CacheHolds r h cache)
include hcache

theorem holds_looking {key : RegistrySearchCacheKey} {now : PyFloat}
    (hp : (Phase.looking key).Holds r h i call) :
    (r.afterLooking call key (cache.getSearch key now).1).Holds r (.act i (.getSearch now) :: h) i
      call := by
  have hp := hp.mono (e := .act i (.getSearch now)) (silent_act rfl)
  cases hfound : (cache.getSearch key now).1 with
  | error e => trivial
  | ok found =>
    cases found with
    | none => exact hp
    | some stubs =>
      obtain ⟨entry, hmem, rfl, hbefore⟩ := InMemoryRegistryCache.exists_of_getSearch hfound
      obtain ⟨t, hput, ht⟩ := hcache.search key entry hmem
      rw [ht] at hbefore
      exact holds_consider hp.1 (.inr ⟨h, now, t, List.suffix_rfl, hput, hbefore⟩)
        (iff_of_false Bool.false_ne_true hp.2)

theorem holds_reading {choice : Choice r} {now : PyFloat}
    (hp : (Phase.reading choice).Holds r h i call) :
    (r.afterReading call choice (cache.getArtifact choice.key now false).1).Holds r
      (.act i (.getArtifact now) :: h) i call := by
  have hp := hp.mono (e := .act i (.getArtifact now)) (silent_act rfl)
  cases hfound : (cache.getArtifact choice.key now false).1 with
  | error e => trivial
  | ok found =>
    cases found with
    | none => exact hp
    | some artifact =>
      obtain ⟨entry, hmem, rfl, -, hfresh⟩ := InMemoryRegistryCache.exists_of_getArtifact hfound
      obtain ⟨t, hput, ht, -⟩ := hcache.artifacts choice.key entry hmem
      have hlease : Fresh r (.act i (.getArtifact now) :: h) i choice.key entry.artifact :=
        ⟨h, now, t, List.suffix_rfl, hput, ht ▸ hfresh rfl⟩
      refine holds_finish hp.1 ?_
      cases hnetwork : choice.network with
      | true => exact ⟨.inr hlease, hp.2.1 hnetwork⟩
      | false => exact ⟨hlease, fun hused => Bool.false_ne_true (hnetwork.symm.trans (hp.2.2 hused))⟩

theorem holds_falling {choice : Choice r} {now : PyFloat}
    (hp : (Phase.falling choice).Holds r h i call) :
    (r.afterFalling call choice (cache.getArtifact choice.key now true).1).Holds r
      (.act i (.getStale now) :: h) i call := by
  cases hfound : (cache.getArtifact choice.key now true).1 with
  | error e => trivial
  | ok found =>
    cases found with
    | none => trivial
    | some artifact =>
      obtain ⟨entry, hmem, rfl, hstale, -⟩ := InMemoryRegistryCache.exists_of_getArtifact hfound
      obtain ⟨t, hput, -, ht⟩ := hcache.artifacts choice.key entry hmem
      exact holds_finish hp.1.mono
        ⟨hp.2.2, h, now, t, List.suffix_rfl, hp.2.1, hput, ht ▸ hstale⟩

end

/-- An answer of the registry is an answer. -/
theorem usedNetwork_searched {answer : Except ResolveError (List (RegistrySearchStub r.nfkc))}
    (hmem : .act i (.searched answer) ∈ h) : UsedNetwork r h i :=
  ⟨_, hmem, rfl⟩

theorem usedNetwork_fetched {answer : Except ResolveError (RegistryArtifact r.hashing.writer)}
    (hmem : .act i (.fetched answer) ∈ h) : UsedNetwork r h i :=
  ⟨_, hmem, rfl⟩

theorem holds_searching {key : RegistrySearchCacheKey}
    {answer : Except ResolveError (List (RegistrySearchStub r.nfkc))}
    (hp : (Phase.searching key).Holds r h i call) :
    (r.afterSearching call key answer).Holds r (.act i (.searched answer) :: h) i call := by
  cases answer with
  | error e => trivial
  | ok stubs =>
    have hown : .act i (.searched (.ok stubs)) ∈ .act i (.searched (.ok stubs)) :: h := .head _
    rw [RegistryResolver.afterSearching]
    split_ifs
    · trivial
    · exact ⟨hp.1, hown⟩
    · exact holds_consider hp.1 (.inl hown) (iff_of_true rfl (usedNetwork_searched hown))

theorem holds_storing {key : RegistrySearchCacheKey} {stubs : List (RegistrySearchStub r.nfkc)}
    {stored : Except CacheError Unit} (hp : (Phase.storing key stubs).Holds r h i call) :
    (r.afterStoring call stubs stored).Holds r (e :: h) i call := by
  cases stored with
  | error e => trivial
  | ok _ =>
    have hown := List.mem_cons_of_mem e hp.2
    exact holds_consider hp.1 (.inl hown) (iff_of_true rfl (usedNetwork_searched hown))

theorem holds_fetching {choice : Choice r}
    {answer : Except ResolveError (RegistryArtifact r.hashing.writer)}
    (hp : (Phase.fetching choice).Holds r h i call) :
    (r.afterFetching call choice answer).Holds r (.act i (.fetched answer) :: h) i call := by
  have hleads : Leads r (.act i (.fetched answer) :: h) i call choice := hp.1.mono
  have hown : .act i (.fetched answer) ∈ .act i (.fetched answer) :: h := .head _
  cases answer with
  | error e =>
    rw [RegistryResolver.afterFetching]
    split_ifs with hfall
    · obtain ⟨rfl, -, hallows⟩ := hfall
      exact ⟨hleads, hown, hallows⟩
    · trivial
  | ok artifact =>
    rw [RegistryResolver.afterFetching]
    cases hv : r.verify call choice.stub artifact with
    | error e => trivial
    | ok _ =>
      dsimp only
      split_ifs
      · exact ⟨hleads, hown, verify_eq_ok hv⟩
      · exact holds_complete hleads (verify_eq_ok hv) ⟨.inl hown, usedNetwork_fetched hown⟩

theorem holds_keeping {choice : Choice r} {artifact : RegistryArtifact r.hashing.writer}
    {stored : Except CacheError Unit} (hp : (Phase.keeping choice artifact).Holds r h i call) :
    (r.afterKeeping call choice artifact stored).Holds r (e :: h) i call := by
  cases stored with
  | error e => trivial
  | ok _ =>
    have hown := List.mem_cons_of_mem e hp.2.1
    exact holds_complete hp.1.mono hp.2.2 ⟨.inl hown, usedNetwork_fetched hown⟩

/-- What a step of a call makes of the call and of the cache. -/
theorem holds_act {cache cache' : ResolverCache r} {phase phase' : Phase r} {action : Action r}
    (hresolve : .resolve i call ∈ h) (hcache : CacheHolds r h cache)
    (hp : phase.Holds r h i call) (hact : r.act call cache phase action = some (phase', cache')) :
    phase'.Holds r (.act i action :: h) i call ∧ CacheHolds r (.act i action :: h) cache' := by
  have hcache' : CacheHolds r (.act i action :: h) cache := hcache.mono
  -- The cases are the phases with the actions that fit them, in the order of
  -- `act`; what is put into the cache is what the phase holds.
  unfold RegistryResolver.act at hact
  split at hact
  · obtain ⟨rfl, rfl⟩ := Prod.mk.inj (Option.some.inj hact)
    exact ⟨holds_looking hcache hp, hcache'.getSearch _ _⟩
  · obtain ⟨rfl, rfl⟩ := Prod.mk.inj (Option.some.inj hact)
    exact ⟨holds_searching hp, hcache'⟩
  · rename_i key stubs now
    obtain ⟨rfl, rfl⟩ := Prod.mk.inj (Option.some.inj hact)
    refine ⟨holds_storing hp, hcache'.putSearch ?_⟩
    exact ⟨now, ⟨i, call, .tail _ hresolve, hp.1, .tail _ hp.2, .head _⟩, rfl⟩
  · obtain ⟨rfl, rfl⟩ := Prod.mk.inj (Option.some.inj hact)
    exact ⟨holds_reading hcache hp, hcache'.getArtifact _ _ _⟩
  · obtain ⟨rfl, rfl⟩ := Prod.mk.inj (Option.some.inj hact)
    exact ⟨holds_fetching hp, hcache'⟩
  · obtain ⟨rfl, rfl⟩ := Prod.mk.inj (Option.some.inj hact)
    exact ⟨holds_falling hcache hp, hcache'.getArtifact _ _ _⟩
  · rename_i choice artifact now
    obtain ⟨rfl, rfl⟩ := Prod.mk.inj (Option.some.inj hact)
    refine ⟨holds_keeping hp, hcache'.putArtifact fun _ => ?_⟩
    exact ⟨now, ⟨i, call, choice.stub.toStubFields, .tail _ hresolve, hp.1.key, .tail _ hp.2.1,
      .head _⟩, rfl, rfl⟩
  · cases hact

/-! ## Runs -/

/-- What holds of a resolver and its history. -/
structure ResolverHolds (r : RegistryResolver) (h : List (ResolverEvent r)) (s : ResolverState r) :
    Prop where
  calls : ∀ i call phase, s.calls.lookup i = some (call, phase) →
    .resolve i call ∈ h ∧ phase.Holds r h i call
  known : ∀ i action, .act i action ∈ h → i ∈ s.calls
  cache : CacheHolds r h s.cache

/-- A call that starts has not been answered. -/
theorem ResolverHolds.resolve {s : ResolverState r} (hs : ResolverHolds r h s) (hi : i ∉ s.calls) :
    ResolverHolds r (.resolve i call :: h)
      { s with calls := s.calls.insert i (call, r.start call) } where
  calls j other phase hj := by
    have hsilent (j : ℕ) : Silent j (.resolve i call : ResolverEvent r) :=
      fun _ heq => (by cases heq)
    rw [Dict.lookup_insert] at hj
    split_ifs at hj with hji
    · cases hj
      subst hji
      refine ⟨.head _, Phase.Holds.mono (hsilent j) (holds_start ?_)⟩
      -- The number is a new one, so that no answer before was for this call.
      rintro ⟨action, hmem, -⟩
      exact hi (hs.known j action hmem)
    · obtain ⟨hmem, hphase⟩ := hs.calls j other phase hj
      exact ⟨.tail _ hmem, hphase.mono (hsilent j)⟩
  known j action hmem := by
    rcases List.mem_cons.1 hmem with heq | hmem
    · cases heq
    · exact AList.mem_insert _ |>.2 (.inr (hs.known j action hmem))
  cache := hs.cache.mono

/-- A call that steps leaves the others as they are. -/
theorem ResolverHolds.act {s : ResolverState r} (hs : ResolverHolds r h s) {phase phase' : Phase r}
    {action : Action r} {cache : ResolverCache r} (hi : s.calls.lookup i = some (call, phase))
    (hact : r.act call s.cache phase action = some (phase', cache)) :
    ResolverHolds r (.act i action :: h) ⟨cache, s.calls.insert i (call, phase')⟩ := by
  obtain ⟨hresolve, hphase⟩ := hs.calls i call phase hi
  obtain ⟨hphase', hcache⟩ := holds_act hresolve hs.cache hphase hact
  refine ⟨fun j other phase hj => ?_, fun j action' hmem => ?_, hcache⟩
  · rw [Dict.lookup_insert] at hj
    split_ifs at hj with hji
    · cases hj
      subst hji
      exact ⟨.tail _ hresolve, hphase'⟩
    · obtain ⟨hmem, hother⟩ := hs.calls j other phase hj
      refine ⟨.tail _ hmem, hother.mono fun action' heq => ?_⟩
      cases heq
      exact absurd rfl hji
  · rcases List.mem_cons.1 hmem with heq | hmem
    · cases heq
      exact AList.mem_insert _ |>.2 (.inl rfl)
    · exact AList.mem_insert _ |>.2 (.inr (hs.known j action' hmem))

/-- Every run holds what it has to. -/
theorem holds_run {G : ResolverState r → ResolverEvent r → Prop} {s : ResolverState r}
    (hr : (resolver r).Run G h s) : ResolverHolds r h s := by
  refine hr.history_invariant (I := ResolverHolds r) ?_ fun h s e s' hs _ hstep => ?_
  · refine ⟨fun i call phase hi => (by cases hi), fun i action hmem => absurd hmem List.not_mem_nil,
      fun key entry hmem => absurd hmem List.not_mem_nil,
      fun key entry hmem => absurd hmem List.not_mem_nil⟩
  · cases e with
    | resolve i call =>
      rw [resolver] at hstep
      dsimp only at hstep
      split_ifs at hstep with hi
      cases hstep
      exact hs.resolve hi
    | act i action =>
      obtain ⟨⟨call, phase⟩, hi, hstep⟩ := Option.bind_eq_some_iff.1 hstep
      obtain ⟨⟨phase', cache⟩, hact, hstep⟩ := Option.bind_eq_some_iff.1 hstep
      cases hstep
      exact hs.act hi hact

/-- What a call that has returned holds. -/
theorem holds_ended {s : ResolverState r} (hr : (resolver r).Run Machine.Free h s)
    {resolution : RegistryResolution r.nfkc}
    (hi : s.calls.lookup i = some (call, .ended (.ok resolution))) :
    .resolve i call ∈ h ∧ (Unmatched r h i call resolution ∨
      ∃ choice artifact, Matched r h i call choice artifact resolution) :=
  (holds_run hr).calls i call _ hi

/-! ## An example -/

/-- A hash that tells the identity of Alice from all other documents. -/
def identityHashing : Hashing where
  writer := .plain
  sha256 document :=
    if document = JsonWriter.plain.render (identityDocument aliceCall).sorted then
      ⟨List.replicate 64 49, isDigest_ones⟩
    else ⟨List.replicate 64 48, isDigest_zeros⟩

theorem exampleBounds_search : 1 ≤ 128 ∧ 128 ≤ 1024 := by decide

theorem exampleBounds_artifact : 1 ≤ 64 ∧ 64 ≤ 256 := by decide

/-- A resolver with a cache. -/
def exampleResolver : RegistryResolver where
  nfkc := id
  hashing := identityHashing
  depth := 8
  origin := lit "https://gw.test"
  isOrigin := exampleOrigin_isOrigin
  caching := true
  bounds := {
    search_bounds := exampleBounds_search
    artifact_bounds := exampleBounds_artifact }
  cachePolicy := {
    search_range := by decide +kernel
    artifact_range := by decide +kernel
    offline_range := by decide +kernel }
  rnd := .finite

/-- The tool of the example, with the fingerprints of its schemas. -/
def notesRequirement : RegistryToolRequirement where
  name := lit "find"
  expectedInputFingerprint := some (List.replicate 64 48)
  name_isVisible := by decide
  input_isDigest := by decide
  output_isDigest := by decide
  schema_accepted := fun _ h => by cases h
  pinned := .inl rfl

def notesPolicy : ResolutionPolicy id where
  toRegistryResolutionPolicy := examplePolicy
  serverName := lit "notes"
  supportedProtocolVersions := [lit "2025-06-18"]
  toolAllow := [lit "find"]
  toolRequirements := [notesRequirement]
  serverName_isAdkName := by decide
  protocols_valid := by decide
  capabilities_valid := by decide
  lifecycles_valid := by decide
  toolAllow_valid := by decide
  toolDeny_valid := by decide
  allow_deny := by decide
  deny_star := by decide
  toolPrefix_valid := by decide
  requirements_nodup := by decide
  maxTools_range := by decide
  maxSchemaBytes_range := by decide

/-- What a caller looks for. -/
def callFor (context : CallContext) : ResolveCall id where
  query := {
    intent := lit "notes"
    kinds := [lit "MCPServer", lit "Agent"]
    intent_isVisible := by decide
    kinds_valid := by decide
    namespace_isVisible := by decide
    limit_range := by decide }
  policy := notesPolicy
  context

def bobCall : CallContext := { aliceCall with identity := bob }

def notesStub (kind : Text) : StubFields where
  kind
  name := lit "a/notes"
  «namespace» := lit "a"
  tag := lit "1"
  arn := lit "arn"
  digest := lit "sha256:" ++ List.replicate 64 48
  ref := lit "ref"
  fetchPath := lit "/v0/notes"

def agentStub : RegistrySearchStub exampleResolver.nfkc := ⟨notesStub (lit "Agent"), by decide +kernel⟩

def serverStub : RegistrySearchStub exampleResolver.nfkc :=
  ⟨notesStub (lit "MCPServer"), by decide +kernel⟩

/-- The server, whose extension offers a tool. -/
def notesArtifact : RegistryArtifact exampleResolver.hashing.writer where
  kind := lit "MCPServer"
  name := lit "a/notes"
  «namespace» := lit "a"
  tag := lit "1"
  labels := []
  spec := [(lit "x-tesserix", .obj [(lit "lifecycle", .str (lit "active")),
    (lit "protocolVersions", .arr [.str (lit "2025-06-18")]), (lit "requiredScopes", .arr []),
    (lit "semantic", .obj [(lit "capabilities", .arr [])]),
    (lit "routePolicy", .obj [(lit "gatewayPath", .str (lit "/notes/mcp"))]),
    (lit "tools", .arr [.obj [(lit "name", .str (lit "find")), (lit "status", .str (lit "active")),
      (lit "requiredScopes", .arr []), (lit "capabilities", .arr []), (lit "inputSchema", .obj []),
      (lit "inputFingerprint", .str (List.replicate 64 48)),
      (lit "outputFingerprint", .str (List.replicate 64 48))]])])]
  apiVersion := lit "registry.agentic.dev/v1alpha1"
  arn := lit "arn"
  digest := lit "sha256:" ++ List.replicate 64 48
  ref := lit "ref"
  valid := by decide +kernel

/-- Alice and Bob resolve the same query, and the registry answers Bob without the server. Then
    Alice resolves it again. -/
def exampleEvents : List (ResolverEvent exampleResolver) :=
  [.resolve 0 (callFor aliceCall), .act 0 (.getSearch (.finite 0)),
    .resolve 1 (callFor bobCall), .act 1 (.getSearch (.finite 0)),
    .act 0 (.searched (.ok [agentStub, serverStub])), .act 0 (.putSearch (.finite 0)),
    .act 0 (.getArtifact (.finite 0)), .act 1 (.searched (.ok [agentStub])),
    .act 1 (.putSearch (.finite 1)), .act 0 (.fetched (.ok notesArtifact)),
    .act 0 (.putArtifact (.finite 1)), .resolve 2 (callFor aliceCall),
    .act 2 (.getSearch (.finite 2)), .act 2 (.getArtifact (.finite 2))]

/-- A call that has returned a server that it found in the cache. -/
def Phase.fromCache {r : RegistryResolver} : Phase r → Bool
  | .ended (.ok resolution) => resolution.source = .cache && resolution.server.isSome
  | _ => false

/-- The calls of the example. -/
theorem call_of_mem {j : ℕ} {other : ResolveCall exampleResolver.nfkc}
    (h : .resolve j other ∈ exampleEvents.reverse) :
    j ≠ 1 ∧ other = callFor aliceCall ∨ j = 1 ∧ other = callFor bobCall := by
  rw [List.mem_reverse] at h
  simp only [exampleEvents, List.mem_cons, List.not_mem_nil, reduceCtorEq, or_false,
    false_or] at h
  rcases h with ⟨rfl, rfl⟩ | ⟨rfl, rfl⟩ | ⟨rfl, rfl⟩
  · exact .inl ⟨by decide, rfl⟩
  · exact .inr ⟨rfl, rfl⟩
  · exact .inl ⟨by decide, rfl⟩

/-- The last call returns a server that it found in the cache. -/
theorem exampleEvents_fromCache :
    ∃ (s : ResolverState exampleResolver) (resolution : RegistryResolution exampleResolver.nfkc),
      (resolver exampleResolver).exec (resolver exampleResolver).init exampleEvents = some s ∧
        s.calls.lookup 2 = some (callFor aliceCall, .ended (.ok resolution)) ∧
        resolution.source = .cache ∧ ∃ server, resolution.server = some server := by
  have hexec : ((resolver exampleResolver).exec (resolver exampleResolver).init exampleEvents).any
      (fun s => (s.calls.lookup 2).any fun c => c.2.fromCache) = true := by decide +kernel
  obtain ⟨s, hs, hany⟩ := (Option.any_eq_true ..).1 hexec
  obtain ⟨⟨call, phase⟩, hlookup, hphase⟩ := (Option.any_eq_true ..).1 hany
  have hr := Machine.run_of_exec hs (Machine.meets_free _ _)
  obtain ⟨-, rfl⟩ | ⟨hone, -⟩ := call_of_mem ((holds_run hr).calls 2 call phase hlookup).1
  · cases phase with
    | ended outcome =>
      cases outcome with
      | ok resolution =>
        rw [Phase.fromCache, Bool.and_eq_true, decide_eq_true_eq, Option.isSome_iff_exists] at hphase
        exact ⟨s, resolution, hs, hlookup, hphase⟩
      | error e => cases hphase
    | looking | searching | storing | reading | fetching | falling | keeping => cases hphase
  · cases hone

/-! ## What a call returns -/

/-- A call that returns has projected the artifact of the first stub that it could choose, which
    it has verified, or it could choose none; it tells where they came from, and explains the
    stubs up to the one that it chose. -/
theorem resolver_concludes {s : ResolverState r} (hr : (resolver r).Run Machine.Free h s)
    {resolution : RegistryResolution r.nfkc}
    (hi : s.calls.lookup i = some (call, .ended (.ok resolution))) :
    Unmatched r h i call resolution ∨
      ∃ choice artifact, Matched r h i call choice artifact resolution :=
  (holds_ended hr hi).2

/-- The last call has projected the artifact that it found in the cache, of the second stub. -/
theorem resolver_concludes_example :
    ∃ (s : ResolverState exampleResolver) (resolution : RegistryResolution exampleResolver.nfkc),
      s.calls.lookup 2 = some (callFor aliceCall, .ended (.ok resolution)) ∧
        resolution.source = .cache ∧ ∃ choice artifact, Matched exampleResolver exampleEvents.reverse
          2 (callFor aliceCall) choice artifact resolution := by
  obtain ⟨s, resolution, hexec, hi, hsource, server, hserver⟩ := exampleEvents_fromCache
  have hr := Machine.run_of_exec hexec (Machine.meets_free _ _)
  refine ⟨s, resolution, hi, hsource, (resolver_concludes hr hi).resolve_left fun hunmatched => ?_⟩
  exact Option.some_ne_none server (hserver.symm.trans hunmatched.server)

variable (r h i call) in
/-- The stubs are the answer to a search for the same authority and the same query: of the call
    itself, or of another that put them into the cache, which held them within their lifetime. -/
def StubsFor (stubs : List (RegistrySearchStub r.nfkc)) : Prop :=
  ∃ j other, .resolve j other ∈ h ∧ SameAuthority other.context call.context ∧
    SameQuery other.query call.query ∧ .act j (.searched (.ok stubs)) ∈ h ∧
    (j = i ∨ ∃ h' now t, (.act i (.getSearch now) :: h') <:+ h ∧
      .act j (.searched (.ok stubs)) ∈ h' ∧ .act j (.putSearch t) ∈ h' ∧
      now.toRat < (r.searchExpiry t).toRat)

variable (r h i call) in
/-- The artifact was fetched for the same authority: by the call itself, or by another that put
    it into the cache, which held it while it was fresh, or while the registry was unavailable,
    the policy allows for this, and it was not stale. -/
def ArtifactFor (artifact : RegistryArtifact r.hashing.writer) : Prop :=
  ∃ j other, .resolve j other ∈ h ∧ SameAuthority other.context call.context ∧
    .act j (.fetched (.ok artifact)) ∈ h ∧
    (j = i ∨ ∃ h' now t, .act j (.fetched (.ok artifact)) ∈ h' ∧ .act j (.putArtifact t) ∈ h' ∧
      ((.act i (.getArtifact now) :: h') <:+ h ∧ now.toRat < (r.freshUntil t).toRat ∨
        (.act i (.getStale now) :: h') <:+ h ∧ .act i (.fetched (.error .unavailable)) ∈ h' ∧
          r.cachePolicy.AllowsOffline ∧ now.toRat < (r.staleUntil t).toRat))

variable (r h call) in
/-- The documents of the calls do not collide with those of a call. -/
def Separate : Prop := ∀ j other, .resolve j other ∈ h →
  r.hashing.NoCollision (identityDocument other.context) (identityDocument call.context) ∧
    r.hashing.NoCollision (queryDocument other.query) (queryDocument call.query)

theorem SameAuthority.refl (context : CallContext) : SameAuthority context context :=
  ⟨rfl, rfl, rfl, .refl _⟩

theorem SameQuery.refl (query : RegistrySearchQuery) : SameQuery query query := ⟨rfl, rfl, rfl, rfl⟩

theorem Searched.stubsFor {key : RegistrySearchCacheKey} {stubs : List (RegistrySearchStub r.nfkc)}
    (hs : Searched r h i key stubs) (hresolve : .resolve i call ∈ h)
    (hkey : r.keyOf call = some key) (hseparate : Separate r h call) : StubsFor r h i call stubs := by
  rcases hs with hown | ⟨h', now, t, hsuffix, ⟨j, other, hother, hkey', hsearched, hput⟩, hbefore⟩
  · exact ⟨i, call, hresolve, .refl _, .refl _, hown, .inl rfl⟩
  · have hmem {e : ResolverEvent r} (he : e ∈ h') : e ∈ h := hsuffix.subset (.tail _ he)
    obtain ⟨hidentity, hquery⟩ := hseparate j other (hmem hother)
    obtain ⟨hauthority, hsame⟩ := Projector.same_of_searchKey hkey' hkey hidentity hquery
    exact ⟨j, other, hmem hother, hauthority, hsame, hmem hsearched,
      .inr ⟨h', now, t, hsuffix, hsearched, hput, hbefore⟩⟩

/-- An artifact that the cache held was fetched for the same authority. -/
theorem ArtifactPut.sameAuthority {key : RegistryArtifactCacheKey} {stub : StubFields}
    {artifact : RegistryArtifact r.hashing.writer} {t : PyFloat}
    (hput : ArtifactPut r h' key artifact t) (hkey : r.artifactKeyOf call stub = some key)
    (hmem : ∀ e ∈ h', e ∈ h) (hseparate : Separate r h call) :
    ∃ j other, .resolve j other ∈ h ∧ SameAuthority other.context call.context ∧
      .act j (.fetched (.ok artifact)) ∈ h' ∧ .act j (.putArtifact t) ∈ h' := by
  obtain ⟨j, other, stub', hother, hkey', hfetched, hput⟩ := hput
  refine ⟨j, other, hmem _ hother, ?_, hfetched, hput⟩
  exact Projector.sameAuthority_of_artifactKey hkey' hkey (hseparate j other (hmem _ hother)).1

theorem Obtained.artifactFor {key : RegistryArtifactCacheKey} {stub : StubFields}
    {artifact : RegistryArtifact r.hashing.writer} {source : RegistryResolutionSource}
    (ho : Obtained r h i key artifact source) (hresolve : .resolve i call ∈ h)
    (hkey : r.artifactKeyOf call stub = some key) (hseparate : Separate r h call) :
    ArtifactFor r h i call artifact := by
  have hfresh (hf : Fresh r h i key artifact) : ArtifactFor r h i call artifact := by
    obtain ⟨h', now, t, hsuffix, hput, hbefore⟩ := hf
    have hmem : ∀ e ∈ h', e ∈ h := fun e he => hsuffix.subset (.tail _ he)
    obtain ⟨j, other, hother, hauthority, hfetched, hput⟩ := hput.sameAuthority hkey hmem hseparate
    exact ⟨j, other, hother, hauthority, hmem _ hfetched,
      .inr ⟨h', now, t, hfetched, hput, .inl ⟨hsuffix, hbefore⟩⟩⟩
  cases source with
  | cache => exact hfresh ho.1
  | network =>
    -- A call that has searched the registry may still find its artifact in
    -- the cache.
    rcases ho.1 with hown | hf
    · exact ⟨i, call, hresolve, .refl _, hown, .inl rfl⟩
    · exact hfresh hf
  | offline =>
    obtain ⟨hallows, h', now, t, hsuffix, hunavailable, hput, hbefore⟩ := ho
    have hmem : ∀ e ∈ h', e ∈ h := fun e he => hsuffix.subset (.tail _ he)
    obtain ⟨j, other, hother, hauthority, hfetched, hput⟩ := hput.sameAuthority hkey hmem hseparate
    exact ⟨j, other, hother, hauthority, hmem _ hfetched,
      .inr ⟨h', now, t, hfetched, hput, .inr ⟨hsuffix, hunavailable, hallows, hbefore⟩⟩⟩

/-- The stubs that a call explains, and the artifact that it projects, were given to a caller of
    the same authority, and are used within their lifetimes. -/
theorem resolver_isolates {s : ResolverState r} (hr : (resolver r).Run Machine.Free h s)
    {resolution : RegistryResolution r.nfkc}
    (hi : s.calls.lookup i = some (call, .ended (.ok resolution))) (hseparate : Separate r h call) :
    ∃ stubs, StubsFor r h i call stubs ∧
      (∀ explanation ∈ resolution.explanations, ∃ stub ∈ stubs, explanation.ref = stub.ref) ∧
      ∀ server ∈ resolution.server, ∃ artifact, ArtifactFor r h i call artifact ∧
        r.project artifact call.policy call.context.scopes = .ok server := by
  have hrejects {stubs : List (RegistrySearchStub r.nfkc)}
      {explanations : List RegistryCandidateExplanation}
      (hstubs : stubs.Forall₂ (Rejects call.query call.policy) explanations) :
      ∀ explanation ∈ explanations, ∃ stub ∈ stubs, explanation.ref = stub.ref := by
    intro explanation hmem
    obtain ⟨stub, hstub, hrejected⟩ := exists_of_forall₂ hstubs.flip hmem
    exact ⟨stub, hstub, hrejected.ref⟩
  obtain ⟨hresolve, hunmatched | ⟨choice, artifact, hmatched⟩⟩ := holds_ended hr hi
  · obtain ⟨hserver, ⟨key, stubs, hkey, hsearched, -, hstubs⟩, -⟩ := hunmatched
    refine ⟨stubs, hsearched.stubsFor hresolve hkey hseparate, hrejects hstubs, ?_⟩
    rw [hserver]
    exact fun _ hnone => (by cases hnone)
  · obtain ⟨⟨⟨key, before, after, hkey, hsearched, -, -, hbefore⟩, hartifactKey⟩, -, hobtained,
      hresult⟩ := hmatched
    refine ⟨_, hsearched.stubsFor hresolve hkey hseparate, ?_, ?_⟩
    · obtain ⟨last, hexplanations, hlast⟩ : ∃ last,
          resolution.explanations = choice.rejected ++ [last] ∧ last.ref = choice.stub.ref := by
        rcases hresult with ⟨_, -, -, heq⟩ | ⟨_, -, -, last, heq, href, -⟩
        · exact ⟨_, heq, rfl⟩
        · exact ⟨last, heq, href⟩
      intro explanation hmem
      rw [hexplanations, List.mem_append, List.mem_singleton] at hmem
      rcases hmem with hmem | rfl
      · obtain ⟨stub, hstub, href⟩ := hrejects hbefore explanation hmem
        exact ⟨stub, List.mem_append_left _ hstub, href⟩
      · exact ⟨choice.stub, List.mem_append_right _ (.head _), hlast⟩
    · intro server hserver
      rcases hresult with ⟨projected, hproject, heq, -⟩ | ⟨_, -, heq, -⟩
      · rw [heq] at hserver
        cases hserver
        exact ⟨artifact, hobtained.artifactFor hresolve hartifactKey hseparate, hproject⟩
      · rw [heq] at hserver
        cases hserver

/-- The documents of Alice and Bob do not collide. -/
theorem separate_exampleEvents {i : ℕ} {call : ResolveCall exampleResolver.nfkc}
    (hmem : .resolve i call ∈ exampleEvents.reverse) :
    Separate exampleResolver exampleEvents.reverse call := by
  have hne : (identityHashing.writer.dumps (identityDocument aliceCall)).map identityHashing.sha256 ≠
      (identityHashing.writer.dumps (identityDocument bobCall)).map identityHashing.sha256 := by
    decide +kernel
  intro j other hother
  rcases call_of_mem hmem with ⟨-, rfl⟩ | ⟨-, rfl⟩ <;>
    rcases call_of_mem hother with ⟨-, rfl⟩ | ⟨-, rfl⟩
  · exact ⟨.refl _, .refl _⟩
  · exact ⟨Hashing.noCollision_of_ne hne.symm, .refl _⟩
  · exact ⟨Hashing.noCollision_of_ne hne, .refl _⟩
  · exact ⟨.refl _, .refl _⟩

/-- What the last call uses was given to Alice, although Bob resolved the same query. -/
theorem resolver_isolates_example :
    ∃ (s : ResolverState exampleResolver) (resolution : RegistryResolution exampleResolver.nfkc)
      (server : RegistryADKServer exampleResolver.nfkc),
      s.calls.lookup 2 = some (callFor aliceCall, .ended (.ok resolution)) ∧
        resolution.source = .cache ∧ resolution.server = some server ∧
        (∃ stubs, StubsFor exampleResolver exampleEvents.reverse 2 (callFor aliceCall) stubs) ∧
        ∃ artifact, ArtifactFor exampleResolver exampleEvents.reverse 2 (callFor aliceCall) artifact ∧
          exampleResolver.project artifact notesPolicy aliceCall.scopes = .ok server := by
  obtain ⟨s, resolution, hexec, hi, hsource, server, hserver⟩ := exampleEvents_fromCache
  have hr := Machine.run_of_exec hexec (Machine.meets_free _ _)
  obtain ⟨stubs, hstubs, -, hartifact⟩ := resolver_isolates hr hi
    (separate_exampleEvents ((holds_run hr).calls 2 _ _ hi).1)
  exact ⟨s, resolution, server, hi, hsource, hserver, ⟨stubs, hstubs⟩, hartifact server hserver⟩

end

end Registry

end McpRuntime
