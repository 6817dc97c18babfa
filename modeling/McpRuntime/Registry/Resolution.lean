import McpRuntime.Machine
import McpRuntime.Python.Dict
import McpRuntime.Registry.Candidates

/-!
# Resolutions

`RegistryResolver.resolve` searches the registry, chooses a stub, fetches its artifact, checks
that this is the artifact of the stub, and projects it. Searches and artifacts are kept in a
cache that all calls share.

`resolver` is the machine of the calls: they start, use the cache and are answered by the
registry in any order, with any answers and at any readings of the clock. Each use of the cache
is a step of its own. In the event loop a call gives way only where it waits for the registry,
so the code has fewer interleavings than the machine.
-/

namespace McpRuntime

namespace Registry

/-! ## The resolver -/

/-- The least lifetime of a policy: the double `0.001`. -/
def leastTtl : PyFloat := .finite (1152921504606847 / 2 ^ 60)

/-- `RegistryCachePolicy`. -/
structure RegistryCachePolicy where
  searchTtlSeconds : PyFloat := .finite 30
  artifactTtlSeconds : PyFloat := .finite 60
  offlineMaxStaleSeconds : PyFloat := .finite 0
  search_range : leastTtl.le searchTtlSeconds ∧ searchTtlSeconds.le (.finite 30)
  artifact_range : leastTtl.le artifactTtlSeconds ∧ artifactTtlSeconds.le (.finite 60)
  offline_range : (PyFloat.finite 0).le offlineMaxStaleSeconds ∧
    offlineMaxStaleSeconds.le (.finite 3600)

/-- The policy allows what is stale while the registry is unavailable. -/
def RegistryCachePolicy.AllowsOffline (policy : RegistryCachePolicy) : Prop :=
  policy.offlineMaxStaleSeconds.eq (.finite 0) = false

instance (policy : RegistryCachePolicy) : Decidable policy.AllowsOffline :=
  inferInstanceAs (Decidable (_ = _))

/-- `RegistryResolver`, with what it projects with. -/
structure RegistryResolver extends Projector where
  origin : Text
  isOrigin : ∃ value, canonicalHttpsOrigin nfkc value = some origin
  /-- Whether there is a cache. -/
  caching : Bool
  bounds : CacheBounds
  cachePolicy : RegistryCachePolicy
  /-- The rounding of the arithmetic of the clock. -/
  rnd : Rounding

/-- `RegistryResolutionSource`. -/
inductive RegistryResolutionSource
  | network
  | cache
  | offline
  deriving DecidableEq

/-- What `resolve` raises. -/
inductive ResolveError
  | valueError
  | overflowError
  /-- `RegistryUnavailableError`. -/
  | unavailable
  /-- Any other exception of the registry, or the cancellation of the call. -/
  | discovery
  | artifactRace
  | digestMismatch
  /-- An exception of the projection. -/
  | projection
  deriving DecidableEq

/-- What a call of the cache raises. -/
def CacheError.raised : CacheError → ResolveError
  | .valueError => .valueError
  | .overflowError => .overflowError

/-- `RegistryResolution`. -/
structure RegistryResolution (nfkc : Text → Text) where
  source : RegistryResolutionSource
  server : Option (RegistryADKServer nfkc)
  explanations : List RegistryCandidateExplanation
  bounded : explanations.length ≤ 20

/-- What a caller asks for. -/
structure ResolveCall (nfkc : Text → Text) where
  query : RegistrySearchQuery
  policy : ResolutionPolicy nfkc
  context : CallContext

section
variable (r : RegistryResolver)

/-- What becomes of a call. -/
abbrev Outcome := Except ResolveError (RegistryResolution r.nfkc)

/-- The stub that a call has chosen. -/
structure Choice where
  stub : RegistrySearchStub r.nfkc
  key : RegistryArtifactCacheKey
  rejected : List RegistryCandidateExplanation
  /-- Whether the call has searched the registry. -/
  network : Bool

/-- Where a call is. -/
inductive Phase
  /-- It looks for its search in the cache. -/
  | looking (key : RegistrySearchCacheKey)
  /-- It waits for the registry to search. -/
  | searching (key : RegistrySearchCacheKey)
  /-- It puts the stubs into the cache. -/
  | storing (key : RegistrySearchCacheKey) (stubs : List (RegistrySearchStub r.nfkc))
  /-- It looks for the artifact in the cache. -/
  | reading (choice : Choice r)
  /-- It waits for the registry to fetch the artifact. -/
  | fetching (choice : Choice r)
  /-- It looks for an artifact that is not stale, as the registry is unavailable. -/
  | falling (choice : Choice r)
  /-- It puts the artifact into the cache. -/
  | keeping (choice : Choice r) (artifact : RegistryArtifact r.hashing.writer)
  /-- It has returned or raised. -/
  | ended (outcome : Outcome r)

/-- The cache of a resolver. -/
abbrev ResolverCache := InMemoryRegistryCache RegistrySearchCacheKey (RegistrySearchStub r.nfkc)
  RegistryArtifactCacheKey (RegistryArtifact r.hashing.writer)

/-- What a call does, or is answered. -/
inductive Action
  | getSearch (now : PyFloat)
  | searched (answer : Except ResolveError (List (RegistrySearchStub r.nfkc)))
  | putSearch (now : PyFloat)
  | getArtifact (now : PyFloat)
  | fetched (answer : Except ResolveError (RegistryArtifact r.hashing.writer))
  | getStale (now : PyFloat)
  | putArtifact (now : PyFloat)

/-- The registry answers the call. -/
def Action.isAnswer {r : RegistryResolver} : Action r → Bool
  | .searched _ | .fetched _ => true
  | .getSearch _ | .putSearch _ | .getArtifact _ | .getStale _ | .putArtifact _ => false

/-- An event of a resolver. -/
inductive ResolverEvent
  /-- `resolve`, of the call `i`. -/
  | resolve (i : ℕ) (call : ResolveCall r.nfkc)
  /-- A step of the call `i`. -/
  | act (i : ℕ) (action : Action r)

/-- A resolver with its calls, by number. -/
structure ResolverState where
  cache : ResolverCache r
  calls : Dict ℕ (ResolveCall r.nfkc × Phase r)

end

namespace RegistryResolver

variable (r : RegistryResolver) (call : ResolveCall r.nfkc)

/-- When stubs that are put into the cache expire. -/
def searchExpiry (now : PyFloat) : PyFloat := now.add r.rnd r.cachePolicy.searchTtlSeconds

/-- Until when an artifact that is put into the cache is fresh. -/
def freshUntil (now : PyFloat) : PyFloat := now.add r.rnd r.cachePolicy.artifactTtlSeconds

/-- When it is stale. -/
def staleUntil (now : PyFloat) : PyFloat :=
  (r.freshUntil now).add r.rnd r.cachePolicy.offlineMaxStaleSeconds

/-- The key of a call in the cache of searches. -/
def keyOf : Option RegistrySearchCacheKey := r.searchKey r.origin call.query call.context

/-- The key of a stub in the cache of artifacts. -/
def artifactKeyOf (stub : StubFields) : Option RegistryArtifactCacheKey :=
  r.artifactKey r.origin stub call.context

/-- An error of the registry, whose constructor refuses a request id with a `DEL`. -/
def registryError (e : ResolveError) : ResolveError :=
  if IsVisible 256 call.context.requestId then e else .valueError

/-- The fields of a stub that its artifact repeats. -/
def SameArtifact (stub : StubFields) (artifact : ArtifactFields) : Prop :=
  artifact.kind = stub.kind ∧ artifact.name = stub.name ∧ artifact.namespace = stub.namespace ∧
    artifact.tag = stub.tag ∧ artifact.arn = stub.arn ∧ artifact.ref = stub.ref

instance (stub : StubFields) (artifact : ArtifactFields) : Decidable (SameArtifact stub artifact) :=
  inferInstanceAs (Decidable (_ ∧ _))

/-- `_verify_exact_identity`. -/
def verify (stub : RegistrySearchStub r.nfkc) (artifact : RegistryArtifact r.hashing.writer) :
    Except ResolveError Unit := do
  if ¬SameArtifact stub.toStubFields artifact.toArtifactFields then
    throw (registryError r call .artifactRace)
  if artifact.digest ≠ stub.digest then throw (registryError r call .artifactRace)
  match artifact.computedDigest with
  | none => throw .valueError
  | some digest =>
    if digest ≠ artifact.digest then throw (registryError r call .digestMismatch)
    pure ()

/-- `RegistryResolution`, whose constructor bounds the explanations. -/
def resolution (source : RegistryResolutionSource) (server : Option (RegistryADKServer r.nfkc))
    (explanations : List RegistryCandidateExplanation) : Outcome r :=
  if h : explanations.length ≤ 20 then .ok ⟨source, server, explanations, h⟩ else .error .valueError

/-- The projection of the artifact, with which a call ends. -/
def complete (choice : Choice r) (artifact : RegistryArtifact r.hashing.writer)
    (source : RegistryResolutionSource) : Outcome r :=
  match r.project artifact call.policy call.context.scopes with
  | .ok server => r.resolution source (some server) (choice.rejected ++ [selection choice.stub])
  | .error (.rejected reason) =>
    r.resolution source none (choice.rejected ++
      [rejection choice.stub [.projection reason] (List.cons_ne_nil _ _) (List.nodup_singleton _)])
  | .error .raised => .error .projection

/-- An artifact of the cache is verified, and projected. -/
def finish (choice : Choice r) (artifact : RegistryArtifact r.hashing.writer)
    (source : RegistryResolutionSource) : Outcome r := do
  r.verify call choice.stub artifact
  r.complete call choice artifact source

/-- Whether stubs or an artifact come from the registry or the cache. -/
def sourceOf (network : Bool) : RegistryResolutionSource := if network then .network else .cache

/-- The choice of a stub. -/
def consider (stubs : List (RegistrySearchStub r.nfkc)) (network : Bool) : Phase r :=
  if call.query.limit < stubs.length then .ended (.error .valueError)
  else
    match choose call.query call.policy stubs with
    | (explanations, none) => .ended (r.resolution (sourceOf network) none explanations)
    | (explanations, some stub) =>
      match r.artifactKeyOf call stub.toStubFields with
      | none => .ended (.error .valueError)
      | some key =>
        let choice := ⟨stub, key, explanations, network⟩
        if r.caching then .reading choice else .fetching choice

/-- `resolve`, up to its first use of the cache or the registry. -/
def start : Phase r :=
  match r.keyOf call with
  | none => .ended (.error .valueError)
  | some key => if r.caching then .looking key else .searching key

/-- What the cache has for a search. -/
def afterLooking (key : RegistrySearchCacheKey) :
    Except CacheError (Option (List (RegistrySearchStub r.nfkc))) → Phase r
  | .error e => .ended (.error e.raised)
  | .ok none => .searching key
  | .ok (some stubs) => r.consider call stubs false

/-- What the registry answers a search. -/
def afterSearching (key : RegistrySearchCacheKey) :
    Except ResolveError (List (RegistrySearchStub r.nfkc)) → Phase r
  | .error e => .ended (.error e)
  | .ok stubs =>
    if call.query.limit < stubs.length then .ended (.error .valueError)
    else if r.caching then .storing key stubs
    else r.consider call stubs true

/-- The stubs are in the cache. -/
def afterStoring (stubs : List (RegistrySearchStub r.nfkc)) : Except CacheError Unit → Phase r
  | .error e => .ended (.error e.raised)
  | .ok () => r.consider call stubs true

/-- What the cache has for the stub. -/
def afterReading (choice : Choice r) :
    Except CacheError (Option (RegistryArtifact r.hashing.writer)) → Phase r
  | .error e => .ended (.error e.raised)
  | .ok none => .fetching choice
  | .ok (some artifact) => .ended (r.finish call choice artifact (sourceOf choice.network))

/-- What the registry answers a fetch. -/
def afterFetching (choice : Choice r) :
    Except ResolveError (RegistryArtifact r.hashing.writer) → Phase r
  | .error e =>
    if e = .unavailable ∧ r.caching ∧ r.cachePolicy.AllowsOffline then .falling choice
    else .ended (.error e)
  | .ok artifact =>
    match r.verify call choice.stub artifact with
    | .error e => .ended (.error e)
    | .ok () =>
      if r.caching then .keeping choice artifact
      else .ended (r.complete call choice artifact .network)

/-- What the cache has for the stub while the registry is unavailable. -/
def afterFalling (choice : Choice r) :
    Except CacheError (Option (RegistryArtifact r.hashing.writer)) → Phase r
  | .error e => .ended (.error e.raised)
  | .ok none => .ended (.error .unavailable)
  | .ok (some artifact) => .ended (r.finish call choice artifact .offline)

/-- The artifact is in the cache. -/
def afterKeeping (choice : Choice r) (artifact : RegistryArtifact r.hashing.writer) :
    Except CacheError Unit → Phase r
  | .error e => .ended (.error e.raised)
  | .ok () => .ended (r.complete call choice artifact .network)

/-- A step of a call: where it is then, and the cache. -/
def act (cache : ResolverCache r) : Phase r → Action r → Option (Phase r × ResolverCache r)
  | .looking key, .getSearch now => some ((cache.getSearch key now).map (r.afterLooking call key) id)
  | .searching key, .searched answer => some (r.afterSearching call key answer, cache)
  | .storing key stubs, .putSearch now =>
    some ((cache.putSearch r.bounds key stubs (r.searchExpiry now)).map (r.afterStoring call stubs) id)
  | .reading choice, .getArtifact now =>
    some ((cache.getArtifact choice.key now false).map (r.afterReading call choice) id)
  | .fetching choice, .fetched answer => some (r.afterFetching call choice answer, cache)
  | .falling choice, .getStale now =>
    some ((cache.getArtifact choice.key now true).map (r.afterFalling call choice) id)
  | .keeping choice artifact, .putArtifact now =>
    some ((cache.putArtifact r.bounds choice.key artifact (r.freshUntil now)
      (r.staleUntil now)).map (r.afterKeeping call choice artifact) id)
  | _, _ => none

end RegistryResolver

/-- The calls of a resolver, from an empty cache. -/
def resolver (r : RegistryResolver) : Machine (ResolverState r) (ResolverEvent r) where
  init := ⟨⟨.empty, .empty⟩, ∅⟩
  step s
    | .resolve i call =>
      if i ∈ s.calls then none
      else some { s with calls := s.calls.insert i (call, r.start call) }
    | .act i action => do
      let (call, phase) ← s.calls.lookup i
      let (phase, cache) ← r.act call s.cache phase action
      some ⟨cache, s.calls.insert i (call, phase)⟩

end Registry

end McpRuntime
