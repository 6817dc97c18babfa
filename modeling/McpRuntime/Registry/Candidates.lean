import McpRuntime.Manifest.Compiler
import McpRuntime.Python.JsonFields
import McpRuntime.Registry.Projection

/-!
# Candidates of a resolution

A search is answered with stubs in the order of the registry. The first one that is of the
kind, the namespace and the capabilities that are asked for is resolved; those before it are
explained.

* `choose_eq_some`, `choose_eq_none`: which stub is chosen, and what is explained.
* `same_of_searchKey`, `sameAuthority_of_artifactKey`: what two calls have in common when they
  have the same key in the cache.
-/

namespace McpRuntime

namespace Registry

/-! ## Explanations -/

/-- `RegistryCandidateDecision`. -/
inductive RegistryCandidateDecision
  | selected
  | rejected
  deriving DecidableEq

/-- `RegistryCandidateReason`. -/
inductive RegistryCandidateReason
  | kind
  | namespace
  /-- A reason that a projection gives too. -/
  | projection (reason : CandidateReason)
  deriving DecidableEq

/-- `RegistryCandidateExplanation`. -/
structure RegistryCandidateExplanation where
  ref : Text
  decision : RegistryCandidateDecision
  reasons : List RegistryCandidateReason := []
  ref_isVisible : IsVisible 2048 ref
  reasons_nodup : reasons.Nodup
  selected_iff : decision = .selected ↔ reasons = []

section
variable {nfkc : Text → Text} (query : RegistrySearchQuery) (policy : ResolutionPolicy nfkc)

/-- The capabilities that a stub advertises. -/
def advertised (stub : StubFields) : List Text :=
  let listed := (stub.annotations.lookup (lit "discovery.agentic.dev/capabilities")).getD []
  ((listed.split 44).map Text.strip).filter (· ≠ []) ++
    (textTuple (Json.pyGet (lit "capabilities") stub.attributes)).getD []

/-- `_stub_reasons`. -/
def stubReasons (stub : StubFields) : List RegistryCandidateReason :=
  (if stub.kind ≠ lit "MCPServer" ∨ stub.kind ∉ query.kinds then [.kind] else []) ++
    (if query.namespace.any (· ≠ stub.namespace) then [.namespace] else []) ++
      if policy.requiredCapabilities.all (advertised stub).contains then []
      else [.projection .capability]

theorem nodup_stubReasons (stub : StubFields) : (stubReasons query policy stub).Nodup := by
  rw [stubReasons]
  split_ifs <;> simp

theorem RegistrySearchStub.ref_isVisible (stub : RegistrySearchStub nfkc) :
    IsVisible 2048 stub.ref :=
  stub.valid.2.2.2.2.2.1

/-- The explanation of a stub that is not chosen. -/
def rejection (stub : RegistrySearchStub nfkc) (reasons : List RegistryCandidateReason)
    (h : reasons ≠ []) (hnodup : reasons.Nodup) : RegistryCandidateExplanation where
  ref := stub.ref
  decision := .rejected
  reasons
  ref_isVisible := stub.ref_isVisible
  reasons_nodup := hnodup
  selected_iff := iff_of_false RegistryCandidateDecision.noConfusion h

/-- The explanation of the stub that is chosen. -/
def selection (stub : RegistrySearchStub nfkc) : RegistryCandidateExplanation where
  ref := stub.ref
  decision := .selected
  ref_isVisible := stub.ref_isVisible
  reasons_nodup := List.nodup_nil
  selected_iff := iff_of_true rfl rfl

/-- The explanations of the stubs before the first one without reasons, and this one. -/
def choose : List (RegistrySearchStub nfkc) →
    List RegistryCandidateExplanation × Option (RegistrySearchStub nfkc)
  | [] => ([], none)
  | stub :: stubs =>
    if h : stubReasons query policy stub.toStubFields = [] then ([], some stub)
    else
      let (explanations, selected) := choose stubs
      (rejection stub _ h (nodup_stubReasons query policy _) :: explanations, selected)

/-- The explanation of a stub gives the reasons why it is not chosen. -/
structure Rejects (stub : RegistrySearchStub nfkc) (explanation : RegistryCandidateExplanation) :
    Prop where
  ref : explanation.ref = stub.ref
  decision : explanation.decision = .rejected
  reasons : explanation.reasons = stubReasons query policy stub.toStubFields

variable {query policy} {stubs : List (RegistrySearchStub nfkc)}
  {explanations : List RegistryCandidateExplanation}

/-- The stub that is chosen has no reasons against it, unlike all before it, which are
    explained. -/
theorem choose_eq_some {stub : RegistrySearchStub nfkc}
    (h : choose query policy stubs = (explanations, some stub)) :
    ∃ before after, stubs = before ++ stub :: after ∧
      stubReasons query policy stub.toStubFields = [] ∧
      before.Forall₂ (Rejects query policy) explanations := by
  induction stubs generalizing explanations with
  | nil => cases h
  | cons first stubs ih =>
    rw [choose] at h
    -- The first stub is chosen, or it is explained and the search goes on behind it.
    split_ifs at h with hreasons
    · cases h
      exact ⟨[], stubs, rfl, hreasons, .nil⟩
    · obtain ⟨hexplanations, hselected⟩ := Prod.mk.injEq .. ▸ h
      obtain ⟨before, after, hstubs, hstub, hbefore⟩ := ih (Prod.ext rfl hselected)
      exact ⟨first :: before, after, congrArg _ hstubs, hstub,
        hexplanations ▸ .cons ⟨rfl, rfl, rfl⟩ hbefore⟩

/-- Where no stub is chosen, all of them are explained. -/
theorem choose_eq_none (h : choose query policy stubs = (explanations, none)) :
    stubs.Forall₂ (Rejects query policy) explanations := by
  induction stubs generalizing explanations with
  | nil =>
    cases h
    exact .nil
  | cons first stubs ih =>
    rw [choose] at h
    split_ifs at h
    · cases h
    · obtain ⟨hexplanations, hselected⟩ := Prod.mk.injEq .. ▸ h
      exact hexplanations ▸ .cons ⟨rfl, rfl, rfl⟩ (ih (Prod.ext rfl hselected))

end

/-! ## The keys of the cache -/

/-- `_QUERY_CONTRACT_VERSION`. -/
def queryContractVersion : Text := lit "registry-v0-search-stub-v1"

/-- `RegistrySearchCacheKey`. -/
structure RegistrySearchCacheKey where
  origin : Text
  identityScopeHash : Text
  contractVersion : Text
  queryDigest : Text
  deriving DecidableEq

/-- The checks of `RegistrySearchCacheKey`. -/
def RegistrySearchCacheKey.Valid (nfkc : Text → Text) (key : RegistrySearchCacheKey) : Prop :=
  canonicalHttpsOrigin nfkc key.origin = some key.origin ∧ isDigest key.identityScopeHash ∧
    isDigest key.queryDigest ∧ key.contractVersion = queryContractVersion

instance (nfkc : Text → Text) (key : RegistrySearchCacheKey) : Decidable (key.Valid nfkc) :=
  inferInstanceAs (Decidable (_ ∧ _))

/-- `RegistryArtifactCacheKey`. -/
structure RegistryArtifactCacheKey where
  origin : Text
  identityScopeHash : Text
  contractVersion : Text
  artifactDigest : Text
  deriving DecidableEq

/-- The checks of `RegistryArtifactCacheKey`. -/
def RegistryArtifactCacheKey.Valid (nfkc : Text → Text) (key : RegistryArtifactCacheKey) : Prop :=
  canonicalHttpsOrigin nfkc key.origin = some key.origin ∧ isDigest key.identityScopeHash ∧
    key.contractVersion = queryContractVersion ∧ Gateway.isRegistryDigest key.artifactDigest

instance (nfkc : Text → Text) (key : RegistryArtifactCacheKey) : Decidable (key.Valid nfkc) :=
  inferInstanceAs (Decidable (_ ∧ _))

/-- What `_identity_scope_hash` hashes. -/
def identityDocument (context : CallContext) : Json :=
  .obj [(lit "issuer", .str context.issuer), (lit "tenant", .str context.tenant),
    (lit "subject", .str context.subject), (lit "scopes", Manifest.sortedStrings context.scopes)]

/-- What the digest of a query is made of. -/
def queryDocument (query : RegistrySearchQuery) : Json :=
  .obj [(lit "intent", .str query.intent), (lit "kinds", .arr (query.kinds.map .str)),
    (lit "namespace", (query.namespace.map .str).getD .null), (lit "limit", .int query.limit),
    (lit "view", .str (lit "stub"))]

namespace Projector

variable (projector : Projector) (origin : Text)

/-- `_search_key`, for the registry at an origin. -/
def searchKey (query : RegistrySearchQuery) (context : CallContext) :
    Option RegistrySearchCacheKey := do
  let identityScopeHash ← projector.hashing.fingerprint (identityDocument context)
  let queryDigest ← projector.hashing.fingerprint (queryDocument query)
  let key : RegistrySearchCacheKey :=
    ⟨origin, identityScopeHash, queryContractVersion, queryDigest⟩
  if key.Valid projector.nfkc then some key else none

/-- `_artifact_key`, for the registry at an origin. -/
def artifactKey (stub : StubFields) (context : CallContext) : Option RegistryArtifactCacheKey := do
  let identityScopeHash ← projector.hashing.fingerprint (identityDocument context)
  let key : RegistryArtifactCacheKey :=
    ⟨origin, identityScopeHash, queryContractVersion, stub.digest⟩
  if key.Valid projector.nfkc then some key else none

end Projector

/-! ## What calls with the same key have in common -/

/-- Two callers have the same authority. -/
structure SameAuthority (context context' : CallContext) : Prop where
  issuer : context.issuer = context'.issuer
  tenant : context.tenant = context'.tenant
  subject : context.subject = context'.subject
  scopes : context.scopes.Perm context'.scopes

/-- Two queries ask for the same. -/
structure SameQuery (query query' : RegistrySearchQuery) : Prop where
  intent : query.intent = query'.intent
  kinds : query.kinds = query'.kinds
  «namespace» : query.namespace = query'.namespace
  limit : query.limit = query'.limit

/-- Arrays of texts with one canonical form have the same texts. -/
theorem texts_of_same {texts texts' : List Text}
    (h : (Json.arr (texts.map .str)).Same (.arr (texts'.map .str))) : texts = texts' :=
  Json.map_eq_of_same (fun _ _ _ _ => Json.same_str.1) h

theorem sameAuthority_of_same {context context' : CallContext}
    (h : (identityDocument context).Same (identityDocument context')) :
    SameAuthority context context' := by
  have hfields := Json.same_members h rfl (of_decide_eq_true rfl)
  simp only [List.forall₂_cons, Json.same_str] at hfields
  obtain ⟨hissuer, htenant, hsubject, hscopes, -⟩ := hfields
  have hperm (values : List Text) : (Manifest.sortedTexts values).Perm values :=
    List.perm_insertionSort _ _
  have hsorted := texts_of_same hscopes
  exact ⟨hissuer, htenant, hsubject, (hperm _).symm.trans (hsorted ▸ hperm _)⟩

theorem sameQuery_of_same {query query' : RegistrySearchQuery}
    (h : (queryDocument query).Same (queryDocument query')) : SameQuery query query' := by
  have hfields := Json.same_members h rfl (of_decide_eq_true rfl)
  simp only [List.forall₂_cons, Json.same_str, Json.same_int] at hfields
  obtain ⟨hintent, hkinds, hnamespace, hlimit, -⟩ := hfields
  refine ⟨hintent, texts_of_same hkinds, ?_, Int.ofNat_inj.1 hlimit⟩
  -- A missing namespace is `null` in the document, and no text is.
  cases hns : query.namespace with
  | none =>
    cases hns' : query'.namespace with
    | none => rfl
    | some t =>
      rw [hns, hns'] at hnamespace
      cases hnamespace
  | some t =>
    cases hns' : query'.namespace with
    | none =>
      rw [hns, hns'] at hnamespace
      cases hnamespace
    | some t' =>
      rw [hns, hns'] at hnamespace
      exact congrArg some (Json.same_str.1 hnamespace)

namespace Projector

variable {projector : Projector} {origin : Text} {query query' : RegistrySearchQuery}
  {context context' : CallContext}

theorem searchKey_eq_some {key : RegistrySearchCacheKey}
    (h : projector.searchKey origin query context = some key) :
    projector.hashing.fingerprint (identityDocument context) = some key.identityScopeHash ∧
      projector.hashing.fingerprint (queryDocument query) = some key.queryDigest := by
  obtain ⟨identityScopeHash, hidentity, h⟩ := Option.bind_eq_some_iff.1 h
  obtain ⟨queryDigest, hquery, h⟩ := Option.bind_eq_some_iff.1 h
  dsimp only at h
  split_ifs at h
  cases h
  exact ⟨hidentity, hquery⟩

theorem artifactKey_eq_some {stub : StubFields} {key : RegistryArtifactCacheKey}
    (h : projector.artifactKey origin stub context = some key) :
    projector.hashing.fingerprint (identityDocument context) = some key.identityScopeHash ∧
      key.artifactDigest = stub.digest := by
  obtain ⟨identityScopeHash, hidentity, h⟩ := Option.bind_eq_some_iff.1 h
  dsimp only at h
  split_ifs at h
  cases h
  exact ⟨hidentity, rfl⟩

/-- Searches with the same key are those of one authority for one query, unless their
    documents collide. -/
theorem same_of_searchKey {key : RegistrySearchCacheKey}
    (h : projector.searchKey origin query context = some key)
    (h' : projector.searchKey origin query' context' = some key)
    (hidentity : projector.hashing.NoCollision (identityDocument context) (identityDocument context'))
    (hquery : projector.hashing.NoCollision (queryDocument query) (queryDocument query')) :
    SameAuthority context context' ∧ SameQuery query query' := by
  obtain ⟨hi, hq⟩ := searchKey_eq_some h
  obtain ⟨hi', hq'⟩ := searchKey_eq_some h'
  exact ⟨sameAuthority_of_same (Hashing.same_of_fingerprint hi hi' hidentity),
    sameQuery_of_same (Hashing.same_of_fingerprint hq hq' hquery)⟩

/-- Artifacts with the same key are those of one authority, unless its documents collide. -/
theorem sameAuthority_of_artifactKey {stub stub' : StubFields} {key : RegistryArtifactCacheKey}
    (h : projector.artifactKey origin stub context = some key)
    (h' : projector.artifactKey origin stub' context' = some key)
    (hidentity : projector.hashing.NoCollision (identityDocument context) (identityDocument context')) :
    SameAuthority context context' :=
  sameAuthority_of_same (Hashing.same_of_fingerprint (artifactKey_eq_some h).1
    (artifactKey_eq_some h').1 hidentity)

end Projector

end Registry

end McpRuntime
