import McpRuntime.Gateway.Eligibility
import McpRuntime.Python.JsonFields
import McpRuntime.Python.Counter
import McpRuntime.Python.JsonEquality
import Mathlib.Tactic.MkIffOfInductiveProp

/-!
# Desired state of the gateway

A snapshot is the complete desired state of the gateway: the routes and the
tenants in canonical order, their counts, and a digest of all of it.

* `GatewayReconciliationSnapshot`: a snapshot that its validators accept.
* `same_content`: the digest determines the content of a snapshot, unless
  SHA-256 collides.
-/

namespace McpRuntime.Gateway

/-- `_REQUEST_ID`. -/
def isRequestId (t : Text) : Bool :=
  t.head?.any CodePoint.isAlphanumeric &&
    t.all (fun c => c.isAlphanumeric || (lit "._:/@+-").contains c) && t.length ≤ 256

/-- `_MAX_GENERATION` bounds a generation. -/
def isGeneration (generation : ℕ) : Bool := 1 ≤ generation && generation < 2 ^ 63

/-- `_SCHEMA_VERSION`, the only one. -/
inductive SchemaVersion
  | v1alpha1
  deriving DecidableEq

/-- `GatewayTenantState.value`. -/
def GatewayTenantState.value : GatewayTenantState → Text
  | .ready => lit "ready"
  | .pending => lit "pending"
  | .suspended => lit "suspended"
  | .deactivated => lit "deactivated"

/-- Payload-free desired route identity bound to one active immutable artifact. -/
@[ext]
structure GatewayRouteRecord (hashing : Hashing) where
  ref : Text
  tenantId : Text
  serverName : Text
  registryDigest : Text
  artifactDigest : Text
  renderedDigest : Text
  resourceCount : ℕ
  activationGeneration : ℕ
  identityDigest : Text
  resourceName : Text
  routePath : Text
  scope : Text
  policyName : Text
  digests_valid : isRegistryDigest registryDigest ∧ isRegistryDigest artifactDigest ∧
    isRegistryDigest renderedDigest
  resourceCount_bounded : 3 ≤ resourceCount ∧ resourceCount ≤ 4
  generation_valid : isGeneration activationGeneration
  /-- The derived identity has valid fields. -/
  identity_is_registry_derived : deriveGatewayRouteIdentity hashing tenantId serverName =
    some { tenantId, serverName, identityDigest, resourceName, routePath, scope }
  policyName_eq : policyName = resourceName
  ref_matches : ref.length ≤ 512 ∧ matchesRef ref tenantId serverName

/-- Explicit per-tenant completeness and prune authority for one generation. Its
    field `complete` is true. -/
@[ext]
structure GatewayTenantSnapshot where
  tenantId : Text
  generation : ℕ
  state : GatewayTenantState
  desiredRouteCount : ℕ
  pruneAuthorized : Bool
  requestId : Text
  tenantId_isDnsLabel : isDnsLabel tenantId
  generation_valid : isGeneration generation
  desiredRouteCount_le : desiredRouteCount ≤ 1000
  requestId_valid : isRequestId requestId
  nonready_tenant_has_no_routes : state ≠ .ready → desiredRouteCount = 0
  pending_cannot_authorize_pruning : state = .pending → pruneAuthorized = false

variable {hashing : Hashing}

instance : DecidableEq (GatewayRouteRecord hashing) :=
  fun _ _ => decidable_of_iff _ GatewayRouteRecord.ext_iff.symm

instance : DecidableEq GatewayTenantSnapshot :=
  fun _ _ => decidable_of_iff _ GatewayTenantSnapshot.ext_iff.symm

/-- `model_dump(mode="json", by_alias=True)`. -/
def GatewayRouteRecord.document (route : GatewayRouteRecord hashing) : Json :=
  .obj [(lit "ref", .str route.ref), (lit "tenantId", .str route.tenantId),
    (lit "serverName", .str route.serverName), (lit "registryDigest", .str route.registryDigest),
    (lit "artifactDigest", .str route.artifactDigest),
    (lit "renderedDigest", .str route.renderedDigest),
    (lit "resourceCount", .int route.resourceCount),
    (lit "activationGeneration", .int route.activationGeneration),
    (lit "identityDigest", .str route.identityDigest),
    (lit "resourceName", .str route.resourceName), (lit "routePath", .str route.routePath),
    (lit "scope", .str route.scope), (lit "policyName", .str route.policyName)]

/-- `model_dump(mode="json", by_alias=True)`. -/
def GatewayTenantSnapshot.document (tenant : GatewayTenantSnapshot) : Json :=
  .obj [(lit "tenantId", .str tenant.tenantId), (lit "generation", .int tenant.generation),
    (lit "state", .str tenant.state.value),
    (lit "desiredRouteCount", .int tenant.desiredRouteCount), (lit "complete", .bool true),
    (lit "pruneAuthorized", .bool tenant.pruneAuthorized), (lit "requestId", .str tenant.requestId)]

/-- The sum of the resources of the routes. -/
def totalResources (routes : List (GatewayRouteRecord hashing)) : ℕ :=
  (routes.map GatewayRouteRecord.resourceCount).sum

/-- What the digest of a snapshot is taken of. -/
def snapshotDocument (environment : Text) (generation : ℕ)
    (routes : List (GatewayRouteRecord hashing)) (tenants : List GatewayTenantSnapshot) : Json :=
  .obj [(lit "complete", .bool true), (lit "environment", .str environment),
    (lit "generation", .int generation), (lit "routeCount", .int routes.length),
    (lit "resourceCount", .int (totalResources routes)),
    (lit "routes", .arr (routes.map GatewayRouteRecord.document)),
    (lit "schemaVersion", .str (lit "v1alpha1")), (lit "tenantCount", .int tenants.length),
    (lit "tenants", .arr (tenants.map GatewayTenantSnapshot.document))]

/-- `_gateway_snapshot_digest`. All texts of the document are ASCII, so none is
    written with an escape that a canonical text does not have. -/
def gatewaySnapshotDigest (environment : Text) (generation : ℕ)
    (routes : List (GatewayRouteRecord hashing)) (tenants : List GatewayTenantSnapshot) :
    Option Text :=
  (hashing.writer.dumps (snapshotDocument environment generation routes tenants)).map
    fun encoded => lit "sha256:" ++ (hashing.sha256 encoded).text

/-- `sorted(routes, key=lambda item: item.resource_name)`. -/
def sortedRoutes (routes : List (GatewayRouteRecord hashing)) : List (GatewayRouteRecord hashing) :=
  routes.insertionSort fun route route' => route.resourceName ≤ route'.resourceName

/-- `sorted(tenants, key=lambda item: item.tenant_id)`. -/
def sortedTenants (tenants : List GatewayTenantSnapshot) : List GatewayTenantSnapshot :=
  tenants.insertionSort fun tenant tenant' => tenant.tenantId ≤ tenant'.tenantId

/-- The fields of a snapshot, whose field `complete` is true. -/
@[ext]
structure SnapshotFields (hashing : Hashing) where
  schemaVersion : SchemaVersion := .v1alpha1
  environment : Text
  generation : ℕ
  observedAt : Text
  routeCount : ℕ
  resourceCount : ℕ
  tenantCount : ℕ
  routes : List (GatewayRouteRecord hashing)
  tenants : List GatewayTenantSnapshot
  snapshotDigest : Text
  requestId : Text

/-- What the fields of a snapshot have to be: the constraints on each of them, and
    `snapshot_is_complete_and_canonical`. -/
@[mk_iff]
structure SnapshotFields.Valid (fields : SnapshotFields hashing) : Prop where
  environment : isEnvironment fields.environment
  generation : isGeneration fields.generation
  observedAt : (DateTime.canonicalTimestamp fields.observedAt).isSome
  routeCount_le : fields.routeCount ≤ 1000
  resourceCount_le : fields.resourceCount ≤ 4000
  tenantCount_le : fields.tenantCount ≤ 1000
  digest : isRegistryDigest fields.snapshotDigest
  requestId : isRequestId fields.requestId
  routeCount_eq : fields.routeCount = fields.routes.length
  resourceCount_eq : fields.resourceCount = totalResources fields.routes
  tenantCount_eq : fields.tenantCount = fields.tenants.length
  routes_canonical : fields.routes = sortedRoutes fields.routes
  tenants_canonical : fields.tenants = sortedTenants fields.tenants
  routes_unique : (fields.routes.map GatewayRouteRecord.ref).Nodup ∧
    (fields.routes.map GatewayRouteRecord.identityDigest).Nodup ∧
    (fields.routes.map GatewayRouteRecord.resourceName).Nodup ∧
    (fields.routes.map GatewayRouteRecord.routePath).Nodup ∧
    (fields.routes.map GatewayRouteRecord.scope).Nodup
  tenants_unique : (fields.tenants.map GatewayTenantSnapshot.tenantId).Nodup
  routes_ready : ∀ route ∈ fields.routes,
    ((fields.tenants.find? fun tenant => tenant.tenantId = route.tenantId).any
      fun tenant => tenant.state = .ready) = true
  desired_counts : ∀ tenant ∈ fields.tenants,
    tenant.desiredRouteCount = occurrences tenant.tenantId (fields.routes.map GatewayRouteRecord.tenantId)
  digest_matches : gatewaySnapshotDigest fields.environment fields.generation fields.routes
    fields.tenants = some fields.snapshotDigest

instance (fields : SnapshotFields hashing) : Decidable fields.Valid :=
  decidable_of_iff _ fields.valid_iff.symm

/-- One complete, canonical desired state assembled before apply or prune. -/
@[ext]
structure GatewayReconciliationSnapshot (hashing : Hashing) extends SnapshotFields hashing where
  valid : toSnapshotFields.Valid

/-- `GatewayReconciliationSnapshot.create`. -/
def GatewayReconciliationSnapshot.create (environment : Text) (generation : ℕ) (observedAt : Text)
    (routes : List (GatewayRouteRecord hashing)) (tenants : List GatewayTenantSnapshot)
    (requestId : Text) : Option (GatewayReconciliationSnapshot hashing) := do
  let orderedRoutes := sortedRoutes routes
  let orderedTenants := sortedTenants tenants
  let snapshotDigest ← gatewaySnapshotDigest environment generation orderedRoutes orderedTenants
  let fields : SnapshotFields hashing := {
    environment
    generation
    observedAt
    routeCount := orderedRoutes.length
    resourceCount := totalResources orderedRoutes
    tenantCount := orderedTenants.length
    routes := orderedRoutes
    tenants := orderedTenants
    snapshotDigest
    requestId }
  if h : fields.Valid then some ⟨fields, h⟩ else none

/-! ## Documents -/

/-- The document of a route determines it. -/
theorem GatewayRouteRecord.document_inj {route route' : GatewayRouteRecord hashing}
    (h : route.document.Same route'.document) : route = route' := by
  have hfields := Json.same_members h rfl (of_decide_eq_true rfl)
  simp only [List.forall₂_cons, List.forall₂_nil_left_iff, Json.same_str, Json.same_int, Nat.cast_inj,
    and_true] at hfields
  obtain ⟨href, htenant, hname, hregistry, hartifact, hrendered, hcount, hgeneration, hidentity,
    hresource, hpath, hscope, hpolicy⟩ := hfields
  exact GatewayRouteRecord.ext href htenant hname hregistry hartifact hrendered hcount hgeneration
    hidentity hresource hpath hscope hpolicy

theorem GatewayTenantState.value_inj {state state' : GatewayTenantState}
    (h : state.value = state'.value) : state = state' := by
  revert h
  cases state <;> cases state' <;> decide

/-- The document of a tenant determines it. -/
theorem GatewayTenantSnapshot.document_inj {tenant tenant' : GatewayTenantSnapshot}
    (h : tenant.document.Same tenant'.document) : tenant = tenant' := by
  have hfields := Json.same_members h rfl (of_decide_eq_true rfl)
  simp only [List.forall₂_cons, List.forall₂_nil_left_iff, Json.same_str, Json.same_int,
    Json.same_bool, Nat.cast_inj, and_true, true_and] at hfields
  obtain ⟨htenant, hgeneration, hstate, hcount, hprune, hrequest⟩ := hfields
  exact GatewayTenantSnapshot.ext htenant hgeneration (GatewayTenantState.value_inj hstate) hcount
    hprune hrequest

/-- The document of a snapshot determines what it is taken of. -/
theorem snapshotDocument_inj {environment environment' : Text} {generation generation' : ℕ}
    {routes routes' : List (GatewayRouteRecord hashing)} {tenants tenants' : List GatewayTenantSnapshot}
    (h : (snapshotDocument environment generation routes tenants).Same
      (snapshotDocument environment' generation' routes' tenants')) :
    environment = environment' ∧ generation = generation' ∧ routes = routes' ∧
      tenants = tenants' := by
  have hfields := Json.same_members h rfl (of_decide_eq_true rfl)
  simp only [List.forall₂_cons, List.forall₂_nil_left_iff, Json.same_str, Json.same_int,
    Json.same_bool, Nat.cast_inj, and_true, true_and] at hfields
  obtain ⟨henvironment, hgeneration, -, -, hroutes, -, htenants⟩ := hfields
  exact ⟨henvironment, hgeneration,
    Json.map_eq_of_same (fun _ _ _ _ => GatewayRouteRecord.document_inj) hroutes,
    Json.map_eq_of_same (fun _ _ _ _ => GatewayTenantSnapshot.document_inj) htenants⟩

namespace GatewayReconciliationSnapshot

variable {snapshot snapshot' : GatewayReconciliationSnapshot hashing}

/-- What the digest of the snapshot is taken of. -/
def document (snapshot : GatewayReconciliationSnapshot hashing) : Json :=
  snapshotDocument snapshot.environment snapshot.generation snapshot.routes snapshot.tenants

theorem eq_of_fields (h : snapshot.toSnapshotFields = snapshot'.toSnapshotFields) :
    snapshot = snapshot' := by
  cases snapshot
  cases snapshot'
  cases h
  rfl

/-- Snapshots with one digest have one content, unless their documents collide. -/
theorem same_content (h : snapshot.snapshotDigest = snapshot'.snapshotDigest)
    (hcollision : hashing.NoCollision snapshot.document snapshot'.document) :
    snapshot.environment = snapshot'.environment ∧ snapshot.generation = snapshot'.generation ∧
      snapshot.routes = snapshot'.routes ∧ snapshot.tenants = snapshot'.tenants := by
  obtain ⟨encoded, hencoded, hdigest⟩ := Option.map_eq_some_iff.1 snapshot.valid.digest_matches
  obtain ⟨encoded', hencoded', hdigest'⟩ := Option.map_eq_some_iff.1 snapshot'.valid.digest_matches
  have hsha : hashing.sha256 encoded = hashing.sha256 encoded' :=
    Digest.ext (List.append_cancel_left (hdigest.trans (h.trans hdigest'.symm)))
  have heq : encoded = encoded' := hcollision _ _ hencoded hencoded' hsha
  exact snapshotDocument_inj (JsonWriter.same_of_dumps hencoded (heq ▸ hencoded'))

/-- A snapshot is what its content and its identity make it. -/
theorem ext_content (hobserved : snapshot.observedAt = snapshot'.observedAt)
    (hrequest : snapshot.requestId = snapshot'.requestId)
    (hdigest : snapshot.snapshotDigest = snapshot'.snapshotDigest)
    (hcontent : snapshot.environment = snapshot'.environment ∧
      snapshot.generation = snapshot'.generation ∧ snapshot.routes = snapshot'.routes ∧
        snapshot.tenants = snapshot'.tenants) : snapshot = snapshot' := by
  obtain ⟨henvironment, hgeneration, hroutes, htenants⟩ := hcontent
  have h := snapshot.valid
  have h' := snapshot'.valid
  ext1
  · cases snapshot.schemaVersion
    cases snapshot'.schemaVersion
    rfl
  · exact henvironment
  · exact hgeneration
  · exact hobserved
  · rw [h.routeCount_eq, h'.routeCount_eq, hroutes]
  · rw [h.resourceCount_eq, h'.resourceCount_eq, hroutes]
  · rw [h.tenantCount_eq, h'.tenantCount_eq, htenants]
  · exact hroutes
  · exact htenants
  · exact hdigest
  · exact hrequest

/-- A snapshot is created of its content, and of nothing else with this digest. -/
theorem create_eq_some {environment observedAt requestId : Text} {generation : ℕ}
    {routes : List (GatewayRouteRecord hashing)} {tenants : List GatewayTenantSnapshot} :
    create environment generation observedAt routes tenants requestId = some snapshot ↔
      snapshot.environment = environment ∧ snapshot.generation = generation ∧
        snapshot.observedAt = observedAt ∧ snapshot.requestId = requestId ∧
        snapshot.routes = sortedRoutes routes ∧ snapshot.tenants = sortedTenants tenants := by
  rw [create]
  simp only [Option.bind_eq_bind, Option.bind_eq_some_iff]
  constructor
  · rintro ⟨digest, -, h⟩
    split_ifs at h
    cases h
    exact ⟨rfl, rfl, rfl, rfl, rfl, rfl⟩
  · rintro ⟨rfl, rfl, rfl, rfl, hroutes, htenants⟩
    have hvalid := snapshot.valid
    refine ⟨snapshot.snapshotDigest, by rw [← hroutes, ← htenants]; exact hvalid.digest_matches, ?_⟩
    -- The counts of a valid snapshot are those of its routes and tenants.
    have hfields : ({
        environment := snapshot.environment
        generation := snapshot.generation
        observedAt := snapshot.observedAt
        routeCount := (sortedRoutes routes).length
        resourceCount := totalResources (sortedRoutes routes)
        tenantCount := (sortedTenants tenants).length
        routes := sortedRoutes routes
        tenants := sortedTenants tenants
        snapshotDigest := snapshot.snapshotDigest
        requestId := snapshot.requestId } : SnapshotFields hashing) = snapshot.toSnapshotFields := by
      rw [← hroutes, ← htenants]
      ext1
      · cases snapshot.schemaVersion
        rfl
      · rfl
      · rfl
      · rfl
      · exact hvalid.routeCount_eq.symm
      · exact hvalid.resourceCount_eq.symm
      · exact hvalid.tenantCount_eq.symm
      all_goals rfl
    rw [dif_pos (hfields ▸ hvalid)]
    exact congrArg some (eq_of_fields hfields)

end GatewayReconciliationSnapshot

end McpRuntime.Gateway
