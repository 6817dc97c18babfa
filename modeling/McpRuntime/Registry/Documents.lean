import McpRuntime.Contracts
import McpRuntime.Gateway.Route
import McpRuntime.Registry.Cache
import McpRuntime.Registry.GatewayEndpoint
import McpRuntime.Registry.GoJson

/-!
# Registry documents

What the registry answers a search and a fetch with: stubs and artifacts. Their texts
are visible and bounded, and so are the JSON values in them, which `_freeze_json` copies
into immutable ones.

* `FreezeBounds.freeze`: which values are within the bounds.
* `RegistrySearchStub`, `RegistryArtifact`: what the constructors accept.
* `RegistryArtifact.computedDigest`: the digest of the content of an artifact.
-/

namespace McpRuntime

namespace Registry

/-- The check of `_require_text`, which refuses the character `DEL` too. -/
def IsVisible (maximum : ℕ) (t : Text) : Prop := IsText maximum t ∧ 127 ∉ t

instance (maximum : ℕ) (t : Text) : Decidable (IsVisible maximum t) :=
  inferInstanceAs (Decidable (_ ∧ _))

/-! ## Bounded JSON values -/

/-- The bounds of `_freeze_json`. -/
structure FreezeBounds where
  maxDepth : ℕ := 8
  maxNodes : ℕ := 512
  maxMappingEntries : ℕ := 50
  maxSequenceItems : ℕ := 100
  maxText : ℕ := 512

namespace FreezeBounds

variable (bounds : FreezeBounds)

/-- A value at a depth: how many have been seen with it. -/
def enter (depth seen : ℕ) : Option ℕ :=
  if bounds.maxDepth < depth ∨ bounds.maxNodes < seen + 1 then none else some (seen + 1)

/-- `_freeze_json`, which raises `ValueError` for a value beyond the bounds: how many values
    have been seen. The copy has the same JSON. -/
def freeze : Json → ℕ → ℕ → Option ℕ
  | .null, depth, seen => bounds.enter depth seen
  | .bool _, depth, seen => bounds.enter depth seen
  | .int _, depth, seen => bounds.enter depth seen
  | .float x, depth, seen => do
    let seen ← bounds.enter depth seen
    if x.isFinite then some seen else none
  | .str t, depth, seen => do
    let seen ← bounds.enter depth seen
    if bounds.maxText < t.length then none else some seen
  | .arr items, depth, seen => do
    let seen ← bounds.enter depth seen
    if bounds.maxSequenceItems < items.length then none else freezeItems items (depth + 1) seen
  | .obj members, depth, seen => do
    let seen ← bounds.enter depth seen
    if bounds.maxMappingEntries < members.length then none
    else freezeMembers members (depth + 1) seen
where
  freezeItems : List Json → ℕ → ℕ → Option ℕ
    | [], _, seen => some seen
    | item :: items, depth, seen => do
      let seen ← freeze item depth seen
      freezeItems items depth seen
  freezeMembers : List (Text × Json) → ℕ → ℕ → Option ℕ
    | [], _, seen => some seen
    | (key, item) :: members, depth, seen =>
      if IsVisible 128 key then do
        let seen ← freeze item depth seen
        freezeMembers members depth seen
      else none

/-- The value is within the bounds. -/
def accepts (j : Json) : Bool := (bounds.freeze j 0 0).isSome

end FreezeBounds

/-- The check of `_freeze_text_mapping`. -/
def AreLabels (maximum : ℕ) (labels : List (Text × Text)) : Prop :=
  labels.length ≤ maximum ∧ ∀ label ∈ labels, IsVisible 256 label.1 ∧ IsVisible 512 label.2

instance (maximum : ℕ) (labels : List (Text × Text)) : Decidable (AreLabels maximum labels) :=
  inferInstanceAs (Decidable (_ ∧ _))

/-! ## Queries, stubs and artifacts -/

/-- `_REGISTRY_KINDS`. -/
def registryKinds : List Text :=
  ["Agent", "Blueprint", "Dataset", "EvalSuite", "GatewayResource", "MCPServer", "Prompt", "Skill",
    "Tool", "Workflow"].map lit

/-- `RegistrySearchQuery`. -/
structure RegistrySearchQuery where
  intent : Text
  kinds : List Text := [lit "MCPServer"]
  «namespace» : Option Text := none
  limit : ℕ := 10
  intent_isVisible : IsVisible 512 intent
  kinds_valid : kinds ≠ [] ∧ kinds.Nodup ∧ ∀ kind ∈ kinds, kind ∈ registryKinds
  namespace_isVisible : ∀ t ∈ «namespace», IsVisible 256 t
  limit_range : 1 ≤ limit ∧ limit ≤ maxSearchResults

/-- The path of a fetch, of the API of the registry. -/
def isFetchPath (nfkc : Text → Text) (path : Text) : Bool :=
  match urlsplit nfkc path with
  | none => false
  | some parsed =>
    path ≠ [] && path.length ≤ 2048 && parsed.scheme = [] && parsed.netloc = [] &&
      parsed.fragment = [] && (lit "/v0/").isPrefixOf parsed.path &&
      !(lit "//").isPrefixOf parsed.path && !path.contains 92

/-- The fields of a stub. -/
structure StubFields where
  kind : Text
  name : Text
  «namespace» : Text
  tag : Text
  arn : Text
  digest : Text
  ref : Text
  fetchPath : Text
  title : Text := []
  description : Text := []
  visibility : Text := []
  labels : List (Text × Text) := []
  annotations : List (Text × Text) := []
  attributes : List (Text × Json) := []

/-- The checks of `RegistrySearchStub`. -/
def StubFields.Valid (nfkc : Text → Text) (s : StubFields) : Prop :=
  s.kind ∈ registryKinds ∧ IsVisible 512 s.name ∧ IsVisible 256 s.namespace ∧
    IsVisible 256 s.tag ∧ IsVisible 2048 s.arn ∧ IsVisible 2048 s.ref ∧
    Gateway.isRegistryDigest s.digest ∧ (s.title ≠ [] → IsVisible 512 s.title) ∧
    (s.description ≠ [] → IsVisible 512 s.description) ∧
    (s.visibility ≠ [] → IsVisible 64 s.visibility) ∧ isFetchPath nfkc s.fetchPath ∧
    ({} : FreezeBounds).accepts (.obj s.attributes) ∧ AreLabels 50 s.labels ∧
    AreLabels 50 s.annotations

instance (nfkc : Text → Text) (s : StubFields) : Decidable (s.Valid nfkc) :=
  inferInstanceAs (Decidable (_ ∧ _))

/-- `RegistrySearchStub`. -/
structure RegistrySearchStub (nfkc : Text → Text) extends StubFields where
  valid : toStubFields.Valid nfkc

/-- The fields of an artifact. -/
structure ArtifactFields extends ArtifactContent where
  apiVersion : Text
  arn : Text
  digest : Text
  ref : Text

/-- The bounds of the specification of an artifact. -/
def specBounds : FreezeBounds where
  maxDepth := 32
  maxNodes := 32768
  maxMappingEntries := 1024
  maxSequenceItems := 1024
  maxText := 16384

/-- The checks of `RegistryArtifact`. -/
def ArtifactFields.Valid (writer : JsonWriter) (a : ArtifactFields) : Prop :=
  a.apiVersion = lit "registry.agentic.dev/v1alpha1" ∧ a.kind ∈ registryKinds ∧
    IsVisible 512 a.name ∧ IsVisible 256 a.namespace ∧ IsVisible 256 a.tag ∧
    IsVisible 2048 a.arn ∧ IsVisible 2048 a.ref ∧ Gateway.isRegistryDigest a.digest ∧
    specBounds.accepts (.obj a.spec) ∧
    ((goJson writer (.obj a.spec)).any fun t => t.Encodable && t.utf8Length ≤ 524288) ∧
    AreLabels 256 a.labels

instance (writer : JsonWriter) (a : ArtifactFields) : Decidable (a.Valid writer) :=
  inferInstanceAs (Decidable (_ ∧ _))

/-- `RegistryArtifact`. -/
structure RegistryArtifact (writer : JsonWriter) extends ArtifactFields where
  valid : toArtifactFields.Valid writer

/-- `computed_digest`, which gives no value where it raises. -/
def RegistryArtifact.computedDigest {hashing : Hashing} (a : RegistryArtifact hashing.writer) :
    Option Text :=
  a.toArtifactContent.digest hashing

end Registry

end McpRuntime
