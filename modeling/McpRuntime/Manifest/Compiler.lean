import McpRuntime.Gateway.Eligibility
import McpRuntime.Python.IndentedJson

/-!
# The manifest compiler

`compile_manifests` makes two documents of an authoring manifest: the portable
`server.json`, and the manifest for the registry, whose `spec` is the portable
document with an extension and a reference to credentials.
`extract_server_json` takes the portable document out again.

Documents are canonical JSON in UTF-8; they are modelled by the text that their
bytes encode.
-/

namespace McpRuntime

namespace Manifest

open Gateway (ManifestLifecycle ManifestVisibility)

/-! ## The authoring manifest -/

/-- `ManifestLifecycle.value`. -/
def lifecycleValue : ManifestLifecycle → Text
  | .active => lit "active"
  | .deprecated => lit "deprecated"

/-- `ManifestVisibility.value`. -/
def visibilityValue : ManifestVisibility → Text
  | .public => lit "public"
  | .internal => lit "internal"
  | .private => lit "private"

/-- `RuntimeAdapter`. -/
inductive RuntimeAdapter
  | native
  | adk

def RuntimeAdapter.value : RuntimeAdapter → Text
  | .native => lit "native"
  | .adk => lit "adk"

/-- `DiscoveryRisk`. -/
inductive DiscoveryRisk
  | low
  | medium
  | high
  | critical

def DiscoveryRisk.value : DiscoveryRisk → Text
  | .low => lit "low"
  | .medium => lit "medium"
  | .high => lit "high"
  | .critical => lit "critical"

/-- `PackageRegistry`. -/
inductive PackageRegistry
  | npm
  | pypi
  | oci
  | nuget
  | cargo
  | mcpb

def PackageRegistry.value : PackageRegistry → Text
  | .npm => lit "npm"
  | .pypi => lit "pypi"
  | .oci => lit "oci"
  | .nuget => lit "nuget"
  | .cargo => lit "cargo"
  | .mcpb => lit "mcpb"

structure Repository where
  url : Text
  source : Text
  id : Option Text := none
  subfolder : Option Text := none

structure RemoteEndpoint where
  url : Text

/-- The type of a transport. -/
inductive TransportType
  | stdio
  | streamableHttp

def TransportType.value : TransportType → Text
  | .stdio => lit "stdio"
  | .streamableHttp => lit "streamable-http"

structure PackageTransport where
  type : TransportType
  url : Option Text := none

structure PackageIdentity where
  registryType : PackageRegistry
  identifier : Text
  transport : PackageTransport
  version : Option Text := none
  registryBaseUrl : Option Text := none
  runtimeHint : Option Text := none
  fileSha256 : Option Text := none
  imageDigest : Option Text := none

structure CredentialReference where
  secretName : Text
  key : Text

structure Ownership where
  «namespace» : Text
  tenantId : Text
  visibility : ManifestVisibility
  orgId : Option Text := none
  teamId : Option Text := none
  labels : Dict Text Text := ∅
  annotations : Dict Text Text := ∅

structure RoutePolicy where
  gatewayPath : Text
  directAccess : Bool := false

structure SemanticMetadata where
  summary : Option Text := none
  whenToUse : List Text := []
  notFor : List Text := []
  examples : List Text := []
  capabilities : List Text := []
  requires : List Text := []
  risk : Option DiscoveryRisk := none
  domains : List Text := []
  keywords : List Text := []

/-- `ToolJsonType`. -/
inductive ToolJsonType
  | array
  | boolean
  | integer
  | null
  | number
  | object
  | string

def ToolJsonType.value : ToolJsonType → Text
  | .array => lit "array"
  | .boolean => lit "boolean"
  | .integer => lit "integer"
  | .null => lit "null"
  | .number => lit "number"
  | .object => lit "object"
  | .string => lit "string"

structure ToolInputField where
  name : Text
  jsonType : ToolJsonType
  description : Option Text := none
  required : Bool := false

structure ToolSummary where
  name : Text
  description : Text
  inputFingerprint : Text
  outputFingerprint : Text
  requiredScopes : List Text := []
  semantic : SemanticMetadata := {}
  lifecycle : ManifestLifecycle := .active
  inputs : List ToolInputField := []

/-- An authoring manifest, whatever its validators say of its fields. -/
structure ServerAuthoringManifest where
  name : Text
  version : Text
  description : Text
  title : Option Text := none
  repository : Repository
  ownership : Ownership
  adapter : RuntimeAdapter
  protocolVersions : List Text
  lifecycle : ManifestLifecycle
  routePolicy : RoutePolicy
  remote : Option RemoteEndpoint := none
  package : Option PackageIdentity := none
  credentialRef : Option CredentialReference := none
  semantic : SemanticMetadata := {}
  egressHosts : List Text := []
  requiredScopes : List Text := []
  tools : List ToolSummary := []

/-! ## Documents -/

/-- The members of an object. -/
abbrev Document := List (Text × Json)

/-- `_without_none`. -/
def withoutNone (document : List (Text × Option Json)) : Document :=
  document.filterMap fun m => m.2.map fun j => (m.1, j)

/-- A text, if there is one. -/
def text? (t : Option Text) : Option Json := t.map .str

/-- `sorted(values)`. -/
def sortedTexts (values : List Text) : List Text := values.insertionSort (· ≤ ·)

/-- `_sorted_strings`. -/
def sortedStrings (values : List Text) : Json := .arr ((sortedTexts values).map .str)

/-- `_optional_sorted_strings`. -/
def optionalSortedStrings (values : List Text) : Option Json :=
  if values.isEmpty then none else some (sortedStrings values)

/-- `_string_map`. -/
def stringMap (values : Dict Text Text) : Document := values.entries.map fun e => (e.1, .str e.2)

/-- `separator.join(values)`. -/
def joined (separator : Text) : List Text → Text
  | [] => []
  | t :: texts => t ++ texts.flatMap (separator ++ ·)

/-- `DISCOVERY_ANNOTATION_PREFIX`. -/
def discoveryAnnotationPrefix : Text := lit "discovery.agentic.dev/"

/-- `REGISTRY_ANNOTATION_PREFIX`. -/
def registryAnnotationPrefix : Text := lit "registry.agentic.dev/"

/-- `REGISTRY_EXTENSION_KEY`. -/
def registryExtensionKey : Text := lit "x-tesserix"

/-- `annotations.update(_semantic_annotations(manifest))`. -/
def withSemanticAnnotations (semantic : SemanticMetadata) (annotations : Dict Text Text) :
    Dict Text Text :=
  let annotations := match semantic.summary with
    | some summary => annotations.insert (discoveryAnnotationPrefix ++ lit "summary") summary
    | none => annotations
  let annotations := if semantic.whenToUse.isEmpty then annotations
    else annotations.insert (discoveryAnnotationPrefix ++ lit "when-to-use")
      (joined (lit "; ") (sortedTexts semantic.whenToUse))
  let annotations := if semantic.capabilities.isEmpty then annotations
    else annotations.insert (discoveryAnnotationPrefix ++ lit "capabilities")
      (joined (lit ", ") (sortedTexts semantic.capabilities))
  if semantic.requires.isEmpty then annotations
  else annotations.insert (discoveryAnnotationPrefix ++ lit "requires")
    (joined (lit ", ") (sortedTexts semantic.requires))

/-- `_package_document`. -/
def packageDocument (package : PackageIdentity) : Document :=
  let identifier := match package.imageDigest with
    | some digest => package.identifier ++ 64 :: digest
    | none => package.identifier
  let transport := withoutNone [(lit "type", some (.str package.transport.type.value)),
    (lit "url", text? package.transport.url)]
  withoutNone [(lit "fileSha256", text? package.fileSha256), (lit "identifier", some (.str identifier)),
    (lit "registryBaseUrl", text? package.registryBaseUrl),
    (lit "registryType", some (.str package.registryType.value)),
    (lit "runtimeHint", text? package.runtimeHint), (lit "transport", some (.obj transport)),
    (lit "version", text? package.version)]

/-- The `properties` of a tool, by the names of its inputs. -/
def toolProperties (inputs : List ToolInputField) : Dict Text Json :=
  inputs.foldl (fun properties input => properties.insert input.name
    (.obj (withoutNone [(lit "description", text? input.description),
      (lit "type", some (.str input.jsonType.value))]))) ∅

/-- The input schema of `_tool_document`. -/
def toolInputSchema (tool : ToolSummary) : Json :=
  let inputs := tool.inputs.insertionSort fun input input' => input.name ≤ input'.name
  .obj [(lit "properties", .obj ((toolProperties inputs).entries.map fun e => (e.1, e.2))),
    (lit "required", .arr ((inputs.filter (·.required)).map fun input => .str input.name)),
    (lit "type", .str (lit "object"))]

/-- `_tool_document`, which raises `ValueError` where the input schema has no
    fingerprint. -/
def toolDocument (hashing : Hashing) (tool : ToolSummary) : Option Document :=
  (hashing.fingerprint (toolInputSchema tool)).map fun inputSchemaFingerprint =>
    withoutNone [(lit "capabilities", some (sortedStrings tool.semantic.capabilities)),
      (lit "description", some (.str tool.description)),
      (lit "inputFingerprint", some (.str tool.inputFingerprint)),
      (lit "inputSchema", some (toolInputSchema tool)),
      (lit "inputSchemaFingerprint", some (.str inputSchemaFingerprint)),
      (lit "name", some (.str tool.name)),
      (lit "outputFingerprint", some (.str tool.outputFingerprint)),
      (lit "requires", some (sortedStrings tool.semantic.requires)),
      (lit "requiredScopes", some (sortedStrings tool.requiredScopes)),
      (lit "riskLevel", text? (tool.semantic.risk.map DiscoveryRisk.value)),
      (lit "semantic", some (.obj (withoutNone [
        (lit "examples", optionalSortedStrings tool.semantic.examples),
        (lit "notFor", optionalSortedStrings tool.semantic.notFor),
        (lit "summary", text? tool.semantic.summary),
        (lit "whenToUse", optionalSortedStrings tool.semantic.whenToUse)]))),
      (lit "status", some (.str (lifecycleValue tool.lifecycle)))]

/-- `OFFICIAL_SCHEMA_URL`. -/
def officialSchemaUrl : Text :=
  lit "https://static.modelcontextprotocol.io/schemas/2025-12-11/server.schema.json"

/-- `_portable_document`. -/
def portableDocument (manifest : ServerAuthoringManifest) : Document :=
  let repository := withoutNone [(lit "id", text? manifest.repository.id),
    (lit "source", some (.str manifest.repository.source)),
    (lit "subfolder", text? manifest.repository.subfolder),
    (lit "url", some (.str manifest.repository.url))]
  withoutNone [(lit "$schema", some (.str officialSchemaUrl)),
    (lit "description", some (.str manifest.description)), (lit "name", some (.str manifest.name)),
    (lit "repository", some (.obj repository)), (lit "title", text? manifest.title),
    (lit "version", some (.str manifest.version)),
    (lit "remotes", manifest.remote.map fun remote =>
      .arr [.obj [(lit "type", .str (lit "streamable-http")), (lit "url", .str remote.url)]]),
    (lit "packages", manifest.package.map fun package => .arr [.obj (packageDocument package)])]

/-- The metadata of `_registry_document`. -/
def registryMetadata (manifest : ServerAuthoringManifest) : Document :=
  let labels := manifest.ownership.labels.insert (lit "transport")
    (if manifest.remote.isSome then lit "streamable-http" else lit "package")
  let annotations := stringMap (withSemanticAnnotations manifest.semantic manifest.ownership.annotations)
  withoutNone [(lit "annotations", if annotations.isEmpty then none else some (.obj annotations)),
    (lit "labels", some (.obj (stringMap labels))), (lit "name", some (.str manifest.name)),
    (lit "namespace", some (.str manifest.ownership.namespace)),
    (lit "orgId", text? manifest.ownership.orgId), (lit "tag", some (.str manifest.version)),
    (lit "teamId", text? manifest.ownership.teamId),
    (lit "tenantId", some (.str manifest.ownership.tenantId)),
    (lit "visibility", some (.str (visibilityValue manifest.ownership.visibility)))]

/-- The extension of `_registry_document`, with the documents of the tools. -/
def registryExtension (manifest : ServerAuthoringManifest) (tools : List Document) : Document :=
  [(lit "adapter", .str manifest.adapter.value), (lit "authoringVersion", .str (lit "1.0")),
    (lit "egressHosts", sortedStrings manifest.egressHosts),
    (lit "lifecycle", .str (lifecycleValue manifest.lifecycle)),
    (lit "protocolVersions", sortedStrings manifest.protocolVersions),
    (lit "requiredScopes", sortedStrings manifest.requiredScopes),
    (lit "routePolicy", .obj [(lit "directAccess", .bool manifest.routePolicy.directAccess),
      (lit "gatewayPath", .str manifest.routePolicy.gatewayPath)]),
    (lit "semantic", .obj (withoutNone [
      (lit "capabilities", some (sortedStrings manifest.semantic.capabilities)),
      (lit "domains", some (sortedStrings manifest.semantic.domains)),
      (lit "examples", optionalSortedStrings manifest.semantic.examples),
      (lit "keywords", some (sortedStrings manifest.semantic.keywords)),
      (lit "notFor", optionalSortedStrings manifest.semantic.notFor),
      (lit "requires", optionalSortedStrings manifest.semantic.requires),
      (lit "risk", text? (manifest.semantic.risk.map DiscoveryRisk.value)),
      (lit "summary", text? manifest.semantic.summary),
      (lit "whenToUse", optionalSortedStrings manifest.semantic.whenToUse)])),
    (lit "tools", .arr (tools.map .obj))]

/-- The `spec` of `_registry_document`: no key of the portable document is one of
    the two that are added. -/
def registrySpec (manifest : ServerAuthoringManifest) (portable : Document) (tools : List Document) :
    Document :=
  portable ++ (registryExtensionKey, .obj (registryExtension manifest tools)) ::
    (manifest.credentialRef.map fun reference => (lit "credentialRef", Json.obj
      [(lit "key", .str reference.key), (lit "secretName", .str reference.secretName)])).toList

/-- `_registry_document`. -/
def registryDocument (hashing : Hashing) (manifest : ServerAuthoringManifest) (portable : Document) :
    Option Document :=
  ((manifest.tools.insertionSort fun tool tool' => tool.name ≤ tool'.name).mapM
    (toolDocument hashing)).map fun tools =>
      [(lit "apiVersion", .str (lit "registry.agentic.dev/v1alpha1")), (lit "kind", .str (lit "MCPServer")),
        (lit "metadata", .obj (registryMetadata manifest)),
        (lit "spec", .obj (registrySpec manifest portable tools))]

/-! ## Compilation -/

/-- `_canonical_json`, as the text that is encoded; it raises `ValueError` for a
    value that is not finite and a text that UTF-8 cannot encode. No document is
    nested more deeply than `json.dumps` can go. -/
def canonicalJson (writer : JsonWriter) (document : Document) : Option Text :=
  let text := (Json.obj document).sorted.indented writer 0 ++ [10]
  if (Json.obj document).allFinite ∧ text.Encodable then some text else none

/-- The errors of the compiler, of which a `ValueError` is not its own. -/
inductive ManifestError
  | annotationReserved
  | secretField
  | invalidManifest
  | versionMismatch (component actualVersion manifestVersion : Text)
  | valueError
  deriving DecidableEq

/-- `is_reserved_annotation`. -/
def isReservedAnnotation (key : Text) : Bool :=
  discoveryAnnotationPrefix.isPrefixOf key || registryAnnotationPrefix.isPrefixOf key

/-- `_CAMEL_BOUNDARY.sub("_", key)`. -/
def camelExpanded : Text → Text
  | a :: b :: t =>
    if (a.isLower || a.isDigit) && 65 ≤ b.val && b.val ≤ 90 then a :: 95 :: camelExpanded (b :: t)
    else a :: camelExpanded (b :: t)
  | t => t

/-- `_SECRET_WORDS`. -/
def secretWords : List Text :=
  [lit "authorization", lit "credential", lit "credentials", lit "passwd", lit "password",
    lit "secret", lit "secrets", lit "token", lit "tokens"]

/-- `_SECRET_COMPOUNDS`. -/
def secretCompounds : List Text := [lit "accesskey", lit "apikey", lit "privatekey"]

/-- `is_secret_key`. -/
def isSecretKey (key : Text) : Bool :=
  let parts := (((camelExpanded key).splitOnP fun c => !c.isAlphanumeric).filter
    fun part => !part.isEmpty).map fun part => part.map CodePoint.asciiLower
  parts.any (secretWords.contains ·) || secretCompounds.contains parts.flatten

/-- The two documents of a manifest. -/
structure CompiledManifests where
  serverJson : Text
  registryManifest : Text

/-- `compile_manifests`. The manifest is validated again by its models
    (`revalidated`). -/
def compileManifests (hashing : Hashing)
    (revalidated : ServerAuthoringManifest → Option ServerAuthoringManifest)
    (manifest : ServerAuthoringManifest) (runtimeVersion : Text) :
    Except ManifestError CompiledManifests :=
  let labels := manifest.ownership.labels.keys
  let annotations := manifest.ownership.annotations.keys
  if annotations.any isReservedAnnotation then .error .annotationReserved
  else if labels.any isSecretKey || annotations.any isSecretKey then .error .secretField
  else
    match revalidated manifest with
    | none => .error .invalidManifest
    | some manifest =>
      if runtimeVersion ≠ manifest.version then
        .error (.versionMismatch (lit "runtime") runtimeVersion manifest.version)
      else
        match manifest.package.bind PackageIdentity.version with
        | some packageVersion =>
          if packageVersion ≠ manifest.version then
            .error (.versionMismatch (lit "package") packageVersion manifest.version)
          else documents manifest
        | none => documents manifest
where
  /-- The documents of a manifest that was checked. -/
  documents (manifest : ServerAuthoringManifest) : Except ManifestError CompiledManifests :=
    let portable := portableDocument manifest
    match registryDocument hashing manifest portable with
    | none => .error .valueError
    | some registry =>
      match canonicalJson hashing.writer portable, canonicalJson hashing.writer registry with
      | some serverJson, some registryManifest => .ok { serverJson, registryManifest }
      | _, _ => .error .valueError

/-- `extract_server_json`, which raises `ValueError`; `validateJson` is
    `TypeAdapter(dict[str, JsonValue]).validate_json`, of the text of the bytes. -/
def extractServerJson (writer : JsonWriter) (validateJson : Text → Option Json)
    (registryManifest : Text) : Option Text :=
  match validateJson registryManifest with
  | some (.obj document) =>
    match Json.get (lit "kind") document, Json.get (lit "spec") document with
    | some (.str kind), some (.obj spec) =>
      if kind = lit "MCPServer" then
        canonicalJson writer (spec.filter fun m =>
          m.1 ≠ registryExtensionKey && m.1 ≠ lit "credentialRef")
      else none
    | _, _ => none
  | _ => none

end Manifest

end McpRuntime
