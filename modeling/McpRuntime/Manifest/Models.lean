import McpRuntime.Manifest.Compiler
import McpRuntime.Manifest.Validation
import McpRuntime.Redaction.Redactor

/-!
# The models of authoring manifests

What the pydantic models of an authoring manifest check of their fields. A model that is
validated again keeps the values of its fields, so that a manifest is either valid, or refused.

The patterns of fields are those of the `regex` crate, whose `$` is the end of the text; a text
with a bound or a pattern is converted for it, which a surrogate refuses.
-/

namespace McpRuntime

namespace Manifest

open Gateway (ManifestLifecycle ManifestVisibility)

/-- What the models ask of Unicode: which characters beyond ASCII are printable, which of them
    belong to a word, and the normalization form NFKC. -/
structure UnicodeDatabase where
  printable : CodePoint → Bool
  word : CodePoint → Bool
  nfkc : Text → Text

/-! ## Discovery text -/

/-- `r{0,most}`. -/
def atMost (r : Regex CodePoint) : ℕ → Regex CodePoint
  | 0 => .empty
  | most + 1 => (Regex.seq r (atMost r most)).optional

/-- `pattern.search(value) is not None`. -/
def occurs (pattern : Regex CodePoint) (value : Text) : Bool := search (pattern.replacedBy []) [] value

/-- `[^\s,;]+` -/
def unseparated : Regex CodePoint :=
  (Regex.char fun c => !c.isSpace && !(lit ",;").contains c).plus

/-- `_SECRET_ASSIGNMENT` -/
def secretAssignment : Regex CodePoint :=
  let dash : Regex CodePoint := (Pattern.oneOf (lit "_-")).optional
  let name : Regex CodePoint :=
    (Regex.all [Pattern.letters "api", dash, Pattern.letters "key"]).first
      [.all [Pattern.letters "access", dash, Pattern.letters "token"], Pattern.letters "token",
        Pattern.letters "secret", Pattern.letters "password", Pattern.letters "authorization",
        Pattern.letters "credential"]
  .all [name, .star Pattern.space, Pattern.oneOf (lit ":="), .star Pattern.space, unseparated]

/-- `[a-z]`, in any case. -/
def anyLetter (c : CodePoint) : Bool := (lit "abcdefghijklmnopqrstuvwxyz").any (Pattern.sameLetter · c)

/-- `[a-z0-9+.-]`, in any case. -/
def isSchemeLetter (c : CodePoint) : Bool := anyLetter c || c.isDigit || (lit "+.-").contains c

/-- `[A-Z]` -/
def isUpper (c : CodePoint) : Bool := 65 ≤ c.val && c.val ≤ 90

/-- `[A-Za-z0-9_-]{10,}` -/
def jwtPart : Regex CodePoint := (Regex.char Pattern.isJwtChar).atLeast 10

/-- `_PRIVATE_KEY` -/
def privateKeyHeader : Regex CodePoint :=
  .all [Pattern.exactly "-----BEGIN ", .star (.char fun c => isUpper c || c = 32),
    Pattern.exactly "PRIVATE KEY-----"]

/-- `_UNSAFE_PATTERNS`. -/
def unsafePatterns (word : CodePoint → Bool) : List (Regex CodePoint) :=
  let boundary : Regex CodePoint := .boundary (Pattern.isWord word)
  [secretAssignment,
    .all [boundary, Pattern.letters "bearer", Pattern.space.plus, unseparated],
    privateKeyHeader,
    .all [boundary, Pattern.exactly "eyJ", jwtPart, Pattern.exactly ".", jwtPart,
      Pattern.exactly ".", jwtPart, boundary],
    .all [boundary, .char anyLetter, .char isSchemeLetter, atMost (.char isSchemeLetter) 14,
      Pattern.exactly "://"],
    .all [boundary, .char isUpper,
      (Regex.char fun c => isUpper c || c.isDigit || c = 95).atLeast 2, .star Pattern.space,
      Pattern.exactly "=", .star Pattern.space, unseparated]]

/-- `validated_discovery_text`, which raises `ValueError`. -/
def isDiscoveryText (unicode : UnicodeDatabase) (value : Text) : Bool :=
  value.strip = value && value.all (·.isPrintable unicode.printable) &&
    value.all (fun c => !c.isSpace || c = 32) && !value.hasPart (lit "  ") &&
    !value.hasPart (lit "```") && !(lit "#!").isPrefixOf value &&
    (unsafePatterns unicode.word).all fun pattern => !occurs pattern value

/-! ## Fields -/

/-- A text with bounds on its length. -/
def bounded (low high : ℕ) (t : Text) : Bool := low ≤ t.length && t.length ≤ high && t.Encodable

/-- `DiscoverySummary`, `DiscoveryPhrase`, `DiscoveryKeyword`, `ServerDiscoveryText` and
    `ToolDescription`, by their bounds. -/
def discoveryText (unicode : UnicodeDatabase) (low high : ℕ) (t : Text) : Bool :=
  bounded low high t && isDiscoveryText unicode t

/-- `[a-zA-Z0-9._-]` -/
def isNameChar (c : CodePoint) : Bool := c.isAlphanumeric || (lit "._-").contains c

/-- `_SERVER_NAME` -/
def isServerName (t : Text) : Bool :=
  match t.partition 47 with
  | (space, some name) =>
    space ≠ [] && space.all (fun c => c.isAlphanumeric || (lit ".-").contains c) && name ≠ [] &&
      name.all isNameChar
  | (_, none) => false

/-- `\s` of the `regex` crate. -/
def isWhiteSpace (c : CodePoint) : Bool := c.isSpace && !(28 ≤ c.val && c.val ≤ 31)

/-- `_VERSION` -/
def isVersion (t : Text) : Bool := bounded 1 255 t && t.all fun c => !isWhiteSpace c

/-- `_OCI_DIGEST` -/
def isOciDigest (t : Text) : Bool := (lit "sha256:").isPrefixOf t && isDigest (t.drop 7)

/-- `_CAPABILITY` -/
def isCapability (t : Text) : Bool :=
  (lit "cap/").isPrefixOf t &&
    (Text.split 45 (t.drop 4)).all fun part => part ≠ [] && part.all fun c => c.isLower || c.isDigit

/-- `_TOOL_NAME` -/
def isToolName (t : Text) : Bool :=
  bounded 1 128 t && t.head?.any (fun c => c.isAlphanumeric && !c.isDigit) && t.all isNameChar

/-- `_TOOL_INPUT_NAME` -/
def isToolInputName (t : Text) : Bool :=
  bounded 1 128 t && t.head?.any (fun c => c.isAlphanumeric || c = 95) && t.all isNameChar

/-- The kinds of `_REGISTRY_ARN`. -/
def arnKinds : List Text :=
  [lit "skills", lit "tools", lit "mcpservers", lit "prompts", lit "workflows", lit "blueprints",
    lit "agents", lit "datasets", lit "evalsuites"]

/-- `_REGISTRY_ARN` -/
def isRegistryArn (t : Text) : Bool :=
  (lit "arn:agentic:registry:").isPrefixOf t &&
    match Text.partition 58 (t.drop 21) with
    | (registry, some resource) =>
      registry ≠ [] && registry.all isNameChar &&
        match resource.split 47 with
        | kind :: parts =>
          arnKinds.contains kind && 2 ≤ parts.length &&
            parts.all fun part => part ≠ [] && part.all isNameChar
        | [] => false
    | (_, none) => false

/-! ## Models -/

section

variable (unicode : UnicodeDatabase)

/-- `validated_url` accepts the text. -/
def isUrl (httpsOnly : Bool) (value : Text) : Bool :=
  (validatedUrl unicode.printable unicode.nfkc httpsOnly value).isOk

/-- The fields of a `Repository` are valid. -/
def Repository.valid (repository : Repository) : Bool :=
  isUrl unicode true repository.url && bounded 1 64 repository.source &&
    repository.id.all (bounded 1 256) && repository.subfolder.all (bounded 1 512)

/-- `validate_transport`. -/
def PackageTransport.valid (transport : PackageTransport) : Bool :=
  match transport.type with
  | .streamableHttp => transport.url.any (isUrl unicode false)
  | .stdio => transport.url.isNone

/-- `validate_identifier`. -/
def isPackageIdentifier (value : Text) : Bool :=
  if value.hasPart (lit "://") then isUrl unicode true value
  else
    value.strip = value && value.all (fun c => c.isPrintable unicode.printable && !c.isSpace) &&
      value.all fun c => !(lit "?#\\").contains c

/-- `validate_version`. -/
def isExactVersion (value : Text) : Bool :=
  value ≠ lit "latest" && value.head?.all (fun c => !(lit "~^<>=*").contains c) &&
    !(lit ".x").isSuffixOf value && !(lit ".*").isSuffixOf value

/-- The fields of a `PackageIdentity` are valid, and `validate_image_identity`. -/
def PackageIdentity.valid (package : PackageIdentity) : Bool :=
  bounded 1 2048 package.identifier && isPackageIdentifier unicode package.identifier &&
    package.transport.valid unicode &&
    package.version.all (fun version => isVersion version && isExactVersion version) &&
    package.registryBaseUrl.all (isUrl unicode true) && package.runtimeHint.all (bounded 1 64) &&
    package.fileSha256.all isDigest && package.imageDigest.all isOciDigest &&
    match package.registryType with
    | .oci => package.imageDigest.isSome && !package.identifier.contains 64
    | .mcpb => package.imageDigest.isNone && package.fileSha256.isSome
    | _ => package.imageDigest.isNone

/-- The fields of a `CredentialReference` are valid. -/
def CredentialReference.valid (reference : CredentialReference) : Bool :=
  bounded 1 253 reference.secretName && bounded 1 253 reference.key

/-- The fields of an `Ownership` are valid, and `tenant_matches_namespace`. -/
def Ownership.valid (ownership : Ownership) : Bool :=
  bounded 1 63 ownership.namespace && bounded 1 63 ownership.tenantId &&
    ownership.orgId.all (bounded 1 128) && ownership.teamId.all (bounded 1 128) &&
    !ownership.annotations.keys.any isReservedAnnotation && ownership.tenantId = ownership.namespace

/-- A list of at most so many items, each of which is valid. -/
def validList {α : Type*} (most : ℕ) (valid : α → Bool) (items : List α) : Bool :=
  items.length ≤ most && items.all valid

/-- The fields of a `SemanticMetadata` are valid. -/
def SemanticMetadata.valid (semantic : SemanticMetadata) : Bool :=
  let phrase := discoveryText unicode 3 200
  let keyword := discoveryText unicode 2 64
  semantic.summary.all phrase && validList 8 phrase semantic.whenToUse &&
    validList 8 phrase semantic.notFor && validList 8 phrase semantic.examples &&
    validList 32 (fun t => bounded 0 64 t && isCapability t) semantic.capabilities &&
    validList 32 (fun t => bounded 0 512 t && isRegistryArn t) semantic.requires &&
    validList 16 keyword semantic.domains && validList 32 keyword semantic.keywords

/-- The fields of a `ToolInputField` are valid. -/
def ToolInputField.valid (input : ToolInputField) : Bool :=
  isToolInputName input.name && input.description.all (discoveryText unicode 3 200)

/-- The fields of a `ToolSummary` are valid. -/
def ToolSummary.valid (tool : ToolSummary) : Bool :=
  isToolName tool.name && discoveryText unicode 1 512 tool.description &&
    isDigest tool.inputFingerprint && isDigest tool.outputFingerprint &&
    tool.semantic.valid unicode && validList 50 (ToolInputField.valid unicode) tool.inputs

/-- The fields of a `ServerAuthoringManifest` are valid, and `require_portable_delivery`. -/
def ServerAuthoringManifest.valid (manifest : ServerAuthoringManifest) : Bool :=
  bounded 3 200 manifest.name && isServerName manifest.name && isVersion manifest.version &&
    discoveryText unicode 1 100 manifest.description &&
    manifest.title.all (discoveryText unicode 1 100) && manifest.repository.valid unicode &&
    manifest.ownership.valid && manifest.protocolVersions ≠ [] &&
    bounded 1 512 manifest.routePolicy.gatewayPath &&
    manifest.remote.all (fun remote => isUrl unicode true remote.url) &&
    manifest.package.all (·.valid unicode) && manifest.credentialRef.all (·.valid) &&
    manifest.semantic.valid unicode && manifest.tools.all (·.valid unicode) &&
    (manifest.remote.isSome || manifest.package.isSome)

/-- `ServerAuthoringManifest.model_validate(manifest.model_dump())`, which raises
    `ValidationError`. -/
def revalidated (manifest : ServerAuthoringManifest) : Option ServerAuthoringManifest :=
  if manifest.valid unicode then some manifest else none

end

end Manifest

end McpRuntime
