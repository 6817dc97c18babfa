import McpRuntime.Gateway.Route
import McpRuntime.Python.Except
import McpRuntime.Registry.GoJson

/-!
# Delegated publishers

Publication is delegated to two commands: `agentic` applies an artifact to the
registry, pulls it back and verifies its signature, and `mcp-publisher` publishes
it to the official registry. What a command does is arbitrary: it may exit with any
code and any output, and running it may raise.

* `Delegates.checked`, `Delegates.document`: what is accepted of the output of a
  command.
* `Delegates.publish`, `Delegates.fetch`, `Delegates.verify`: the delegated steps.
-/

namespace McpRuntime.Publisher

/-! ## Errors -/

/-- `PublicationErrorCode`. -/
inductive PublicationErrorCode
  | activationContractInvalid
  | activationFailed
  | activationSuperseded
  | activationTimeout
  | artifactDigestMismatch
  | commandFailed
  | commandOutputInvalid
  | conflict
  | evidenceRequired
  | invalidArgument
  | manifestInvalid
  | officialPublicationFailed
  | secretMaterial
  | unknownOutcome
  | unavailable
  deriving DecidableEq

/-- The class of a `PublicationError`. -/
inductive PublicationErrorClass
  | publicationError
  /-- `PublicationValidationError`: nothing was written. -/
  | validationError
  /-- `PublicationUnknownOutcomeError`: the outcome must be reconciled. -/
  | unknownOutcomeError
  deriving DecidableEq

/-- `PublicationError`. -/
structure PublicationError where
  code : PublicationErrorCode
  requestId : Text := lit "publication-validation"
  retryable : Bool := false
  errorClass : PublicationErrorClass := .publicationError
  deriving DecidableEq

/-- `PublicationUnknownOutcomeError(request_id=request_id)`. -/
def PublicationError.unknownOutcome (requestId : Text) : PublicationError :=
  { code := .unknownOutcome, requestId, errorClass := .unknownOutcomeError }

/-- What may be raised. -/
inductive Raised
  | publication (e : PublicationError)
  /-- `CancelledError`. -/
  | cancelled
  | typeError
  | valueError
  /-- Any other exception, such as `OSError` or `RecursionError`. -/
  | other
  deriving DecidableEq

/-- A computation that may raise. -/
abbrev Fallible := Except Raised

/-- `raise PublicationError(code, request_id=request_id)`. -/
def fail {α : Type} (code : PublicationErrorCode) (requestId : Text) : Fallible α :=
  .error (.publication { code, requestId })

/-- `except (TypeError, ValueError): raise`, of an output that is invalid. -/
def invalidOutput {α : Type} (requestId : Text) : Fallible α → Fallible α
  | .error .typeError | .error .valueError => fail .commandOutputInvalid requestId
  | x => x

/-! ## Publications -/

/-- `_SAFE_ID`. -/
def isSafeId : Text → Bool :=
  matchesName CodePoint.isAlphanumeric (fun c => c.isAlphanumeric || (lit "._:/@+-").contains c) 2048

/-- Manifests that are ready to be published. Of the evidence, only the digest of
    the artifact is published. -/
structure PreparedPublication where
  name : Text
  «namespace» : Text
  version : Text
  ref : Text
  serverJson : List UInt8
  registryManifest : List UInt8
  registryDigest : Text
  artifactDigest : Text
  name_ne_nil : name ≠ []
  namespace_ne_nil : «namespace» ≠ []
  version_ne_nil : version ≠ []
  ref_bounded : ref.length ≤ 2048 ∧ (lit "mcpservers/").isPrefixOf ref
  serverJson_bounded : serverJson.length ≤ 512 * 1024
  registryManifest_bounded : registryManifest.length ≤ 1024 * 1024
  registryDigest_isDigest : Gateway.isRegistryDigest registryDigest
  artifactDigest_isDigest : Gateway.isRegistryDigest artifactDigest

/-- The result of an apply, before it is read back. -/
structure PublishReceipt where
  created : Bool
  deriving DecidableEq

/-- An object of the registry, as it was read back. -/
structure PublishedArtifact where
  name : Text
  «namespace» : Text
  version : Text
  ref : Text
  digest : Text
  signature : Text
  signedBy : Text
  name_ne_nil : name ≠ []
  namespace_ne_nil : «namespace» ≠ []
  version_ne_nil : version ≠ []
  ref_isSafeId : isSafeId ref
  digest_isDigest : Gateway.isRegistryDigest digest
  signature_bounded : 1 ≤ signature.length ∧ signature.length ≤ 512
  signedBy_bounded : 1 ≤ signedBy.length ∧ signedBy.length ≤ 256
  deriving DecidableEq

/-- `PublishedArtifact(...)`, which raises `PublicationValidationError` when a check
    fails. -/
def PublishedArtifact.create (isPrintable : CodePoint → Bool)
    (name «namespace» version ref digest signature signedBy : Text) : Fallible PublishedArtifact :=
  if h : (name ≠ [] ∧ «namespace» ≠ [] ∧ version ≠ []) ∧ isSafeId ref ∧
      Gateway.isRegistryDigest digest ∧ (1 ≤ signature.length ∧ signature.length ≤ 512) ∧
      (1 ≤ signedBy.length ∧ signedBy.length ≤ 256) ∧ signedBy.all isPrintable then
    .ok {
      name, «namespace», version, ref, digest, signature, signedBy
      name_ne_nil := h.1.1
      namespace_ne_nil := h.1.2.1
      version_ne_nil := h.1.2.2
      ref_isSafeId := h.2.1
      digest_isDigest := h.2.2.1
      signature_bounded := h.2.2.2.1
      signedBy_bounded := h.2.2.2.2.1 }
  else .error (.publication { code := .commandOutputInvalid, errorClass := .validationError })

/-! ## Commands -/

/-- A command with its arguments. A private document stands for its path. -/
inductive Command
  | status
  | apply (document : List UInt8) (dryRun : Bool) (idempotencyKey : Text)
  | pull (name version : Text)
  | verify (name version : Text)
  | officialValidate (document : List UInt8)
  | officialPublish (document : List UInt8)

/-- `CommandResult`. -/
structure CommandResult where
  exitCode : ℕ
  stdout : List UInt8
  stderr : List UInt8
  exitCode_le : exitCode ≤ 255

/-- What `json.loads` makes of an output. -/
inductive Loaded
  | value (j : Json)
  /-- It is no document, or has a constant or a duplicate key. -/
  | refused
  /-- It is nested too deeply: `RecursionError`. -/
  | tooDeep

/-- The delegates and what they are run with. -/
structure Delegates where
  maxStdoutBytes : ℕ
  maxStderrBytes : ℕ
  /-- `CommandRunner.run`. -/
  run : Command → Fallible CommandResult
  /-- Writing the private document of a command raises `OSError`. -/
  writeFails : Command → Bool
  /-- Removing the private document of a command raises `OSError`. -/
  removeFails : Command → Bool
  /-- `RedactionPolicy.redact_text`, unless it raises. -/
  redactText : Text → Option Text
  /-- `bytes.decode("utf-8")`. -/
  decode : List UInt8 → Option Text
  /-- `json.loads`, with the hooks of `_document`. -/
  loads : List UInt8 → Loaded
  /-- `str.lower`. -/
  lower : Text → Text
  /-- `str.isprintable`, of a character. -/
  isPrintable : CodePoint → Bool
  hashing : Hashing
  /-- The registry encoding of the value is nested too deeply. -/
  tooDeep : Json → Bool

/-- `_text`. -/
def text (values : List (Text × Json)) (key : Text) : Fallible Text :=
  match Json.pyGet key values with
  | .str t => .ok t
  | _ => .error .valueError

/-- `_mapping`, of which the caller raises `ValueError`. -/
def mapping : Json → Fallible (List (Text × Json))
  | .obj members => .ok members
  | _ => .error .valueError

/-- `_string_mapping`. -/
def stringMapping (value : Json) : Fallible (List (Text × Text)) := do
  (← mapping value).mapM fun member =>
    match member.2 with
    | .str t => .ok (member.1, t)
    | _ => .error .valueError

/-- The error code of a command that fails, and whether it may be retried. -/
def failureCode (safe : Text) : PublicationErrorCode × Bool :=
  if safe.hasPart (lit "409") || safe.hasPart (lit "conflict") then (.conflict, false)
  else if [lit "429", lit "502", lit "503", lit "connection", lit "timeout",
      lit "unavailable"].any fun marker => safe.hasPart marker then (.unavailable, true)
  else (.commandFailed, false)

namespace Delegates

variable (d : Delegates)

/-- A command that is given a private document. -/
def runDocument (command : Command) : Fallible CommandResult :=
  if d.writeFails command then .error .other
  -- the command is run, but what becomes of it is lost
  else if d.removeFails command then .error .other
  else d.run command

/-- The text is left as it is by the redactor. -/
def isSafe (t : Text) : Bool := d.redactText t = some t

/-- `_checked`. -/
def checked (result : CommandResult) (requestId : Text) : Fallible (List UInt8) :=
  if d.maxStdoutBytes < result.stdout.length ∨ d.maxStderrBytes < result.stderr.length then
    fail .commandOutputInvalid requestId
  else
    match d.decode result.stdout, d.decode result.stderr with
    | some stdout, some stderr =>
      if !d.isSafe stdout || !d.isSafe stderr then fail .secretMaterial requestId
      else if result.exitCode ≠ 0 then
        let (code, retryable) := failureCode (d.lower (stdout ++ 10 :: stderr))
        .error (.publication { code, requestId, retryable })
      else .ok result.stdout
    | _, _ => fail .commandOutputInvalid requestId

/-- `_document`. -/
def document (result : CommandResult) (requestId : Text) : Fallible (List (Text × Json)) := do
  match d.loads (← d.checked result requestId) with
  | .value (.obj members) => .ok members
  | .value _ | .refused => fail .commandOutputInvalid requestId
  | .tooDeep => .error .other

/-- The checks of `remote_validate`. -/
def remoteValidate (prepared : PreparedPublication) (idempotencyKey requestId : Text) :
    Fallible Unit := do
  let status ← d.run .status
  let _ ← d.checked status requestId
  let result ← d.runDocument (.apply prepared.registryManifest true idempotencyKey)
  let document ← d.document result requestId
  match Json.pyGet (lit "dry_run") document with
  | .bool true =>
    if !(Json.pyGet (lit "count") document).pyEq (.int 1) then fail .commandOutputInvalid requestId
    else .ok ()
  | _ => fail .commandOutputInvalid requestId

/-- The item that an apply reports. -/
def appliedItem (prepared : PreparedPublication) (item : Json) : Fallible PublishReceipt := do
  let item ← mapping item
  if (← text item (lit "kind")) ≠ lit "MCPServer" then .error .valueError
  else if (← text item (lit "name")) ≠ prepared.name then .error .valueError
  else if (← text item (lit "namespace")) ≠ prepared.namespace then .error .valueError
  else if (← text item (lit "tag")) ≠ prepared.version then .error .valueError
  else
    match Json.pyGet (lit "created") item with
    | .bool created => .ok ⟨created⟩
    | _ => .error .valueError

/-- The receipt in the result of an apply. -/
def receipt (prepared : PreparedPublication) (result : CommandResult) (requestId : Text) :
    Fallible PublishReceipt := do
  let document ← d.document result requestId
  if !(Json.pyGet (lit "count") document).pyEq (.int 1) then fail .commandOutputInvalid requestId
  else
    match Json.pyGet (lit "applied") document with
    | .arr [item] => invalidOutput requestId (appliedItem prepared item)
    | _ => fail .commandOutputInvalid requestId

/-- `AgenticCLIPublisher.publish`. -/
def publish (prepared : PreparedPublication) (idempotencyKey requestId : Text) :
    Fallible PublishReceipt := do
  let result ← d.runDocument (.apply prepared.registryManifest false idempotencyKey)
  d.receipt prepared result requestId

/-- `registry_artifact_digest`. -/
def registryArtifactDigest (content : Registry.ArtifactContent) : Fallible Text :=
  if d.tooDeep (.obj content.spec) then .error .other
  else
    match content.digest d.hashing with
    | some digest => .ok digest
    | none => .error .valueError

/-- `_artifact`. -/
def artifact (document : List (Text × Json)) (requestId : Text) : Fallible PublishedArtifact :=
  invalidOutput requestId do
    let metadata ← mapping (Json.pyGet (lit "metadata") document)
    let spec ← mapping (Json.pyGet (lit "spec") document)
    let labels ← stringMapping (Json.pyGet (lit "labels") metadata)
    let digest ← text metadata (lit "digest")
    let kind ← text document (lit "kind")
    let name ← text metadata (lit "name")
    let space ← text metadata (lit "namespace")
    let tag ← text metadata (lit "tag")
    let computed ← d.registryArtifactDigest ⟨kind, name, space, tag, labels, spec⟩
    if digest ≠ computed then .error .valueError
    else
      PublishedArtifact.create d.isPrintable name space tag (← text metadata (lit "ref")) digest
        (← text metadata (lit "signature")) (← text metadata (lit "signedBy"))

/-- `fetch`. -/
def fetch (prepared : PreparedPublication) (requestId : Text) : Fallible PublishedArtifact := do
  let result ← d.run (.pull prepared.name prepared.version)
  d.artifact (← d.document result requestId) requestId

/-- `verify`. -/
def verify (artifact : PublishedArtifact) (requestId : Text) : Fallible Unit := do
  let result ← d.run (.verify artifact.name artifact.version)
  let _ ← d.checked result requestId
  .ok ()

/-- `OfficialMCPPublisherCLI.validate`. -/
def officialValidate (prepared : PreparedPublication) (requestId : Text) : Fallible Unit := do
  let result ← d.runDocument (.officialValidate prepared.serverJson)
  let _ ← d.checked result requestId
  .ok ()

/-- `OfficialMCPPublisherCLI.publish`. -/
def officialPublish (prepared : PreparedPublication) (requestId : Text) : Fallible Unit := do
  let result ← d.runDocument (.officialPublish prepared.serverJson)
  match d.checked result requestId with
  | .error (.publication _) => fail .officialPublicationFailed requestId
  | .error e => .error e
  | .ok _ => .ok ()

end Delegates

end McpRuntime.Publisher
