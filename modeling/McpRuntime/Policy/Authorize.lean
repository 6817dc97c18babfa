import McpRuntime.Policy.ToolPolicy
import McpRuntime.Errors
import McpRuntime.Machine
import McpRuntime.Python.Dict

/-!
# Authorizing calls

`ToolPolicy.authorize` decides on one call of a tool. It awaits the approval
store twice, to fetch a record and to consume one that may be used once; between
its awaits it runs without interruption (`Segment`). The redactor, the wall
clock and the audit sink may fail at any time.

* `authorizer` is the machine of any number of concurrent calls of `authorize`
  with a store whose `consume` is atomic: the store grants an approval id once.
  A call may be cancelled where it awaits, and a store may raise at any time,
  also after it has consumed.
-/

namespace McpRuntime.Policy

variable {hashing : Hashing} {unicode : UnicodeTable}

/-! ## Audit events -/

/-- A payload-free record of a decision. -/
structure ToolPolicyAuditEvent where
  decision : ToolPolicyDecision
  requestId : Text
  runId : Text
  tenant : Text
  subjectHash : Text
  toolName : Text
  toolFingerprint : Text
  effect : ToolEffect
  scopes : List Text
  approvalId : Option Text
  idempotencyKeyHash : Option Text
  occurredAt : PyFloat
  deriving DecidableEq

/-- What the collaborators of a policy do until the call awaits again. -/
structure PolicyEnv where
  /-- `redact_text`, unless it raises. -/
  redactText : Text → Option Text
  /-- The reading of the wall clock for the expiry of an approval, unless the
      clock raises or returns what is not a number. -/
  expiryReading : Option PyFloat
  /-- The reading of the wall clock for an audit event. -/
  eventReading : Option PyFloat
  /-- The audit sink appends an event; otherwise it raises. -/
  appends : Bool

/-- `_now`. -/
def wallNow : Option PyFloat → Except PyException PyFloat
  | some now =>
    if now.overflows then .error .overflowError
    else if !now.isFinite || now.lt (.finite 0) then .error (.runtimeFailure .unavailable)
    else .ok now
  | none => .error (.runtimeFailure .unavailable)

/-- `_redact_audit_text`. -/
def PolicyEnv.redactAuditText (env : PolicyEnv) (value : Text) : Except PyException Text :=
  match env.redactText value with
  | some redacted => .ok redacted
  | none => .error (.runtimeFailure .unavailable)

section
variable (policy : ToolPolicy hashing unicode)

/-- The fingerprint of a manifest in an audit event: the one that the policy
    keeps, or that of a manifest it does not keep. -/
def eventFingerprint (manifest : ToolManifest) : Except PyException Text :=
  match fingerprintNamed policy.catalog manifest.metadata.name with
  | some fingerprint => .ok fingerprint
  | none => orValueError (toolPolicyFingerprint hashing manifest)

/-- `_event`. -/
def auditEvent (decision : ToolPolicyDecision) (manifest : ToolManifest) (context : CallContext)
    (env : PolicyEnv) : Except PyException ToolPolicyAuditEvent := do
  let toolFingerprint ← eventFingerprint policy manifest
  let requestId ← env.redactAuditText context.requestId
  let runId ← env.redactAuditText context.runId
  let tenant ← env.redactAuditText context.tenant
  let subjectHash ← orValueError (hashing.digest context.subject)
  let toolName ← env.redactAuditText manifest.metadata.name
  let scopes ← (context.scopes.insertionSort (· ≤ ·)).mapM env.redactAuditText
  let approvalId ← context.approvalId.mapM env.redactAuditText
  let idempotencyKeyHash ← context.idempotencyKey.mapM fun key => orValueError (hashing.digest key)
  let occurredAt ← wallNow env.eventReading
  return { decision, requestId, runId, tenant, subjectHash, toolName, toolFingerprint,
           effect := manifest.metadata.effect, scopes, approvalId, idempotencyKeyHash, occurredAt }

/-! ## Between the awaits -/

/-- Where a call of `authorize` is. -/
inductive Phase (hashing : Hashing)
  /-- It awaits `fetch`. -/
  | fetching (manifest : ToolManifest) (approvalId : Text)
  /-- It awaits `consume`, of a record that has passed its checks; the store may
      have decided already. -/
  | consuming (manifest : ToolManifest) (approvalId actionFingerprint : Text)
      (record : ApprovalRecord hashing) (answer : Option Bool)
  /-- It has returned, with the approval it has checked. -/
  | returned (approval : Option (ApprovalRecord hashing))
  | raised (error : PyException)

/-- What a call does until it awaits again or ends: the audit event it appends
    and where it is then. -/
structure Segment (hashing : Hashing) where
  appended : Option ToolPolicyAuditEvent
  next : Phase hashing

/-- `_append`, of an event that is appended or not. -/
def PolicyEnv.append (env : PolicyEnv) (event : ToolPolicyAuditEvent) :
    Option ToolPolicyAuditEvent :=
  if env.appends then some event else none

/-- `_deny`, with the manifest of the decision: a `RuntimeFailure` of the event
    or of the sink gives way to the code of the denial. -/
def denyWith (decision : ToolPolicyDecision) (code : ErrorCode) (manifest : ToolManifest)
    (context : CallContext) (env : PolicyEnv) : Segment hashing :=
  match auditEvent policy decision manifest context env with
  | .ok event => ⟨env.append event, .raised (.runtimeFailure code)⟩
  | .error error =>
    match error.kind with
    | .runtimeFailure _ => ⟨none, .raised (.runtimeFailure code)⟩
    | _ => ⟨none, .raised error⟩

/-- `_deny`: a tool without a manifest gets one for the event. -/
def deny (decision : ToolPolicyDecision) (code : ErrorCode) (manifest : Option ToolManifest)
    (context : CallContext) (fallbackTool : ToolDefinition) (env : PolicyEnv) : Segment hashing :=
  match manifest with
  | some manifest => denyWith policy decision code manifest context env
  | none =>
    match fallbackTool.manifest hashing unicode with
    | some manifest => denyWith policy decision code manifest context env
    | none => ⟨none, .raised .valueError⟩

/-- `_backend_unavailable`. -/
def backendUnavailable (manifest : ToolManifest) (context : CallContext) (env : PolicyEnv) :
    Segment hashing :=
  match auditEvent policy .policyBackendUnavailable manifest context env with
  | .ok event => ⟨env.append event, .raised (.runtimeFailure .unavailable)⟩
  | .error error => ⟨none, .raised error⟩

/-- The end of `authorize`: it returns once the decision is in the audit. -/
def allow (manifest : ToolManifest) (approval : Option (ApprovalRecord hashing))
    (context : CallContext) (env : PolicyEnv) : Segment hashing :=
  match auditEvent policy .allowed manifest context env with
  | .ok event =>
    if env.appends then ⟨some event, .returned approval⟩
    else ⟨none, .raised (.runtimeFailure .unavailable)⟩
  | .error error => ⟨none, .raised error⟩

/-- `_authorize_approval`, up to `fetch`. -/
def startApproval (manifest : ToolManifest) (tool : ToolDefinition) (context : CallContext)
    (env : PolicyEnv) : Segment hashing :=
  match context.approvalId with
  | none => deny policy .approvalRequired .approvalRequired manifest context tool env
  | some approvalId =>
    -- without a store, `fetch` is an attribute of `None`
    if policy.hasStore then ⟨none, .fetching manifest approvalId⟩
    else backendUnavailable policy manifest context env

/-- All required scopes are held by the caller, the server and the rule. -/
def ScopesHeld (manifest : ToolManifest) (rule : ToolPolicyRule) (context : CallContext) : Prop :=
  ∀ scope ∈ manifest.metadata.requiredScopes.items,
    scope ∈ context.scopes ∧ scope ∈ policy.serverScopes.items ∧ scope ∈ rule.allowedScopes.items

instance (manifest : ToolManifest) (rule : ToolPolicyRule) (context : CallContext) :
    Decidable (ScopesHeld policy manifest rule context) :=
  inferInstanceAs (Decidable (∀ scope ∈ manifest.metadata.requiredScopes.items, _))

/-- `authorize`, up to its first await. -/
def startAuthorize (tool : ToolDefinition) (context : CallContext) (env : PolicyEnv) :
    Segment hashing :=
  let manifest := policy.manifestOf tool
  let name := match manifest with
    | some manifest => manifest.metadata.name
    | none => tool.metadata.name
  match manifest, policy.ruleNamed name with
  | some manifest, some rule =>
    if rule.state ≠ .active then
      deny policy .policyDenied .invalidInput manifest context tool env
    else if ¬ ScopesHeld policy manifest rule context then
      deny policy .scopeDenied .invalidInput manifest context tool env
    else if manifest.metadata.effect ≠ .read ∧ context.idempotencyKey = none then
      deny policy .idempotencyRequired .conflict manifest context tool env
    else if manifest.metadata.approval = .required then
      startApproval policy manifest tool context env
    else allow policy manifest none context env
  | manifest, _ => deny policy .policyDenied .invalidInput manifest context tool env

/-- What `fetch` gives. -/
inductive FetchAnswer (hashing : Hashing)
  | record (record : ApprovalRecord hashing)
  /-- `None`, or what is no record. -/
  | notRecord
  | raises

/-- The fields of a record match an action. -/
def Matches (record : ApprovalRecord hashing) (approvalId : Text) (context : CallContext)
    (name : Text) (toolFingerprint argumentsFingerprint actionFingerprint : Text) : Prop :=
  record.approvalId = approvalId ∧ record.tenant = context.tenant ∧
    record.subject = context.subject ∧ record.toolName = name ∧
    record.toolFingerprint = toolFingerprint ∧
    record.argumentsFingerprint = argumentsFingerprint ∧
    record.actionFingerprint = actionFingerprint

instance (record : ApprovalRecord hashing) (approvalId : Text) (context : CallContext)
    (name toolFingerprint argumentsFingerprint actionFingerprint : Text) :
    Decidable (Matches record approvalId context name toolFingerprint argumentsFingerprint
      actionFingerprint) :=
  inferInstanceAs (Decidable (_ ∧ _))

/-- `_authorize_approval`, on a fetched record. -/
def checkRecord (manifest : ToolManifest) (approvalId : Text) (record : ApprovalRecord hashing)
    (tool : ToolDefinition) (arguments : List (Text × Json)) (context : CallContext)
    (env : PolicyEnv) : Segment hashing :=
  let name := manifest.metadata.name
  let fingerprints : Except PyException (Text × Text × Text) := do
    let argumentsFingerprint ← orValueError (hashing.fingerprint (.obj arguments))
    -- the fingerprint of a registered manifest was computed by the constructor
    let toolFingerprint ← orValueError (fingerprintNamed policy.catalog name)
    let actionFingerprint ← orValueError (approvalActionFingerprint hashing context.tenant
      context.subject name toolFingerprint argumentsFingerprint)
    return (argumentsFingerprint, toolFingerprint, actionFingerprint)
  let denied := deny policy .approvalDenied .approvalRequired manifest context tool env
  match fingerprints with
  | .error error => ⟨none, .raised error⟩
  | .ok (argumentsFingerprint, toolFingerprint, actionFingerprint) =>
    if ¬ Matches record approvalId context name toolFingerprint argumentsFingerprint
        actionFingerprint then denied
    else
      match wallNow env.expiryReading with
      | .error error => ⟨none, .raised error⟩
      | .ok now =>
        if record.expiresAt.le now then denied
        else if record.use = .oneTime then
          ⟨none, .consuming manifest approvalId actionFingerprint record none⟩
        else allow policy manifest (some record) context env

/-- `authorize`, after `fetch`. -/
def afterFetch (manifest : ToolManifest) (approvalId : Text) (tool : ToolDefinition)
    (arguments : List (Text × Json)) (context : CallContext) (answer : FetchAnswer hashing)
    (env : PolicyEnv) : Segment hashing :=
  match answer with
  | .raises => backendUnavailable policy manifest context env
  | .notRecord => deny policy .approvalDenied .approvalRequired manifest context tool env
  | .record record => checkRecord policy manifest approvalId record tool arguments context env

/-- `authorize`, after `consume`. -/
def afterConsume (manifest : ToolManifest) (record : ApprovalRecord hashing)
    (tool : ToolDefinition) (context : CallContext) (consumed : Bool) (env : PolicyEnv) :
    Segment hashing :=
  if consumed then allow policy manifest (some record) context env
  else deny policy .approvalDenied .approvalRequired manifest context tool env

end

/-! ## Concurrent calls -/

/-- A call of `authorize`. -/
structure Call (hashing : Hashing) where
  tool : ToolDefinition
  arguments : List (Text × Json)
  context : CallContext
  phase : Phase hashing

/-- The state of a policy, of the calls of `authorize` and of the store. -/
structure AuthorizerState (hashing : Hashing) where
  calls : Dict ℕ (Call hashing) := ∅
  /-- The approvals that the store has consumed, each with the call it was
      consumed for, if it is one of these. -/
  consumed : Dict Text (Option ℕ) := ∅
  /-- The audit, the last event first, each event with its call. -/
  audit : List (ℕ × ToolPolicyAuditEvent) := []

/-- An event of a policy and its store. -/
inductive AuthorizerEvent (hashing : Hashing)
  /-- `authorize` is called. -/
  | authorize (call : ℕ) (tool : ToolDefinition) (arguments : List (Text × Json))
      (context : CallContext) (env : PolicyEnv)
  /-- `fetch` returns or raises. -/
  | fetched (call : ℕ) (answer : FetchAnswer hashing) (env : PolicyEnv)
  /-- The store decides on `consume`: it consumes an approval that it has not
      consumed before. -/
  | consumes (call : ℕ)
  /-- The store consumes an approval for someone else, or for a call that has
      ended. -/
  | consumesElsewhere (approvalId : Text)
  /-- The store decides on `consume`, and refuses. -/
  | refuses (call : ℕ)
  /-- `consume` returns what the store has decided. -/
  | consumed (call : ℕ) (env : PolicyEnv)
  /-- `consume` raises, whatever the store has decided. -/
  | consumeRaises (call : ℕ) (env : PolicyEnv)
  /-- `CancelledError` is raised where the call awaits. -/
  | cancel (call : ℕ)

namespace AuthorizerState

/-- The call `c` goes on to the end of a segment. -/
def advance (s : AuthorizerState hashing) (c : ℕ) (call : Call hashing)
    (segment : Segment hashing) : AuthorizerState hashing :=
  { s with
    calls := s.calls.insert c { call with phase := segment.next }
    audit := (segment.appended.map fun event => (c, event)).toList ++ s.audit }

/-- The store decides on the `consume` of the call `c`. -/
def decide (s : AuthorizerState hashing) (c : ℕ) (grant : Bool) : Option (AuthorizerState hashing) :=
  match s.calls.lookup c with
  | some call =>
    match call.phase with
    | .consuming manifest approvalId action record none =>
      let granted := grant && (s.consumed.lookup approvalId).isNone
      let phase := .consuming manifest approvalId action record (some granted)
      some { s with
        calls := s.calls.insert c { call with phase }
        consumed := if granted then s.consumed.insert approvalId (some c) else s.consumed }
    | _ => none
  | none => none

end AuthorizerState

/-- The state after an event. -/
def authorizerStep (policy : ToolPolicy hashing unicode) (s : AuthorizerState hashing) :
    AuthorizerEvent hashing → Option (AuthorizerState hashing)
  | .authorize c tool arguments context env =>
    if c ∈ s.calls then none
    else
      let segment := startAuthorize policy tool context env
      some (s.advance c ⟨tool, arguments, context, segment.next⟩ segment)
  | .fetched c answer env =>
    match s.calls.lookup c with
    | some call =>
      match call.phase with
      | .fetching manifest approvalId =>
        some (s.advance c call
          (afterFetch policy manifest approvalId call.tool call.arguments call.context answer env))
      | _ => none
    | none => none
  | .consumes c => s.decide c true
  | .consumesElsewhere approvalId =>
    if approvalId ∈ s.consumed then none
    else some { s with consumed := s.consumed.insert approvalId none }
  | .refuses c => s.decide c false
  | .consumed c env =>
    match s.calls.lookup c with
    | some call =>
      match call.phase with
      | .consuming manifest _ _ record (some answer) =>
        some (s.advance c call (afterConsume policy manifest record call.tool call.context answer env))
      | _ => none
    | none => none
  | .consumeRaises c env =>
    match s.calls.lookup c with
    | some call =>
      match call.phase with
      | .consuming manifest _ _ _ _ =>
        some (s.advance c call (backendUnavailable policy manifest call.context env))
      | _ => none
    | none => none
  | .cancel c =>
    match s.calls.lookup c with
    | some call =>
      match call.phase with
      | .fetching _ _ | .consuming _ _ _ _ _ => some (s.advance c call ⟨none, .raised .cancelledError⟩)
      | _ => none
    | none => none

/-- The calls of `authorize` of a policy, with its store. -/
def authorizer (policy : ToolPolicy hashing unicode) :
    Machine (AuthorizerState hashing) (AuthorizerEvent hashing) where
  init := {}
  step := authorizerStep policy

end McpRuntime.Policy
