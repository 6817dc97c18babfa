import McpRuntime.Python.Json

/-!
# Contracts

The data shared by the components of the runtime: the bounded text the
contracts are made of (`IsText`, the check of `require_text`), the verified
identity and the context of a call, the stable errors, and the result of an
invocation. A value that a constructor of the source would reject cannot be
built: its checks are fields.
-/

namespace McpRuntime

/-! ## Bounded text -/

/-- The check of `_require_text`: the text is not empty, has no white space at
    its ends, is not longer than `maximum` and has no control character below
    the space. -/
def IsText (maximum : ℕ) (t : Text) : Prop :=
  t ≠ [] ∧ t = t.strip ∧ t.length ≤ maximum ∧ ∀ c ∈ t, 32 ≤ c.val

instance (maximum : ℕ) (t : Text) : Decidable (IsText maximum t) :=
  decidable_of_iff (t ≠ [] ∧ t = t.strip ∧ t.length ≤ maximum ∧ t.all fun c => 32 ≤ c.val)
    (by simp only [IsText, List.all_eq_true, decide_eq_true_eq])

/-- A text bounded by `n` is bounded by what `n` is. -/
theorem IsText.mono {m n : ℕ} {t : Text} (h : IsText m t) (hmn : m ≤ n) : IsText n t :=
  ⟨h.1, h.2.1, h.2.2.1.trans hmn, h.2.2.2⟩

/-- The text is a lone label: all its characters satisfy `p` after the first,
    which satisfies `first`. -/
def matchesName (first rest : CodePoint → Bool) (maximum : ℕ) : Text → Bool
  | [] => false
  | c :: t => first c && t.all rest && t.length + 1 ≤ maximum

/-! ## Errors -/

/-- The stable error codes. -/
inductive ErrorCode
  | invalidInput
  | unauthenticated
  | forbidden
  | approvalRequired
  | conflict
  | timeout
  | cancelled
  | overloaded
  | unavailable
  | resultTooLarge
  | internalFailure
  deriving DecidableEq

namespace ErrorCode

/-- The public text of the code (`_ERROR_MESSAGES`). -/
def message : ErrorCode → Text
  | invalidInput => lit "The request is invalid."
  | unauthenticated => lit "Authentication is required."
  | forbidden => lit "The operation is not permitted."
  | approvalRequired => lit "Approval is required."
  | conflict => lit "The operation conflicts with current state."
  | timeout => lit "The operation timed out."
  | cancelled => lit "The operation was cancelled."
  | overloaded => lit "The runtime is at capacity."
  | unavailable => lit "A required dependency is unavailable."
  | resultTooLarge => lit "The tool result exceeds the allowed size."
  | internalFailure => lit "The operation failed."

end ErrorCode

/-- Stable, payload-free error data, whose message is that of the code. -/
structure ErrorResponse where
  code : ErrorCode
  requestId : Text
  isText : IsText 256 requestId
  deriving DecidableEq

namespace ErrorResponse

/-- The public text of the error. -/
def message (e : ErrorResponse) : Text := e.code.message

end ErrorResponse

/-- Exactly one terminal success value or stable public failure. -/
inductive InvocationResult (ν : Type*)
  | success (value : ν)
  | failure (error : ErrorResponse)
  deriving DecidableEq

/-- The state of an application. -/
inductive LifecycleState
  | startup
  | ready
  | draining
  | stopped
  deriving DecidableEq

/-! ## The authority of a call -/

/-- Identity values produced by a trusted transport adapter. -/
structure AuthenticatedIdentity where
  tenant : Text
  subject : Text
  issuer : Text
  scopes : List Text
  tenant_isText : IsText 256 tenant
  subject_isText : IsText 512 subject
  issuer_isText : IsText 2048 issuer
  scopes_isText : ∀ s ∈ scopes, IsText 256 s
  scopes_nodup : scopes.Nodup
  deriving DecidableEq

/-- The authority carried with one tool call. -/
structure CallContext where
  identity : AuthenticatedIdentity
  requestId : Text
  runId : Text
  deadline : Option ℚ := none
  idempotencyKey : Option Text := none
  approvalId : Option Text := none
  requestId_isText : IsText 256 requestId
  runId_isText : IsText 256 runId
  deadline_nonneg : ∀ d ∈ deadline, 0 ≤ d := by simp
  idempotencyKey_isText : ∀ k ∈ idempotencyKey, IsText 512 k := by simp
  approvalId_isText : ∀ a ∈ approvalId, IsText 256 a := by simp
  deriving DecidableEq

namespace CallContext

/-- The tenant of the caller. -/
def tenant (c : CallContext) : Text := c.identity.tenant

/-- The subject of the caller. -/
def subject (c : CallContext) : Text := c.identity.subject

/-- The issuer of the identity of the caller. -/
def issuer (c : CallContext) : Text := c.identity.issuer

/-- The scopes of the caller. -/
def scopes (c : CallContext) : List Text := c.identity.scopes

end CallContext

/-! ## Example callers -/

/-- An identity of the tenant `north`. -/
def alice : AuthenticatedIdentity where
  tenant := lit "north"
  subject := lit "alice"
  issuer := lit "https://issuer.example"
  scopes := []
  tenant_isText := by decide
  subject_isText := by decide
  issuer_isText := by decide
  scopes_isText := by decide
  scopes_nodup := by decide

/-- An identity of the tenant `south`. -/
def bob : AuthenticatedIdentity where
  tenant := lit "south"
  subject := lit "bob"
  issuer := lit "https://issuer.example"
  scopes := []
  tenant_isText := by decide
  subject_isText := by decide
  issuer_isText := by decide
  scopes_isText := by decide
  scopes_nodup := by decide

/-- A call of Alice, without a deadline. -/
def aliceCall : CallContext where
  identity := alice
  requestId := lit "request-1"
  runId := lit "run-1"
  requestId_isText := by decide
  runId_isText := by decide

/-! ## The reviewed metadata of a tool -/

/-- What a tool does outside the runtime. -/
inductive ToolEffect
  | read
  | write
  | externalEffect
  deriving DecidableEq

/-- The value of the effect. -/
def ToolEffect.value : ToolEffect → Text
  | read => lit "read"
  | write => lit "write"
  | externalEffect => lit "external_effect"

/-- Whether each call of a tool needs an approval. -/
inductive ApprovalRequirement
  | notRequired
  | required
  deriving DecidableEq

/-- The value of the requirement. -/
def ApprovalRequirement.value : ApprovalRequirement → Text
  | notRequired => lit "not_required"
  | required => lit "required"

/-- Whether each call of a tool needs an idempotency key. -/
inductive IdempotencyRequirement
  | notApplicable
  | required
  deriving DecidableEq

/-- The value of the requirement. -/
def IdempotencyRequirement.value : IdempotencyRequirement → Text
  | notApplicable => lit "not_applicable"
  | required => lit "required"

/-- `_TOOL_NAME`. -/
def isToolName : Text → Bool :=
  matchesName (fun c => c.isAlphanumeric && !c.isDigit)
    (fun c => c.isAlphanumeric || (lit "_.-").contains c) 128

/-- `_SCOPE_NAME`. -/
def isScopeName : Text → Bool :=
  matchesName CodePoint.isAlphanumeric
    (fun c => c.isAlphanumeric || (lit ":._/-").contains c) 256

/-- `_CAPABILITY_NAME`. -/
def isCapabilityName (t : Text) : Bool :=
  (lit "cap/").isPrefixOf t &&
    matchesName (fun c => c.isLower || c.isDigit)
      (fun c => c.isLower || c.isDigit || (lit "._/-").contains c) 128 (t.drop 4)

/-- `_METADATA_CLASS`. -/
def isMetadataClass : Text → Bool :=
  matchesName CodePoint.isLower
    (fun c => c.isLower || c.isDigit || (lit "._-").contains c) 64

/-- A tuple of at most `length` distinct texts that satisfy `p`. -/
structure BoundedTexts (length : ℕ) (p : Text → Prop) where
  items : List Text
  length_le : items.length ≤ length
  all : ∀ t ∈ items, p t
  nodup : items.Nodup
  deriving DecidableEq

/-- The texts as a JSON array. -/
def BoundedTexts.toJson {length : ℕ} {p : Text → Prop} (texts : BoundedTexts length p) : Json :=
  .arr (texts.items.map .str)

/-- Bounded routing metadata that never grants authority. -/
structure ToolDiscoveryMetadata where
  summary : Text
  whenToUse : Text
  capabilities : BoundedTexts 32 fun t => IsText 132 t ∧ isCapabilityName t
  rateClass : Text
  lifecycle : Text
  examples : BoundedTexts 16 (IsText 1024)
  summary_isText : IsText 200 summary
  whenToUse_isText : IsText 1024 whenToUse
  rateClass_isText : IsText 64 rateClass ∧ isMetadataClass rateClass
  lifecycle_isText : IsText 64 lifecycle ∧ isMetadataClass lifecycle
  deriving DecidableEq

/-- `ToolDiscoveryMetadata.to_dict`. -/
def ToolDiscoveryMetadata.toDict (d : ToolDiscoveryMetadata) : Json :=
  .obj [(lit "summary", .str d.summary), (lit "when_to_use", .str d.whenToUse),
    (lit "capabilities", d.capabilities.toJson), (lit "rate_class", .str d.rateClass),
    (lit "lifecycle", .str d.lifecycle), (lit "examples", d.examples.toJson)]

/-- Bounded policy metadata reviewed with one tool definition. -/
structure ToolMetadata where
  name : Text
  title : Text
  description : Text
  effect : ToolEffect
  approval : ApprovalRequirement
  idempotency : IdempotencyRequirement
  requiredScopes : BoundedTexts 32 fun t => IsText 256 t ∧ isScopeName t
  discovery : Option ToolDiscoveryMetadata := none
  name_isText : IsText 128 name ∧ isToolName name
  title_isText : IsText 128 title
  description_isText : IsText 2048 description
  write_idempotent : effect ≠ .read → idempotency = .required
  external_approved : effect = .externalEffect → approval = .required
  deriving DecidableEq

/-- `ToolMetadata.to_dict`. -/
def ToolMetadata.toDict (m : ToolMetadata) : Json :=
  .obj ([(lit "name", .str m.name), (lit "title", .str m.title),
    (lit "description", .str m.description), (lit "effect", .str m.effect.value),
    (lit "approval", .str m.approval.value), (lit "idempotency", .str m.idempotency.value),
    (lit "required_scopes", m.requiredScopes.toJson)] ++
      (m.discovery.map fun d => (lit "discovery", d.toDict)).toList)

end McpRuntime
