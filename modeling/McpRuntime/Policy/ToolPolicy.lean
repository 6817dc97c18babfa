import McpRuntime.Tool.Manifest
import McpRuntime.Python.Except

/-!
# Tool policies

The reviewed rules of a tool policy, the approval records, and the checks of
the constructor of a policy. A `ToolPolicy` holds the proof that the checks have
passed.

* `ToolPolicy.active_rule`: an active rule belongs to a registered tool, and its
  reviewed fingerprint is the fingerprint of the manifest of this tool.
-/

namespace McpRuntime.Policy

/-- The state of a rule. -/
inductive ToolPolicyState
  | experimental
  | active
  | disabled
  deriving DecidableEq

/-- Whether an approval may be used again. -/
inductive ApprovalUse
  | oneTime
  | reusable
  deriving DecidableEq

/-- The decision of an audit event. -/
inductive ToolPolicyDecision
  | allowed
  | approvalDenied
  | approvalRequired
  | idempotencyRequired
  | policyBackendUnavailable
  | policyDenied
  | scopeDenied
  deriving DecidableEq

/-- An independent review of the fingerprint of a tool. -/
structure ToolReview where
  reviewId : Text
  authorSubject : Text
  reviewerSubject : Text
  reviewedFingerprint : Text
  reviewId_isText : IsText 256 reviewId
  authorSubject_isText : IsText 512 authorSubject
  reviewerSubject_isText : IsText 512 reviewerSubject
  independent : authorSubject ≠ reviewerSubject
  isDigest : isDigest reviewedFingerprint

/-- A rule for the tool of a name. -/
structure ToolPolicyRule where
  toolName : Text
  reviewedFingerprint : Text
  allowedScopes : BoundedTexts 32 (IsText 256)
  state : ToolPolicyState := .experimental
  review : Option ToolReview := none
  toolName_isText : IsText 128 toolName
  isDigest : isDigest reviewedFingerprint

/-- `tool_policy_fingerprint`. -/
def toolPolicyFingerprint (hashing : Hashing) (manifest : ToolManifest) : Option Text :=
  hashing.fingerprint manifest.toDict

/-- `_approval_action_fingerprint`. -/
def approvalActionFingerprint (hashing : Hashing)
    (tenant subject toolName toolFingerprint argumentsFingerprint : Text) : Option Text :=
  hashing.fingerprint (.obj [(lit "tenant", .str tenant), (lit "subject", .str subject),
    (lit "tool_name", .str toolName), (lit "tool_fingerprint", .str toolFingerprint),
    (lit "arguments_fingerprint", .str argumentsFingerprint)])

/-- An approval, bound to one action. -/
structure ApprovalRecord (hashing : Hashing) where
  approvalId : Text
  actionFingerprint : Text
  tenant : Text
  subject : Text
  toolName : Text
  toolFingerprint : Text
  argumentsFingerprint : Text
  expiresAt : PyFloat
  use : ApprovalUse
  approvalId_isText : IsText 256 approvalId
  tenant_isText : IsText 256 tenant
  subject_isText : IsText 512 subject
  toolName_isText : IsText 128 toolName
  actionFingerprint_isDigest : isDigest actionFingerprint
  toolFingerprint_isDigest : isDigest toolFingerprint
  argumentsFingerprint_isDigest : isDigest argumentsFingerprint
  binds : approvalActionFingerprint hashing tenant subject toolName toolFingerprint
    argumentsFingerprint = some actionFingerprint
  expiresAt_finite : expiresAt.isFinite ∧ expiresAt.lt (.finite 0) = false

/-! ## The checks of a policy -/

/-- An exception of the constructor of a policy. -/
inductive ConfigurationError
  | valueError
  | toolPolicyConfigurationError (code path : Text)
  deriving DecidableEq

/-- `rules[index]`, before the name of a field. -/
def rulePath (index : ℕ) (field : Text) : Text := lit (s!"rules[{index}].") ++ field

section
variable {hashing : Hashing} {unicode : UnicodeTable} (catalog : ToolCatalog hashing unicode)

/-- The manifest of a name; the names are distinct. -/
def manifestNamed (name : Text) : Option ToolManifest :=
  catalog.manifests.find? fun manifest => manifest.metadata.name = name

/-- The fingerprint that the policy keeps for a name. -/
def fingerprintNamed (name : Text) : Option Text :=
  (manifestNamed catalog name).bind (toolPolicyFingerprint hashing)

/-- The checks of a rule, which are made of an active rule only. -/
def checkRule (hasStore : Bool) (index : ℕ) (rule : ToolPolicyRule) :
    Except ConfigurationError Unit := do
  if rule.state ≠ .active then
    return
  match manifestNamed catalog rule.toolName with
  | none => throw (.toolPolicyConfigurationError (lit "unknown_tool") (rulePath index (lit "tool_name")))
  | some manifest =>
    if fingerprintNamed catalog rule.toolName ≠ some rule.reviewedFingerprint then
      throw (.toolPolicyConfigurationError (lit "review_mismatch")
        (rulePath index (lit "reviewed_fingerprint")))
    if manifest.metadata.effect ≠ .read ∧ rule.review = none then
      throw (.toolPolicyConfigurationError (lit "independent_review_required")
        (rulePath index (lit "review")))
    if ∃ review ∈ rule.review, review.reviewedFingerprint ≠ rule.reviewedFingerprint then
      throw (.toolPolicyConfigurationError (lit "review_mismatch")
        (rulePath index (lit "review.reviewed_fingerprint")))
    if manifest.metadata.approval = .required ∧ hasStore = false then
      throw (.toolPolicyConfigurationError (lit "approval_store_required") (lit "approval_store"))

/-- The checks of all rules, in turn. -/
def checkRules (hasStore : Bool) : ℕ → List ToolPolicyRule → Except ConfigurationError Unit
  | _, [] => return
  | index, rule :: rules => do
    checkRule catalog hasStore index rule
    checkRules hasStore (index + 1) rules

/-- The checks of `ToolPolicy.__init__`. -/
def checkPolicy (rules : List ToolPolicyRule) (hasStore : Bool) :
    Except ConfigurationError Unit := do
  if ¬ (rules.map ToolPolicyRule.toolName).Nodup then
    throw .valueError
  -- the fingerprint of every manifest is computed
  if ∃ manifest ∈ catalog.manifests, toolPolicyFingerprint hashing manifest = none then
    throw .valueError
  checkRules catalog hasStore 0 rules

/-- What the checks require of an active rule. -/
structure Accepted (hasStore : Bool) (rule : ToolPolicyRule) (manifest : ToolManifest) : Prop where
  named : manifestNamed catalog rule.toolName = some manifest
  fingerprint : toolPolicyFingerprint hashing manifest = some rule.reviewedFingerprint
  reviewed : manifest.metadata.effect ≠ .read → rule.review ≠ none
  review : ∀ review ∈ rule.review, review.reviewedFingerprint = rule.reviewedFingerprint
  store : manifest.metadata.approval = .required → hasStore = true

variable {catalog}

/-- An active rule that passes its checks is accepted. -/
theorem accepted_of_checkRule {hasStore : Bool} {index : ℕ} {rule : ToolPolicyRule}
    (h : checkRule catalog hasStore index rule = .ok ()) (hactive : rule.state = .active) :
    ∃ manifest, Accepted catalog hasStore rule manifest := by
  rw [checkRule, if_neg (not_not.2 hactive)] at h
  cases hm : manifestNamed catalog rule.toolName with
  | none =>
    rw [hm] at h
    cases h
  | some manifest =>
    simp only [hm, check_eq_ok, lastCheck_eq_ok] at h
    obtain ⟨hfp, hreviewed, hreview, hstore, -⟩ := h
    rw [not_not, fingerprintNamed, hm] at hfp
    refine ⟨manifest, hm, hfp, fun he hr => hreviewed ⟨he, hr⟩, fun review hr => ?_,
      fun ha => Bool.eq_true_of_not_eq_false fun hs => hstore ⟨ha, hs⟩⟩
    exact not_not.1 fun hne => hreview ⟨review, hr, hne⟩

/-- The active rules that pass their checks are accepted. -/
theorem accepted_of_checkRules {hasStore : Bool} {rules : List ToolPolicyRule} {index : ℕ}
    (h : checkRules catalog hasStore index rules = .ok ()) {rule : ToolPolicyRule}
    (hrule : rule ∈ rules) (hactive : rule.state = .active) :
    ∃ manifest, Accepted catalog hasStore rule manifest := by
  induction rules generalizing index with
  | nil => cases hrule
  | cons first rules ih =>
    obtain ⟨_, hfirst, hrest⟩ := bind_eq_ok.1 h
    rcases List.mem_cons.1 hrule with rfl | hrule
    · exact accepted_of_checkRule hfirst hactive
    · exact ih hrest hrule

end

/-- A default-deny policy whose constructor has accepted its arguments. -/
structure ToolPolicy (hashing : Hashing) (unicode : UnicodeTable) where
  catalog : ToolCatalog hashing unicode
  serverScopes : BoundedTexts 32 (IsText 256)
  rules : List ToolPolicyRule
  /-- An approval store was given. -/
  hasStore : Bool
  accepted : checkPolicy catalog rules hasStore = .ok ()

namespace ToolPolicy

variable {hashing : Hashing} {unicode : UnicodeTable} (policy : ToolPolicy hashing unicode)

/-- `self._rules.get(name)`. -/
def ruleNamed (name : Text) : Option ToolPolicyRule :=
  policy.rules.find? fun rule => rule.toolName = name

/-- `self._manifest_by_definition.get(id(tool))`. -/
def manifestOf (tool : ToolDefinition) : Option ToolManifest :=
  (policy.catalog.entries.find? fun entry => entry.1.id = tool.id).map Prod.snd

/-- `is_exported`. -/
def isExported (name : Text) : Bool :=
  match policy.ruleNamed name with
  | some rule => rule.state = .active
  | none => false

variable {policy}

/-- An active rule of a policy is accepted: it belongs to a registered manifest,
    and its reviewed fingerprint is the fingerprint of this manifest. -/
theorem accepted_of_active {rule : ToolPolicyRule} (hrule : rule ∈ policy.rules)
    (hactive : rule.state = .active) :
    ∃ manifest, Accepted policy.catalog policy.hasStore rule manifest := by
  have haccepted := policy.accepted
  simp only [checkPolicy, check_eq_ok] at haccepted
  exact accepted_of_checkRules haccepted.2.2 hrule hactive

/-- The rule of a name is a rule for the name. -/
theorem mem_of_ruleNamed {name : Text} {rule : ToolPolicyRule}
    (h : policy.ruleNamed name = some rule) : rule ∈ policy.rules ∧ rule.toolName = name :=
  ⟨List.mem_of_find?_eq_some h, by simpa using List.find?_some h⟩

/-- The manifest of a definition belongs to a registered definition with its
    `id`. -/
theorem mem_of_manifestOf {tool : ToolDefinition} {manifest : ToolManifest}
    (h : policy.manifestOf tool = some manifest) :
    ∃ definition, definition.id = tool.id ∧ (definition, manifest) ∈ policy.catalog.entries := by
  obtain ⟨⟨definition, _⟩, hfind, rfl⟩ := Option.map_eq_some_iff.1 h
  exact ⟨definition, by simpa using List.find?_some hfind, List.mem_of_find?_eq_some hfind⟩

end ToolPolicy

/-- A manifest of the catalog is the manifest of its name. -/
theorem manifestNamed_of_mem {hashing : Hashing} {unicode : UnicodeTable}
    {catalog : ToolCatalog hashing unicode} {manifest : ToolManifest}
    (h : manifest ∈ catalog.manifests) :
    manifestNamed catalog manifest.metadata.name = some manifest := by
  have hnodup := catalog.manifestNames_nodup
  rw [manifestNamed]
  generalize catalog.manifests = manifests at h hnodup ⊢
  induction manifests with
  | nil => cases h
  | cons first manifests ih =>
    rw [List.map_cons, List.nodup_cons] at hnodup
    rw [List.find?_cons]
    rcases List.mem_cons.1 h with rfl | h
    · rw [decide_eq_true rfl]
    · have hne : first.metadata.name ≠ manifest.metadata.name := fun he =>
        hnodup.1 (List.mem_map.2 ⟨manifest, h, he.symm⟩)
      rw [decide_eq_false hne]
      exact ih h hnodup.2

/-! ## An example policy -/

/-- A case mapping that leaves the characters beyond ASCII alone. -/
def asciiTable : UnicodeTable where
  fold c := [c]
  upper c := [c]

/-- A schema that accepts the empty object only. -/
def emptySchema : Json :=
  .obj [(lit "type", .str (lit "object")), (lit "properties", .obj []),
    (lit "additionalProperties", .bool false)]

/-- A tool that writes, and needs an approval. -/
def refundMetadata : ToolMetadata where
  name := lit "refund"
  title := lit "Refund"
  description := lit "Refunds an order."
  effect := .write
  approval := .required
  idempotency := .required
  requiredScopes := ⟨[lit "orders:write"], by decide, by decide, by decide⟩
  name_isText := by decide
  title_isText := by decide
  description_isText := by decide
  write_idempotent := by decide
  external_approved := by decide

/-- The manifest of the tool, with its fingerprints. -/
def refundSnapshot : ToolManifest where
  metadata := refundMetadata
  normalizedName := lit "refund"
  inputSchema := emptySchema.sorted
  outputSchema := emptySchema.sorted
  inputFingerprint := lit "99334726611ccf58a148b0814696bfa6fe08c1b2d027e946beccf5a74331c9aa"
  outputFingerprint := lit "99334726611ccf58a148b0814696bfa6fe08c1b2d027e946beccf5a74331c9aa"
  contractFingerprint := lit "bc0d1f7cf774796043c066f6aca67c1c0275a32f119ece7db086504a6a1991fb"

/-- The fingerprint of the manifest. -/
def refundFingerprint : Text :=
  lit "7a8c64fc5332c54d372d25e8963fdce492c1c2a714f4e50c9d46214129074f5b"

/-- The arguments of a call of the tool. -/
def refundArguments : List (Text × Json) := [(lit "order", .int 7)]

/-- The fingerprint of the arguments. -/
def argumentsDigest : Text :=
  lit "8bcbace4a85bfd655264d50663d1000092824d9421d416b685402a8a18ea32d3"

/-- The fingerprint of the action of Alice's call. -/
def actionDigest : Text := lit "7e4738fca00b1bb337654f79a6aa2524b8a69c9f0071b78271eeec972274c258"

/-- The fingerprint of the arguments is a digest. -/
theorem isDigest_argumentsDigest : isDigest argumentsDigest := by decide

/-- The fingerprint of the action is a digest. -/
theorem isDigest_actionDigest : isDigest actionDigest := by decide

/-- The canonical texts of the example with their SHA-256 digests. -/
def digestTable : List (Text × Digest) :=
  let document (j : Json) : Text := JsonWriter.plain.render j.sorted
  [(document emptySchema, ⟨refundSnapshot.inputFingerprint, by decide⟩),
    (document (.obj [(lit "input_schema", emptySchema), (lit "output_schema", emptySchema)]),
      ⟨refundSnapshot.contractFingerprint, by decide⟩),
    (document refundSnapshot.toDict, ⟨refundFingerprint, by decide⟩),
    (document (.obj refundArguments), ⟨argumentsDigest, isDigest_argumentsDigest⟩),
    (document (.obj [(lit "tenant", .str (lit "north")), (lit "subject", .str (lit "alice")),
      (lit "tool_name", .str (lit "refund")), (lit "tool_fingerprint", .str refundFingerprint),
      (lit "arguments_fingerprint", .str argumentsDigest)]), ⟨actionDigest, isDigest_actionDigest⟩),
    (lit "alice",
      ⟨lit "2bd806c97f0e00af1a1fc3328fa763a9269723c8db8fac4f93af71db186d6e90", by decide⟩),
    (lit "key-1",
      ⟨lit "be2974546978e3739e6d6da85c4be9f334ce32df2b9fd4b6ff1b55c0d57e9d44", by decide⟩)]

/-- A digest, for the texts that are no documents of the example. -/
def otherDigest : Digest := ⟨List.replicate 64 48, isDigest_zeros⟩

/-- SHA-256, on the documents of the example. -/
def exampleHashing : Hashing where
  writer := .plain
  sha256 document := (digestTable.lookup document).getD otherDigest

/-- The definition of the tool. -/
def refundTool : ToolDefinition where
  id := 0
  metadata := refundMetadata
  inputSchema := emptySchema
  outputSchema := emptySchema

/-- The manifest that the tool is registered with. -/
def refundManifest : ToolManifest :=
  (refundTool.manifest exampleHashing asciiTable).get (by decide +kernel)

/-- A catalog with the tool. -/
def refundCatalog : ToolCatalog exampleHashing asciiTable where
  tools := [refundTool]
  manifests := [refundManifest]
  registered := .cons (Option.some_get _).symm .nil
  names_nodup := List.nodup_singleton _
  ids_inj := by simp

/-- An active rule for the tool, with an independent review. -/
def refundRule : ToolPolicyRule where
  toolName := lit "refund"
  reviewedFingerprint := refundFingerprint
  allowedScopes := ⟨[lit "orders:write"], by decide, by decide, by decide⟩
  state := .active
  review := some
    { reviewId := lit "review-1"
      authorSubject := lit "publisher"
      reviewerSubject := lit "reviewer"
      reviewedFingerprint := refundFingerprint
      reviewId_isText := by decide
      authorSubject_isText := by decide
      reviewerSubject_isText := by decide
      independent := by decide
      isDigest := by decide }
  toolName_isText := by decide
  isDigest := by decide

/-- A policy that allows the tool. -/
def refundPolicy : ToolPolicy exampleHashing asciiTable where
  catalog := refundCatalog
  serverScopes := ⟨[lit "orders:write"], by decide, by decide, by decide⟩
  rules := [refundRule]
  hasStore := true
  accepted := by decide +kernel

end McpRuntime.Policy
