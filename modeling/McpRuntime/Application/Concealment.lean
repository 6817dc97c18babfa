import McpRuntime.Application.Invoke
import McpRuntime.Policy.Soundness

/-!
# Concealment of tools

A tool is hidden from a call when its policy has no active rule that grants the
call the scopes of the tool. Two calls that differ only in the name, one of a
hidden tool and one of an unregistered name, should have one result.

* `invoke_hidden_iff`: they have one result unless the call gets as far as the
  lookup and the hidden tool then fails in its own way, before the policy denies
  it or in the record of the denial.
-/

namespace McpRuntime

namespace Policy

variable {hashing : Hashing} {unicode : UnicodeTable} {policy : ToolPolicy hashing unicode}

/-! ## Denials -/

/-- The audit event of a denial can be made, or fails in a way that the denial
    expects: `redact_text` raises before a text that UTF-8 cannot encode is
    hashed, or there is no such text, and the clock does not read an `int` too
    large for a float. -/
def Auditable (env : PolicyEnv) (context : CallContext) (toolName : Text) : Prop :=
  env.redactText context.requestId = none ∨ env.redactText context.runId = none ∨
    env.redactText context.tenant = none ∨
      (context.subject.Encodable ∧
        (env.redactText toolName = none ∨ (∃ scope ∈ context.scopes, env.redactText scope = none) ∨
          (∃ approvalId ∈ context.approvalId, env.redactText approvalId = none) ∨
            ((∀ key ∈ context.idempotencyKey, key.Encodable) ∧
              ∀ now ∈ env.eventReading, now.overflows = false)))

section
variable {P : PyException → Prop} {env : PolicyEnv}

/-- `_redact_audit_text` gives a value when `redact_text` does. -/
theorem redactAuditText_eq_ok {value : Text} :
    (∃ redacted, env.redactAuditText value = .ok redacted) ↔ env.redactText value ≠ none := by
  rw [PolicyEnv.redactAuditText]
  cases env.redactText value with
  | none => simp
  | some redacted => simp

/-- `_redact_audit_text` raises `UNAVAILABLE` only. -/
theorem raisesOnly_redactAuditText (hP : P (.runtimeFailure .unavailable)) (value : Text) :
    RaisesOnly P (env.redactAuditText value) := by
  rw [PolicyEnv.redactAuditText]
  split
  · exact raisesOnly_ok
  · exact raisesOnly_error.2 hP

/-- `_now` raises `UNAVAILABLE` only, or `OverflowError` for an `int` that is too
    large. -/
theorem raisesOnly_wallNow (hP : P (.runtimeFailure .unavailable)) {reading : Option PyFloat} :
    RaisesOnly P (wallNow reading) ↔
      ((∀ now ∈ reading, now.overflows = false) ∨ P .overflowError) := by
  cases reading with
  | none => exact ⟨fun _ => .inl (by simp), fun _ => raisesOnly_error.2 hP⟩
  | some now =>
    rw [wallNow]
    split_ifs with hoverflows hfinite
    · exact raisesOnly_error.trans ⟨.inr, fun hor => hor.resolve_left (by simp [hoverflows])⟩
    · exact ⟨fun _ => .inl (by simpa using hoverflows), fun _ => raisesOnly_error.2 hP⟩
    · exact ⟨fun _ => .inl (by simpa using hoverflows), fun _ => raisesOnly_ok⟩

/-- A digest raises `ValueError` for a text that UTF-8 cannot encode. -/
theorem raisesOnly_digest {text : Text} :
    RaisesOnly P (orValueError (hashing.digest text)) ↔ (text.Encodable ∨ P .valueError) := by
  rw [Hashing.digest]
  split_ifs with h
  · exact ⟨fun _ => .inl h, fun _ => raisesOnly_ok⟩
  · exact raisesOnly_error.trans ⟨.inr, fun hor => hor.resolve_left h⟩

/-- A text that UTF-8 can encode has a digest. -/
theorem digest_eq_ok {text : Text} :
    (∃ digest, orValueError (hashing.digest text) = .ok digest) ↔ text.Encodable := by
  simp only [orValueError_eq_ok, Hashing.digest]
  split_ifs with h
  · exact ⟨fun _ => h, fun _ => ⟨_, rfl⟩⟩
  · refine ⟨?_, fun hencodable => absurd hencodable h⟩
    rintro ⟨_, hnone⟩
    cases hnone

/-- An audit event raises `UNAVAILABLE` only, or `ValueError` or `OverflowError`
    unless it is auditable. -/
theorem raisesOnly_auditEvent (hP : P (.runtimeFailure .unavailable))
    (hsame : P .overflowError ↔ P .valueError)
    {decision : ToolPolicyDecision} {manifest : ToolManifest} {context : CallContext}
    {fingerprint : Text} (hfingerprint : eventFingerprint policy manifest = .ok fingerprint) :
    RaisesOnly P (auditEvent policy decision manifest context env) ↔
      (Auditable env context manifest.metadata.name ∨ P .valueError) := by
  have hpure {α : Type} (a : α) : RaisesOnly P (pure a) := raisesOnly_ok
  have hvalue : ∃ a, (.ok fingerprint : Except PyException Text) = .ok a := ⟨fingerprint, rfl⟩
  have hscopes : (∃ scopes, (context.scopes.insertionSort (· ≤ ·)).mapM env.redactAuditText =
      .ok scopes) ↔ ¬ ∃ scope ∈ context.scopes, env.redactText scope = none := by
    simp [mapM_eq_ok, redactAuditText_eq_ok, List.mem_insertionSort]
  have hkey : (∀ key ∈ context.idempotencyKey, key.Encodable ∨ P .valueError) ↔
      (∀ key ∈ context.idempotencyKey, key.Encodable) ∨ P .valueError := by
    cases context.idempotencyKey <;> simp
  have hhash : (∃ hash, (context.idempotencyKey.mapM fun key => orValueError (hashing.digest key)) =
      .ok hash) ↔ ∀ key ∈ context.idempotencyKey, key.Encodable := by
    simp [optionMapM_eq_ok, digest_eq_ok]
  have happroval : (∃ approvalId, context.approvalId.mapM env.redactAuditText = .ok approvalId) ↔
      ¬ ∃ approvalId ∈ context.approvalId, env.redactText approvalId = none := by
    simp [optionMapM_eq_ok, redactAuditText_eq_ok]
  -- each step is followed by the rest, unless it raises
  simp only [auditEvent, Auditable, raisesOnly_bind, hfingerprint, raisesOnly_ok,
    raisesOnly_redactAuditText hP, raisesOnly_digest, raisesOnly_wallNow hP, hsame, hpure,
    raisesOnly_mapM (raisesOnly_redactAuditText hP), raisesOnly_optionMapM, forall_ok_iff, hvalue,
    redactAuditText_eq_ok, digest_eq_ok, hscopes, hkey, hhash, happroval, true_and, implies_true,
    and_true, forall_const]
  by_cases hraises : P .valueError
  · simp only [hraises, or_true, implies_true, and_true]
  · by_cases hsubject : context.subject.Encodable
    · by_cases hkeys : ∀ key ∈ context.idempotencyKey, key.Encodable
      · simp only [hraises, hsubject, eq_true hkeys, or_false, true_and, forall_const]
        simp only [imp_iff_not_or, ne_eq, not_not]
      · simp only [hraises, hsubject, eq_false hkeys, or_false, true_and, false_and]
        simp only [imp_iff_not_or, ne_eq, not_not, not_true, false_or, or_false]
    · simp only [hraises, hsubject, or_false, false_and, imp_iff_not_or, ne_eq, not_not]

end

/-- An exception that a denial does not expect: a text that UTF-8 cannot encode, or an
    `int` that is too large for a float. -/
def Unexpected (error : PyException) : Prop := error = .valueError ∨ error = .overflowError

instance (error : PyException) : Decidable (Unexpected error) :=
  inferInstanceAs (Decidable (_ ∨ _))

/-- An unexpected exception is no `RuntimeFailure`, and is mapped to another code than
    that of a denial. -/
theorem Unexpected.code_ne {error : PyException} (h : Unexpected error) {code : ErrorCode} :
    error ≠ .runtimeFailure code ∧ error.kind.code = .internalFailure := by
  rcases h with rfl | rfl
  all_goals exact ⟨fun h => (by cases h), rfl⟩

/-- A denial of a registered tool raises its code, or an unexpected exception where its
    audit event is not auditable. -/
theorem denyWith_next (decision : ToolPolicyDecision) (code : ErrorCode) {manifest : ToolManifest}
    (context : CallContext) (env : PolicyEnv) {fingerprint : Text}
    (hfingerprint : eventFingerprint policy manifest = .ok fingerprint) :
    (Auditable env context manifest.metadata.name ∧
      (denyWith policy decision code manifest context env).next =
        .raised (.runtimeFailure code)) ∨
    (¬ Auditable env context manifest.metadata.name ∧
      ∃ error, Unexpected error ∧
        (denyWith policy decision code manifest context env).next = .raised error) := by
  have hkinds : RaisesOnly (fun e => e = .runtimeFailure .unavailable ∨ Unexpected e)
      (auditEvent policy decision manifest context env) :=
    (raisesOnly_auditEvent (.inl rfl) (by simp [Unexpected]) hfingerprint).2
      (.inr (.inr (.inl rfl)))
  have hexpected : RaisesOnly (¬ Unexpected ·) (auditEvent policy decision manifest context env) ↔ _ :=
    raisesOnly_auditEvent (by decide) (by simp [Unexpected]) hfingerprint
  have hvalue : ¬ ¬ Unexpected .valueError := not_not.2 (.inl rfl)
  rw [or_iff_left hvalue] at hexpected
  rw [← hexpected, denyWith]
  cases h : auditEvent policy decision manifest context env with
  | ok event => exact .inl ⟨raisesOnly_ok, rfl⟩
  | error error =>
    rw [raisesOnly_error]
    rcases hkinds error h with rfl | hunexpected
    · exact .inl ⟨by decide, rfl⟩
    · refine .inr ⟨not_not.2 hunexpected, error, hunexpected, ?_⟩
      rcases hunexpected with rfl | rfl <;> rfl

/-! ## Hidden tools -/

/-- The tool is hidden from the call: no active rule for it grants the call all
    scopes that the tool requires. -/
def Hidden (policy : ToolPolicy hashing unicode) (tool : ToolDefinition) (context : CallContext) :
    Prop :=
  ∀ rule, policy.ruleNamed tool.metadata.name = some rule → rule.state = .active →
    ∃ scope ∈ tool.metadata.requiredScopes.items,
      ¬ (scope ∈ context.scopes ∧ scope ∈ policy.serverScopes.items ∧
        scope ∈ rule.allowedScopes.items)

/-- A tool that the policy does not export is hidden. -/
theorem hidden_of_not_exported {tool : ToolDefinition} (context : CallContext)
    (h : policy.isExported tool.metadata.name = false) : Hidden policy tool context := by
  intro rule hrule hactive
  rw [ToolPolicy.isExported, hrule] at h
  exact absurd hactive (of_decide_eq_false h)

/-- A tool with a scope that the context lacks is hidden. -/
theorem hidden_of_lacking {tool : ToolDefinition} {context : CallContext} (scope : Text)
    (hrequired : scope ∈ tool.metadata.requiredScopes.items) (hlacks : scope ∉ context.scopes) :
    Hidden policy tool context := fun _ _ _ => ⟨scope, hrequired, fun h => hlacks h.1⟩

/-- A registered definition has its own manifest. -/
theorem exists_manifestOf {tool : ToolDefinition} (htool : tool ∈ policy.catalog.tools) :
    ∃ manifest, policy.manifestOf tool = some manifest ∧
      (tool, manifest) ∈ policy.catalog.entries := by
  have hlength : policy.catalog.tools.length = policy.catalog.manifests.length :=
    policy.catalog.registered.length_eq
  obtain ⟨entry, hentry, rfl⟩ : ∃ entry ∈ policy.catalog.entries, entry.1 = tool := by
    rw [← List.map_fst_zip hlength.le] at htool
    exact List.mem_map.1 htool
  have hsome : (policy.catalog.entries.find? fun other => other.1.id = entry.1.id).isSome :=
    List.find?_isSome.2 ⟨entry, hentry, by simp⟩
  obtain ⟨found, hfound⟩ := Option.isSome_iff_exists.1 hsome
  have hmem := List.mem_of_find?_eq_some hfound
  have hid : found.1.id = entry.1.id := by simpa using List.find?_some hfound
  have heq : found.1 = entry.1 :=
    policy.catalog.ids_inj _ (List.of_mem_zip hmem).1 _ htool hid
  refine ⟨found.2, ?_, heq ▸ hmem⟩
  rw [ToolPolicy.manifestOf, hfound, Option.map_some]

/-- The policy has a fingerprint of every registered manifest. -/
theorem exists_eventFingerprint {manifest : ToolManifest}
    (h : manifest ∈ policy.catalog.manifests) :
    ∃ fingerprint, eventFingerprint policy manifest = .ok fingerprint := by
  have haccepted := policy.accepted
  simp only [checkPolicy, check_eq_ok, not_exists, not_and] at haccepted
  obtain ⟨fingerprint, hfingerprint⟩ :=
    Option.ne_none_iff_exists'.1 (haccepted.2.1 manifest h)
  exact ⟨fingerprint, by rw [eventFingerprint, fingerprintNamed_of_mem h, hfingerprint]⟩

/-- The audit event of a denial of the tool has a fingerprint: that of its
    manifest in the policy, or of one that is made for the denial. -/
def Fingerprinted (policy : ToolPolicy hashing unicode) (tool : ToolDefinition) : Prop :=
  ∃ manifest fingerprint,
    (policy.manifestOf tool = some manifest ∨
      (policy.manifestOf tool = none ∧ tool.manifest hashing unicode = some manifest)) ∧
    eventFingerprint policy manifest = .ok fingerprint

/-- A tool that is registered with the policy has a fingerprint. -/
theorem fingerprinted_of_registered {tool : ToolDefinition} (h : tool ∈ policy.catalog.tools) :
    Fingerprinted policy tool := by
  obtain ⟨manifest, hmanifest, hentry⟩ := exists_manifestOf h
  obtain ⟨fingerprint, hfingerprint⟩ :=
    exists_eventFingerprint (ToolCatalog.manifest_of_mem_entries hentry).2.1
  exact ⟨manifest, fingerprint, .inl hmanifest, hfingerprint⟩

/-- A denial without a fingerprint raises `ValueError`. -/
theorem denyWith_of_error {decision : ToolPolicyDecision} {code : ErrorCode}
    {manifest : ToolManifest} {context : CallContext} {env : PolicyEnv}
    (h : ∀ fingerprint, eventFingerprint policy manifest ≠ .ok fingerprint) :
    (denyWith policy decision code manifest context env).next = .raised .valueError := by
  have hvalue : eventFingerprint policy manifest = .error .valueError := by
    rw [eventFingerprint] at h ⊢
    split at h
    · exact absurd rfl (h _)
    · cases hf : toolPolicyFingerprint hashing manifest with
      | none => rfl
      | some fingerprint => exact absurd (by rw [hf]; rfl) (h fingerprint)
  have hevent : auditEvent policy decision manifest context env = .error .valueError := by
    rw [auditEvent, hvalue]
    rfl
  rw [denyWith, hevent]
  rfl

/-- The name by which the policy knows a tool. -/
def knownName (policy : ToolPolicy hashing unicode) (tool : ToolDefinition) : Text :=
  match policy.manifestOf tool with
  | some manifest => manifest.metadata.name
  | none => tool.metadata.name

variable (policy) in
/-- A denial of a tool raises its code when its audit event can be made, and an
    unexpected exception otherwise. -/
theorem deny_next (decision : ToolPolicyDecision) (code : ErrorCode) (tool : ToolDefinition)
    (context : CallContext) (env : PolicyEnv) :
    ((Fingerprinted policy tool ∧ Auditable env context (knownName policy tool)) ∧
      (deny policy decision code (policy.manifestOf tool) context tool env).next =
        .raised (.runtimeFailure code)) ∨
    (¬ (Fingerprinted policy tool ∧ Auditable env context (knownName policy tool)) ∧
      ∃ error, Unexpected error ∧
        (deny policy decision code (policy.manifestOf tool) context tool env).next =
          .raised error) := by
  have hwith {manifest : ToolManifest} (hname : manifest.metadata.name = knownName policy tool)
      (hfingerprinted : Fingerprinted policy tool ↔
        ∃ fingerprint, eventFingerprint policy manifest = .ok fingerprint) :
      ((Fingerprinted policy tool ∧ Auditable env context (knownName policy tool)) ∧
        (denyWith policy decision code manifest context env).next =
          .raised (.runtimeFailure code)) ∨
      (¬ (Fingerprinted policy tool ∧ Auditable env context (knownName policy tool)) ∧
        ∃ error, Unexpected error ∧
          (denyWith policy decision code manifest context env).next = .raised error) := by
    rw [hfingerprinted, ← hname]
    by_cases hsome : ∃ fingerprint, eventFingerprint policy manifest = .ok fingerprint
    · obtain ⟨fingerprint, hfingerprint⟩ := hsome
      rcases denyWith_next decision code context env hfingerprint with ⟨haudit, hnext⟩ | ⟨haudit, hnext⟩
      · exact .inl ⟨⟨⟨fingerprint, hfingerprint⟩, haudit⟩, hnext⟩
      · exact .inr ⟨fun h => haudit h.2, hnext⟩
    · exact .inr ⟨fun h => hsome h.1, _, .inl rfl, denyWith_of_error (not_exists.1 hsome)⟩
  cases hmanifest : policy.manifestOf tool with
  | some manifest =>
    refine hwith (by rw [knownName, hmanifest]) ⟨?_, fun ⟨fingerprint, h⟩ => ?_⟩
    · rintro ⟨manifest', fingerprint, hor | ⟨hnone, -⟩, h⟩
      · obtain rfl := Option.some.inj (hmanifest.symm.trans hor)
        exact ⟨fingerprint, h⟩
      · cases hmanifest.symm.trans hnone
    · exact ⟨manifest, fingerprint, .inl hmanifest, h⟩
  | none =>
    rw [deny]
    cases hcreate : tool.manifest hashing unicode with
    | some manifest =>
      refine hwith ?_ ⟨?_, fun ⟨fingerprint, h⟩ => ?_⟩
      · rw [knownName, hmanifest, ToolManifest.metadata_of_create hcreate]
      · rintro ⟨manifest', fingerprint, hsome | ⟨-, hmade⟩, h⟩
        · cases hmanifest.symm.trans hsome
        · obtain rfl := Option.some.inj (hcreate.symm.trans hmade)
          exact ⟨fingerprint, h⟩
      · exact ⟨manifest, fingerprint, .inr ⟨hmanifest, hcreate⟩, h⟩
    | none =>
      refine .inr ⟨?_, _, .inl rfl, rfl⟩
      rintro ⟨⟨manifest', fingerprint, hsome | ⟨-, hmade⟩, h⟩, -⟩
      · cases hmanifest.symm.trans hsome
      · cases hcreate.symm.trans hmade

/-- The policy denies a call of a hidden tool. A definition of the policy with the
    `id` of the tool is the tool. -/
theorem startAuthorize_hidden {tool : ToolDefinition} {context : CallContext} (env : PolicyEnv)
    (hid : ∀ definition ∈ policy.catalog.tools, definition.id = tool.id → definition = tool)
    (hhidden : Hidden policy tool context) :
    ((Fingerprinted policy tool ∧ Auditable env context tool.metadata.name) ∧
      (startAuthorize policy tool context env).next =
        .raised (.runtimeFailure .invalidInput)) ∨
    (¬ (Fingerprinted policy tool ∧ Auditable env context tool.metadata.name) ∧
      ∃ error, Unexpected error ∧
        (startAuthorize policy tool context env).next = .raised error) := by
  have hmetadata : ∀ manifest, policy.manifestOf tool = some manifest →
      manifest.metadata = tool.metadata := fun manifest h => by
    obtain ⟨definition, hsame, hentry⟩ := ToolPolicy.mem_of_manifestOf h
    obtain ⟨htool, -, hcreate⟩ := ToolCatalog.manifest_of_mem_entries hentry
    rw [ToolManifest.metadata_of_create hcreate, hid definition htool hsame]
  have hknown : knownName policy tool = tool.metadata.name := by
    rw [knownName]
    split
    · next manifest hmanifest => rw [hmetadata manifest hmanifest]
    · rfl
  have hdenied (decision : ToolPolicyDecision) :=
    deny_next policy decision .invalidInput tool context env
  rw [hknown] at hdenied
  rw [startAuthorize]
  cases hmanifest : policy.manifestOf tool with
  | none =>
    rw [hmanifest] at hdenied
    exact hdenied .policyDenied
  | some manifest =>
    have hname := hmetadata manifest hmanifest
    rw [hmanifest] at hdenied
    simp only [hname]
    cases hrule : policy.ruleNamed tool.metadata.name with
    | none => exact hdenied .policyDenied
    | some rule =>
      by_cases hactive : rule.state = .active
      · have hscopes : ¬ ScopesHeld policy manifest rule context := by
          obtain ⟨scope, hscope, hnot⟩ := hhidden rule hrule hactive
          exact fun hheld => hnot (hheld scope (hname ▸ hscope))
        simp only [hactive, ne_eq, not_true, if_false, hscopes, not_false_eq_true, if_true]
        exact hdenied .scopeDenied
      · simp only [ne_eq, hactive, not_false_eq_true, if_true]
        exact hdenied .policyDenied

end Policy

open Policy

namespace Application

variable {hashing : Hashing} {unicode : UnicodeTable} {ι ω : Type}
  {app : Application hashing unicode ι ω} {policy : ToolPolicy hashing unicode}
  {policyEnv : PolicyEnv} {unknown name : Text} {tool : ToolDefinition}
  {arguments : List (Text × Json)} {context : CallContext} {env : InvokeEnv ω}

/-- The authorizer of the call is the policy: it raises what `authorize` raises
    before it awaits. -/
def AuthorizedBy (policy : ToolPolicy hashing unicode) (policyEnv : PolicyEnv)
    (context : CallContext) (env : InvokeEnv ω) : Prop :=
  ∀ tool error, (startAuthorize policy tool context policyEnv).next = .raised error →
    env.authorize tool = .error error

/-- When a call of a hidden tool has the result of a call of an unregistered
    name. -/
def Concealed (app : Application hashing unicode ι ω) (policy : ToolPolicy hashing unicode)
    (policyEnv : PolicyEnv) (tool : ToolDefinition) (arguments : List (Text × Json)) (context : CallContext)
    (env : InvokeEnv ω) : Prop :=
  -- neither call has a result
  ¬ (PyFloat.lt (.finite maxDurationSeconds) (env.finishedAt.sub app.rounding env.startedAt) =
      false ∧ ∀ t ∈ app.redactText context.requestId, IsText 256 t → 127 ∉ t) ∨
  -- neither call gets as far as the lookup of the tool
  env.state ≠ .ready ∨ env.race ≠ .work ∨
    isValidJsonValue hashing.writer app.executionLimits app.executionLimits.maxInputBytes
      (some (.obj arguments)) = false ∨
  -- the arguments of the tool are invalid
  (∃ error, app.parseInput tool arguments = .error error ∧
    (error.kind.isInputError ∨ error.kind.code = .invalidInput)) ∨
  -- the tool is admitted, and the denial is recorded as it should be
  ((∃ input, app.parseInput tool arguments = .ok input) ∧
    env.admission.reached app.executionLimits tool.metadata.name context.tenant = none ∧
    Fingerprinted policy tool ∧ Auditable policyEnv context tool.metadata.name)

/-- Failures with a request id are the same when their codes are. -/
theorem failure_inj {code code' : ErrorCode} {requestId : Text} :
    app.failure code requestId = app.failure code' requestId ↔ code = code' := by
  refine ⟨fun h => ?_, fun h => by rw [h]⟩
  rw [failure, failure] at h
  cases h
  rfl

/-- The calls of two names have one result when neither has one or when their
    results before the record are the same. -/
theorem invoke_eq_invoke_iff {name' : Text} :
    app.invoke name arguments context env = app.invoke name' arguments context env ↔
      ¬ (isDuration (app.durationSeconds env) ∧ isVisible (app.safeRequestId context.requestId)) ∨
        app.invokeResult name arguments context env =
          app.invokeResult name' arguments context env := by
  rw [invoke_eq, invoke_eq]
  by_cases h : isDuration (app.durationSeconds env) ∧
      isVisible (app.safeRequestId context.requestId)
  · rw [if_pos h, if_pos h, or_iff_right (not_not.2 h)]
    exact ⟨Except.ok.inj, congrArg _⟩
  · rw [if_neg h, if_neg h]
    exact ⟨fun _ => .inl h, fun _ => rfl⟩

/-- A call of a name that is not registered fails with `INVALID_INPUT`, as far
    as it gets. -/
theorem invokeResult_unknown (hstate : env.state = .ready) (hrace : env.race = .work)
    (hunknown : app.catalog.get unknown = none) :
    app.invokeResult unknown arguments context env =
      app.failure .invalidInput context.requestId := by
  rw [invokeResult, if_pos hstate, runInvocation, hrace]
  simp only [invokeBounded, hunknown, ite_self]
  rfl

/-- The result of a call whose tool fails before or in its authorization. -/
theorem invokeResult_of_error (hstate : env.state = .ready) (hrace : env.race = .work)
    (hvalid : isValidJsonValue hashing.writer app.executionLimits app.executionLimits.maxInputBytes
      (some (.obj arguments)))
    (hname : app.catalog.get name = some tool) {input : ι}
    (hparse : app.parseInput tool arguments = .ok input) {error : PyException}
    (hcall : app.callTool tool context env = .error error) :
    app.invokeResult name arguments context env =
      app.failure error.kind.code context.requestId := by
  rw [invokeResult, if_pos hstate, runInvocation, hrace]
  simp only [invokeBounded, hvalid, not_true, if_false, hname, hparse, hcall]
  split_ifs with hcancelled
  · exact mappedFailure_eq _ _
  · rfl

/-- The result of a call whose arguments are not parsed. -/
theorem invokeResult_of_parse (hstate : env.state = .ready) (hrace : env.race = .work)
    (hvalid : isValidJsonValue hashing.writer app.executionLimits app.executionLimits.maxInputBytes
      (some (.obj arguments)))
    (hname : app.catalog.get name = some tool) {error : PyException}
    (hparse : app.parseInput tool arguments = .error error) :
    app.invokeResult name arguments context env = app.failure
      (if error.kind.isInputError then .invalidInput else error.kind.code) context.requestId := by
  rw [invokeResult, if_pos hstate, runInvocation, hrace]
  simp only [invokeBounded, hvalid, not_true, if_false, hname, hparse]
  split_ifs with hinput
  · rfl
  · exact mappedFailure_eq _ _

/-- A call of a hidden tool has the result of a call of an unregistered name
    exactly when it is concealed. A definition of the policy with the `id` of the
    tool is the tool; the policy may be of another catalog. -/
theorem invoke_hidden_iff
    (hid : ∀ definition ∈ policy.catalog.tools, definition.id = tool.id → definition = tool)
    (hauthorizer : AuthorizedBy policy policyEnv context env)
    (hunknown : app.catalog.get unknown = none) (hname : app.catalog.get name = some tool)
    (hhidden : Hidden policy tool context) :
    app.invoke unknown arguments context env = app.invoke name arguments context env ↔
      app.Concealed policy policyEnv tool arguments context env := by
  rw [invoke_eq_invoke_iff, Concealed, ← isDuration_durationSeconds, ← isVisible_safeRequestId]
  refine or_congr_right ?_
  by_cases hstate : env.state = .ready
  swap
  · simp only [hstate, ne_eq, not_false_eq_true, true_or, iff_true]
    rw [invokeResult, invokeResult, if_neg hstate, if_neg hstate]
  by_cases hrace : env.race = .work
  swap
  · simp only [hrace, ne_eq, not_false_eq_true, true_or, or_true, iff_true]
    rw [invokeResult, invokeResult, if_pos hstate, if_pos hstate, runInvocation, runInvocation]
    cases hr : env.race with
    | work => exact absurd hr hrace
    | timeout | cancelled | rejected error => rfl
  rw [invokeResult_unknown hstate hrace hunknown]
  simp only [hstate, hrace, ne_eq, not_true, false_or]
  cases hvalid : isValidJsonValue hashing.writer app.executionLimits
    app.executionLimits.maxInputBytes (some (.obj arguments)) with
  | false =>
    simp only [true_or, iff_true]
    rw [invokeResult, if_pos hstate, runInvocation, hrace]
    simp only [invokeBounded, hvalid, Bool.false_eq_true, not_false_eq_true, if_true]
    rfl
  | true =>
    simp only [Bool.true_eq_false, false_or]
    cases hparse : app.parseInput tool arguments with
    | error error =>
      rw [invokeResult_of_parse hstate hrace hvalid hname hparse, failure_inj]
      constructor
      · intro h
        by_cases hinput : error.kind.isInputError
        · exact .inl ⟨error, rfl, .inl hinput⟩
        · exact .inl ⟨error, rfl, .inr (h.trans (if_neg hinput)).symm⟩
      · rintro (⟨error', he, hor⟩ | ⟨⟨input, hi⟩, -⟩)
        · cases he
          split_ifs with hinput
          · rfl
          · exact (hor.resolve_left hinput).symm
        · cases hi
    | ok input =>
      -- the admission comes before the authorization
      have hresult {error : PyException} (h : app.callTool tool context env = .error error) :=
        invokeResult_of_error hstate hrace hvalid hname hparse h
      have hsplit : (app.failure .invalidInput context.requestId =
          app.invokeResult name arguments context env) ↔
          env.admission.reached app.executionLimits tool.metadata.name context.tenant = none ∧
            Fingerprinted policy tool ∧ Auditable policyEnv context tool.metadata.name := by
        cases hadmitted : env.admission.admitCall app.executionLimits tool.metadata.name context.tenant with
        | none =>
          have hreached : ¬ env.admission.reached app.executionLimits tool.metadata.name
              context.tenant = none := fun h => by
            rw [← Admission.admitCall_isSome, hadmitted] at h
            cases h
          rw [hresult (by rw [callTool, hadmitted]), failure_inj]
          refine ⟨fun h => ?_, fun h => absurd h.1 hreached⟩
          cases h
        | some admitted =>
          have hreached : env.admission.reached app.executionLimits tool.metadata.name
              context.tenant = none := by
            rw [← Admission.admitCall_isSome, hadmitted]
            rfl
          rcases startAuthorize_hidden policyEnv hid hhidden with
            ⟨haudit, hnext⟩ | ⟨haudit, error, hunexpected, hnext⟩
          all_goals
            have hraises := hauthorizer tool _ hnext
            rw [hresult (by rw [callTool, hadmitted]; simp only [hraises]; rfl), failure_inj]
          · exact ⟨fun _ => ⟨hreached, haudit⟩, fun _ => rfl⟩
          · refine ⟨fun h => ?_, fun h => absurd h.2 haudit⟩
            rw [(@Unexpected.code_ne _ hunexpected .internalFailure).2] at h
            cases h
      rw [hsplit]
      constructor
      · exact fun h => .inr ⟨⟨input, rfl⟩, h⟩
      · rintro (⟨error', he, -⟩ | ⟨-, h⟩)
        · cases he
        · exact h

end Application

/-! ## An example -/

/-- A call of Alice, who has no scopes, with the policy as its authorizer. -/
def policedCall : InvokeEnv Json :=
  { quietCall with
    authorize := fun tool =>
      match (startAuthorize refundPolicy tool aliceCall quietEnv).next with
      | .raised error => .error error
      | _ => .ok () }

/-- The authorizer of the example is the policy. -/
theorem policedCall_authorizedBy :
    Application.AuthorizedBy refundPolicy quietEnv aliceCall policedCall := by
  intro tool error h
  simp only [policedCall, h]

/-- The tool is hidden from Alice. -/
theorem refundTool_hidden : Hidden refundPolicy refundTool aliceCall :=
  hidden_of_lacking (lit "orders:write") (by decide) (by decide)

/-- The tool is registered. -/
theorem refundTool_registered : refundCatalog.get (lit "refund") = some refundTool :=
  List.find?_cons_of_pos (by decide)

theorem invoke_hidden_example :
    (refundApplication .standard (by decide)).invoke (lit "unknown") [] aliceCall policedCall =
      (refundApplication .standard (by decide)).invoke (lit "refund") [] aliceCall policedCall := by
  have hid : ∀ definition ∈ refundPolicy.catalog.tools,
      definition.id = refundTool.id → definition = refundTool :=
    fun definition hdefinition _ => List.mem_singleton.1 hdefinition
  refine (Application.invoke_hidden_iff hid policedCall_authorizedBy rfl refundTool_registered
    refundTool_hidden).2 ?_
  · refine .inr (.inr (.inr (.inr (.inr ⟨⟨_, rfl⟩, by decide,
      fingerprinted_of_registered (List.mem_singleton.2 rfl), ?_⟩))))
    exact .inr (.inr (.inr ⟨by decide, .inr (.inr (.inr ⟨by decide, by decide +kernel⟩))⟩))

/-- The counts after one call of the tool was admitted. -/
def busyCounts : Admission :=
  (Admission.admitCall .oneCall {} (lit "refund") (lit "north")).getD {}

/-- While the only call that may run is running, a call of the hidden tool and a
    call of an unregistered name have different results. -/
theorem invoke_reveals :
    Admission.admitCall .oneCall {} (lit "refund") (lit "north") = some busyCounts ∧
    (refundApplication .oneCall (by decide)).catalog.get (lit "unknown") = none ∧
    (refundApplication .oneCall (by decide)).catalog.get (lit "refund") = some refundTool ∧
    Hidden refundPolicy refundTool aliceCall ∧
    Application.AuthorizedBy refundPolicy quietEnv aliceCall
      { policedCall with admission := busyCounts } ∧
    (refundApplication .oneCall (by decide)).invoke (lit "unknown") [] aliceCall
        { policedCall with admission := busyCounts } ≠
      (refundApplication .oneCall (by decide)).invoke (lit "refund") [] aliceCall
        { policedCall with admission := busyCounts } := by
  refine ⟨rfl, rfl, refundTool_registered, refundTool_hidden, ?_, fun h => ?_⟩
  · exact policedCall_authorizedBy
  · have hrecord : isDuration ((refundApplication .oneCall (by decide)).durationSeconds
        { policedCall with admission := busyCounts }) ∧
        isVisible ((refundApplication .oneCall (by decide)).safeRequestId aliceCall.requestId) := by
      decide +kernel
    have h := (Application.invoke_eq_invoke_iff.1 h).resolve_left (not_not.2 hrecord)
    rw [Application.invokeResult_unknown rfl rfl rfl,
      Application.invokeResult_of_error rfl rfl (by decide +kernel) refundTool_registered rfl rfl,
      Application.failure_inj] at h
    cases h

end McpRuntime
