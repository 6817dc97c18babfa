import McpRuntime.Application.Concealment

/-!
# Stable denials

A call of `authorize` that the policy denies should raise the code of its denial,
whatever becomes of the audit event of the denial.

* `authorize` is a whole call: what its segments do in turn, for a store and for
  collaborators that behave in one way or another.
* `denial` is what the policy decides, from its rules, the context and the answers
  of the store alone.
* `denial_stable_iff`: a call that is denied raises the code of its denial exactly
  when the denial can be recorded: there is a fingerprint for the event, no text is
  hashed that UTF-8 cannot encode, the clock does not read an `int` too large for a
  float, and the action has a fingerprint where a record is compared with it.
-/

namespace McpRuntime.Policy

variable {hashing : Hashing} {unicode : UnicodeTable} (policy : ToolPolicy hashing unicode)
  (tool : ToolDefinition) (arguments : List (Text × Json)) (context : CallContext)
  (fetched : FetchAnswer hashing) (consumed : Option Bool) (env : PolicyEnv)

/-! ## A whole call -/

/-- How a call goes on from `consume`, if it gets there. -/
def consume : Phase hashing → Phase hashing
  | .consuming manifest _ _ record _ =>
    match consumed with
    | some consumed => (afterConsume policy manifest record tool context consumed env).next
    | none => (backendUnavailable policy manifest context env).next
  | phase => phase

/-- How `authorize` ends, for a store that answers `fetch` with `fetched` and
    `consume` with `consumed`, or raises. -/
def authorize : Phase hashing :=
  match (startAuthorize policy tool context env).next with
  | .fetching manifest approvalId =>
    consume policy tool context consumed env
      (afterFetch policy manifest approvalId tool arguments context fetched env).next
  | phase => phase

/-- The exception that a call has raised. -/
def Phase.error : Phase hashing → Option PyException
  | .raised error => some error
  | _ => none

/-! ## What the policy decides -/

/-- A denial, with the code that a caller gets. -/
structure Denial where
  decision : ToolPolicyDecision
  code : ErrorCode
  deriving DecidableEq

/-- The fingerprints of the arguments, of the tool and of the action of a call. -/
def actionFingerprints (manifest : ToolManifest) : Option (Text × Text × Text) := do
  let argumentsFingerprint ← hashing.fingerprint (.obj arguments)
  let toolFingerprint ← fingerprintNamed policy.catalog manifest.metadata.name
  let actionFingerprint ← approvalActionFingerprint hashing context.tenant context.subject
    manifest.metadata.name toolFingerprint argumentsFingerprint
  return (argumentsFingerprint, toolFingerprint, actionFingerprint)

/-- A record approves the action of a call. -/
def ApprovesAction (manifest : ToolManifest) (approvalId : Text) (record : ApprovalRecord hashing) :
    Prop :=
  ∃ fingerprints ∈ actionFingerprints policy arguments context manifest,
    Matches record approvalId context manifest.metadata.name fingerprints.2.1 fingerprints.1
      fingerprints.2.2

instance (manifest : ToolManifest) (approvalId : Text) (record : ApprovalRecord hashing) :
    Decidable (ApprovesAction policy arguments context manifest approvalId record) :=
  match h : actionFingerprints policy arguments context manifest with
  | none => .isFalse (by simp [ApprovesAction, h])
  | some fingerprints =>
    decidable_of_iff (Matches record approvalId context manifest.metadata.name fingerprints.2.1
      fingerprints.1 fingerprints.2.2) (by simp [ApprovesAction, h])

/-- The denial of a call whose approval the store has answered. -/
def approvalDenial (manifest : ToolManifest) (approvalId : Text) : Option Denial :=
  match fetched with
  | .raises => some ⟨.policyBackendUnavailable, .unavailable⟩
  | .notRecord => some ⟨.approvalDenied, .approvalRequired⟩
  | .record record =>
    if ¬ ApprovesAction policy arguments context manifest approvalId record then
      some ⟨.approvalDenied, .approvalRequired⟩
    else
      match wallNow env.expiryReading with
      -- without the time, there is no decision
      | .error _ => none
      | .ok now =>
        if record.expiresAt.le now then some ⟨.approvalDenied, .approvalRequired⟩
        else if record.use = .oneTime then
          match consumed with
          | some true => none
          | some false => some ⟨.approvalDenied, .approvalRequired⟩
          | none => some ⟨.policyBackendUnavailable, .unavailable⟩
        else none

/-- The denial of a call that the policy denies without the store. -/
def localDenial : Option Denial :=
  match policy.manifestOf tool with
  | none => some ⟨.policyDenied, .invalidInput⟩
  | some manifest =>
    match policy.ruleNamed manifest.metadata.name with
    | none => some ⟨.policyDenied, .invalidInput⟩
    | some rule =>
      if rule.state ≠ .active then some ⟨.policyDenied, .invalidInput⟩
      else if ¬ ScopesHeld policy manifest rule context then some ⟨.scopeDenied, .invalidInput⟩
      else if manifest.metadata.effect ≠ .read ∧ context.idempotencyKey = none then
        some ⟨.idempotencyRequired, .conflict⟩
      else if manifest.metadata.approval ≠ .required then none
      else if context.approvalId = none then some ⟨.approvalRequired, .approvalRequired⟩
      else if ¬ policy.hasStore then some ⟨.policyBackendUnavailable, .unavailable⟩
      else none

/-- The manifest and the approval that the store is asked about. -/
def asked : Option (ToolManifest × Text) :=
  match policy.manifestOf tool, context.approvalId with
  | some manifest, some approvalId =>
    if manifest.metadata.approval = .required then some (manifest, approvalId) else none
  | _, _ => none

/-- The denial of a call, if the policy denies it. -/
def denial : Option Denial :=
  match localDenial policy tool context with
  | some denial => some denial
  | none =>
    match asked policy tool context with
    | some (manifest, approvalId) =>
      approvalDenial policy arguments context fetched consumed env manifest approvalId
    | none => none

/-- The denial of a call can be recorded. -/
structure Recordable : Prop where
  fingerprinted : Fingerprinted policy tool
  auditable : Auditable env context (knownName policy tool)
  /-- Where a record is compared with the action, the action has a fingerprint. -/
  compared : localDenial policy tool context = none → ∀ manifest approvalId record,
    asked policy tool context = some (manifest, approvalId) → fetched = .record record →
      (actionFingerprints policy arguments context manifest).isSome

/-! ## Segments -/

variable {policy tool arguments context fetched consumed env}

/-- What ends a call: the code of a denial when the event of the denial can be made, and
    an unexpected exception otherwise. -/
def EndsWith (policy : ToolPolicy hashing unicode) (tool : ToolDefinition) (context : CallContext)
    (env : PolicyEnv) (code : ErrorCode) (phase : Phase hashing) : Prop :=
  (Fingerprinted policy tool ∧ Auditable env context (knownName policy tool)) ∧
      phase = .raised (.runtimeFailure code) ∨
    ¬ (Fingerprinted policy tool ∧ Auditable env context (knownName policy tool)) ∧
      ∃ error, Unexpected error ∧ phase = .raised error

/-- A call that ends raises an exception. -/
theorem EndsWith.raised {code : ErrorCode} {phase : Phase hashing}
    (h : EndsWith policy tool context env code phase) : ∃ error, phase = .raised error := by
  rcases h with ⟨-, hphase⟩ | ⟨-, error, -, hphase⟩
  · exact ⟨_, hphase⟩
  · exact ⟨error, hphase⟩

/-- A call that ends does not get to `consume`. -/
theorem EndsWith.consume {code : ErrorCode} {phase : Phase hashing}
    (h : EndsWith policy tool context env code phase) :
    EndsWith policy tool context env code (Policy.consume policy tool context consumed env phase) := by
  obtain ⟨error, rfl⟩ := h.raised
  exact h

variable (context env) in
/-- A denial of a registered tool. -/
theorem deny_endsWith {manifest : ToolManifest} (hmanifest : policy.manifestOf tool = some manifest)
    (decision : ToolPolicyDecision) (code : ErrorCode) :
    EndsWith policy tool context env code
      (deny policy decision code (some manifest) context tool env).next := by
  have hnext := deny_next policy decision code tool context env
  rw [hmanifest] at hnext
  exact hnext

variable (policy context env) in
/-- An audit event raises `UNAVAILABLE` or an unexpected exception. -/
theorem raisesOnly_auditEvent_expected (decision : ToolPolicyDecision) (manifest : ToolManifest) :
    RaisesOnly (fun e => e = .runtimeFailure .unavailable ∨ Unexpected e)
      (auditEvent policy decision manifest context env) := by
  cases hfingerprint : eventFingerprint policy manifest with
  | ok fingerprint =>
    exact (raisesOnly_auditEvent (.inl rfl) (by simp [Unexpected]) hfingerprint).2
      (.inr (.inr (.inl rfl)))
  | error error =>
    have hvalue : error = .valueError := by
      rw [eventFingerprint] at hfingerprint
      split at hfingerprint
      · cases hfingerprint
      · cases hpolicy : toolPolicyFingerprint hashing manifest with
        | none =>
          rw [hpolicy] at hfingerprint
          cases hfingerprint
          rfl
        | some fingerprint =>
          rw [hpolicy] at hfingerprint
          cases hfingerprint
    rw [auditEvent, hfingerprint, hvalue]
    exact raisesOnly_error.2 (.inr (.inl rfl))

/-- The end of a call whose store has failed is that of a denial. -/
theorem backendUnavailable_endsWith {manifest : ToolManifest}
    (hmanifest : policy.manifestOf tool = some manifest) :
    EndsWith policy tool context env .unavailable
      (backendUnavailable policy manifest context env).next := by
  have hdeny := deny_endsWith context env hmanifest .policyBackendUnavailable .unavailable
  have hkinds := raisesOnly_auditEvent_expected policy context env .policyBackendUnavailable
    manifest
  rw [deny, denyWith] at hdeny
  rw [backendUnavailable]
  cases hevent : auditEvent policy .policyBackendUnavailable manifest context env with
  | ok event =>
    rw [hevent] at hdeny
    exact hdeny
  | error error =>
    rw [hevent] at hdeny
    rcases hkinds error hevent with rfl | rfl | rfl
    all_goals exact hdeny

variable (policy tool context env) in
/-- What `authorize` does before it awaits: it ends with the denial of the policy; or it
    asks the store, or allows the call, where the policy does not deny it yet. -/
theorem startAuthorize_next :
    (∃ denial, localDenial policy tool context = some denial ∧
      EndsWith policy tool context env denial.code (startAuthorize policy tool context env).next) ∨
    localDenial policy tool context = none ∧
      ((∃ manifest approvalId, asked policy tool context = some (manifest, approvalId) ∧
        policy.manifestOf tool = some manifest ∧
        (startAuthorize policy tool context env).next = .fetching manifest approvalId) ∨
      asked policy tool context = none) := by
  rw [startAuthorize, localDenial, asked]
  cases hmanifest : policy.manifestOf tool with
  | none =>
    have hnext := deny_next policy .policyDenied .invalidInput tool context env
    rw [hmanifest] at hnext
    exact .inl ⟨_, rfl, hnext⟩
  | some manifest =>
    have hdenied (decision : ToolPolicyDecision) (code : ErrorCode) :=
      deny_endsWith context env hmanifest decision code
    cases hrule : policy.ruleNamed manifest.metadata.name with
    | none => exact .inl ⟨⟨.policyDenied, .invalidInput⟩, by simp only [hrule], by simpa only [hrule] using hdenied _ _⟩
    | some rule =>
      simp only [hrule]
      by_cases hactive : rule.state = .active
      swap
      · simp only [ne_eq, hactive, not_false_eq_true, if_true]
        exact .inl ⟨_, rfl, hdenied _ _⟩
      by_cases hscopes : ScopesHeld policy manifest rule context
      swap
      · simp only [ne_eq, hactive, not_true_eq_false, if_false, hscopes, not_false_eq_true, if_true]
        exact .inl ⟨_, rfl, hdenied _ _⟩
      by_cases hkey : manifest.metadata.effect ≠ .read ∧ context.idempotencyKey = none
      · simp only [ne_eq, hactive, not_true_eq_false, if_false, hscopes, if_pos hkey]
        exact .inl ⟨_, rfl, hdenied _ _⟩
      simp only [ne_eq, hactive, not_true_eq_false, if_false, hscopes, if_neg hkey]
      by_cases hrequired : manifest.metadata.approval = .required
      swap
      · simp only [hrequired, not_false_eq_true, if_true, if_false]
        refine .inr ⟨trivial, .inr ?_⟩
        cases context.approvalId <;> simp [hrequired]
      simp only [hrequired, not_true_eq_false, if_false, if_true, startApproval]
      cases happroval : context.approvalId with
      | none => exact .inl ⟨_, rfl, hdenied _ _⟩
      | some approvalId =>
        cases hstore : policy.hasStore with
        | false => exact .inl ⟨_, rfl, backendUnavailable_endsWith hmanifest⟩
        | true => exact .inr ⟨rfl, .inl ⟨manifest, approvalId, if_pos hrequired, rfl, rfl⟩⟩

/-- A sequence of values, each of which may be missing. -/
theorem orValueError_bind {α β : Type} (x : Option α) (f : α → Option β) :
    orValueError (x >>= f) = (orValueError x >>= fun a => orValueError (f a)) := by
  cases x <;> rfl

/-- The comparison of a record begins with the fingerprints of the action. -/
theorem checkRecord_eq (manifest : ToolManifest) (approvalId : Text)
    (record : ApprovalRecord hashing) :
    checkRecord policy manifest approvalId record tool arguments context env =
      let denied := deny policy .approvalDenied .approvalRequired manifest context tool env
      match actionFingerprints policy arguments context manifest with
      | none => ⟨none, .raised .valueError⟩
      | some (argumentsFingerprint, toolFingerprint, actionFingerprint) =>
        if ¬ Matches record approvalId context manifest.metadata.name toolFingerprint
            argumentsFingerprint actionFingerprint then denied
        else
          match wallNow env.expiryReading with
          | .error error => ⟨none, .raised error⟩
          | .ok now =>
            if record.expiresAt.le now then denied
            else if record.use = .oneTime then
              ⟨none, .consuming manifest approvalId actionFingerprint record none⟩
            else allow policy manifest (some record) context env := by
  have hfingerprints : orValueError (actionFingerprints policy arguments context manifest) = (do
      let argumentsFingerprint ← orValueError (hashing.fingerprint (.obj arguments))
      let toolFingerprint ← orValueError (fingerprintNamed policy.catalog manifest.metadata.name)
      let actionFingerprint ← orValueError (approvalActionFingerprint hashing context.tenant
        context.subject manifest.metadata.name toolFingerprint argumentsFingerprint)
      return (argumentsFingerprint, toolFingerprint, actionFingerprint)) := by
    simp only [actionFingerprints, orValueError_bind]
    rfl
  rw [checkRecord]
  simp only [← hfingerprints]
  cases actionFingerprints policy arguments context manifest <;> rfl

/-- A call ends with the code of its denial exactly when the event can be made. -/
theorem EndsWith.eq_iff {code : ErrorCode} {phase : Phase hashing}
    (h : EndsWith policy tool context env code phase) :
    phase = .raised (.runtimeFailure code) ↔
      Fingerprinted policy tool ∧ Auditable env context (knownName policy tool) := by
  rcases h with ⟨hmade, rfl⟩ | ⟨hfails, error, hunexpected, rfl⟩
  · simp [hmade]
  · refine ⟨fun h => ?_, fun h => absurd h hfails⟩
    injection h with h
    exact absurd h hunexpected.code_ne.1

/-- What a call does after its record was fetched, where it is denied: without the
    fingerprints of the action, it ends with an unexpected exception. -/
theorem checkRecord_endsWith {manifest : ToolManifest} {approvalId : Text}
    {record : ApprovalRecord hashing} {denial : Denial}
    (hmanifest : policy.manifestOf tool = some manifest)
    (h : approvalDenial policy arguments context (.record record) consumed env manifest approvalId =
      some denial) :
    let phase := consume policy tool context consumed env
      (checkRecord policy manifest approvalId record tool arguments context env).next
    (actionFingerprints policy arguments context manifest = none ∧ phase = .raised .valueError) ∨
      (actionFingerprints policy arguments context manifest).isSome ∧
        EndsWith policy tool context env denial.code phase := by
  have hdenied : EndsWith policy tool context env .approvalRequired
      (deny policy .approvalDenied .approvalRequired (some manifest) context tool env).next :=
    deny_endsWith _ _ hmanifest _ _
  rw [checkRecord_eq]
  simp only [approvalDenial, ApprovesAction] at h
  cases hfingerprints : actionFingerprints policy arguments context manifest with
  | none => exact .inl ⟨rfl, rfl⟩
  | some fingerprints =>
    obtain ⟨argumentsFingerprint, toolFingerprint, actionFingerprint⟩ := fingerprints
    refine .inr ⟨rfl, ?_⟩
    simp only [hfingerprints, Option.mem_some_iff, exists_eq_left'] at h
    by_cases hmatches : Matches record approvalId context manifest.metadata.name toolFingerprint
        argumentsFingerprint actionFingerprint
    swap
    · simp only [hmatches, not_false_eq_true, if_true] at h ⊢
      cases h
      exact hdenied.consume
    simp only [hmatches, not_true_eq_false, if_false] at h ⊢
    cases hnow : wallNow env.expiryReading with
    | error failure =>
      rw [hnow] at h
      cases h
    | ok now =>
      simp only [hnow] at h ⊢
      by_cases hexpired : record.expiresAt.le now
      · simp only [hexpired, if_true] at h ⊢
        cases h
        exact hdenied.consume
      simp only [hexpired, Bool.false_eq_true, if_false] at h ⊢
      by_cases huse : record.use = .oneTime
      swap
      · simp only [huse, if_false] at h
        cases h
      simp only [huse, if_true] at h ⊢
      cases consumed with
      | none =>
        cases h
        exact backendUnavailable_endsWith hmanifest
      | some consumed =>
        cases consumed with
        | true => cases h
        | false =>
          cases h
          exact hdenied

/-- A call that the policy denies raises the code of its denial exactly when the denial
    can be recorded. -/
theorem denial_stable_iff {denial : Denial}
    (h : Policy.denial policy tool arguments context fetched consumed env = some denial) :
    authorize policy tool arguments context fetched consumed env =
        .raised (.runtimeFailure denial.code) ↔
      Recordable policy tool arguments context fetched env := by
  rw [authorize]
  rw [Policy.denial] at h
  rcases startAuthorize_next policy tool context env with
    ⟨found, hlocal, hend⟩ | ⟨hlocal, ⟨manifest, approvalId, hasked, hmanifest, hnext⟩ | hasked⟩
  · rw [hlocal] at h
    cases h
    obtain ⟨error, hnext⟩ := hend.raised
    have hiff := hend.eq_iff
    rw [hnext] at hiff ⊢
    refine hiff.trans ⟨fun hmade => ⟨hmade.1, hmade.2, fun hnone => ?_⟩,
      fun hr => ⟨hr.fingerprinted, hr.auditable⟩⟩
    rw [hlocal] at hnone
    cases hnone
  · -- The store was asked, and the denial is made with its answer: where it gave
    -- a record, this takes the fingerprints of the action.
    have hiff {phase : Phase hashing} (hend : EndsWith policy tool context env denial.code phase)
        (hcompared : ∀ record, fetched = .record record →
          (actionFingerprints policy arguments context manifest).isSome) :
        phase = .raised (.runtimeFailure denial.code) ↔
          Recordable policy tool arguments context fetched env := by
      refine hend.eq_iff.trans ⟨fun hmade => ⟨hmade.1, hmade.2, ?_⟩,
        fun hr => ⟨hr.fingerprinted, hr.auditable⟩⟩
      rintro - manifest' approvalId' record hasked' hrecord
      rw [hasked] at hasked'
      cases hasked'
      exact hcompared record hrecord
    simp only [hlocal, hasked] at h
    simp only [hnext]
    cases fetched with
    | raises =>
      cases h
      refine hiff (backendUnavailable_endsWith hmanifest).consume fun record hrecord => ?_
      cases hrecord
    | notRecord =>
      cases h
      refine hiff (deny_endsWith _ _ hmanifest _ _).consume fun record hrecord => ?_
      cases hrecord
    | record record =>
      rcases checkRecord_endsWith hmanifest h with ⟨hnone, hphase⟩ | ⟨hsome, hend⟩
      · rw [afterFetch, hphase]
        refine ⟨fun hraised => ?_, fun hr => ?_⟩
        · cases hraised
        · have hcompared := hr.compared hlocal manifest approvalId record hasked rfl
          rw [hnone] at hcompared
          cases hcompared
      · exact hiff hend fun _ _ => hsome
  · rw [hlocal, hasked] at h
    cases h

/-! ## An example -/

/-- A call of someone without scopes is denied with the code of the denial. -/
theorem denial_stable_example :
    authorize refundPolicy refundTool [] aliceCall .notRecord none quietEnv =
      .raised (.runtimeFailure .invalidInput) := by
  have hdenial : denial refundPolicy refundTool [] aliceCall .notRecord none quietEnv =
      some ⟨.scopeDenied, .invalidInput⟩ := by decide +kernel
  refine (denial_stable_iff hdenial).2 ⟨fingerprinted_of_registered (List.mem_singleton.2 rfl), ?_, ?_⟩
  · exact .inr (.inr (.inr ⟨by decide, .inr (.inr (.inr ⟨by decide, by decide +kernel⟩))⟩))
  · intro _ _ _ record _ hrecord
    cases hrecord

/-- A call of a subject that UTF-8 cannot encode. -/
def surrogateCall : CallContext :=
  { aliceCall with
    identity := { alice with
      subject := [0xD800]
      subject_isText := by decide } }

/-- A call that is denied for its scopes raises `UnicodeEncodeError`. -/
theorem denial_unstable :
    denial refundPolicy refundTool [] surrogateCall .notRecord none quietEnv =
        some ⟨.scopeDenied, .invalidInput⟩ ∧
      (authorize refundPolicy refundTool [] surrogateCall .notRecord none quietEnv).error =
        some .valueError := by
  decide +kernel

end McpRuntime.Policy
