import McpRuntime.Policy.Authorize

/-!
# Soundness of authorizations

A call of `authorize` that returns was permitted by every check, and an approval
that may be used once lets at most one call return.

* `authorized`: in every run of concurrent calls, a call that has returned is of
  a registered tool with an active reviewed rule, holds the scopes, has an
  idempotency key and an approval where one is required, and is in the audit
  once.
-/

namespace McpRuntime.Policy

variable {hashing : Hashing} {unicode : UnicodeTable} {policy : ToolPolicy hashing unicode}

/-! ## What the checks establish -/

/-- The checks before the approval: the tool is registered with the manifest,
    its rule is active with the fingerprint of the manifest, the scopes are held,
    and a call that is not a read has an idempotency key. -/
structure Permitted (policy : ToolPolicy hashing unicode) (tool : ToolDefinition)
    (context : CallContext) (manifest : ToolManifest) (rule : ToolPolicyRule) : Prop where
  registered : ∃ definition, definition.id = tool.id ∧
    (definition, manifest) ∈ policy.catalog.entries
  rule_mem : rule ∈ policy.rules
  named : rule.toolName = manifest.metadata.name
  active : rule.state = .active
  fingerprint : toolPolicyFingerprint hashing manifest = some rule.reviewedFingerprint
  scopes : ScopesHeld policy manifest rule context
  idempotency : manifest.metadata.effect ≠ .read → context.idempotencyKey ≠ none

/-- The checks of an approval: the record is bound to the approval id, the
    caller, the tool and the arguments, and has not expired at `now`. -/
structure Approves (record : ApprovalRecord hashing) (arguments : List (Text × Json))
    (context : CallContext) (manifest : ToolManifest) (now : PyFloat) : Prop where
  approvalId : context.approvalId = some record.approvalId
  tenant : record.tenant = context.tenant
  subject : record.subject = context.subject
  toolName : record.toolName = manifest.metadata.name
  toolFingerprint : toolPolicyFingerprint hashing manifest = some record.toolFingerprint
  arguments : hashing.fingerprint (.obj arguments) = some record.argumentsFingerprint
  unexpired : record.expiresAt.le now = false

/-- The record was fetched by the call, and approved it at the time of its
    check. -/
def Checked (h : List (AuthorizerEvent hashing)) (c : ℕ) (arguments : List (Text × Json))
    (context : CallContext) (manifest : ToolManifest) (record : ApprovalRecord hashing) : Prop :=
  ∃ env now, .fetched c (.record record) env ∈ h ∧ wallNow env.expiryReading = .ok now ∧
    Approves record arguments context manifest now

/-! ## Segments -/

/-- The number of ALLOWED events of a call in a phase. -/
def Phase.allowedEvents : Phase hashing → ℕ
  | .returned _ => 1
  | _ => 0

/-- The use of the approval that a call has returned with. -/
def Phase.approvalUse : Phase hashing → Option ApprovalUse
  | .returned (some record) => some record.use
  | _ => none

/-- A call with the use of an approval has returned with this approval. -/
theorem returned_of_approvalUse {phase : Phase hashing} {use : ApprovalUse}
    (h : phase.approvalUse = some use) :
    ∃ record, phase = .returned (some record) ∧ record.use = use := by
  cases phase with
  | returned approval =>
    cases approval with
    | none => cases h
    | some record => exact ⟨record, rfl, Option.some.inj h⟩
  | fetching | consuming | raised => cases h

/-- Whether an event is ALLOWED. -/
def ToolPolicyAuditEvent.isAllowed (event : ToolPolicyAuditEvent) : Bool :=
  event.decision = .allowed

/-- The number of ALLOWED events of the call `c` in the audit. -/
def AuthorizerState.allowedEvents (s : AuthorizerState hashing) (c : ℕ) : ℕ :=
  s.audit.countP fun entry => entry.1 = c && entry.2.isAllowed

/-- The segment appends an ALLOWED event exactly when it returns. -/
def Segment.Consistent (segment : Segment hashing) : Prop :=
  segment.appended.toList.countP ToolPolicyAuditEvent.isAllowed = segment.next.allowedEvents

/-- The segment raises, and appends no ALLOWED event. -/
def Segment.Refuses (segment : Segment hashing) : Prop :=
  segment.Consistent ∧ ∃ error, segment.next = .raised error

/-- An audit event has the decision it was made for. -/
theorem decision_of_auditEvent {decision : ToolPolicyDecision} {manifest : ToolManifest}
    {context : CallContext} {env : PolicyEnv} {event : ToolPolicyAuditEvent}
    (h : auditEvent policy decision manifest context env = .ok event) :
    event.decision = decision := by
  simp only [auditEvent, bind_eq_ok, pure_eq_ok] at h
  obtain ⟨_, -, _, -, _, -, _, -, _, -, _, -, _, -, _, -, _, -, _, -, rfl⟩ := h
  rfl

/-- A segment that raises after an event that is not ALLOWED refuses. -/
theorem refuses_append {decision : ToolPolicyDecision} (hd : decision ≠ .allowed)
    {manifest : ToolManifest} {context : CallContext} {env : PolicyEnv}
    {event : ToolPolicyAuditEvent}
    (h : auditEvent policy decision manifest context env = .ok event) (error : PyException) :
    (⟨env.append event, .raised error⟩ : Segment hashing).Refuses := by
  refine ⟨?_, error, rfl⟩
  rw [Segment.Consistent, PolicyEnv.append]
  split_ifs
  · simp [ToolPolicyAuditEvent.isAllowed, decision_of_auditEvent h, hd, Phase.allowedEvents]
  · rfl

/-- A segment that raises without an event refuses. -/
theorem refuses_raised (error : PyException) :
    (⟨none, .raised error⟩ : Segment hashing).Refuses :=
  ⟨rfl, error, rfl⟩

/-- `_deny` refuses. -/
theorem deny_refuses {decision : ToolPolicyDecision} (hd : decision ≠ .allowed) (code : ErrorCode)
    (manifest : Option ToolManifest) (context : CallContext) (tool : ToolDefinition)
    (env : PolicyEnv) : (deny policy decision code manifest context tool env).Refuses := by
  have hwith (manifest : ToolManifest) :
      (denyWith policy decision code manifest context env).Refuses := by
    rw [denyWith]
    split
    · next event he => exact refuses_append hd he _
    · split <;> exact refuses_raised _
  cases manifest with
  | some manifest => exact hwith manifest
  | none =>
    rw [deny]
    split
    · exact hwith _
    · exact refuses_raised _

/-- `_backend_unavailable` refuses. -/
theorem backendUnavailable_refuses (manifest : ToolManifest) (context : CallContext)
    (env : PolicyEnv) : (backendUnavailable policy manifest context env).Refuses := by
  rw [backendUnavailable]
  split
  · next event he => exact refuses_append (by decide) he _
  · exact refuses_raised _

/-- `authorize` returns after an ALLOWED event, or raises without one. -/
theorem allow_cases (manifest : ToolManifest) (approval : Option (ApprovalRecord hashing))
    (context : CallContext) (env : PolicyEnv) :
    (allow policy manifest approval context env).Refuses ∨
      ((allow policy manifest approval context env).Consistent ∧
        (allow policy manifest approval context env).next = .returned approval) := by
  rw [allow]
  split
  · next event he =>
    split
    · refine .inr ⟨?_, rfl⟩
      simp [Segment.Consistent, ToolPolicyAuditEvent.isAllowed, decision_of_auditEvent he,
        Phase.allowedEvents]
    · exact .inl (refuses_raised _)
  · exact .inl (refuses_raised _)

/-- The fingerprint that the policy keeps for a registered manifest is its
    fingerprint. -/
theorem fingerprintNamed_of_mem {catalog : ToolCatalog hashing unicode} {manifest : ToolManifest}
    (h : manifest ∈ catalog.manifests) :
    fingerprintNamed catalog manifest.metadata.name = toolPolicyFingerprint hashing manifest := by
  rw [fingerprintNamed, manifestNamed_of_mem h, Option.bind_some]

/-- A registered tool with an active rule whose scopes are held, and which has
    an idempotency key or is a read, is permitted. -/
theorem permitted_of_checks {tool : ToolDefinition} {context : CallContext}
    {manifest : ToolManifest} {rule : ToolPolicyRule}
    (hmanifest : policy.manifestOf tool = some manifest)
    (hrule : policy.ruleNamed manifest.metadata.name = some rule) (hactive : rule.state = .active)
    (hscopes : ScopesHeld policy manifest rule context)
    (hkey : ¬ (manifest.metadata.effect ≠ .read ∧ context.idempotencyKey = none)) :
    Permitted policy tool context manifest rule := by
  obtain ⟨definition, hid, hentry⟩ := ToolPolicy.mem_of_manifestOf hmanifest
  obtain ⟨hmem, hnamed⟩ := ToolPolicy.mem_of_ruleNamed hrule
  obtain ⟨manifest', haccepted⟩ := ToolPolicy.accepted_of_active hmem hactive
  have hnames := haccepted.named
  rw [hnamed, manifestNamed_of_mem (ToolCatalog.manifest_of_mem_entries hentry).2.1] at hnames
  obtain rfl := Option.some.inj hnames
  exact ⟨⟨definition, hid, hentry⟩, hmem, hnamed, hactive, haccepted.fingerprint, hscopes,
    fun he hk => hkey ⟨he, hk⟩⟩

/-- What the start of an approval does: it refuses or fetches. -/
theorem startApproval_cases (manifest : ToolManifest) (tool : ToolDefinition)
    (context : CallContext) (env : PolicyEnv) :
    (startApproval policy manifest tool context env).Refuses ∨
    ∃ approvalId, context.approvalId = some approvalId ∧
      startApproval policy manifest tool context env = ⟨none, .fetching manifest approvalId⟩ := by
  cases hid : context.approvalId with
  | none =>
    rw [startApproval, hid]
    exact .inl (deny_refuses (by decide) _ _ _ _ _)
  | some approvalId =>
    rw [startApproval, hid]
    cases policy.hasStore with
    | true => exact .inr ⟨approvalId, rfl, rfl⟩
    | false => exact .inl (backendUnavailable_refuses _ _ _)

/-- What `authorize` does before its first await: it refuses, or the call is
    permitted, and needs no approval or fetches one. -/
theorem startAuthorize_cases (tool : ToolDefinition) (context : CallContext) (env : PolicyEnv) :
    (startAuthorize policy tool context env).Refuses ∨
    ∃ manifest rule, Permitted policy tool context manifest rule ∧
      ((∃ approvalId, context.approvalId = some approvalId ∧
        startAuthorize policy tool context env = ⟨none, .fetching manifest approvalId⟩) ∨
      (manifest.metadata.approval ≠ .required ∧
        (startAuthorize policy tool context env).Consistent ∧
        (startAuthorize policy tool context env).next = .returned none)) := by
  rw [startAuthorize]
  split
  · next manifest rule hmanifest hrule =>
    rw [hmanifest] at hrule
    by_cases hactive : rule.state = .active
    · rw [if_neg (not_not.2 hactive)]
      by_cases hscopes : ScopesHeld policy manifest rule context
      · rw [if_neg (not_not.2 hscopes)]
        split
        · exact .inl (deny_refuses (by decide) _ _ _ _ _)
        · next hkey =>
          have hpermitted := permitted_of_checks hmanifest hrule hactive hscopes hkey
          split
          · exact (startApproval_cases manifest tool context env).imp_right fun h =>
              ⟨manifest, rule, hpermitted, .inl h⟩
          · next happroval =>
            exact (allow_cases manifest none context env).imp_right fun h =>
              ⟨manifest, rule, hpermitted, .inr ⟨happroval, h⟩⟩
      · rw [if_pos hscopes]
        exact .inl (deny_refuses (by decide) _ _ _ _ _)
    · rw [if_pos hactive]
      exact .inl (deny_refuses (by decide) _ _ _ _ _)
  · exact .inl (deny_refuses (by decide) _ _ _ _ _)

/-- What `authorize` does with a fetched record: it refuses, or the record
    approves the call, and is to be consumed or lets the call return. -/
theorem checkRecord_cases {call : Call hashing} {manifest : ToolManifest} {approvalId : Text}
    (hmanifest : manifest ∈ policy.catalog.manifests)
    (hid : call.context.approvalId = some approvalId) (record : ApprovalRecord hashing)
    (env : PolicyEnv) :
    let segment := checkRecord policy manifest approvalId record call.tool call.arguments
      call.context env
    segment.Refuses ∨ ∃ now, wallNow env.expiryReading = .ok now ∧
      Approves record call.arguments call.context manifest now ∧
      ((record.use = .oneTime ∧ record.approvalId = approvalId ∧
        ∃ action, segment = ⟨none, .consuming manifest approvalId action record none⟩) ∨
      (record.use ≠ .oneTime ∧ segment.Consistent ∧ segment.next = .returned (some record))) := by
  have hdenied : (deny policy .approvalDenied .approvalRequired (some manifest) call.context
      call.tool env).Refuses := deny_refuses (by decide) _ _ _ _ _
  rw [checkRecord]
  split
  · exact .inl (refuses_raised _)
  · next argumentsFingerprint toolFingerprint action hfp =>
    simp only [bind_eq_ok, pure_eq_ok] at hfp
    obtain ⟨a, ha, t, ht, b, -, heq⟩ := hfp
    obtain ⟨rfl, rfl, rfl⟩ : a = argumentsFingerprint ∧ t = toolFingerprint ∧ b = action := by
      simpa using heq
    by_cases hmatch : Matches record approvalId call.context manifest.metadata.name t a b
    · rw [if_neg (not_not.2 hmatch)]
      split
      · exact .inl (refuses_raised _)
      · next now hnow =>
        obtain ⟨hrid, htenant, hsubject, hname, htool, harguments, -⟩ := hmatch
        split
        · exact .inl hdenied
        · next hexpired =>
          have happroves : Approves record call.arguments call.context manifest now :=
            { approvalId := hid.trans (hrid ▸ rfl)
              tenant := htenant
              subject := hsubject
              toolName := hname
              toolFingerprint := by
                rw [← fingerprintNamed_of_mem hmanifest, htool]
                exact orValueError_eq_ok.1 ht
              arguments := by
                rw [harguments]
                exact orValueError_eq_ok.1 ha
              unexpired := Bool.eq_false_iff.2 hexpired }
          split
          · next huse => exact .inr ⟨now, hnow, happroves, .inl ⟨huse, hrid, b, rfl⟩⟩
          · next huse =>
            exact (allow_cases manifest (some record) call.context env).imp_right fun h =>
              ⟨now, hnow, happroves, .inr ⟨huse, h⟩⟩
    · rw [if_pos hmatch]
      exact .inl hdenied

/-- What `authorize` does after `consume`: it refuses, or the record was
    consumed and the call returns. -/
theorem afterConsume_cases (manifest : ToolManifest) (record : ApprovalRecord hashing)
    (tool : ToolDefinition) (context : CallContext) (consumed : Bool) (env : PolicyEnv) :
    let segment := afterConsume policy manifest record tool context consumed env
    segment.Refuses ∨
      (consumed = true ∧ segment.Consistent ∧ segment.next = .returned (some record)) := by
  rw [afterConsume]
  split
  · next hconsumed =>
    exact (allow_cases manifest (some record) context env).imp_right fun h => ⟨hconsumed, h⟩
  · exact .inl (deny_refuses (by decide) _ _ _ _ _)

/-! ## Steps -/

/-- The steps of the machine. -/
inductive Move (policy : ToolPolicy hashing unicode) (s : AuthorizerState hashing) :
    AuthorizerEvent hashing → AuthorizerState hashing → Prop
  | authorize {c : ℕ} {tool : ToolDefinition} {arguments : List (Text × Json)}
      {context : CallContext} {env : PolicyEnv} {phase : Phase hashing} :
      s.calls.lookup c = none →
      Move policy s (.authorize c tool arguments context env)
        (s.advance c ⟨tool, arguments, context, phase⟩ (startAuthorize policy tool context env))
  | fetched {c : ℕ} {call : Call hashing} {manifest : ToolManifest} {approvalId : Text}
      {answer : FetchAnswer hashing} {env : PolicyEnv} :
      s.calls.lookup c = some call → call.phase = .fetching manifest approvalId →
      Move policy s (.fetched c answer env) (s.advance c call
        (afterFetch policy manifest approvalId call.tool call.arguments call.context answer env))
  | granted {c : ℕ} {call : Call hashing} {manifest : ToolManifest} {approvalId action : Text}
      {record : ApprovalRecord hashing} :
      s.calls.lookup c = some call →
      call.phase = .consuming manifest approvalId action record none →
      s.consumed.lookup approvalId = none →
      Move policy s (.consumes c) { s with
        calls := s.calls.insert c
          { call with phase := .consuming manifest approvalId action record (some true) }
        consumed := s.consumed.insert approvalId (some c) }
  | refused {e : AuthorizerEvent hashing} {c : ℕ} {call : Call hashing} {manifest : ToolManifest}
      {approvalId action : Text} {record : ApprovalRecord hashing} :
      s.calls.lookup c = some call →
      call.phase = .consuming manifest approvalId action record none →
      Move policy s e { s with
        calls := s.calls.insert c
          { call with phase := .consuming manifest approvalId action record (some false) } }
  | elsewhere {approvalId : Text} :
      s.consumed.lookup approvalId = none →
      Move policy s (.consumesElsewhere approvalId)
        { s with consumed := s.consumed.insert approvalId none }
  | consumed {c : ℕ} {call : Call hashing} {manifest : ToolManifest} {approvalId action : Text}
      {record : ApprovalRecord hashing} {answer : Bool} {env : PolicyEnv} :
      s.calls.lookup c = some call →
      call.phase = .consuming manifest approvalId action record (some answer) →
      Move policy s (.consumed c env) (s.advance c call
        (afterConsume policy manifest record call.tool call.context answer env))
  /-- A call that awaits raises. -/
  | raises {e : AuthorizerEvent hashing} {c : ℕ} {call : Call hashing}
      {segment : Segment hashing} :
      s.calls.lookup c = some call → call.phase.allowedEvents = 0 → segment.Refuses →
      Move policy s e (s.advance c call segment)

/-- A decision of the store grants an approval that was not consumed, or
    refuses. -/
theorem decide_move {s s' : AuthorizerState hashing} {c : ℕ} {grant : Bool}
    {e : AuthorizerEvent hashing} (he : grant = true → e = .consumes c)
    (h : s.decide c grant = some s') : Move policy s e s' := by
  rw [AuthorizerState.decide] at h
  split at h
  · next call hc =>
    split at h
    · next manifest approvalId action record hp =>
      obtain rfl := Option.some.inj h
      cases hg : grant && (s.consumed.lookup approvalId).isNone with
      | true =>
        rw [Bool.and_eq_true, Option.isNone_iff_eq_none] at hg
        obtain rfl := he hg.1
        exact .granted hc hp hg.2
      | false => exact .refused hc hp
    · cases h
  · cases h

/-- Every step of the machine is one of these. -/
theorem authorizerStep_move {s s' : AuthorizerState hashing} {e : AuthorizerEvent hashing}
    (h : authorizerStep policy s e = some s') : Move policy s e s' := by
  cases e with
  | authorize c tool arguments context env =>
    rw [authorizerStep] at h
    split_ifs at h with hc
    obtain rfl := Option.some.inj h
    exact .authorize (AList.lookup_eq_none.2 hc)
  | fetched c answer env =>
    rw [authorizerStep] at h
    split at h
    · next call hc =>
      split at h
      · next manifest approvalId hp =>
        obtain rfl := Option.some.inj h
        exact .fetched hc hp
      · cases h
    · cases h
  | consumes c => exact decide_move (fun _ => rfl) h
  | consumesElsewhere approvalId =>
    rw [authorizerStep] at h
    split_ifs at h with hc
    obtain rfl := Option.some.inj h
    exact .elsewhere (AList.lookup_eq_none.2 hc)
  | refuses c =>
    have hd : s.decide c false = some s' := h
    exact decide_move (fun hg => absurd hg Bool.false_ne_true) hd
  | consumed c env =>
    rw [authorizerStep] at h
    split at h
    · next call hc =>
      split at h
      · next manifest approvalId action record answer hp =>
        obtain rfl := Option.some.inj h
        exact .consumed hc hp
      · cases h
    · cases h
  | consumeRaises c env =>
    rw [authorizerStep] at h
    split at h
    · next call hc =>
      split at h
      · next hp =>
        obtain rfl := Option.some.inj h
        exact .raises hc (by rw [hp]; rfl) (backendUnavailable_refuses _ _ _)
      · cases h
    · cases h
  | cancel c =>
    rw [authorizerStep] at h
    split at h
    · next call hc =>
      split at h
      · next hp =>
        obtain rfl := Option.some.inj h
        exact .raises hc (by rw [hp]; rfl) (refuses_raised _)
      · next hp =>
        obtain rfl := Option.some.inj h
        exact .raises hc (by rw [hp]; rfl) (refuses_raised _)
      · cases h
    · cases h

/-! ## The invariant -/

/-- What holds of the call `c` in a phase, after the history `h`. -/
def CallInv (policy : ToolPolicy hashing unicode) (h : List (AuthorizerEvent hashing))
    (consumed : Dict Text (Option ℕ)) (c : ℕ) (call : Call hashing) : Phase hashing → Prop
  | .fetching manifest approvalId =>
    (∃ rule, Permitted policy call.tool call.context manifest rule) ∧
      call.context.approvalId = some approvalId
  | .consuming manifest approvalId _ record answer =>
    (∃ rule, Permitted policy call.tool call.context manifest rule) ∧
      Checked h c call.arguments call.context manifest record ∧ record.approvalId = approvalId ∧
      (answer = some true → consumed.lookup approvalId = some (some c))
  | .returned approval =>
    ∃ manifest rule, Permitted policy call.tool call.context manifest rule ∧
      (approval = none → manifest.metadata.approval ≠ .required) ∧
      ∀ record, approval = some record → Checked h c call.arguments call.context manifest record ∧
        (record.use = .oneTime → consumed.lookup record.approvalId = some (some c))
  | .raised _ => True

/-- The invariant of the machine: every call has what its phase requires, and
    as many ALLOWED events as its phase. -/
structure Inv (policy : ToolPolicy hashing unicode) (h : List (AuthorizerEvent hashing))
    (s : AuthorizerState hashing) : Prop where
  calls : ∀ c call, s.calls.lookup c = some call →
    CallInv policy h s.consumed c call call.phase
  allowed : ∀ c, s.allowedEvents c =
    (s.calls.lookup c).elim 0 fun call => call.phase.allowedEvents

/-- What holds of a call keeps holding while approvals stay consumed. -/
theorem CallInv.mono {h : List (AuthorizerEvent hashing)} {consumed consumed' : Dict Text (Option ℕ)}
    (hc : ∀ id c, consumed.lookup id = some (some c) → consumed'.lookup id = some (some c))
    (e : AuthorizerEvent hashing) {c : ℕ} {call : Call hashing} {phase : Phase hashing}
    (hi : CallInv policy h consumed c call phase) : CallInv policy (e :: h) consumed' c call phase := by
  have hchecked {manifest record} (hm : Checked h c call.arguments call.context manifest record) :
      Checked (e :: h) c call.arguments call.context manifest record := by
    obtain ⟨env, now, hmem, hnow, happroves⟩ := hm
    exact ⟨env, now, List.mem_cons_of_mem e hmem, hnow, happroves⟩
  cases phase with
  | fetching => exact hi
  | consuming =>
    obtain ⟨hpermitted, hm, hid, hanswer⟩ := hi
    exact ⟨hpermitted, hchecked hm, hid, fun h => hc _ _ (hanswer h)⟩
  | returned =>
    obtain ⟨manifest, rule, hpermitted, hnone, hsome⟩ := hi
    exact ⟨manifest, rule, hpermitted, hnone, fun record hr =>
      ⟨hchecked (hsome record hr).1, fun huse => hc _ _ ((hsome record hr).2 huse)⟩⟩
  | raised => trivial

/-- The ALLOWED events of a call after a segment of the call `c`. -/
theorem allowedEvents_advance (s : AuthorizerState hashing) (c c' : ℕ) (call : Call hashing)
    (segment : Segment hashing) :
    (s.advance c call segment).allowedEvents c' =
      (if c' = c then segment.appended.toList.countP ToolPolicyAuditEvent.isAllowed else 0) +
        s.allowedEvents c' := by
  rw [AuthorizerState.allowedEvents, AuthorizerState.advance, List.countP_append]
  congr 1
  cases segment.appended with
  | none => simp
  | some event =>
    by_cases hc : c' = c
    · simp [hc]
    · simp [hc, Ne.symm hc]

/-- The calls and events after a segment of a call that had no ALLOWED event:
    it has one now exactly when it returns. -/
theorem inv_advance {h : List (AuthorizerEvent hashing)} {s : AuthorizerState hashing}
    (hi : Inv policy h s) {c : ℕ} {call : Call hashing} {segment : Segment hashing}
    (hnone : s.allowedEvents c = 0) (hconsistent : segment.Consistent)
    (e : AuthorizerEvent hashing)
    (hcall : CallInv policy (e :: h) s.consumed c { call with phase := segment.next } segment.next) :
    Inv policy (e :: h) (s.advance c call segment) := by
  constructor
  · intro c' call' hc'
    change (s.calls.insert c _).lookup c' = some call' at hc'
    rw [Dict.lookup_insert] at hc'
    split_ifs at hc' with hcc
    · obtain rfl := Option.some.inj hc'
      exact hcc ▸ hcall
    · exact (hi.calls c' call' hc').mono (fun _ _ => id) e
  · intro c'
    change _ = ((s.calls.insert c _).lookup c').elim 0 _
    rw [allowedEvents_advance, Dict.lookup_insert]
    split_ifs with hcc
    · rw [hcc, hnone, Nat.add_zero]
      exact hconsistent
    · rw [Nat.zero_add]
      exact hi.allowed c'

/-- The store decides on a `consume`: the call has no ALLOWED event. -/
theorem inv_decide {h : List (AuthorizerEvent hashing)} {s : AuthorizerState hashing}
    (hi : Inv policy h s) {c : ℕ} {call : Call hashing} {phase : Phase hashing}
    {consumed : Dict Text (Option ℕ)} (hc : s.calls.lookup c = some call)
    (hold : call.phase.allowedEvents = 0) (hnew : phase.allowedEvents = 0)
    (hconsumed : ∀ id c, s.consumed.lookup id = some (some c) → consumed.lookup id = some (some c))
    (e : AuthorizerEvent hashing)
    (hcall : CallInv policy (e :: h) consumed c { call with phase } phase) :
    Inv policy (e :: h) { s with calls := s.calls.insert c { call with phase }, consumed } := by
  constructor
  · intro c' call' hc'
    rw [Dict.lookup_insert] at hc'
    split_ifs at hc' with hcc
    · obtain rfl := Option.some.inj hc'
      exact hcc ▸ hcall
    · exact (hi.calls c' call' hc').mono hconsumed e
  · intro c'
    have hallowed := hi.allowed c'
    change s.allowedEvents c' = _
    rw [Dict.lookup_insert]
    split_ifs with hcc
    · rw [hallowed, hcc, hc]
      exact hold.trans hnew.symm
    · exact hallowed

/-- The invariant is preserved by every step. -/
theorem inv_step {h : List (AuthorizerEvent hashing)} {s s' : AuthorizerState hashing}
    {e : AuthorizerEvent hashing} (hi : Inv policy h s) (hm : Move policy s e s') :
    Inv policy (e :: h) s' := by
  -- A call that has not been decided has no ALLOWED event yet; where it is
  -- refused, it gets none.
  have hzero {c call} (hc : s.calls.lookup c = some call) (hp : call.phase.allowedEvents = 0) :
      s.allowedEvents c = 0 := by rw [hi.allowed, hc]; exact hp
  have hrefuses {c call} {segment : Segment hashing} (hn : s.allowedEvents c = 0)
      (hr : segment.Refuses) : Inv policy (e :: h) (s.advance c call segment) := by
    obtain ⟨hconsistent, error, hnext⟩ := hr
    refine inv_advance hi hn hconsistent e ?_
    rw [hnext]
    trivial
  cases hm with
  | @authorize c tool arguments context env phase hc =>
    have hn : s.allowedEvents c = 0 := by rw [hi.allowed, hc]; rfl
    rcases startAuthorize_cases tool context env with hr | hr
    · exact hrefuses hn hr
    · obtain ⟨manifest, rule, hpermitted, ⟨approvalId, hid, hseg⟩ | ⟨happroval, hcons, hnext⟩⟩ := hr
      · rw [hseg]
        refine inv_advance hi hn ?_ _ ⟨⟨rule, hpermitted⟩, hid⟩
        rfl
      · refine inv_advance hi hn hcons _ ?_
        rw [hnext]
        exact ⟨manifest, rule, hpermitted, fun _ => happroval, nofun⟩
  | @fetched c call manifest approvalId answer env hc hp =>
    have hinv := hi.calls c call hc
    rw [hp] at hinv
    obtain ⟨⟨rule, hpermitted⟩, hid⟩ := hinv
    have hn := hzero hc (by rw [hp]; rfl)
    obtain ⟨definition, -, hentry⟩ := hpermitted.registered
    cases answer with
    | raises => exact hrefuses hn (backendUnavailable_refuses _ _ _)
    | notRecord => exact hrefuses hn (deny_refuses (by decide) _ _ _ _ _)
    | record record =>
      rw [afterFetch]
      have hmem := (ToolCatalog.manifest_of_mem_entries hentry).2.1
      rcases checkRecord_cases hmem hid record env with hr | ⟨now, hnow, happroves, hr⟩
      · exact hrefuses hn hr
      · have hchecked : Checked (.fetched c (.record record) env :: h) c call.arguments
            call.context manifest record :=
          ⟨env, now, List.mem_cons_self, hnow, happroves⟩
        rcases hr with ⟨-, hrid, action, hseg⟩ | ⟨huse, hcons, hnext⟩
        · rw [hseg]
          refine inv_advance hi hn ?_ _ ⟨⟨rule, hpermitted⟩, hchecked, hrid, nofun⟩
          rfl
        · refine inv_advance hi hn hcons _ ?_
          rw [hnext]
          refine ⟨manifest, rule, hpermitted, nofun, fun record' hr' => ?_⟩
          obtain rfl := Option.some.inj hr'
          exact ⟨hchecked, fun h => absurd h huse⟩
  | @granted c call manifest approvalId action record hc hp hfree =>
    -- The approval was free, so that what other calls consumed is unchanged.
    have hinv := hi.calls c call hc
    rw [hp] at hinv
    refine inv_decide hi hc (by rw [hp]; rfl) rfl (fun id c' hid => ?_) _ ?_
    · rw [Dict.lookup_insert, if_neg (fun h => by rw [h, hfree] at hid; cases hid)]
      exact hid
    · obtain ⟨hpermitted, ⟨env, now, hmem, hnow, happroves⟩, hrid, -⟩ := hinv
      refine ⟨hpermitted, ⟨env, now, List.mem_cons_of_mem _ hmem, hnow, happroves⟩, hrid, fun _ => ?_⟩
      rw [Dict.lookup_insert, if_pos rfl]
  | @refused _ c call manifest approvalId action record hc hp =>
    have hinv := (hi.calls c call hc).mono (fun _ _ => id) e
    rw [hp] at hinv
    obtain ⟨hpermitted, hchecked, hrid, -⟩ := hinv
    exact inv_decide hi hc (by rw [hp]; rfl) rfl (fun _ _ => id) _
      ⟨hpermitted, hchecked, hrid, nofun⟩
  | @elsewhere approvalId hfree =>
    refine ⟨fun c call hc => (hi.calls c call hc).mono (fun id c' hid => ?_) _, hi.allowed⟩
    rw [Dict.lookup_insert, if_neg (fun h => by rw [h, hfree] at hid; cases hid)]
    exact hid
  | @consumed c call manifest approvalId action record answer env hc hp =>
    have hinv := (hi.calls c call hc).mono (fun _ _ => id) (.consumed c env)
    rw [hp] at hinv
    obtain ⟨⟨rule, hpermitted⟩, hchecked, hrid, hanswer⟩ := hinv
    have hn := hzero hc (by rw [hp]; rfl)
    rcases afterConsume_cases manifest record call.tool call.context answer env
      with hr | ⟨hconsumed, hcons, hnext⟩
    · exact hrefuses hn hr
    · refine inv_advance hi hn hcons _ ?_
      rw [hnext]
      refine ⟨manifest, rule, hpermitted, nofun, fun record' hr' => ?_⟩
      obtain rfl := Option.some.inj hr'
      exact ⟨hchecked, fun _ => hrid ▸ hanswer (congrArg some hconsumed)⟩
  | raises hc hp hr => exact hrefuses (hzero hc hp) hr

/-- Every run keeps the invariant. -/
theorem inv_of_run {h : List (AuthorizerEvent hashing)} {s : AuthorizerState hashing}
    (hr : (authorizer policy).Run Machine.Free h s) : Inv policy h s :=
  hr.history_invariant ⟨fun _ _ hc => (by cases hc), fun _ => rfl⟩ fun _ _ _ _ hi _ hs =>
    inv_step hi (authorizerStep_move hs)

/-- A call that has returned was permitted: its tool is registered, the rule of
    the tool is active with the fingerprint of the registered manifest, all
    required scopes are held by the caller, the server and the rule, and there is
    an idempotency key unless the tool only reads. Where an approval is required,
    the call fetched a record that is bound to its approval id, tenant, subject,
    tool, fingerprint and arguments, and that had not expired at the check; a
    record that may be used once was consumed by this call, and no other call
    has returned with one for the same approval. The audit has exactly one
    ALLOWED event of the call. -/
theorem authorized {h : List (AuthorizerEvent hashing)} {s : AuthorizerState hashing}
    (hr : (authorizer policy).Run Machine.Free h s) {c : ℕ} {call : Call hashing}
    (hc : s.calls.lookup c = some call) {approval : Option (ApprovalRecord hashing)}
    (hp : call.phase = .returned approval) :
    ∃ manifest rule, Permitted policy call.tool call.context manifest rule ∧
      s.allowedEvents c = 1 ∧
      (manifest.metadata.approval = .required → ∃ record, approval = some record) ∧
      ∀ record, approval = some record →
        (∃ env now, .fetched c (.record record) env ∈ h ∧ wallNow env.expiryReading = .ok now ∧
          Approves record call.arguments call.context manifest now) ∧
        (∀ original, hashing.fingerprint original = some record.argumentsFingerprint →
          hashing.NoCollision original (.obj call.arguments) →
            original.Same (.obj call.arguments)) ∧
        (record.use = .oneTime →
          s.consumed.lookup record.approvalId = some (some c) ∧
          ∀ c' call' record', s.calls.lookup c' = some call' →
            call'.phase = .returned (some record') → record'.use = .oneTime →
            record'.approvalId = record.approvalId → c' = c) := by
  have hi := inv_of_run hr
  have hinv := hi.calls c call hc
  rw [hp] at hinv
  obtain ⟨manifest, rule, hpermitted, hnone, hsome⟩ := hinv
  refine ⟨manifest, rule, hpermitted, ?_, fun hreq => ?_, fun record hrecord => ?_⟩
  · rw [hi.allowed, hc, Option.elim_some, hp]
    rfl
  · cases approval with
    | none => exact absurd hreq (hnone rfl)
    | some record => exact ⟨record, rfl⟩
  · obtain ⟨hchecked, hconsumed⟩ := hsome record hrecord
    refine ⟨hchecked, fun original horiginal hcollision => ?_, fun huse => ⟨hconsumed huse, ?_⟩⟩
    · obtain ⟨_, _, -, -, happroves⟩ := hchecked
      exact Hashing.same_of_fingerprint horiginal happroves.arguments hcollision
    · -- Two calls with one approval: both have consumed it, and one did.
      intro c' call' record' hc' hp' huse' hid
      have hinv' := hi.calls c' call' hc'
      rw [hp'] at hinv'
      obtain ⟨_, _, -, -, hsome'⟩ := hinv'
      have hc'' := (hsome' record' rfl).2 huse'
      rw [hid, hconsumed huse] at hc''
      exact (Option.some.inj (Option.some.inj hc'')).symm

/-- Alice calls the tool with an idempotency key and an approval. -/
def refundContext : CallContext where
  identity := { alice with
    scopes := [lit "orders:write"]
    scopes_isText := refundRule.allowedScopes.all
    scopes_nodup := refundRule.allowedScopes.nodup }
  requestId := lit "request-1"
  runId := lit "run-1"
  idempotencyKey := some (lit "key-1")
  approvalId := some (lit "approval-1")
  requestId_isText := aliceCall.requestId_isText
  runId_isText := aliceCall.runId_isText
  deadline_nonneg := aliceCall.deadline_nonneg
  idempotencyKey_isText := by decide
  approvalId_isText := by decide

/-- An approval of Alice's call that may be used once. -/
def refundApproval : ApprovalRecord exampleHashing where
  approvalId := lit "approval-1"
  actionFingerprint := actionDigest
  tenant := lit "north"
  subject := lit "alice"
  toolName := lit "refund"
  toolFingerprint := refundFingerprint
  argumentsFingerprint := argumentsDigest
  expiresAt := .finite 100
  use := .oneTime
  approvalId_isText := by decide
  tenant_isText := alice.tenant_isText
  subject_isText := alice.subject_isText
  toolName_isText := refundRule.toolName_isText
  actionFingerprint_isDigest := isDigest_actionDigest
  toolFingerprint_isDigest := refundRule.isDigest
  argumentsFingerprint_isDigest := isDigest_argumentsDigest
  binds := by decide +kernel
  expiresAt_finite := by decide

/-- Nothing fails, and the clock shows `50`. -/
def quietEnv : PolicyEnv where
  redactText := some
  expiryReading := some (.finite 50)
  eventReading := some (.finite 50)
  appends := true

/-- Two calls use the same approval: the store grants it to the first. -/
def approvalRace : List (AuthorizerEvent exampleHashing) :=
  [.authorize 0 refundTool refundArguments refundContext quietEnv,
    .authorize 1 refundTool refundArguments refundContext quietEnv,
    .fetched 0 (.record refundApproval) quietEnv, .fetched 1 (.record refundApproval) quietEnv,
    .consumes 0, .consumes 1, .consumed 1 quietEnv, .consumed 0 quietEnv]

theorem authorized_example :
    ∃ (h : List (AuthorizerEvent exampleHashing)) (s : AuthorizerState exampleHashing)
      (call : Call exampleHashing) (record : ApprovalRecord exampleHashing),
      (authorizer refundPolicy).Run Machine.Free h s ∧ s.calls.lookup 0 = some call ∧
      call.phase = .returned (some record) ∧ record.use = .oneTime ∧ s.allowedEvents 0 = 1 ∧
      s.consumed.lookup record.approvalId = some (some 0) := by
  have heval : ∃ s ∈ (authorizer refundPolicy).exec (authorizer refundPolicy).init approvalRace,
      ∃ call ∈ s.calls.lookup 0, call.phase.approvalUse = some .oneTime := by
    decide +kernel
  obtain ⟨s, hs, call, hc, huse⟩ := heval
  have hr := Machine.run_of_exec hs (Machine.meets_free _ _)
  obtain ⟨record, hp, hone⟩ := returned_of_approvalUse huse
  obtain ⟨_, _, -, hallowed, -, happroval⟩ := authorized hr hc hp
  exact ⟨_, s, call, record, hr, hc, hp, hone, hallowed, ((happroval record rfl).2.2 hone).1⟩

end McpRuntime.Policy
