import McpRuntime.Application.Invoke
import McpRuntime.Redaction.Secrecy

/-!
# The payload of a result

What the limits of a result are, apart from the loop that checks them, and what
a caller gets of the value of a handler.

* `withinLimits_iff`: the loop accepts the values whose nodes are no more than
  the limit and fit it, each at its depth.
* `Application.invoke_payload`: a successful call carries the redacted output of
  its handler, within the limits; an output beyond them, or of which redaction makes
  nothing within them, is a failure; and a failure is made of its code and of a safe
  request id only.
-/

namespace McpRuntime

/-! ## Nodes -/

namespace Json

/-- The values in a value, each with its depth. -/
def walk : Json → ℕ → List (Json × ℕ)
  | .arr items, depth => (.arr items, depth) :: walkItems items (depth + 1)
  | .obj members, depth => (.obj members, depth) :: walkMembers members (depth + 1)
  | j, depth => [(j, depth)]
where
  walkItems : List Json → ℕ → List (Json × ℕ)
    | [], _ => []
    | j :: items, depth => j.walk depth ++ walkItems items depth
  walkMembers : List (Text × Json) → ℕ → List (Json × ℕ)
    | [], _ => []
    | (_, j) :: members, depth => j.walk depth ++ walkMembers members depth

/-- The values in the items of an array. -/
theorem walkItems_eq (items : List Json) (depth : ℕ) :
    walk.walkItems items depth = (items.map fun item => (item, depth)).flatMap fun e => e.1.walk e.2 := by
  induction items with
  | nil => rfl
  | cons j items ih => rw [walk.walkItems, ih, List.map_cons, List.flatMap_cons]

/-- The values in the members of an object. -/
theorem walkMembers_eq (members : List (Text × Json)) (depth : ℕ) :
    walk.walkMembers members depth =
      (members.map fun member => (member.2, depth)).flatMap fun e => e.1.walk e.2 := by
  induction members with
  | nil => rfl
  | cons m members ih => rw [walk.walkMembers, ih, List.map_cons, List.flatMap_cons]

end Json

/-- A value fits the limits at its depth: containers are not too deep and not too
    large, and numbers are finite. -/
def Fits (limits : ExecutionLimits) : Json × ℕ → Prop
  | (.obj members, depth) =>
    depth ≤ limits.maxJsonDepth ∧ members.length ≤ limits.maxObjectProperties
  | (.arr items, depth) => depth ≤ limits.maxJsonDepth ∧ items.length ≤ limits.maxArrayItems
  | (.float x, _) => x.isFinite
  | _ => True

/-- The values in pending values, in any order. -/
theorem flatMap_walk_perm {pending pending' : List (Json × ℕ)} (h : pending.Perm pending') :
    (pending.flatMap fun e => e.1.walk e.2).Perm (pending'.flatMap fun e => e.1.walk e.2) :=
  h.flatMap_right _

/-- The loop accepts pending values when the values in them are no more than the
    nodes that may follow, and all of them fit the limits. -/
theorem withinLimits_iff (limits : ExecutionLimits) (remaining : ℕ) (pending : List (Json × ℕ)) :
    withinLimits limits remaining pending ↔
      (pending.flatMap fun e => e.1.walk e.2).length ≤ remaining ∧
        ∀ e ∈ pending.flatMap (fun e => e.1.walk e.2), Fits limits e := by
  induction remaining generalizing pending with
  | zero =>
    cases pending with
    | nil => simp [withinLimits]
    | cons e pending =>
      obtain ⟨j, depth⟩ := e
      have hpos : 0 < (j.walk depth).length := by cases j <;> simp [Json.walk]
      simp only [withinLimits, Bool.false_eq_true, List.flatMap_cons, List.length_append, false_iff]
      omega
  | succ remaining ih =>
    cases pending with
    | nil => simp [withinLimits]
    | cons e pending =>
      obtain ⟨j, depth⟩ := e
      -- the children of a container are pending before the rest, in any order
      have hcontainer (children : List (Json × ℕ)) :
          withinLimits limits remaining (children.reverse ++ pending) ↔
            (children.flatMap fun e => e.1.walk e.2).length +
                (pending.flatMap fun e => e.1.walk e.2).length ≤ remaining ∧
              (∀ e ∈ children.flatMap fun e => e.1.walk e.2, Fits limits e) ∧
              ∀ e ∈ pending.flatMap fun e => e.1.walk e.2, Fits limits e := by
        have hperm := flatMap_walk_perm children.reverse_perm
        rw [ih, List.flatMap_append, List.length_append, hperm.length_eq, List.forall_mem_append]
        simp only [hperm.mem_iff]
      cases j with
      | arr items =>
        simp only [withinLimits, Bool.and_eq_true, decide_eq_true_eq, hcontainer, List.flatMap_cons,
          Json.walk, Json.walkItems_eq, List.cons_append, List.length_cons, List.length_append,
          List.forall_mem_cons, List.forall_mem_append, Fits]
        rw [Nat.succ_le_succ_iff]
        tauto
      | obj members =>
        simp only [withinLimits, Bool.and_eq_true, decide_eq_true_eq, hcontainer, List.flatMap_cons,
          Json.walk, Json.walkMembers_eq, List.cons_append, List.length_cons, List.length_append,
          List.forall_mem_cons, List.forall_mem_append, Fits]
        rw [Nat.succ_le_succ_iff]
        tauto
      | float x =>
        simp only [withinLimits, Bool.and_eq_true, ih, List.flatMap_cons, Json.walk,
          List.cons_append, List.nil_append, List.length_cons, List.forall_mem_cons, Fits]
        rw [Nat.succ_le_succ_iff]
        tauto
      | null | bool | int | str =>
        simp only [withinLimits, ih, List.flatMap_cons, Json.walk, List.cons_append,
          List.nil_append, List.length_cons, List.forall_mem_cons, Fits, true_and]
        rw [Nat.succ_le_succ_iff]

/-- The limits of a value: the number of its nodes, the depth and the size of its
    containers, its numbers, and the bytes of its canonical text in UTF-8. -/
structure WithinLimits (writer : JsonWriter) (limits : ExecutionLimits) (maximumBytes : ℕ)
    (value : Json) : Prop where
  nodes : (value.walk 1).length ≤ limits.maxJsonNodes
  fits : ∀ e ∈ value.walk 1, Fits limits e
  bytes : ∃ document, writer.dumps value = some document ∧ document.Encodable ∧
    document.utf8Length ≤ maximumBytes

/-- `validate_json_value` accepts the values within the limits. -/
theorem isValidJsonValue_iff {writer : JsonWriter} {limits : ExecutionLimits} {maximumBytes : ℕ}
    {value : Json} : isValidJsonValue writer limits maximumBytes (some value) ↔
      WithinLimits writer limits maximumBytes value := by
  have hwalk : [(value, 1)].flatMap (fun e => e.1.walk e.2) = value.walk 1 := List.flatMap_singleton _ _
  rw [isValidJsonValue, Bool.and_eq_true, withinLimits_iff, hwalk]
  constructor
  · rintro ⟨⟨hnodes, hfits⟩, hbytes⟩
    refine ⟨hnodes, hfits, ?_⟩
    split at hbytes
    · next document hdocument =>
      rw [Bool.and_eq_true, decide_eq_true_eq, decide_eq_true_eq] at hbytes
      exact ⟨document, hdocument, hbytes⟩
    · cases hbytes
  · rintro ⟨hnodes, hfits, document, hdocument, hencodable, hlength⟩
    refine ⟨⟨hnodes, hfits⟩, ?_⟩
    rw [hdocument]
    simp [hencodable, hlength]

/-! ## Results of calls -/

/-- What `retry` returns was returned by an attempt. -/
theorem retry_eq_ok {ω : Type} {context : CallContext} {operation : ℕ → Except PyException ω}
    {pause : ℕ → Pause} {attempt remaining : ℕ} {output : ω}
    (h : retry context operation pause attempt remaining = .ok output) :
    ∃ n, operation n = .ok output := by
  induction remaining generalizing attempt with
  | zero => exact ⟨attempt, h⟩
  | succ remaining ih =>
    rw [retry] at h
    split at h
    · next value hvalue => exact ⟨attempt, hvalue.trans h⟩
    · split_ifs at h
      exact ih h

namespace Application

variable {hashing : Hashing} {unicode : UnicodeTable} {ι ω : Type}
  {app : Application hashing unicode ι ω} {name : Text} {arguments : List (Text × Json)}
  {context : CallContext} {env : InvokeEnv ω}

/-- A result value that is accepted is within the limits. -/
theorem validateResult_eq_ok {value : Option Json} {result : Json} :
    app.validateResult value = .ok result ↔ value = some result ∧
      WithinLimits hashing.writer app.executionLimits app.executionLimits.maxResultBytes result := by
  cases value with
  | none => exact ⟨nofun, fun h => nomatch h.1⟩
  | some value =>
    simp only [validateResult, validateJsonValue, isValidJsonValue_iff, Option.some.injEq]
    split_ifs with hlimits
    · exact ⟨fun h => by cases h; exact ⟨rfl, isValidJsonValue_iff.1 hlimits⟩, fun h => by rw [h.1]⟩
    · exact ⟨nofun, fun h => absurd (isValidJsonValue_iff.2 (h.1 ▸ h.2)) hlimits⟩

/-- A redacted success is the output of the redaction policy, within the
    limits. -/
theorem redactResult_success {result : InvocationResult Json} {requestId : Text} {value : Json}
    (h : app.redactResult result requestId = .success value) :
    ∃ output, result = .success output ∧ app.redact output = .ok (some value) ∧
      WithinLimits hashing.writer app.executionLimits app.executionLimits.maxResultBytes value := by
  cases result with
  | failure error => cases h
  | success output =>
    rw [redactResult] at h
    split at h
    · next redacted hredacted =>
      cases h
      obtain ⟨_, hredact, hvalid⟩ := bind_eq_ok.1 hredacted
      obtain ⟨rfl, hlimits⟩ := validateResult_eq_ok.1 hvalid
      exact ⟨output, rfl, hredact, hlimits⟩
    · split_ifs at h
      · cases h
      · cases h

/-- A value whose redaction or whose limits fail gives a failure. -/
theorem redactResult_of_failing {output : Json} (requestId : Text)
    (h : ∀ value, app.redact output = .ok (some value) →
      ¬ WithinLimits hashing.writer app.executionLimits app.executionLimits.maxResultBytes value) :
    app.redactResult (.success output) requestId = app.failure .resultTooLarge requestId ∨
      app.redactResult (.success output) requestId = app.failure .internalFailure requestId := by
  rw [redactResult]
  split
  · next value hvalue =>
    obtain ⟨_, hredact, hvalid⟩ := bind_eq_ok.1 hvalue
    obtain ⟨rfl, hlimits⟩ := validateResult_eq_ok.1 hvalid
    exact absurd hlimits (h value hredact)
  · split_ifs
    · exact .inl (mappedFailure_eq _ _)
    · exact .inr (mappedFailure_eq _ _)

/-- What is raised for no limit is what is given. -/
theorem orResultTooLarge_eq_ok {α : Type} {x : Except PyException α} {a : α} :
    orResultTooLarge x = .ok a ↔ x = .ok a := by
  cases x with
  | ok b => exact Iff.rfl
  | error error =>
    simp only [orResultTooLarge]
    split_ifs
    · exact ⟨nofun, nofun⟩
    · exact ⟨nofun, nofun⟩

/-- A call comes to the output of its handler: its arguments are valid, its tool is found
    and admits and authorizes it, and an attempt gives an output that is serialized. -/
structure Serializes (app : Application hashing unicode ι ω) (name : Text)
    (arguments : List (Text × Json)) (context : CallContext) (env : InvokeEnv ω)
    (tool : ToolDefinition) (model : ω) (output : Option Json) : Prop where
  isValid : isValidJsonValue hashing.writer app.executionLimits app.executionLimits.maxInputBytes
    (some (.obj arguments))
  found : app.catalog.get name = some tool
  parsed : ∃ input, app.parseInput tool arguments = .ok input
  admitted : env.admission.admitCall app.executionLimits tool.metadata.name context.tenant ≠ none
  authorized : env.authorize tool = .ok ()
  attempted : retry context env.attempt env.pause 1
    (app.executionLimits.attempts tool context - 1) = .ok model
  serialized : app.serializeOutput tool model = .ok output

variable {tool : ToolDefinition} {model : ω}

/-- The work of a call that comes to an output is the check of its limits. -/
theorem Serializes.invokeBounded_eq {output : Option Json}
    (h : app.Serializes name arguments context env tool model output) :
    app.invokeBounded name arguments context env =
      match app.validateResult output with
      | .ok value => .ok (.success value)
      | .error error =>
        if error.kind = .executionLimitExceeded then
          .ok (app.failure .resultTooLarge context.requestId)
        else if error.kind = .cancelledError then .error error
        else .ok (app.mappedFailure error context.requestId) := by
  obtain ⟨input, hparsed⟩ := h.parsed
  obtain ⟨lease, hlease⟩ := Option.ne_none_iff_exists'.1 h.admitted
  have hcall : app.callTool tool context env = orResultTooLarge (app.validateResult output) := by
    have hrun : app.runHandler tool context env = orResultTooLarge (app.validateResult output) := by
      simp only [runHandler, h.attempted]
      exact congrArg (fun x => orResultTooLarge (x >>= app.validateResult)) h.serialized
    simp only [callTool, hlease, h.authorized]
    exact hrun
  rw [invokeBounded, if_neg (not_not.2 h.isValid)]
  simp only [h.found, hparsed, hcall]
  cases app.validateResult output with
  | ok value => rfl
  | error error =>
    simp only [orResultTooLarge]
    by_cases hkind : error.kind = .executionLimitExceeded
    · rw [if_pos hkind, if_pos hkind]
      rfl
    · rw [if_neg hkind, if_neg hkind]

/-- An output beyond the limits is a failure of the work. -/
theorem Serializes.tooLarge {output : Option Json}
    (h : app.Serializes name arguments context env tool model output)
    (hlimits : ∀ value, output = some value → ¬ WithinLimits hashing.writer app.executionLimits
      app.executionLimits.maxResultBytes value) :
    app.invokeBounded name arguments context env =
      .ok (app.failure .resultTooLarge context.requestId) := by
  have hinvalid : app.validateResult output = .error .executionLimitExceeded := by
    cases output with
    | none => rfl
    | some value =>
      rw [validateResult, validateJsonValue]
      exact if_neg fun hvalid => hlimits value rfl (isValidJsonValue_iff.1 hvalid)
  rw [h.invokeBounded_eq, hinvalid]
  exact if_pos rfl

/-- The work of a call is a success exactly when it comes to an output within the
    limits. -/
theorem invokeBounded_success_iff {output : Json} :
    app.invokeBounded name arguments context env = .ok (.success output) ↔
      (∃ tool model, app.Serializes name arguments context env tool model (some output)) ∧
        WithinLimits hashing.writer app.executionLimits app.executionLimits.maxResultBytes output := by
  constructor
  · intro h
    simp only [invokeBounded] at h
    split_ifs at h with hvalid
    swap
    · cases h
    split at h
    · cases h
    · next tool htool =>
      split at h
      · split_ifs at h
        cases h
      · next input hparsed =>
        split at h
        · next value hcall =>
          cases h
          rw [callTool] at hcall
          split at hcall
          · cases hcall
          · next lease hlease =>
            obtain ⟨_, hauthorized, hrun⟩ := bind_eq_ok.1 hcall
            obtain ⟨model, hretry, hrest⟩ := bind_eq_ok.1 (orResultTooLarge_eq_ok.1 hrun)
            obtain ⟨serialized, hserialized, hvalidated⟩ := bind_eq_ok.1 hrest
            obtain ⟨rfl, hlimits⟩ := validateResult_eq_ok.1 hvalidated
            exact ⟨⟨tool, model, hvalid, htool, ⟨input, hparsed⟩, by rw [hlease]; nofun, hauthorized,
              hretry, hserialized⟩, hlimits⟩
        · split_ifs at h
          cases h
  · rintro ⟨⟨tool, model, h⟩, hlimits⟩
    rw [h.invokeBounded_eq, validateResult_eq_ok.2 ⟨rfl, hlimits⟩]

/-- The result of a call whose work returns. -/
theorem invokeResult_of_work {bounded : InvocationResult Json} (hstate : env.state = .ready)
    (hrace : env.race = .work)
    (h : app.invokeBounded name arguments context env = .ok bounded) :
    app.invokeResult name arguments context env = app.redactResult bounded context.requestId := by
  rw [invokeResult, if_pos hstate, runInvocation, hrace]
  simp only [h]

/-- A call that returns a success carries what the redaction policy made of the
    output of an attempt of the handler, within the limits. A call whose output
    is beyond the limits, or is rejected by the redaction policy or made beyond the
    limits, returns a failure. Every failure has the message of its code and a
    safe request id, and is the same for all values of the handler. -/
theorem invoke_payload {result : InvocationResult Json}
    (h : app.invoke name arguments context env = .ok result) :
    (∀ value, result = .success value → ∃ tool n model output,
      app.catalog.get name = some tool ∧ env.attempt n = .ok model ∧
      app.serializeOutput tool model = .ok (some output) ∧
      WithinLimits hashing.writer app.executionLimits app.executionLimits.maxResultBytes output ∧
      app.redact output = .ok (some value) ∧
      WithinLimits hashing.writer app.executionLimits app.executionLimits.maxResultBytes value) ∧
    (∀ tool model output, env.state = .ready → env.race = .work →
      app.Serializes name arguments context env tool model output →
      (∀ value, output = some value → ¬ WithinLimits hashing.writer app.executionLimits
        app.executionLimits.maxResultBytes value) →
      result = app.failure .resultTooLarge context.requestId) ∧
    (∀ tool model output, env.state = .ready → env.race = .work →
      app.Serializes name arguments context env tool model (some output) →
      (∀ value, app.redact output = .ok (some value) →
        ¬ WithinLimits hashing.writer app.executionLimits app.executionLimits.maxResultBytes value) →
      result = app.failure .resultTooLarge context.requestId ∨
        result = app.failure .internalFailure context.requestId) ∧
    ∀ error, result = .failure error →
      result = app.failure error.code context.requestId ∧ error.message = error.code.message ∧
        app.IsSafe context.requestId error.requestId := by
  have hresult : result = app.invokeResult name arguments context env := by
    rw [invoke_eq] at h
    split_ifs at h
    exact (Except.ok.inj h).symm
  have htooLarge : ∀ tool model output, env.state = .ready → env.race = .work →
      app.Serializes name arguments context env tool model output →
      (∀ value, output = some value → ¬ WithinLimits hashing.writer app.executionLimits
        app.executionLimits.maxResultBytes value) →
      result = app.failure .resultTooLarge context.requestId := by
    intro tool model output hstate hrace hserializes hlimits
    rw [hresult, invokeResult_of_work hstate hrace (hserializes.tooLarge hlimits)]
    rfl
  refine ⟨fun value hvalue => ?_, htooLarge,
    fun tool model output hstate hrace hserializes hfails => ?_, fun error herror => ?_⟩
  · rw [hresult, invokeResult] at hvalue
    split_ifs at hvalue
    · rw [runInvocation] at hvalue
      split at hvalue
      · cases hvalue
      · cases hvalue
      · cases hvalue
      · split at hvalue
        · next bounded hbounded =>
          obtain ⟨output, rfl, hredact, hlimits⟩ := redactResult_success hvalue
          obtain ⟨⟨tool, model, hserializes⟩, hlimits'⟩ := invokeBounded_success_iff.1 hbounded
          obtain ⟨n, hattempt⟩ := retry_eq_ok hserializes.attempted
          exact ⟨tool, n, model, output, hserializes.found, hattempt, hserializes.serialized,
            hlimits', hredact, hlimits⟩
        · cases hvalue
    · cases hvalue
  · by_cases hlimits : WithinLimits hashing.writer app.executionLimits
      app.executionLimits.maxResultBytes output
    · have hwork := invokeBounded_success_iff.2 ⟨⟨tool, model, hserializes⟩, hlimits⟩
      rw [hresult, invokeResult_of_work hstate hrace hwork]
      exact redactResult_of_failing _ hfails
    · refine .inl (htooLarge tool model (some output) hstate hrace hserializes fun value hvalue => ?_)
      rwa [← Option.some.inj hvalue]
  · refine ⟨?_, rfl, isSafe_invokeResult (hresult.symm.trans herror)⟩
    rcases (invokeResult_cases :
      (∃ value, app.invokeResult name arguments context env = .success value) ∨ _) with ⟨value, hvalue⟩ | ⟨code, hcode⟩
    · rw [← hresult, herror] at hvalue
      cases hvalue
    · have hfailure := hresult.trans hcode
      have hsame := herror.symm.trans hfailure
      cases hsame
      exact hfailure

end Application

open Policy

theorem standard_maxTools : 1 ≤ ExecutionLimits.standard.maxTools := by decide

/-- The application of one tool, whose results are redacted. -/
def redactingApplication (secrets : List SecretValue) :
    Application exampleHashing asciiTable Json Json :=
  let redactor := SecretRedactor.create secrets .standard
  { refundApplication .standard standard_maxTools with
    redactText := fun text => (redactor.redactText (fun _ => false) text).toOption
    redact := fun value => some <$> redactor.redact asciiTable (fun _ => false) value }

/-- A call whose handler pays with a secret. -/
def payingCall : InvokeEnv Json :=
  { quietCall with
    attempt := fun _ => .ok (.obj [(lit "note", .str (lit "paid with hunter22"))]) }

theorem invoke_payload_example :
    (redactingApplication [SecretRedactor.hunter]).invoke (lit "refund") [(lit "order", .int 7)]
        aliceCall payingCall =
        .ok (.success (.obj [(lit "note", .str (lit "paid with [REDACTED]"))])) ∧
      WithinLimits .plain .standard ExecutionLimits.standard.maxResultBytes
        (.obj [(lit "note", .str (lit "paid with [REDACTED]"))]) := by
  have hrecord : isDuration ((redactingApplication [SecretRedactor.hunter]).durationSeconds
        payingCall) ∧
      isVisible ((redactingApplication [SecretRedactor.hunter]).safeRequestId
        aliceCall.requestId) := by
    decide +kernel
  have h : (redactingApplication [SecretRedactor.hunter]).invoke (lit "refund")
      [(lit "order", .int 7)] aliceCall payingCall =
      .ok (.success (.obj [(lit "note", .str (lit "paid with [REDACTED]"))])) := by
    rw [Application.invoke_eq, if_pos hrecord]
    rfl
  obtain ⟨hsuccess, -⟩ := Application.invoke_payload h
  obtain ⟨_, _, _, _, -, -, -, -, -, hlimits⟩ := hsuccess _ rfl
  exact ⟨h, hlimits⟩

end McpRuntime
