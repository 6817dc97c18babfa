import McpRuntime.Application.Admission
import McpRuntime.Errors
import McpRuntime.Observability
import McpRuntime.Policy.ToolPolicy
import McpRuntime.Python.Except

/-!
# Invoking tools

`Application.invoke` runs one call of a tool, from its name and arguments to its
result: the lookup, the parsing of the arguments, the admission, the
authorization, the attempts of the handler, the redaction of the result, and the
record of the completed request.

The authorizer, the handler, the redactor and the clock are not the runtime's
own. What they do in a call is an `InvokeEnv`.

* `Application.invoke_returns_iff`: the call returns a result, whose failure
  names a safe request id, unless its record cannot be made: the clock shows more
  than an hour between the start and the end of the call, or the redacted request
  id has the character `DEL`.
-/

namespace McpRuntime

/-! ## Limits of arguments and results -/

/-- The loop of `validate_json_value` over the values that are pending, each with
    its depth, of which the last one is the head; `remaining` nodes may follow. -/
def withinLimits (limits : ExecutionLimits) : ℕ → List (Json × ℕ) → Bool
  | _, [] => true
  | 0, _ :: _ => false
  | remaining + 1, (current, depth) :: pending =>
    match current with
    | .obj members =>
      depth ≤ limits.maxJsonDepth && members.length ≤ limits.maxObjectProperties &&
        withinLimits limits remaining
          ((members.map fun member => (member.2, depth + 1)).reverse ++ pending)
    | .arr items =>
      depth ≤ limits.maxJsonDepth && items.length ≤ limits.maxArrayItems &&
        withinLimits limits remaining ((items.map fun item => (item, depth + 1)).reverse ++ pending)
    | .float x => x.isFinite && withinLimits limits remaining pending
    | _ => withinLimits limits remaining pending

/-- A value is within the limits, and its canonical text is too. A value that is
    no JSON value (`none`) is not. -/
def isValidJsonValue (writer : JsonWriter) (limits : ExecutionLimits) (maximumBytes : ℕ) :
    Option Json → Bool
  | none => false
  | some value =>
    withinLimits limits limits.maxJsonNodes [(value, 1)] &&
      match writer.dumps value with
      | some document => decide document.Encodable && document.utf8Length ≤ maximumBytes
      | none => false

/-- `validate_json_value`, with the value that it accepts. -/
def validateJsonValue (writer : JsonWriter) (limits : ExecutionLimits) (maximumBytes : ℕ)
    (value : Option Json) : Except PyException Json :=
  match value with
  | some json =>
    if isValidJsonValue writer limits maximumBytes value then .ok json
    else .error .executionLimitExceeded
  | none => .error .executionLimitExceeded

/-! ## What a call meets -/

/-- How the race of `execute` ends, between the work of the call, its deadline
    and the cancellation of its caller. -/
inductive Race
  /-- The work ends first. -/
  | work
  | timeout
  | cancelled
  /-- `execute` raises before there is work. -/
  | rejected (error : PyException)
  deriving DecidableEq

/-- What a call finds out between two attempts. -/
structure Pause where
  /-- `now + delay >= context.deadline`. -/
  late : Bool
  /-- `context.cancelled`, after the delay. -/
  cancelled : Bool

/-- What a call meets: the state and the counts it finds, and what the
    authorizer, the handler and the clock do. -/
structure InvokeEnv (ω : Type) where
  state : LifecycleState
  startedAt : PyFloat
  finishedAt : PyFloat
  race : Race
  admission : Admission
  authorize : ToolDefinition → Except PyException Unit
  /-- The handler, in each of its attempts. -/
  attempt : ℕ → Except PyException ω
  pause : ℕ → Pause
  /-- The identifier of the span, which `_SafeSpan` checks. -/
  traceId : Option { t : Text // isTraceId t }

/-- An application, with the collaborators that a call uses; `ι` and `ω` are the
    inputs and outputs of its handlers. -/
structure Application (hashing : Hashing) (unicode : UnicodeTable) (ι ω : Type) where
  catalog : ToolCatalog hashing unicode
  executionLimits : ExecutionLimits
  serverName : Text
  /-- `redact_text`, unless it raises. -/
  redactText : Text → Option Text
  /-- `redact`, which may also give what is no JSON value. -/
  redact : Json → Except PyException (Option Json)
  parseInput : ToolDefinition → List (Text × Json) → Except PyException ι
  /-- `serialize_output`, which may also give what is no JSON value. -/
  serializeOutput : ToolDefinition → ω → Except PyException (Option Json)
  /-- The difference of two readings of the clock is rounded. -/
  rounding : Rounding
  serverName_isDimension : isDimension serverName
  tools_le : catalog.tools.length ≤ executionLimits.maxTools

/-! ## Retries -/

/-- The failure of an attempt is transient. -/
def ExceptionKind.isTransient : ExceptionKind → Bool
  | connectionError | timeoutError | runtimeFailure .overloaded | runtimeFailure .unavailable => true
  | _ => false

/-- `retry`, from the attempt `attempt` on, of which `remaining` others may
    follow. -/
def retry {ω : Type} (context : CallContext) (operation : ℕ → Except PyException ω)
    (pause : ℕ → Pause) (attempt : ℕ) : ℕ → Except PyException ω
  | 0 => operation attempt
  | remaining + 1 =>
    match operation attempt with
    | .ok value => .ok value
    | .error error =>
      if error.kind.isTransient then
        -- the delay depends on the digest of the request id
        if ¬ context.requestId.Encodable then .error .valueError
        else if (pause attempt).late then .error .timeoutError
        else if (pause attempt).cancelled then .error .cancelledError
        else retry context operation pause (attempt + 1) remaining
      else .error error

/-- The attempts that a call may make: it may be tried again if it only reads, or
    if it has an idempotency key for a tool that requires one. -/
def ExecutionLimits.attempts (limits : ExecutionLimits) (tool : ToolDefinition)
    (context : CallContext) : ℕ :=
  if tool.metadata.effect = .read ∨
      (tool.metadata.idempotency = .required ∧ context.idempotencyKey ≠ none)
  then limits.maxAttempts else 1

/-- The exceptions of `parse_input` for which the input is invalid: `KeyError`,
    `TypeError` and `ValueError`. -/
def ExceptionKind.isInputError : ExceptionKind → Bool
  | keyError | typeError | valueError | executionLimitExceeded => true
  | _ => false

namespace Application

variable {hashing : Hashing} {unicode : UnicodeTable} {ι ω : Type}
  (app : Application hashing unicode ι ω)

/-! ## Request ids -/

/-- The request id that stands for one whose redaction fails: 16 digits of the
    digest of its bytes, with `?` for what UTF-8 cannot encode. -/
def redactionFailed (hashing : Hashing) (requestId : Text) : Text :=
  lit "redaction-failed-" ++
    (hashing.sha256 (requestId.map fun c => if c.isSurrogate then 63 else c)).text.take 16

/-- `_safe_request_id`. -/
def safeRequestId (requestId : Text) : Text :=
  match app.redactText requestId with
  | some value => if IsText 256 value then value else redactionFailed hashing requestId
  | none => redactionFailed hashing requestId

/-- A character of a digest is a digit or a small letter. -/
theorem val_of_mem_digest {digest : Digest} {c : CodePoint} (hc : c ∈ digest.text) :
    48 ≤ c.val ∧ c.val ≤ 102 := by
  have hdigest := digest.isDigest
  simp only [isDigest, Bool.and_eq_true, List.all_eq_true] at hdigest
  have hc := hdigest.2 c hc
  simp only [CodePoint.isDigit, Bool.or_eq_true, Bool.and_eq_true, decide_eq_true_eq] at hc
  omega

/-- The characters of a request id whose redaction has failed are visible, and
    are no white space. -/
theorem val_of_mem_redactionFailed {requestId : Text} {c : CodePoint}
    (hc : c ∈ redactionFailed hashing requestId) : 45 ≤ c.val ∧ c.val ≤ 122 := by
  rcases List.mem_append.1 hc with hc | hc
  · have hlit : ((lit "redaction-failed-").all fun c => 45 ≤ c.val && c.val ≤ 122) = true := by
      decide
    simpa using List.all_eq_true.1 hlit c hc
  · have := val_of_mem_digest (List.mem_of_mem_take hc)
    omega

/-- A request id whose redaction has failed is bounded text. -/
theorem isText_redactionFailed (requestId : Text) :
    IsText 256 (redactionFailed hashing requestId) := by
  have hspace : ∀ c ∈ redactionFailed hashing requestId, c.isSpace = false := by
    intro c hc
    have hval := val_of_mem_redactionFailed hc
    simp only [CodePoint.isSpace, Bool.or_eq_false_iff, Bool.and_eq_false_iff, decide_eq_false_iff_not,
      beq_eq_false_iff_ne]
    omega
  refine ⟨List.append_ne_nil_of_left_ne_nil (by decide) _, ?_, ?_, fun c hc => ?_⟩
  · exact (Text.strip_eq_self (fun c hc => hspace c (List.mem_of_mem_head? hc))
      fun c hc => hspace c (List.mem_of_mem_getLast? hc)).symm
  · rw [redactionFailed, List.length_append, List.length_take]
    have hlit : (lit "redaction-failed-").length = 17 := by decide
    omega
  · have := val_of_mem_redactionFailed hc
    omega

/-- A safe request id is bounded text. -/
theorem isText_safeRequestId (requestId : Text) : IsText 256 (app.safeRequestId requestId) := by
  rw [safeRequestId]
  split
  · split_ifs with h
    · exact h
    · exact isText_redactionFailed requestId
  · exact isText_redactionFailed requestId

/-! ## Results -/

/-- `InvocationResult.failure`, of a code with a safe request id. -/
def failure (code : ErrorCode) (requestId : Text) : InvocationResult Json :=
  .failure ⟨code, app.safeRequestId requestId, app.isText_safeRequestId requestId⟩

/-- `_mapped_failure`. -/
def mappedFailure (error : PyException) (requestId : Text) : InvocationResult Json :=
  .failure (mapException error (app.safeRequestId requestId)
    (app.isText_safeRequestId requestId)).response

/-- The exception of a value over its limits gives way to `RuntimeFailure`. -/
def orResultTooLarge {α : Type} : Except PyException α → Except PyException α
  | .error error =>
    if error.kind = .executionLimitExceeded then .error (.runtimeFailure .resultTooLarge)
    else .error error
  | .ok value => .ok value

/-- `validate_json_value`, of a result. -/
def validateResult (value : Option Json) : Except PyException Json :=
  validateJsonValue hashing.writer app.executionLimits app.executionLimits.maxResultBytes value

/-- `_redact_result`. -/
def redactResult (result : InvocationResult Json) (requestId : Text) : InvocationResult Json :=
  match result with
  | .failure error => app.failure error.code requestId
  | .success value =>
    match app.redact value >>= app.validateResult with
    | .ok value => .success value
    | .error error =>
      if error.kind = .executionLimitExceeded then
        app.mappedFailure (.runtimeFailure .resultTooLarge) requestId
      else app.mappedFailure ⟨.other, lit "RedactionError"⟩ requestId

/-! ## The work of a call -/

/-- What follows the authorization: the handler and its output. -/
def runHandler (tool : ToolDefinition) (context : CallContext) (env : InvokeEnv ω) :
    Except PyException Json :=
  orResultTooLarge do
    let attempts := app.executionLimits.attempts tool context
    let output ← retry context env.attempt env.pause 1 (attempts - 1)
    app.validateResult (← app.serializeOutput tool output)

/-- What follows the parsing of the arguments: the admission, the authorization
    and the handler, in the `try` of `_invoke`. -/
def callTool (tool : ToolDefinition) (context : CallContext) (env : InvokeEnv ω) :
    Except PyException Json :=
  match env.admission.admitCall app.executionLimits tool.metadata.name context.tenant with
  | none => .error (.runtimeFailure .overloaded)
  | some _ => do
    env.authorize tool
    app.runHandler tool context env

/-- `_invoke`, whose exceptions are those that escape it. -/
def invokeBounded (name : Text) (arguments : List (Text × Json)) (context : CallContext)
    (env : InvokeEnv ω) : Except PyException (InvocationResult Json) :=
  let invalidInput := InvocationResult.failure
    ⟨.invalidInput, context.requestId, context.requestId_isText⟩
  if ¬ isValidJsonValue hashing.writer app.executionLimits app.executionLimits.maxInputBytes
      (some (.obj arguments)) then .ok invalidInput
  else
    match app.catalog.get name with
    | none => .ok invalidInput
    | some tool =>
      match app.parseInput tool arguments with
      | .error error => if error.kind.isInputError then .ok invalidInput else .error error
      | .ok _ =>
        match app.callTool tool context env with
        | .ok output => .ok (.success output)
        | .error error =>
          if error.kind = .cancelledError then .error error
          else .ok (app.mappedFailure error context.requestId)

/-! ## A call -/

/-- The result of a call of an application that is ready. -/
def runInvocation (name : Text) (arguments : List (Text × Json)) (context : CallContext)
    (env : InvokeEnv ω) : InvocationResult Json :=
  match env.race with
  | .timeout => app.mappedFailure .timeoutError context.requestId
  | .cancelled => app.mappedFailure .cancelledError context.requestId
  | .rejected error => app.mappedFailure error context.requestId
  | .work =>
    match app.invokeBounded name arguments context env with
    | .ok result => app.redactResult result context.requestId
    | .error error => app.mappedFailure error context.requestId

/-- The result of a call, before it is recorded. -/
def invokeResult (name : Text) (arguments : List (Text × Json)) (context : CallContext)
    (env : InvokeEnv ω) : InvocationResult Json :=
  if env.state = .ready then app.runInvocation name arguments context env
  else app.failure .unavailable context.requestId

/-- `_error_outcome`. -/
def errorOutcome : ErrorCode → RuntimeOutcome
  | .forbidden => .policyRefusal
  | .timeout => .timeout
  | .cancelled => .cancellation
  | .overloaded => .overload
  | .unavailable => .dependencyOutage
  | .invalidInput => .invalidInput
  | .resultTooLarge => .limitExceeded
  | _ => .toolFailure

/-- `_result_outcome`. -/
def resultOutcome : InvocationResult Json → RuntimeOutcome
  | .success _ => .success
  | .failure error => errorOutcome error.code

/-- The duration that is recorded of a call. -/
def durationSeconds (env : InvokeEnv ω) : PyFloat :=
  (PyFloat.finite 0).max (env.finishedAt.sub app.rounding env.startedAt)

/-- The checks of `record_call`. -/
def recordCall (toolName : Option Text) (durationSeconds : PyFloat) : Except PyException Unit := do
  if ∃ name ∈ toolName, ¬ isDimension name then
    throw .valueError
  if ¬ isDuration durationSeconds then
    throw .valueError

/-- `Application.invoke`. -/
def invoke (name : Text) (arguments : List (Text × Json)) (context : CallContext)
    (env : InvokeEnv ω) : Except PyException (InvocationResult Json) := do
  let toolName := (app.catalog.get name).map fun tool => tool.metadata.name
  let result := app.invokeResult name arguments context env
  let duration := app.durationSeconds env
  recordCall toolName duration
  let _event ← orValueError (RuntimeLogEvent.create app.serverName
    (app.safeRequestId context.requestId) (env.traceId.map Subtype.val) .toolCall toolName
    (resultOutcome result) duration)
  return result

/-! ## Totality -/

variable {app} {name : Text} {arguments : List (Text × Json)} {context : CallContext}
  {env : InvokeEnv ω}

/-- The code of a failure that an exception is mapped to. -/
theorem mappedFailure_eq (error : PyException) (requestId : Text) :
    app.mappedFailure error requestId = app.failure error.kind.code requestId := rfl

/-- A redacted failure has the code of the failure and a safe request id. -/
theorem redactResult_cases (result : InvocationResult Json) (requestId : Text) :
    (∃ value, app.redactResult result requestId = .success value) ∨
      ∃ code, app.redactResult result requestId = app.failure code requestId := by
  cases result with
  | failure error => exact .inr ⟨error.code, rfl⟩
  | success value =>
    rw [redactResult]
    split
    · exact .inl ⟨_, rfl⟩
    · split_ifs
      · exact .inr ⟨_, mappedFailure_eq _ _⟩
      · exact .inr ⟨_, mappedFailure_eq _ _⟩

/-- The result of a call is a success or a failure with a safe request id. -/
theorem invokeResult_cases :
    (∃ value, app.invokeResult name arguments context env = .success value) ∨
      ∃ code, app.invokeResult name arguments context env = app.failure code context.requestId := by
  rw [invokeResult]
  split_ifs
  · rw [runInvocation]
    split
    · exact .inr ⟨_, mappedFailure_eq _ _⟩
    · exact .inr ⟨_, mappedFailure_eq _ _⟩
    · exact .inr ⟨_, mappedFailure_eq _ _⟩
    · split
      · exact redactResult_cases _ _
      · exact .inr ⟨_, mappedFailure_eq _ _⟩
  · exact .inr ⟨_, rfl⟩

/-- The name of a tool that is found is an identifier for metrics and logs. -/
theorem isDimension_toolName (app : Application hashing unicode ι ω) (name : Text) :
    ∀ t ∈ (app.catalog.get name).map fun tool => tool.metadata.name, isDimension t := by
  intro t ht
  obtain ⟨tool, -, rfl⟩ := Option.mem_map.1 ht
  exact isDimension_of_isToolName tool.metadata.name_isText.2

/-- A duration can be recorded unless the clock shows more than an hour. -/
theorem isDuration_durationSeconds (app : Application hashing unicode ι ω) (env : InvokeEnv ω) :
    isDuration (app.durationSeconds env) ↔
      PyFloat.lt (.finite maxDurationSeconds) (env.finishedAt.sub app.rounding env.startedAt) =
        false := by
  rw [durationSeconds]
  generalize env.finishedAt.sub app.rounding env.startedAt = x
  cases x with
  | finite q =>
    rw [PyFloat.max]
    by_cases hq : 0 < q
    · simp [isDuration, hq, hq.le, PyFloat.isFinite]
    · have hle : q ≤ 3600 := by linarith
      simp [isDuration, hq, hle, PyFloat.isFinite, maxDurationSeconds]
  | negZero | posInf | negInf | nan => decide +kernel

/-- A safe request id is visible unless the redacted request id is bounded text
    with the character `DEL`. -/
theorem isVisible_safeRequestId (app : Application hashing unicode ι ω) (requestId : Text) :
    isVisible (app.safeRequestId requestId) ↔
      ∀ t ∈ app.redactText requestId, IsText 256 t → 127 ∉ t := by
  have hfailed : (127 : CodePoint) ∉ redactionFailed hashing requestId := fun hmem => by
    have := val_of_mem_redactionFailed hmem
    revert this
    decide
  rw [isVisible_iff (app.isText_safeRequestId requestId), safeRequestId]
  cases app.redactText requestId with
  | none => exact ⟨fun _ _ ht => (nomatch ht), fun _ => hfailed⟩
  | some value =>
    by_cases htext : IsText 256 value
    · simp [htext]
    · simp [htext, hfailed]

/-- The call returns a result exactly when its record can be made. -/
theorem invoke_eq (app : Application hashing unicode ι ω) (name : Text)
    (arguments : List (Text × Json)) (context : CallContext) (env : InvokeEnv ω) :
    app.invoke name arguments context env =
      if isDuration (app.durationSeconds env) ∧ isVisible (app.safeRequestId context.requestId)
      then .ok (app.invokeResult name arguments context env) else .error .valueError := by
  have hname := isDimension_toolName app name
  have hrecord : ¬ ∃ t ∈ (app.catalog.get name).map fun tool => tool.metadata.name,
      ¬ isDimension t := fun ⟨t, ht, hnot⟩ => hnot (hname t ht)
  have htrace : ∀ t ∈ env.traceId.map Subtype.val, isTraceId t := fun t ht => by
    obtain ⟨traceId, -, rfl⟩ := Option.mem_map.1 ht
    exact traceId.2
  rw [invoke, recordCall, if_neg hrecord]
  by_cases hduration : isDuration (app.durationSeconds env)
  · rw [if_neg (not_not.2 hduration), RuntimeLogEvent.create]
    by_cases hvisible : isVisible (app.safeRequestId context.requestId)
    · rw [dif_pos ⟨app.serverName_isDimension, hvisible, htrace, hname, hduration⟩,
        if_pos ⟨hduration, hvisible⟩]
      rfl
    · rw [dif_neg fun h => hvisible h.2.1, if_neg fun h => hvisible h.2]
      rfl
  · rw [if_pos hduration, if_neg fun h => hduration h.1]
    rfl

/-- A request id that is safe to return: bounded text that is the redacted
    request id, or that is made of its digest. -/
def IsSafe (app : Application hashing unicode ι ω) (requestId value : Text) : Prop :=
  IsText 256 value ∧
    (app.redactText requestId = some value ∨ value = redactionFailed hashing requestId)

/-- `_safe_request_id` gives a safe request id. -/
theorem isSafe_safeRequestId (app : Application hashing unicode ι ω) (requestId : Text) :
    app.IsSafe requestId (app.safeRequestId requestId) := by
  refine ⟨app.isText_safeRequestId requestId, ?_⟩
  rw [safeRequestId]
  cases app.redactText requestId with
  | none => exact .inr rfl
  | some value =>
    by_cases htext : IsText 256 value
    · exact .inl (by simp [htext])
    · exact .inr (by simp [htext])

/-- The failures of a call have a safe request id. -/
theorem isSafe_invokeResult {error : ErrorResponse}
    (h : app.invokeResult name arguments context env = .failure error) :
    app.IsSafe context.requestId error.requestId := by
  rcases (invokeResult_cases :
    (∃ value, app.invokeResult name arguments context env = .success value) ∨ _) with ⟨value, hvalue⟩ | ⟨code, hcode⟩
  · rw [hvalue] at h
    cases h
  · rw [hcode, failure] at h
    cases h
    exact app.isSafe_safeRequestId context.requestId

/-- A call returns a result, with a safe request id where it fails, exactly when
    the clock shows at most an hour between its start and its end, and the
    redacted request id, where it is bounded text, has no character `DEL`. -/
theorem invoke_returns_iff (app : Application hashing unicode ι ω) (name : Text)
    (arguments : List (Text × Json)) (context : CallContext) (env : InvokeEnv ω) :
    (∃ result, app.invoke name arguments context env = .ok result ∧
      ∀ error, result = .failure error → app.IsSafe context.requestId error.requestId) ↔
      PyFloat.lt (.finite maxDurationSeconds) (env.finishedAt.sub app.rounding env.startedAt) =
        false ∧
      ∀ t ∈ app.redactText context.requestId, IsText 256 t → 127 ∉ t := by
  rw [← isDuration_durationSeconds, ← isVisible_safeRequestId, invoke_eq]
  constructor
  · rintro ⟨result, hresult, -⟩
    by_contra hnot
    rw [if_neg hnot] at hresult
    cases hresult
  · intro h
    exact ⟨_, if_pos h, fun error => isSafe_invokeResult⟩

end Application

/-! ## An example application -/

open Policy

/-- An application with one tool, whose inputs and outputs are its arguments. -/
def refundApplication (limits : ExecutionLimits) (h : 1 ≤ limits.maxTools) :
    Application exampleHashing asciiTable Json Json where
  catalog := refundCatalog
  executionLimits := limits
  serverName := lit "refunds"
  redactText := some
  redact value := .ok (some value)
  parseInput _ arguments := .ok (.obj arguments)
  serializeOutput _ output := .ok (some output)
  rounding q := .finite q
  serverName_isDimension := by decide
  tools_le := h

/-- A call in which nothing fails, and which takes no time. -/
def quietCall : InvokeEnv Json where
  state := .ready
  startedAt := .finite 0
  finishedAt := .finite 0
  race := .work
  admission := {}
  authorize _ := .ok ()
  attempt _ := .ok (.obj [])
  pause _ := ⟨false, false⟩
  traceId := none

/-- A call of Alice whose request id ends with `DEL`. -/
def delCall : CallContext :=
  { aliceCall with
    requestId := [97, 127]
    requestId_isText := by decide }

/-- A call with a request id that its context accepts raises `ValueError`, and so
    does one in which the clock shows more than an hour. -/
theorem invoke_raises :
    (¬ ∃ result, (refundApplication .standard (by decide)).invoke (lit "refund") [] delCall
      quietCall = .ok result) ∧
    ¬ ∃ result, (refundApplication .standard (by decide)).invoke (lit "refund") [] aliceCall
      { quietCall with finishedAt := .finite 3601 } = .ok result := by
  constructor
  · rintro ⟨result, hresult⟩
    rw [Application.invoke_eq, if_neg fun h => absurd h.2 (by decide +kernel)] at hresult
    cases hresult
  · rintro ⟨result, hresult⟩
    rw [Application.invoke_eq, if_neg fun h => absurd h.1 (by decide +kernel)] at hresult
    cases hresult

end McpRuntime
