import McpRuntime.Application.Invoke
import Mathlib.Data.List.Chain
import Mathlib.Tactic.Positivity

/-!
# Retries

`ExecutionController.retry` calls a handler again after a failure that may pass. It
waits between two attempts, for a time that doubles with each of them and has a
jitter of its own for each request.

The clock is ideal: an attempt takes the time it takes, a delay takes exactly as
long as it says, and nothing else takes any.

* `Retry.run` is a call of `retry`, with everything it does on the way: its calls
  of the handler and its delays, each with the time of its start. Its result is
  that of `retry` for the pauses that this clock gives (`run_result`).
* `Retry.Disciplined`: the attempts are numbered, one follows another only
  after a transient failure and before the deadline, and the delays are in range.
* `Application.retry_disciplined`: every run is disciplined, and has more than one
  attempt only where the call is safe to retry; in a call of a tool that does not
  only read, this takes an idempotency key.
-/

namespace McpRuntime

/-! ## Delays -/

/-- The first of the bytes of a digest. -/
def Digest.firstByte (digest : Digest) : ℕ :=
  match digest.text with
  | high :: low :: _ => 16 * hexValue high + hexValue low
  | _ => 0

/-- `_retry_delay`, which raises `UnicodeEncodeError` for a request id that UTF-8
    cannot encode. -/
def ExecutionLimits.retryDelay (limits : ExecutionLimits) (hashing : Hashing) (requestId : Text)
    (attempt : ℕ) : Option ℚ :=
  if requestId.Encodable then
    let sample := (hashing.sha256 (requestId ++ 58 :: natText attempt)).firstByte
    let jitter := 1 / 2 + (sample : ℚ) / 255
    let exponential := limits.retryBaseDelaySeconds * 2 ^ (attempt - 1) * jitter
    some (min limits.retryMaxDelaySeconds exponential)
  else none

/-- A delay is positive, and at most the configured maximum. -/
theorem ExecutionLimits.retryDelay_within {limits : ExecutionLimits} {hashing : Hashing}
    {requestId : Text} {attempt : ℕ} {delay : ℚ}
    (h : limits.retryDelay hashing requestId attempt = some delay) :
    0 < delay ∧ delay ≤ limits.retryMaxDelaySeconds := by
  rw [retryDelay] at h
  split_ifs at h
  cases h
  have hmax := limits.retryMaxDelaySeconds_within.1
  have hbase := limits.retryBaseDelaySeconds_within.1
  have hjitter (sample : ℕ) : (0 : ℚ) < 1 / 2 + (sample : ℚ) / 255 := by positivity
  exact ⟨lt_min hmax (mul_pos (mul_pos hbase (by positivity)) (hjitter _)), min_le_left _ _⟩

namespace Retry

/-- An attempt of the handler. -/
structure Attempt (ω : Type) where
  outcome : Except PyException ω
  duration : ℚ
  /-- The call is cancelled during the delay that follows the attempt. -/
  cancelled : Bool
  duration_nonneg : 0 ≤ duration

/-- A call of the handler. -/
structure HandlerCall (ω : Type) where
  attempt : ℕ
  startedAt : ℚ
  outcome : Except PyException ω

/-- What a run does. -/
inductive Event (ω : Type)
  | call (call : HandlerCall ω)
  | sleep (startedAt delay : ℚ)

variable {ω : Type}

/-- The calls of the handler. -/
def calls (events : List (Event ω)) : List (HandlerCall ω) :=
  events.filterMap fun
    | .call call => some call
    | .sleep _ _ => none

/-- The delays. -/
def delays (events : List (Event ω)) : List ℚ :=
  events.filterMap fun
    | .call _ => none
    | .sleep _ delay => some delay

@[simp] theorem calls_nil : calls ([] : List (Event ω)) = [] := rfl

@[simp] theorem calls_call (call : HandlerCall ω) (events : List (Event ω)) :
    calls (.call call :: events) = call :: calls events := rfl

@[simp] theorem calls_sleep (startedAt delay : ℚ) (events : List (Event ω)) :
    calls (.sleep startedAt delay :: events) = calls events := rfl

@[simp] theorem delays_nil : delays ([] : List (Event ω)) = [] := rfl

@[simp] theorem delays_call (call : HandlerCall ω) (events : List (Event ω)) :
    delays (.call call :: events) = delays events := rfl

@[simp] theorem delays_sleep (startedAt delay : ℚ) (events : List (Event ω)) :
    delays (.sleep startedAt delay :: events) = delay :: delays events := rfl

/-- A call may be tried again at a time: there is a deadline, and it is later. -/
def MayStart (context : CallContext) (time : ℚ) : Prop := ∃ deadline ∈ context.deadline, time < deadline

instance (context : CallContext) (time : ℚ) : Decidable (MayStart context time) :=
  match h : context.deadline with
  | none => .isFalse (by simp [MayStart, h])
  | some deadline => decidable_of_iff (time < deadline) (by simp [MayStart, h])

/-- A failure that may pass. -/
def IsTransientFailure (outcome : Except PyException ω) : Prop :=
  ∃ error, outcome = .error error ∧ error.kind.isTransient

/-! ## A run of `retry` -/

section Run

variable (limits : ExecutionLimits) (hashing : Hashing) (context : CallContext)
  (handler : ℕ → Attempt ω)

/-- The loop of `retry`, from the attempt `attempt` on, which starts at `now` and
    which `remaining` others may follow. -/
def loop (attempt : ℕ) (now : ℚ) : ℕ → List (Event ω) × Except PyException ω
  | 0 =>
    let outcome := (handler attempt).outcome
    ([.call ⟨attempt, now, outcome⟩], outcome)
  | remaining + 1 =>
    let outcome := (handler attempt).outcome
    let call := Event.call ⟨attempt, now, outcome⟩
    match outcome with
    | .ok value => ([call], .ok value)
    | .error error =>
      if error.kind.isTransient then
        match limits.retryDelay hashing context.requestId attempt with
        | none => ([call], .error .valueError)
        | some delay =>
          let failedAt := now + (handler attempt).duration
          if ¬ MayStart context (failedAt + delay) then ([call], .error .timeoutError)
          else
            let sleep := Event.sleep failedAt delay
            if (handler attempt).cancelled then ([call, sleep], .error .cancelledError)
            else
              let rest := loop (attempt + 1) (failedAt + delay) remaining
              (call :: sleep :: rest.1, rest.2)
      else ([call], .error error)

/-- `ExecutionController.retry`, which is called at `now`. -/
def run (safe : Bool) (now : ℚ) : List (Event ω) × Except PyException ω :=
  loop limits hashing context handler 1 now ((if safe then limits.maxAttempts else 1) - 1)

variable {limits hashing context handler} {attempt : ℕ} {now : ℚ} {remaining : ℕ}

variable (limits hashing context handler) in
/-- What a loop does: it ends with its first attempt, or with the delay after it, or
    it goes on with the next attempt, after a transient failure and at a time before
    the deadline. -/
theorem loop_cases (attempt : ℕ) (now : ℚ) (remaining : ℕ) :
    let outcome := (handler attempt).outcome
    let events := (loop limits hashing context handler attempt now remaining).1
    let call := Event.call ⟨attempt, now, outcome⟩
    events = [call] ∨
      ∃ startedAt delay, IsTransientFailure outcome ∧ now ≤ startedAt ∧
        0 < delay ∧ delay ≤ limits.retryMaxDelaySeconds ∧
        (events = [call, .sleep startedAt delay] ∨
          MayStart context (startedAt + delay) ∧ ∃ n, remaining = n + 1 ∧
            events = call :: .sleep startedAt delay ::
              (loop limits hashing context handler (attempt + 1) (startedAt + delay) n).1) := by
  cases remaining with
  | zero => exact .inl rfl
  | succ n =>
    rw [loop]
    cases houtcome : (handler attempt).outcome with
    | ok value => exact .inl rfl
    | error error =>
      by_cases htransient : error.kind.isTransient
      · cases hdelay : limits.retryDelay hashing context.requestId attempt with
        | none => exact .inl (by simp [htransient])
        | some delay =>
          obtain ⟨hpos, hle⟩ := ExecutionLimits.retryDelay_within hdelay
          by_cases hstart : MayStart context (now + (handler attempt).duration + delay)
          -- The attempt took some time, and the delay begins when it has failed.
          · have hnow : now ≤ now + (handler attempt).duration :=
              le_add_of_nonneg_right (handler attempt).duration_nonneg
            refine .inr ⟨_, delay, ⟨error, rfl, htransient⟩, hnow, hpos, hle, ?_⟩
            cases hcancelled : (handler attempt).cancelled with
            | true => exact .inl (by simp [htransient, hstart])
            | false => exact .inr ⟨hstart, n, rfl, by simp [htransient, hstart]⟩
          · exact .inl (by simp [htransient, hstart])
      · exact .inl (by simp [htransient])

variable (limits hashing context handler) in
/-- A loop starts with its first attempt. -/
theorem calls_loop (attempt : ℕ) (now : ℚ) (remaining : ℕ) :
    ∃ rest, calls (loop limits hashing context handler attempt now remaining).1 =
      ⟨attempt, now, (handler attempt).outcome⟩ :: rest := by
  obtain h | ⟨_, _, -, -, -, -, h | ⟨-, _, -, h⟩⟩ :=
    loop_cases limits hashing context handler attempt now remaining
  all_goals rw [h]; exact ⟨_, rfl⟩

variable (limits hashing context handler) in
/-- A loop makes at most the attempts that remain, after its first. -/
theorem length_calls_loop (attempt : ℕ) (now : ℚ) (remaining : ℕ) :
    (calls (loop limits hashing context handler attempt now remaining).1).length ≤
      remaining + 1 := by
  induction remaining generalizing attempt now with
  | zero => exact le_rfl
  | succ n ih =>
    obtain h | ⟨startedAt, delay, -, -, -, -, h | ⟨-, m, hm, h⟩⟩ :=
      loop_cases limits hashing context handler attempt now (n + 1)
    · simp [h]
    · simp [h]
    · cases hm
      rw [h, calls_call, calls_sleep, List.length_cons]
      exact Nat.succ_le_succ (ih (attempt + 1) (startedAt + delay))

end Run

/-! ## Discipline -/

/-- `next` is the attempt after `call`, which has failed transiently. -/
def Follows (call next : HandlerCall ω) : Prop :=
  next.attempt = call.attempt + 1 ∧ call.startedAt < next.startedAt ∧
    IsTransientFailure call.outcome

/-- What retries keep to. -/
structure Disciplined (limits : ExecutionLimits) (context : CallContext) (handler : ℕ → Attempt ω)
    (events : List (Event ω)) : Prop where
  outcomes : ∀ call ∈ calls events, call.outcome = (handler call.attempt).outcome
  /-- There is another attempt only after a transient failure. -/
  follows : (calls events).IsChain Follows
  /-- Every other attempt starts before the deadline. -/
  starts : ∀ call ∈ (calls events).tail, MayStart context call.startedAt
  delays : ∀ delay ∈ delays events, 0 < delay ∧ delay ≤ limits.retryMaxDelaySeconds

namespace Disciplined

variable {limits : ExecutionLimits} {hashing : Hashing} {context : CallContext}
  {handler : ℕ → Attempt ω}

/-- One attempt is disciplined. -/
theorem one (attempt : ℕ) (now : ℚ) :
    Disciplined limits context handler [.call ⟨attempt, now, (handler attempt).outcome⟩] where
  outcomes := by simp
  follows := by simp
  starts := by simp
  delays := by simp

/-- One attempt with a delay is disciplined. -/
theorem delayed (attempt : ℕ) (now startedAt : ℚ) {delay : ℚ} (hpos : 0 < delay)
    (hle : delay ≤ limits.retryMaxDelaySeconds) :
    Disciplined limits context handler
      [.call ⟨attempt, now, (handler attempt).outcome⟩, .sleep startedAt delay] where
  outcomes := by simp
  follows := by simp
  starts := by simp
  delays := by simp [hpos, hle]

/-- An attempt before others, after which there is a delay, is disciplined. -/
theorem cons {attempt : ℕ} {now startedAt delay : ℚ} {events : List (Event ω)}
    {next : HandlerCall ω} {rest : List (HandlerCall ω)}
    (h : Disciplined limits context handler events) (hnext : calls events = next :: rest)
    (hfollows : Follows ⟨attempt, now, (handler attempt).outcome⟩ next)
    (hstart : MayStart context next.startedAt) (hpos : 0 < delay)
    (hle : delay ≤ limits.retryMaxDelaySeconds) :
    Disciplined limits context handler
      (.call ⟨attempt, now, (handler attempt).outcome⟩ :: .sleep startedAt delay :: events) where
  outcomes := by
    rw [calls_call, calls_sleep]
    exact List.forall_mem_cons.2 ⟨rfl, h.outcomes⟩
  follows := by
    have hchain := h.follows
    rw [calls_call, calls_sleep]
    rw [hnext] at hchain ⊢
    exact .cons_cons hfollows hchain
  starts := by
    have hstarts := h.starts
    rw [calls_call, calls_sleep, List.tail_cons]
    rw [hnext] at hstarts ⊢
    exact List.forall_mem_cons.2 ⟨hstart, hstarts⟩
  delays := List.forall_mem_cons.2 ⟨⟨hpos, hle⟩, h.delays⟩

/-- A loop is disciplined. -/
theorem loop (attempt : ℕ) (now : ℚ) (remaining : ℕ) :
    Disciplined limits context handler
      (loop limits hashing context handler attempt now remaining).1 := by
  induction remaining generalizing attempt now with
  | zero => exact one attempt now
  | succ n ih =>
    obtain h | ⟨startedAt, delay, hfailure, hnow, hpos, hle, h | ⟨hstart, m, hm, h⟩⟩ :=
      loop_cases limits hashing context handler attempt now (n + 1)
    · exact h ▸ one attempt now
    · exact h ▸ delayed attempt now startedAt hpos hle
    · cases hm
      obtain ⟨rest, hrest⟩ :=
        calls_loop limits hashing context handler (attempt + 1) (startedAt + delay) n
      have hlater : now < startedAt + delay := by linarith
      rw [h]
      exact (ih (attempt + 1) (startedAt + delay)).cons hrest ⟨rfl, hlater, hfailure⟩ hstart hpos hle

end Disciplined

/-! ## The result of a run -/

section Result

variable (limits : ExecutionLimits) (hashing : Hashing) (context : CallContext)
  (handler : ℕ → Attempt ω) (now : ℚ)

/-- The start of the attempt after `n` others, each of which has been followed by its
    delay. -/
def startedAt : ℕ → ℚ
  | 0 => now
  | n + 1 =>
    startedAt n + (handler (n + 1)).duration +
      (limits.retryDelay hashing context.requestId (n + 1)).getD 0

/-- What the call finds out between an attempt and the next. -/
def pause (attempt : ℕ) : Pause where
  late := ¬ MayStart context (startedAt limits hashing context handler now attempt)
  cancelled := (handler attempt).cancelled

variable {limits hashing context handler now}

/-- The result of a loop is that of the attempts with the pauses between them. -/
theorem loop_result (n remaining : ℕ) :
    (loop limits hashing context handler (n + 1) (startedAt limits hashing context handler now n)
      remaining).2 =
      retry context (fun attempt => (handler attempt).outcome)
        (pause limits hashing context handler now) (n + 1) remaining := by
  induction remaining generalizing n with
  | zero => rfl
  | succ remaining ih =>
    rw [loop, retry]
    cases (handler (n + 1)).outcome with
    | ok value => rfl
    | error error =>
      by_cases htransient : error.kind.isTransient
      · by_cases hencodable : context.requestId.Encodable
        -- Only an identifier that has an encoding can be hashed into a delay.
        · obtain ⟨delay, hdelay⟩ : ∃ delay,
              limits.retryDelay hashing context.requestId (n + 1) = some delay :=
            ⟨_, if_pos hencodable⟩
          have hstart : startedAt limits hashing context handler now (n + 1) =
              startedAt limits hashing context handler now n + (handler (n + 1)).duration + delay := by
            rw [startedAt, hdelay, Option.getD_some]
          have ih := ih (n + 1)
          rw [hstart] at ih
          simp only [htransient, hdelay, hencodable, pause, hstart, if_true, not_true_eq_false,
            if_false, decide_eq_true_eq]
          by_cases hmay : MayStart context (startedAt limits hashing context handler now n +
            (handler (n + 1)).duration + delay)
          · simp only [hmay, not_true_eq_false, if_false]
            cases (handler (n + 1)).cancelled with
            | true => rfl
            | false => exact ih
          · simp only [hmay, not_false_eq_true, if_true]
        · have hdelay : limits.retryDelay hashing context.requestId (n + 1) = none :=
            if_neg hencodable
          simp only [htransient, hdelay, hencodable, if_true, not_false_eq_true]
      · simp only [htransient, Bool.false_eq_true, if_false]

end Result

variable {limits : ExecutionLimits} {hashing : Hashing} {context : CallContext}
  {handler : ℕ → Attempt ω} {now : ℚ}

/-- The result of a run is that of the attempts with the pauses between them. -/
theorem run_result (safe : Bool) :
    (run limits hashing context handler safe now).2 =
      retry context (fun attempt => (handler attempt).outcome)
        (pause limits hashing context handler now) 1
        ((if safe then limits.maxAttempts else 1) - 1) :=
  loop_result 0 _

/-- A run is disciplined. -/
theorem disciplined_run (safe : Bool) :
    Disciplined limits context handler (run limits hashing context handler safe now).1 :=
  .loop 1 now _

variable (limits hashing context handler now) in
/-- A run makes an attempt, and not more than its limits allow. -/
theorem length_calls_run (safe : Bool) :
    1 ≤ (calls (run limits hashing context handler safe now).1).length ∧
      (calls (run limits hashing context handler safe now).1).length ≤
        if safe then limits.maxAttempts else 1 := by
  constructor
  · obtain ⟨rest, hrest⟩ := calls_loop limits hashing context handler 1 now
      ((if safe then limits.maxAttempts else 1) - 1)
    rw [run, hrest, List.length_cons]
    omega
  · have hlength := length_calls_loop limits hashing context handler 1 now
      ((if safe then limits.maxAttempts else 1) - 1)
    have hmax := limits.maxAttempts_within.1
    rw [run]
    split_ifs at hlength ⊢
    · omega
    · exact hlength

end Retry

/-! ## The handler of a call -/

namespace Application

open Retry

variable {hashing : Hashing} {unicode : UnicodeTable} {ι ω : Type}
  (app : Application hashing unicode ι ω)

/-- A call of the tool is safe to retry. -/
def isRetrySafe (tool : ToolDefinition) (context : CallContext) : Bool :=
  tool.metadata.effect = .read ∨
    (tool.metadata.idempotency = .required ∧ context.idempotencyKey ≠ none)

/-- The tool whose handler `_invoke` calls. -/
def authorizedTool (name : Text) (arguments : List (Text × Json)) (context : CallContext)
    (env : InvokeEnv ω) : Option ToolDefinition :=
  if ¬ isValidJsonValue hashing.writer app.executionLimits app.executionLimits.maxInputBytes
      (some (.obj arguments)) then none
  else
    match app.catalog.get name with
    | none => none
    | some tool =>
      match app.parseInput tool arguments with
      | .error _ => none
      | .ok _ =>
        match env.admission.admitCall app.executionLimits tool.metadata.name context.tenant with
        | none => none
        | some _ =>
          match env.authorize tool with
          | .error _ => none
          | .ok _ => some tool

/-- What `_invoke` does with the handler of its tool. -/
def handlerEvents (name : Text) (arguments : List (Text × Json)) (context : CallContext)
    (env : InvokeEnv ω) (handler : ℕ → Attempt ω) (now : ℚ) : List (Event ω) :=
  match app.authorizedTool name arguments context env with
  | none => []
  | some tool =>
    (run app.executionLimits hashing context handler (isRetrySafe tool context) now).1

variable {app} {name : Text} {arguments : List (Text × Json)} {context : CallContext}
  {env : InvokeEnv ω} {tool : ToolDefinition}

/-- A tool whose handler is called is that of the name. -/
theorem get_of_authorizedTool (h : app.authorizedTool name arguments context env = some tool) :
    app.catalog.get name = some tool := by
  rw [authorizedTool] at h
  split_ifs at h
  cases hget : app.catalog.get name with
  | none =>
    rw [hget] at h
    cases h
  | some found =>
    simp only [hget] at h
    split at h
    · cases h
    · split at h
      · cases h
      · split at h
        · cases h
        · exact h

/-- What a call meets, where its handler takes its time and the pauses between its
    attempts are those of the clock. -/
def timed (app : Application hashing unicode ι ω) (context : CallContext) (env : InvokeEnv ω)
    (handler : ℕ → Attempt ω) (now : ℚ) : InvokeEnv ω :=
  { env with
    attempt := fun attempt => (handler attempt).outcome
    pause := pause app.executionLimits hashing context handler now }

/-- A call whose handler is called returns what the run of the handler gives. -/
theorem invokeBounded_of_authorizedTool {handler : ℕ → Attempt ω} {now : ℚ}
    (h : app.authorizedTool name arguments context env = some tool) :
    app.invokeBounded name arguments context (app.timed context env handler now) =
      match orResultTooLarge do
        let output ← (run app.executionLimits hashing context handler
          (isRetrySafe tool context) now).2
        app.validateResult (← app.serializeOutput tool output) with
      | .ok output => .ok (.success output)
      | .error error =>
        if error.kind = .cancelledError then .error error
        else .ok (app.mappedFailure error context.requestId) := by
  have hsafe : app.executionLimits.attempts tool context =
      if isRetrySafe tool context then app.executionLimits.maxAttempts else 1 := by
    rw [ExecutionLimits.attempts]
    simp only [isRetrySafe, decide_eq_true_eq]
  -- The two functions make the same checks in the same order: the cases are those of the checks,
  -- and a check that fails leaves no tool to be called.
  rw [authorizedTool] at h
  rw [invokeBounded]
  split_ifs at h ⊢
  cases hget : app.catalog.get name with
  | none =>
    simp only [hget] at h
    cases h
  | some found =>
    simp only [hget] at h ⊢
    cases hparse : app.parseInput found arguments with
    | error error =>
      simp only [hparse] at h
      cases h
    | ok input =>
      simp only [hparse] at h ⊢
      cases hadmission : env.admission.admitCall app.executionLimits found.metadata.name
          context.tenant with
      | none =>
        simp only [hadmission] at h
        cases h
      | some admission =>
        simp only [hadmission] at h
        cases hauthorize : env.authorize found with
        | error error =>
          simp only [hauthorize] at h
          cases h
        | ok _ =>
          simp only [hauthorize, Option.some.injEq] at h
          cases h
          rw [run_result, ← hsafe]
          simp only [callTool, timed, hadmission, hauthorize]
          rfl

/-- Retries are disciplined. A run calls the handler once, or up to `max_attempts`
    times where the call is safe to retry; it calls it again only after a
    transient failure and before the deadline; and its delays are positive and at
    most the configured maximum. A call calls the handler of a tool that does not
    only read more than once only with an idempotency key. -/
theorem retry_disciplined (app : Application hashing unicode ι ω) (context : CallContext)
    (handler : ℕ → Attempt ω) (now : ℚ) :
    (∀ limits : ExecutionLimits, ∀ safe : Bool,
      let events := (run limits hashing context handler safe now).1
      1 ≤ (calls events).length ∧
        (calls events).length ≤ (if safe then limits.maxAttempts else 1) ∧
        Disciplined limits context handler events) ∧
      ∀ name arguments env, ∀ tool ∈ app.catalog.get name, tool.metadata.effect ≠ .read →
        1 < (calls (app.handlerEvents name arguments context env handler now)).length →
        context.idempotencyKey ≠ none := by
  refine ⟨fun limits safe => ?_, fun name arguments env tool htool heffect hcalls => ?_⟩
  · have hlength := length_calls_run limits hashing context handler now safe
    exact ⟨hlength.1, hlength.2, disciplined_run safe⟩
  · rw [handlerEvents] at hcalls
    cases hauthorized : app.authorizedTool name arguments context env with
    | none =>
      rw [hauthorized] at hcalls
      cases hcalls
    | some found =>
      have hfound := get_of_authorizedTool hauthorized
      rw [Option.mem_def.1 htool, Option.some.injEq] at hfound
      cases hfound
      have hlength := (length_calls_run app.executionLimits hashing context handler now
        (isRetrySafe tool context)).2
      by_contra hkey
      have hunsafe : isRetrySafe tool context = false := by simp [isRetrySafe, heffect, hkey]
      simp only [hauthorized, hunsafe] at hcalls hlength
      exact absurd hcalls (by simpa using hlength)

/-- A handler that fails twice, each time after a second, is called a third time
    where the call is safe to retry. -/
example :
    let handler (attempt : ℕ) : Attempt ℕ :=
      { outcome := if attempt ≤ 2 then .error ⟨.connectionError, lit "ConnectionError"⟩ else .ok 7
        duration := 1
        cancelled := false
        duration_nonneg := by decide }
    let context := { aliceCall with deadline := some 10, deadline_nonneg := by simp }
    (calls (run .standard Policy.exampleHashing context handler true 0).1).map
        HandlerCall.attempt = [1, 2, 3] ∧
      (calls (run .standard Policy.exampleHashing context handler false 0).1).map
        HandlerCall.attempt = [1] := by
  decide +kernel

end Application

end McpRuntime
