import McpRuntime.Machine
import McpRuntime.Python.Json

/-!
# Atomic HTTP responses

The SDK answers a request of the transport through a limiter, which keeps the
messages of the response until the SDK has ended. Only then the transport sends the
buffered response; where the SDK fails, or does not end in time, it sends an answer
of its own.

* `Limiter` is the buffer (`_AtomicResponseLimiter`).
* `exchange` is the transport answering one request, as a machine: the SDK sends any
  messages at any time and ends in any way, while the request times out, is
  disconnected or is cancelled. A `send` of the server takes its time, but does not
  raise.

What is sent, and when, is the subject of `McpRuntime.Transport.Atomicity`.
-/

namespace McpRuntime.Transport

/-! ## Messages -/

/-- The bytes of an ASCII literal. -/
def bytesLit (s : String) : List UInt8 := s.toList.map fun c => UInt8.ofNat c.toNat

/-- `str(n).encode("ascii")`. -/
def decimal (n : ℕ) : List UInt8 := (Nat.toDigits 10 n).map fun c => UInt8.ofNat c.toNat

/-- `bytes.lower()`. -/
def lowerBytes (b : List UInt8) : List UInt8 := b.map fun c => if 65 ≤ c ∧ c ≤ 90 then c + 32 else c

/-- The name and the value of a header. -/
abbrev Header := List UInt8 × List UInt8

/-- A message that an ASGI application sends. -/
inductive Message
  /-- `http.response.start`, with its status, if that is an `int`, and with the
      headers, if `_response_header_pairs` accepts them. -/
  | start (status : Option ℤ) (headers : Option (List Header))
  /-- `http.response.body`, with a part of the body, if that is of bytes. -/
  | body (body : Option (List UInt8)) (moreBody : Bool)
  /-- A message of another type. -/
  | other
  deriving DecidableEq

/-- The messages of a response. -/
def Message.isResponse : Message → Bool
  | .start _ _ | .body _ _ => true
  | .other => false

/-! ## The limiter -/

/-- `_AtomicResponseLimiter`. -/
structure Limiter where
  start : Option (Option ℤ × Option (List Header)) := none
  body : List UInt8 := []
  ready : Bool := false
  committed : Bool := false
  discarded : Bool := false
  deriving DecidableEq

/-- What a call of the limiter does. -/
inductive LimiterCall
  | returns
  /-- The message is sent on. -/
  | sends (message : Message)
  /-- `TypeError`: the body is not of bytes. -/
  | typeError
  /-- `OverflowError`: the response exceeds the limit. -/
  | overflowError
  /-- `RuntimeError`: the response ends before it has started. -/
  | runtimeError
  deriving DecidableEq

namespace Limiter

variable (l : Limiter)

/-- `_AtomicResponseLimiter.__call__`. -/
def call (maximum : ℕ) (message : Message) : Limiter × LimiterCall :=
  if l.discarded then (l, .returns)
  else
    match message with
    | .start status headers => ({ l with start := some (status, headers) }, .returns)
    | .other => (l, .sends .other)
    | .body none _ => (l, .typeError)
    | .body (some chunk) moreBody =>
      if maximum < l.body.length + chunk.length then (l, .overflowError)
      else
        let l' := { l with body := l.body ++ chunk }
        if moreBody then (l', .returns)
        else if l.start.isNone then (l', .runtimeError)
        else ({ l' with ready := true }, .returns)

/-- The headers that `flush` sends. -/
def measured (headers : List Header) : List Header :=
  headers.filter (fun item => lowerBytes item.1 ≠ bytesLit "content-length") ++
    [(bytesLit "content-length", decimal l.body.length)]

/-- The first message that `flush` sends, unless it raises: the response is not
    complete, or its headers are malformed. -/
def flushed : Option Message :=
  match l.start with
  | some (status, some headers) =>
    if l.ready then some (.start status (some (l.measured headers))) else none
  | _ => none

/-- `discard`. -/
def discard : Limiter := { l with discarded := true, start := none, body := [] }

end Limiter

/-! ## The exchange -/

/-- How what is awaited ends: it returns, or it raises an `Exception`, a
    `CancelledError` or another `BaseException`. -/
inductive Ending
  | returns
  | raises
  | cancelled
  | escapes
  deriving DecidableEq

/-- An answer of the transport's own (`_send_json`). -/
structure Reply where
  status : ℤ
  body : List UInt8
  deriving DecidableEq

/-- The first message of `_send_json`. -/
def Reply.start (r : Reply) : Message :=
  .start (some r.status) (some
    [(bytesLit "content-type", bytesLit "application/json"),
      (bytesLit "content-length", decimal r.body.length),
      (bytesLit "cache-control", bytesLit "no-store")])

/-- The arguments of `_protocol_error_body`. -/
structure ProtocolError where
  code : ℤ
  message : Text
  data : Option (List (Text × Json)) := none

/-- What `_ProtocolASGIApp.__call__` awaits. -/
inductive Phase
  /-- The call context, and the admission of the session. -/
  | preflight
  /-- The SDK (`asyncio.wait`). -/
  | running
  /-- `abort_session`, after the timeout. -/
  | timedOut
  /-- `abort_session`, after the token was cancelled. -/
  | aborting
  /-- `complete_session`. -/
  | completing
  /-- `abort_session`, in the handler of an `Exception`. -/
  | recovering
  /-- `abort_session`, in the handler of a `CancelledError`. -/
  | unwinding
  /-- A `send` of `flush`: of the body, or of the message before it. -/
  | flushing (sendsBody : Bool)
  /-- A `send` of `_send_json`. -/
  | replying (reply : Reply) (sendsBody : Bool)
  /-- The call has ended. -/
  | ended (how : Ending)
  deriving DecidableEq

/-- Who has sent a message to the client. -/
inductive Origin
  /-- The SDK application, through the limiter. -/
  | application
  | transport
  deriving DecidableEq

/-- A message that was handed to the `send` of the server. -/
structure Sent where
  origin : Origin
  message : Message
  deriving DecidableEq

/-- The task of the SDK. -/
inductive SdkTask
  | absent
  | running
  | done (ending : Ending)
  deriving DecidableEq

/-- A request and its response. -/
structure Exchange where
  phase : Phase := .preflight
  limiter : Limiter := {}
  sdk : SdkTask := .absent
  /-- `cancellation.cancelled`. -/
  token : Bool := false
  /-- What was sent, in order. -/
  sent : List Sent := []
  deriving DecidableEq

/-- What an exchange depends on, with `_protocol_error_body`. -/
structure ExchangeConfig where
  maxResponseBodyBytes : ℕ
  requestId : Text
  protocolErrorBody : ProtocolError → List UInt8

namespace ExchangeConfig

variable (config : ExchangeConfig)

/-- The answer to a request that fails. -/
def internalError : Reply :=
  ⟨500, config.protocolErrorBody { code := -32603, message := lit "Internal error" }⟩

/-- The answer to a request that times out. -/
def requestTimeout : Reply :=
  ⟨504, config.protocolErrorBody
    { code := -32603
      message := lit "Request timeout"
      data := some
        [(lit "code", .str (lit "timeout")), (lit "request_id", .str config.requestId),
          (lit "retryable", .bool true)] }⟩

end ExchangeConfig

/-- An event of an exchange. -/
inductive ExchangeEvent
  /-- The context is created and the session admitted; where that raises an
      `Exception`, the answer is `reply`. -/
  | admission (ending : Ending) (reply : Reply)
  /-- The SDK, or a task it has started, sends a message. -/
  | message (message : Message)
  /-- The task of the SDK ends. -/
  | sdkEnds (ending : Ending)
  /-- The wait for the SDK returns, as its task has ended. -/
  | wake
  /-- The wait for the SDK returns, as `max_stream_seconds` have passed. -/
  | timeout
  /-- `abort_session` or `complete_session` ends. -/
  | session (ending : Ending)
  /-- A `send` returns. -/
  | sendReturns
  /-- The client disconnects, or a notification names the request. -/
  | cancelToken
  /-- The task of the request is cancelled. -/
  | cancel
  deriving DecidableEq

namespace Exchange

variable (config : ExchangeConfig) (s : Exchange)

/-- A message is handed to `send`. -/
def send (origin : Origin) (message : Message) : Exchange :=
  { s with sent := s.sent ++ [⟨origin, message⟩] }

/-- `_send_json` sends its first message. -/
def reply (r : Reply) : Exchange :=
  { s.send .transport r.start with phase := .replying r false }

/-- The handler of a `CancelledError` stops the SDK, where it still runs. -/
def interrupt : Exchange :=
  { s with token := true, limiter := if s.sdk = .running then s.limiter.discard else s.limiter }

/-- `flush` sends its first message, or its exception is handled. -/
def flush : Exchange :=
  match s.limiter.flushed with
  | none => s.reply config.internalError
  | some message =>
    { s.send .application message with
      limiter := { s.limiter with committed := true }
      phase := .flushing false }

/-- The SDK has not ended within the time. -/
def expire : Exchange :=
  { s with token := true, limiter := s.limiter.discard, phase := .timedOut }

/-- The SDK has ended within the time. -/
def wake (ending : Ending) : Exchange :=
  match ending with
  | .returns => { s with phase := if s.token then .aborting else .completing }
  | .raises => { s with phase := .recovering }
  | .cancelled => { s.interrupt with phase := .unwinding }
  | .escapes => { s with phase := .ended .escapes }

/-- `abort_session` has ended in the body of the call, which goes on to `next`. -/
def endAbort (next : Exchange) : Ending → Exchange
  | .returns => next
  | .raises => { s with phase := .recovering }
  | .cancelled => { s.interrupt with phase := .unwinding }
  | .escapes => { s with phase := .ended .escapes }

/-- `complete_session` has ended; however it has, the lease is not aborted after it. -/
def endComplete : Ending → Exchange
  | .returns => s.flush config
  | .raises => s.reply config.internalError
  | .cancelled => { s.interrupt with phase := .ended .cancelled }
  | .escapes => { s with phase := .ended .escapes }

/-- `abort_session` has ended in the handler of an `Exception`, where another one is
    suppressed. -/
def endRecovery : Ending → Exchange
  | .returns | .raises =>
    if s.limiter.committed then { s with phase := .ended .returns }
    else s.reply config.internalError
  | ending => { s with phase := .ended ending }

/-- `abort_session` has ended in the handler of a `CancelledError`, which is raised
    again. -/
def endUnwinding : Ending → Exchange
  | .returns => { s with phase := .ended .cancelled }
  | ending => { s with phase := .ended ending }

/-- `abort_session` or `complete_session` has ended. -/
def endSession (ending : Ending) : Option Exchange :=
  match s.phase with
  | .timedOut => some (s.endAbort (s.reply config.requestTimeout) ending)
  | .aborting => some (s.endAbort { s with phase := .ended .returns } ending)
  | .completing => some (s.endComplete config ending)
  | .recovering => some (s.endRecovery config ending)
  | .unwinding => some (s.endUnwinding ending)
  | _ => none

/-- A `send` has returned: the next message is sent, or the call returns. -/
def sendReturned : Option Exchange :=
  match s.phase with
  | .flushing false =>
    some { s.send .application (.body (some s.limiter.body) false) with phase := .flushing true }
  | .replying r false =>
    some { s.send .transport (.body (some r.body) false) with phase := .replying r true }
  | .flushing true | .replying _ true => some { s with phase := .ended .returns }
  | _ => none

/-- A `CancelledError` is raised where the call awaits. -/
def cancelled : Option Exchange :=
  match s.phase with
  | .running | .timedOut | .aborting => some { s.interrupt with phase := .unwinding }
  | .completing | .flushing _ => some { s.interrupt with phase := .ended .cancelled }
  | .preflight | .recovering | .unwinding | .replying _ _ => some { s with phase := .ended .cancelled }
  | .ended _ => none

end Exchange

/-- The exchange of a request with its response. -/
def exchange (config : ExchangeConfig) : Machine Exchange ExchangeEvent where
  init := {}
  step
    | s, .admission ending reply =>
      if s.phase ≠ .preflight then none
      else
        match ending with
        | .returns => some { s with phase := .running, sdk := .running }
        | .raises => some (s.reply reply)
        | ending => some { s with phase := .ended ending }
    | s, .message message =>
      if s.sdk = .absent then none
      else
        match s.limiter.call config.maxResponseBodyBytes message with
        | (limiter, .sends message) => some { s.send .application message with limiter }
        | (limiter, _) => some { s with limiter }
    | s, .sdkEnds ending =>
      if s.sdk = .running then some { s with sdk := .done ending } else none
    | s, .wake =>
      match s.phase, s.sdk with
      | .running, .done ending => some (s.wake ending)
      | _, _ => none
    | s, .timeout =>
      match s.phase, s.sdk with
      -- the wait finds the task done after all
      | .running, .done _ => none
      | .running, _ => some s.expire
      | _, _ => none
    | s, .session ending => s.endSession config ending
    | s, .sendReturns => s.sendReturned
    | s, .cancelToken => some { s with token := true }
    | s, .cancel => s.cancelled

end McpRuntime.Transport
