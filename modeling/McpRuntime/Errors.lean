import McpRuntime.Contracts

/-!
# Exceptions and the errors they are mapped to

An exception is its kind, which decides how it is handled, and the name of its
type. `mapException` maps it to a stable public failure, with an audit identity
that never holds the text of the exception.
-/

namespace McpRuntime

/-- What the handlers of the runtime tell apart. -/
inductive ExceptionKind
  /-- `RuntimeFailure`, with its code. -/
  | runtimeFailure (code : ErrorCode)
  | timeoutError
  | connectionError
  /-- `CancelledError`, which is no `Exception`. -/
  | cancelledError
  | keyError
  | typeError
  /-- `ValueError`, of which `UnicodeEncodeError` is a subclass. -/
  | valueError
  /-- `ExecutionLimitExceeded`, a subclass of `ValueError`. -/
  | executionLimitExceeded
  /-- Any other `Exception`. -/
  | other
  deriving DecidableEq

/-- An exception. -/
structure PyException where
  kind : ExceptionKind
  typeName : Text
  deriving DecidableEq

namespace PyException

/-- `RuntimeFailure(code)`. -/
def runtimeFailure (code : ErrorCode) : PyException := ⟨.runtimeFailure code, lit "RuntimeFailure"⟩

/-- `ValueError`. -/
def valueError : PyException := ⟨.valueError, lit "ValueError"⟩

/-- `ExecutionLimitExceeded`. -/
def executionLimitExceeded : PyException := ⟨.executionLimitExceeded, lit "ExecutionLimitExceeded"⟩

/-- `TimeoutError`. -/
def timeoutError : PyException := ⟨.timeoutError, lit "TimeoutError"⟩

/-- `OverflowError`. -/
def overflowError : PyException := ⟨.other, lit "OverflowError"⟩

/-- `asyncio.CancelledError`. -/
def cancelledError : PyException := ⟨.cancelledError, lit "CancelledError"⟩

end PyException

/-- The value, or `ValueError`. -/
def orValueError {α : Type} : Option α → Except PyException α
  | some a => .ok a
  | none => .error .valueError

/-- There is a value where no `ValueError` is raised. -/
theorem orValueError_eq_ok {α : Type} {x : Option α} {a : α} :
    orValueError x = .ok a ↔ x = some a := by
  cases x with
  | none => exact ⟨nofun, nofun⟩
  | some b => exact ⟨fun h => congrArg some (Except.ok.inj h), fun h => congrArg _ (Option.some.inj h)⟩

/-- `_EXCEPTION_TYPE`. -/
def isExceptionType : Text → Bool :=
  matchesName (fun c => (c.isAlphanumeric && !c.isDigit) || c = 95)
    (fun c => c.isAlphanumeric || c = 95) 256

/-- The name of a type in an audit identity: a bounded name of a type. -/
def safeTypeName (name : Text) : Text := if isExceptionType name then name else lit "Exception"

/-- The name in an audit identity is a bounded name of a type. -/
theorem isExceptionType_safeTypeName (name : Text) : isExceptionType (safeTypeName name) := by
  rw [safeTypeName]
  split_ifs with h
  · exact h
  · decide

/-- Audit-safe failure identity. -/
structure ScrubbedError where
  code : ErrorCode
  exceptionType : Text
  requestId : Text
  isText : IsText 256 requestId
  isType : isExceptionType exceptionType

/-- The code of an exception in `map_exception`. -/
def ExceptionKind.code : ExceptionKind → ErrorCode
  | runtimeFailure code => code
  | timeoutError => .timeout
  | cancelledError => .cancelled
  | _ => .internalFailure

/-- Public failure data with its audit identity. -/
structure MappedError where
  response : ErrorResponse
  audit : ScrubbedError
  code_eq : response.code = audit.code
  requestId_eq : response.requestId = audit.requestId

/-- `map_exception`, of a request id that is bounded text. -/
def mapException (error : PyException) (requestId : Text) (h : IsText 256 requestId) :
    MappedError where
  response := ⟨error.kind.code, requestId, h⟩
  audit := ⟨error.kind.code, safeTypeName error.typeName, requestId, h,
    isExceptionType_safeTypeName error.typeName⟩
  code_eq := rfl
  requestId_eq := rfl

end McpRuntime
