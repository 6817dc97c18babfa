import McpRuntime.Contracts
import Mathlib.Tactic.NormNum

/-!
# Execution limits

The limits of an execution controller, each within its hard maximum, and the
deadline they give to a call.
-/

namespace McpRuntime

/-- The limits of an execution controller, within `_INTEGER_MAXIMA` and
    `_DURATION_MAXIMA`. -/
structure ExecutionLimits where
  maxInputBytes : ℕ := 65536
  maxResultBytes : ℕ := 524288
  maxJsonDepth : ℕ := 16
  maxObjectProperties : ℕ := 128
  maxArrayItems : ℕ := 1024
  maxJsonNodes : ℕ := 4096
  maxTools : ℕ := 128
  maxGlobalConcurrency : ℕ := 64
  maxServerConcurrency : ℕ := 64
  maxToolConcurrency : ℕ := 32
  maxTenantConcurrency : ℕ := 16
  maxAttempts : ℕ := 3
  maxCallSeconds : ℚ := 30
  maxToolSeconds : ℚ := 30
  cancellationGraceSeconds : ℚ := 1
  retryBaseDelaySeconds : ℚ := 1 / 20
  retryMaxDelaySeconds : ℚ := 1 / 2
  maxInputBytes_within : 1 ≤ maxInputBytes ∧ maxInputBytes ≤ 65536 := by decide
  maxResultBytes_within : 1 ≤ maxResultBytes ∧ maxResultBytes ≤ 524288 := by decide
  maxJsonDepth_within : 1 ≤ maxJsonDepth ∧ maxJsonDepth ≤ 32 := by decide
  maxObjectProperties_within : 1 ≤ maxObjectProperties ∧ maxObjectProperties ≤ 256 := by decide
  maxArrayItems_within : 1 ≤ maxArrayItems ∧ maxArrayItems ≤ 4096 := by decide
  maxJsonNodes_within : 1 ≤ maxJsonNodes ∧ maxJsonNodes ≤ 16384 := by decide
  maxTools_within : 1 ≤ maxTools ∧ maxTools ≤ 128 := by decide
  maxGlobalConcurrency_within : 1 ≤ maxGlobalConcurrency ∧ maxGlobalConcurrency ≤ 256 := by decide
  maxServerConcurrency_within : 1 ≤ maxServerConcurrency ∧ maxServerConcurrency ≤ 256 := by decide
  maxToolConcurrency_within : 1 ≤ maxToolConcurrency ∧ maxToolConcurrency ≤ 128 := by decide
  maxTenantConcurrency_within : 1 ≤ maxTenantConcurrency ∧ maxTenantConcurrency ≤ 64 := by decide
  maxAttempts_within : 1 ≤ maxAttempts ∧ maxAttempts ≤ 5 := by decide
  maxCallSeconds_within : 0 < maxCallSeconds ∧ maxCallSeconds ≤ 300 := by norm_num
  maxToolSeconds_within : 0 < maxToolSeconds ∧ maxToolSeconds ≤ 300 := by norm_num
  cancellationGraceSeconds_within : 0 < cancellationGraceSeconds ∧ cancellationGraceSeconds ≤ 5 := by norm_num
  retryBaseDelaySeconds_within : 0 < retryBaseDelaySeconds ∧ retryBaseDelaySeconds ≤ 1 := by norm_num
  retryMaxDelaySeconds_within : 0 < retryMaxDelaySeconds ∧ retryMaxDelaySeconds ≤ 5 := by norm_num
  retry_le : retryBaseDelaySeconds ≤ retryMaxDelaySeconds := by norm_num

namespace ExecutionLimits

/-- The limits of a controller that configures none. -/
def standard : ExecutionLimits := {}

/-- The limits of a controller that runs one call at a time. -/
def oneCall : ExecutionLimits where
  maxGlobalConcurrency := 1

/-- The deadline that `bounded_context` gives to a call: the earliest of the
    call limit, the tool limit and the deadline of the context. -/
def boundedDeadline (limits : ExecutionLimits) (rnd : Rounding) (now : PyFloat)
    (context : CallContext) : PyFloat :=
  ((PyFloat.add rnd now (.finite limits.maxCallSeconds)).min
    (PyFloat.add rnd now (.finite limits.maxToolSeconds))).min
      (match context.deadline with
        | some deadline => .finite deadline
        | none => .posInf)

end ExecutionLimits

end McpRuntime
