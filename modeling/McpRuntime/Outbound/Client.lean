import McpRuntime.Contracts
import Mathlib.Tactic.NormNum

/-!
# The outbound client

What the parts of the outbound HTTP client share: the destinations of the
egress policy, the limits of a client with their hard maxima, and the outcome
of a request that was admitted.
-/

namespace McpRuntime.Outbound

/-- An outbound destination: a canonical host and a port. -/
structure EgressDestination where
  host : Text
  port : ℕ := 443
  port_pos : 1 ≤ port := by decide
  port_le : port ≤ 65535 := by decide
  deriving DecidableEq

/-- A destination, for runs on fixed inputs. -/
def billing : EgressDestination := { host := lit "billing.example" }

/-- Another destination. -/
def search : EgressDestination := { host := lit "search.example" }

/-- The limits of a client, each within its hard maximum. -/
structure OutboundHTTPLimits where
  maxRequestBytes : ℕ := 262144
  maxResponseBytes : ℕ := 1048576
  maxRedirects : ℕ := 3
  requestTimeout : ℚ := 10
  maxConnections : ℕ := 32
  maxHeaders : ℕ := 64
  maxHeaderBytes : ℕ := 32768
  circuitFailureThreshold : ℕ := 5
  circuitRecoverySeconds : ℚ := 5
  maxCircuitDestinations : ℕ := 64
  maxRequestBytes_range : 0 < maxRequestBytes ∧ maxRequestBytes ≤ 1048576 := by decide
  maxResponseBytes_range : 0 < maxResponseBytes ∧ maxResponseBytes ≤ 1048576 := by decide
  maxRedirects_le : maxRedirects ≤ 10 := by decide
  requestTimeout_range : 0 < requestTimeout ∧ requestTimeout ≤ 30 := by norm_num
  maxConnections_range : 0 < maxConnections ∧ maxConnections ≤ 256 := by decide
  maxHeaders_range : 0 < maxHeaders ∧ maxHeaders ≤ 128 := by decide
  maxHeaderBytes_range : 0 < maxHeaderBytes ∧ maxHeaderBytes ≤ 65536 := by decide
  circuitFailureThreshold_range :
    0 < circuitFailureThreshold ∧ circuitFailureThreshold ≤ 100 := by decide
  circuitRecoverySeconds_range :
    0 < circuitRecoverySeconds ∧ circuitRecoverySeconds ≤ 300 := by norm_num
  maxCircuitDestinations_range :
    0 < maxCircuitDestinations ∧ maxCircuitDestinations ≤ 256 := by decide

/-- The limits of a client that configures none. -/
def OutboundHTTPLimits.standard : OutboundHTTPLimits := {}

/-- A client whose circuits open at the first failure. -/
def eagerLimits : OutboundHTTPLimits := { circuitFailureThreshold := 1 }

/-- A client with a single place in its table. -/
def narrowLimits : OutboundHTTPLimits := { maxCircuitDestinations := 1 }

/-- How the sends of an admitted request end. -/
inductive RequestOutcome
  /-- A response with a status. -/
  | response (status : ℕ)
  /-- `OutboundHTTPError`. -/
  | outboundError (code : ErrorCode)
  /-- `EgressPolicyViolation`. -/
  | egressPolicyViolation
  /-- `TimeoutError`, or a timeout of the HTTP library. -/
  | timeout
  /-- `RedactionError`. -/
  | redactionError
  /-- Any other `Exception`. -/
  | exception
  /-- `CancelledError`, which is not an `Exception`. -/
  | cancelled
  deriving DecidableEq

end McpRuntime.Outbound
