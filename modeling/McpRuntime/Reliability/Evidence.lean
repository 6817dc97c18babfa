import McpRuntime.Python.FloatArithmetic
import McpRuntime.Python.JsonLoads
import McpRuntime.Tool.Manifest

/-!
# Reliability evidence

The evidence of a load on one lane, as a client reports it, and the evidence that
correlates a load with what the gateway, the runtime and the pod measured in the
same window. The models accept what is valid.
-/

namespace McpRuntime

namespace Reliability

/-- `ReliabilityLane`. -/
inductive ReliabilityLane
  | inProcess
  | directHttp
  | agentgateway
  deriving DecidableEq

def ReliabilityLane.value : ReliabilityLane → Text
  | .inProcess => lit "in_process"
  | .directHttp => lit "direct_http"
  | .agentgateway => lit "agentgateway"

/-- `ReliabilityLoadKind`. -/
inductive ReliabilityLoadKind
  | sustained
  | burst
  | boundary
  deriving DecidableEq

def ReliabilityLoadKind.value : ReliabilityLoadKind → Text
  | .sustained => lit "sustained"
  | .burst => lit "burst"
  | .boundary => lit "boundary"

/-- `ReliabilityOutcome`. -/
inductive ReliabilityOutcome
  | success
  | overloaded
  | unavailable
  | timeout
  | cancelled
  | authenticationDenied
  deriving DecidableEq

/-- `Field(ge=least, le=most)` of an `int`. -/
def Within (least most n : ℕ) : Prop := least ≤ n ∧ n ≤ most

instance (least most n : ℕ) : Decidable (Within least most n) := inferInstanceAs (Decidable (_ ∧ _))

/-- `Field(ge=0, le=most)` of a `float`, or `gt` instead of `ge`: no bound is violated, which
    `nan` never does. -/
def WithinFloat (strict : Bool) (most : ℕ) (x : PyFloat) : Bool :=
  !(if strict then x.le (.finite 0) else x.lt (.finite 0)) && !(PyFloat.finite most).lt x

/-- `^sha256:[0-9a-f]{64}$` -/
def isSampleDigest (t : Text) : Bool := (lit "sha256:").isPrefixOf t && isDigest (t.drop 7)

structure ReliabilityLatency where
  p50Milliseconds : PyFloat
  p95Milliseconds : PyFloat
  p99Milliseconds : PyFloat
  maximumMilliseconds : PyFloat
  deriving DecidableEq

@[mk_iff]
structure ReliabilityLatency.Valid (latency : ReliabilityLatency) : Prop where
  bounded : ∀ x ∈ [latency.p50Milliseconds, latency.p95Milliseconds, latency.p99Milliseconds,
    latency.maximumMilliseconds], WithinFloat false 300000 x
  ordered : latency.p50Milliseconds.le latency.p95Milliseconds ∧
    latency.p95Milliseconds.le latency.p99Milliseconds ∧
    latency.p99Milliseconds.le latency.maximumMilliseconds

instance (latency : ReliabilityLatency) : Decidable latency.Valid :=
  decidable_of_iff _ latency.valid_iff.symm

structure ReliabilityLoadEvidence where
  name : Text
  lane : ReliabilityLane
  kind : ReliabilityLoadKind := .sustained
  requestBytes : ℕ
  responseBytes : ℕ
  completed : ℕ
  successful : ℕ
  outcomes : List (ReliabilityOutcome × ℕ)
  durationSeconds : PyFloat
  throughputRequestsPerSecond : PyFloat
  latency : ReliabilityLatency
  peakClientConcurrency : ℕ
  maximumQueueDepth : ℕ
  sampleDigest : Text
  deriving DecidableEq

/-- `^[a-z][a-z0-9-]*$` -/
def isPlanName (t : Text) : Bool :=
  t.head?.any CodePoint.isLower && t.all fun c => c.isLower || c.isDigit || c = 45

/-- `outcome_count`. -/
def ReliabilityLoadEvidence.outcomeCount (evidence : ReliabilityLoadEvidence)
    (outcome : ReliabilityOutcome) : ℕ :=
  ((evidence.outcomes.find? fun item => item.1 = outcome).map Prod.snd).getD 0

/-- The constraints on the fields of the evidence of a load, and `consistent_counts`. -/
@[mk_iff]
structure ReliabilityLoadEvidence.Valid (evidence : ReliabilityLoadEvidence) : Prop where
  name : evidence.name.length ≤ 128 ∧ isPlanName evidence.name
  requestBytes : Within 0 65536 evidence.requestBytes
  responseBytes : Within 0 524288 evidence.responseBytes
  completed : Within 1 100000 evidence.completed
  successful : Within 0 100000 evidence.successful
  counts : ∀ item ∈ evidence.outcomes, Within 1 100000 item.2
  duration : WithinFloat true 86400 evidence.durationSeconds
  throughput : WithinFloat true 1000000 evidence.throughputRequestsPerSecond
  latency : evidence.latency.Valid
  concurrency : Within 1 256 evidence.peakClientConcurrency
  queue : Within 0 10000 evidence.maximumQueueDepth
  sampleDigest : isSampleDigest evidence.sampleDigest
  unique : (evidence.outcomes.map Prod.fst).Nodup
  covered : (evidence.outcomes.map Prod.snd).sum = evidence.completed
  success : evidence.outcomeCount .success = evidence.successful

instance (evidence : ReliabilityLoadEvidence) : Decidable evidence.Valid :=
  decidable_of_iff _ evidence.valid_iff.symm

structure ReliabilityCorrelationEvidence where
  lane : ReliabilityLane
  kind : ReliabilityLoadKind
  windowDigest : Text
  requests : ℕ
  clientSamples : ℕ
  gatewayToolCalls : ℕ
  gatewayMetricSamples : ℕ
  runtimeSpanSamples : ℕ
  runtimeMetricSamples : ℕ
  podResourceSamples : ℕ
  clientP99Milliseconds : PyFloat
  gatewayP99Milliseconds : PyFloat
  runtimeSpanP99Milliseconds : PyFloat
  runtimeMetricP99Milliseconds : PyFloat
  podCpuMillicoresPeak : PyFloat
  podRssMebibytesPeak : PyFloat
  deriving DecidableEq

/-- The constraints on the fields of the evidence, and
    `sources_cover_the_agentgateway_window`. -/
@[mk_iff]
structure ReliabilityCorrelationEvidence.Valid (evidence : ReliabilityCorrelationEvidence) : Prop where
  windowDigest : isSampleDigest evidence.windowDigest
  counts : ∀ n ∈ [evidence.requests, evidence.clientSamples, evidence.gatewayToolCalls,
    evidence.gatewayMetricSamples, evidence.runtimeSpanSamples, evidence.runtimeMetricSamples],
      Within 1 100000 n
  podResourceSamples : Within 2 100000 evidence.podResourceSamples
  latencies : ∀ x ∈ [evidence.clientP99Milliseconds, evidence.gatewayP99Milliseconds,
    evidence.runtimeSpanP99Milliseconds, evidence.runtimeMetricP99Milliseconds],
      WithinFloat true 300000 x
  cpu : WithinFloat false 1000000 evidence.podCpuMillicoresPeak
  rss : WithinFloat true 4096 evidence.podRssMebibytesPeak
  lane : evidence.lane = .agentgateway
  covered : ∀ n ∈ [evidence.clientSamples, evidence.gatewayToolCalls, evidence.runtimeSpanSamples,
    evidence.runtimeMetricSamples], n = evidence.requests
  gateway : evidence.gatewayToolCalls ≤ evidence.gatewayMetricSamples

instance (evidence : ReliabilityCorrelationEvidence) : Decidable evidence.Valid :=
  decidable_of_iff _ evidence.valid_iff.symm

end Reliability

end McpRuntime
