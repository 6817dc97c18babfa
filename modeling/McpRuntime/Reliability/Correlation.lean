import McpRuntime.Reliability.Reports

/-!
# Correlating a window

`correlate_agentgateway_reliability_window` takes the report of the client, the metrics of the
gateway and of the runtime before and after the window, the spans of the runtime and the
samples of the pod, and makes one evidence of them. What it refuses it refuses with
`ValueError` or `TypeError`; three of its readers raise something else.

* `Correlator.correlate`: the stages, in the order of the source.
* `Correlatable`: no text that is come to is one that its reader does not refuse properly.
* `correlate_closed_iff`: a window is correlated or refused exactly when it is correlatable.
* `blank_escapes`: a snapshot of one blank.
-/

namespace McpRuntime

namespace Reliability

/-- The texts that are correlated. -/
structure CorrelationSources where
  clientReport : Text
  gatewayMetricsBefore : Text
  gatewayMetricsAfter : Text
  runtimeMetricsBefore : Text
  runtimeMetricsAfter : Text
  runtimeSpans : Text
  podResourceSamples : Text

/-- The snapshots of the metrics, in the order in which they are read, with the metrics that
    are looked for. -/
def CorrelationSources.snapshots (sources : CorrelationSources) : List (Text × List Text) :=
  [(sources.gatewayMetricsBefore, gatewayMetrics), (sources.gatewayMetricsAfter, gatewayMetrics),
    (sources.runtimeMetricsBefore, runtimeMetrics), (sources.runtimeMetricsAfter, runtimeMetrics)]

/-- What is given as the kind of a load. -/
inductive KindArgument
  | kind (kind : ReliabilityLoadKind)
  /-- An object of any other type. -/
  | other

/-- `_load_kind`. -/
def loadKind : KindArgument → Except CorrelationRaised ReliabilityLoadKind
  | .kind kind => .ok kind
  | .other => .error (.typeError (lit "kind must use the reliability load vocabulary"))

/-- What the metrics tell of a window. -/
structure WindowMetrics where
  gatewayToolCalls : ℕ
  gatewayMetricSamples : ℕ
  gatewayP99 : PyFloat
  runtimeMetricSamples : ℕ
  runtimeMetricP99 : PyFloat

/-- The labels that a call of the probe has in the metrics of the runtime. -/
def probeLabels : List (Text × Text) :=
  [(lit "operation", lit "tool_call"), (lit "tool", lit "reliability_probe")]

namespace Correlator

variable (correlator : Correlator)

/-- What is computed from the samples of the snapshots. -/
def windowMetrics (gatewayBefore gatewayAfter runtimeBefore runtimeAfter : List PrometheusSample) :
    Except CorrelationRaised WindowMetrics := do
  let gatewayToolCalls ← correlator.counterDelta gatewayBefore gatewayAfter
    (lit "agentgateway_mcp_requests_total")
    [(lit "method", lit "tools/call"), (lit "resource", lit "reliability_probe")]
  let (gatewayMetricSamples, gatewayP99) ← correlator.histogramDeltaP99 gatewayBefore gatewayAfter
    (lit "agentgateway_request_duration_seconds_bucket")
    (lit "agentgateway_request_duration_seconds_count")
    [(lit "protocol", lit "mcp"), (lit "method", lit "POST")]
  let runtimeMetricSamples ← correlator.counterDelta runtimeBefore runtimeAfter
    (lit "mcp_server_request_count_total") probeLabels
  let (runtimeHistogramSamples, runtimeMetricP99) ← correlator.histogramDeltaP99 runtimeBefore
    runtimeAfter (lit "mcp_server_request_duration_seconds_bucket")
    (lit "mcp_server_request_duration_seconds_count") probeLabels
  if runtimeHistogramSamples ≠ runtimeMetricSamples then
    .error (.valueError (lit "runtime reliability metrics disagree on sample count"))
  else
    .ok ⟨gatewayToolCalls, gatewayMetricSamples, gatewayP99, runtimeMetricSamples, runtimeMetricP99⟩

/-- The stages up to the metrics. -/
def measure (kind : ReliabilityLoadKind) (sources : CorrelationSources) :
    Except CorrelationRaised (ReliabilityLoadEvidence × WindowMetrics) := do
  let load ← correlator.clientLoad sources.clientReport kind
  let gatewayBefore ← correlator.prometheusSamples sources.gatewayMetricsBefore gatewayMetrics
  let gatewayAfter ← correlator.prometheusSamples sources.gatewayMetricsAfter gatewayMetrics
  let runtimeBefore ← correlator.prometheusSamples sources.runtimeMetricsBefore runtimeMetrics
  let runtimeAfter ← correlator.prometheusSamples sources.runtimeMetricsAfter runtimeMetrics
  let metrics ← correlator.windowMetrics gatewayBefore gatewayAfter runtimeBefore runtimeAfter
  .ok (load, metrics)

/-- `_digest_sources`. -/
def digestSources (sources : CorrelationSources) (evidence : List (Text × Json)) : Text :=
  let digest (value : Text) : Json := .str (correlator.hashing.sha256 value).text
  let document := Json.obj
    [(lit "schema_version", .int 1),
      (lit "sources", .obj
        [(lit "client_report", digest sources.clientReport),
          (lit "gateway_metrics_before", digest sources.gatewayMetricsBefore),
          (lit "gateway_metrics_after", digest sources.gatewayMetricsAfter),
          (lit "runtime_metrics_before", digest sources.runtimeMetricsBefore),
          (lit "runtime_metrics_after", digest sources.runtimeMetricsAfter),
          (lit "runtime_spans", digest sources.runtimeSpans),
          (lit "pod_resource_samples", digest sources.podResourceSamples)]),
      (lit "evidence", .obj evidence)]
  lit "sha256:" ++
    (correlator.hashing.sha256 (correlator.hashing.writer.render document.sorted)).text

/-- `correlate_agentgateway_reliability_window`. -/
def correlate (kind : KindArgument) (sources : CorrelationSources) :
    Except CorrelationRaised ReliabilityCorrelationEvidence := do
  let kind ← loadKind kind
  let (load, metrics) ← correlator.measure kind sources
  let (runtimeSpanSamples, runtimeSpanP99) ← correlator.runtimeSpanP99 sources.runtimeSpans
  let (podSamples, cpuPeak, rssPeak) ← correlator.podResources sources.podResourceSamples
  let aggregates : List (Text × Json) :=
    [(lit "kind", .str kind.value),
      (lit "requests", .int load.completed),
      (lit "client_sample_digest", .str load.sampleDigest),
      (lit "client_p99_milliseconds", .float load.latency.p99Milliseconds),
      (lit "gateway_tool_calls", .int metrics.gatewayToolCalls),
      (lit "gateway_metric_samples", .int metrics.gatewayMetricSamples),
      (lit "gateway_p99_milliseconds", .float metrics.gatewayP99),
      (lit "runtime_span_samples", .int runtimeSpanSamples),
      (lit "runtime_span_p99_milliseconds", .float runtimeSpanP99),
      (lit "runtime_metric_samples", .int metrics.runtimeMetricSamples),
      (lit "runtime_metric_p99_milliseconds", .float metrics.runtimeMetricP99),
      (lit "pod_resource_samples", .int podSamples),
      (lit "pod_cpu_millicores_peak", .float cpuPeak),
      (lit "pod_rss_mebibytes_peak", .float rssPeak)]
  let evidence : ReliabilityCorrelationEvidence :=
    { lane := .agentgateway
      kind
      windowDigest := correlator.digestSources sources aggregates
      requests := load.completed
      clientSamples := load.completed
      gatewayToolCalls := metrics.gatewayToolCalls
      gatewayMetricSamples := metrics.gatewayMetricSamples
      runtimeSpanSamples
      runtimeMetricSamples := metrics.runtimeMetricSamples
      podResourceSamples := podSamples
      clientP99Milliseconds := load.latency.p99Milliseconds
      gatewayP99Milliseconds := metrics.gatewayP99
      runtimeSpanP99Milliseconds := runtimeSpanP99
      runtimeMetricP99Milliseconds := metrics.runtimeMetricP99
      podCpuMillicoresPeak := cpuPeak
      podRssMebibytesPeak := rssPeak }
  if ¬ evidence.Valid then .error .validationError else .ok evidence

/-! ## What is correlated or refused -/

/-- A list has a property as far as the elements before have another one. -/
def AsFarAs {α : Type} (before property : α → Prop) : List α → Prop
  | [] => True
  | a :: l => property a ∧ (before a → AsFarAs before property l)

/-- No text that is come to is one that its reader does not refuse with `ValueError`. -/
structure Correlatable (kind : ReliabilityLoadKind) (sources : CorrelationSources) : Prop where
  /-- The load that is asked for is not nested too deeply for `json.dumps`. -/
  load : ∀ load, correlator.requestedLoad sources.clientReport kind = .ok load →
    correlator.tooDeep (.obj load) = false
  /-- With a load, every snapshot that is read is worded. -/
  snapshots : ∀ load, correlator.clientLoad sources.clientReport kind = .ok load →
    AsFarAs (fun snapshot => ∃ samples, correlator.prometheusSamples snapshot.1 snapshot.2 = .ok samples)
      (fun snapshot => correlator.Worded snapshot.1 snapshot.2) sources.snapshots
  /-- With a load and metrics, the log of spans is timed. -/
  spans : ∀ measured, correlator.measure kind sources = .ok measured →
    correlator.Timed sources.runtimeSpans

variable {correlator}

theorem windowMetrics_closed
    {gatewayBefore gatewayAfter runtimeBefore runtimeAfter : List PrometheusSample} :
    Closed (correlator.windowMetrics gatewayBefore gatewayAfter runtimeBefore runtimeAfter) := by
  refine raisesOnly_bind.2 ⟨counterDelta_closed, fun calls _ => ?_⟩
  refine raisesOnly_bind.2 ⟨histogramDeltaP99_closed, fun gateway _ => ?_⟩
  refine raisesOnly_bind.2 ⟨counterDelta_closed, fun samples _ => ?_⟩
  refine raisesOnly_bind.2 ⟨histogramDeltaP99_closed, fun runtime _ => ?_⟩
  exact closed_check rfl fun _ => raisesOnly_ok

/-- A snapshot is worded, and what follows it is closed where it is read. -/
theorem snapshot_closed {α : Type} {source : Text} {metricNames : List Text}
    {f : List PrometheusSample → Except CorrelationRaised α} {rest : Prop}
    (h : ∀ samples, Closed (f samples) ↔ rest) :
    Closed (correlator.prometheusSamples source metricNames >>= f) ↔
      correlator.Worded source metricNames ∧
        ((∃ samples, correlator.prometheusSamples source metricNames = .ok samples) → rest) := by
  refine raisesOnly_bind.trans (and_congr prometheusSamples_closed ?_)
  simp only [h, forall_ok_iff]

theorem measure_closed {kind : ReliabilityLoadKind} {sources : CorrelationSources} :
    Closed (correlator.measure kind sources) ↔
      (∀ load, correlator.requestedLoad sources.clientReport kind = .ok load →
        correlator.tooDeep (.obj load) = false) ∧
      ∀ load, correlator.clientLoad sources.clientReport kind = .ok load →
        AsFarAs (fun snapshot => ∃ samples,
            correlator.prometheusSamples snapshot.1 snapshot.2 = .ok samples)
          (fun snapshot => correlator.Worded snapshot.1 snapshot.2) sources.snapshots := by
  refine raisesOnly_bind.trans (and_congr clientLoad_closed (forall₂_congr fun load _ => ?_))
  refine snapshot_closed fun _ => snapshot_closed fun _ => snapshot_closed fun _ =>
    snapshot_closed fun _ => iff_of_true ?_ trivial
  exact raisesOnly_bind.2 ⟨windowMetrics_closed, fun _ _ => raisesOnly_ok⟩

/-- What the stages up to the metrics raise is raised. -/
theorem correlate_of_measure {kind : ReliabilityLoadKind} {sources : CorrelationSources}
    {e : CorrelationRaised} (h : correlator.measure kind sources = .error e) :
    correlator.correlate (.kind kind) sources = .error e := by
  simp only [correlate, loadKind, bind, Except.bind, h]

/-- A window is correlated, or refused with `ValueError` or `TypeError`, exactly when its texts
    are correlatable. -/
theorem correlate_closed_iff {kind : KindArgument} {sources : CorrelationSources} :
    Closed (correlator.correlate kind sources) ↔
      ∀ k, kind = .kind k → correlator.Correlatable k sources := by
  cases kind with
  | other => exact iff_of_true (raisesOnly_error.2 rfl) fun k h => by cases h
  | kind k =>
    simp only [KindArgument.kind.injEq, forall_eq']
    refine raisesOnly_bind.trans ((and_iff_right raisesOnly_ok).trans ?_)
    constructor
    · intro h
      -- The reports are measured before the spans are read, so these count only if those are
      -- sound.
      obtain ⟨hmeasure, hrest⟩ := raisesOnly_bind.1 (h k rfl)
      obtain ⟨hload, hsnapshots⟩ := measure_closed.1 hmeasure
      refine ⟨hload, hsnapshots, fun measured hm => ?_⟩
      exact runtimeSpanP99_closed.1 (raisesOnly_bind.1 (hrest measured hm)).1
    · intro h k' hk
      cases hk
      refine raisesOnly_bind.2 ⟨measure_closed.2 ⟨h.load, h.snapshots⟩, fun measured hm => ?_⟩
      refine raisesOnly_bind.2 ⟨runtimeSpanP99_closed.2 (h.spans measured hm), fun spans _ => ?_⟩
      refine raisesOnly_bind.2 ⟨podResources_closed _, fun pods _ => ?_⟩
      exact closed_check rfl fun _ => raisesOnly_ok

/-! ## A window that escapes -/

/-- Arithmetic that rounds nothing. -/
def exactArithmetic : Arithmetic where
  rounding := .finite
  mono _ _ h := decide_eq_true h
  exact _ _ := rfl

/-- The load of two requests. -/
def probeLoad : ReliabilityLoadEvidence where
  name := lit "agentgateway-sustained"
  lane := .agentgateway
  kind := .sustained
  requestBytes := 1024
  responseBytes := 4096
  completed := 2
  successful := 2
  outcomes := [(.success, 2)]
  durationSeconds := .finite (2 / 100)
  throughputRequestsPerSecond := .finite 100
  latency := ⟨.finite 4, .finite 8, .finite 9, .finite 10⟩
  peakClientConcurrency := 2
  maximumQueueDepth := 0
  sampleDigest := lit "sha256:" ++ List.replicate 64 97

/-- The report of that load. -/
def probeReport : Text :=
  List.flatten [
    lit "\x7b\"lane\": \"agentgateway\", \"loads\": [\x7b\"completed\": 2, ",
    lit "\"duration_seconds\": 0.02, \"kind\": \"sustained\", \"lane\": \"agentgateway\", ",
    lit "\"latency\": \x7b\"maximum_milliseconds\": 10.0, \"p50_milliseconds\": 4.0, ",
    lit "\"p95_milliseconds\": 8.0, \"p99_milliseconds\": 9.0\x7d, ",
    lit "\"maximum_queue_depth\": 0, \"name\": \"agentgateway-sustained\", ",
    lit "\"outcomes\": [\x7b\"count\": 2, \"outcome\": \"success\"\x7d], ",
    lit "\"peak_client_concurrency\": 2, \"request_bytes\": 1024, ",
    lit "\"response_bytes\": 4096, ",
    lit "\"sample_digest\": \"sha256:aaaaaaaaaaaaaaaaaaaaaaaaaaaaaaaaaaaaaaaaaaaaaaaaaaaaaaaaaaaaaaaa\", ",
    lit "\"successful\": 2, \"throughput_requests_per_second\": 100.0\x7d], ",
    lit "\"passed\": true, \"route\": \"/gateway/runtime/mcp\", \"schema_version\": 1, ",
    lit "\"targets\": \x7b\"burst_requests_per_second\": 200, \"request_bytes\": 60000, ",
    lit "\"response_bytes\": 500000, \"sustained_requests_per_second\": 50\x7d\x7d"]

/-- A correlator, whose library of models is given the load of the report. -/
def probeCorrelator : Correlator where
  maxDepth := 1000
  maxDigits := 4300
  arithmetic := exactArithmetic
  decimal _ := none
  tooDeep _ := false
  fields _ := some probeLoad
  hashing := ⟨.plain, fun _ => ⟨List.replicate 64 48, isDigest_zeros⟩⟩

theorem probeReport_accepted :
    probeCorrelator.clientLoad probeReport .sustained = .ok probeLoad := by
  rw [probeReport]
  repeat rw [lit_ofList]
  decide +kernel

/-- With an accepted report and blanks for the other sources. -/
def blankSources : CorrelationSources := ⟨probeReport, [32], [32], [32], [32], [32], [32]⟩

theorem measure_blank : probeCorrelator.measure .sustained blankSources = .error .indexError := by
  have hblank : probeCorrelator.prometheusSamples [32] gatewayMetrics = .error .indexError := by
    decide +kernel
  dsimp only [measure, blankSources]
  rw [probeReport_accepted, hblank]
  rfl

/-- A snapshot of one blank is not refused: there is no first word to take. -/
theorem blank_escapes :
    probeCorrelator.correlate (.kind .sustained) blankSources = .error .indexError ∧
      ¬ Closed (probeCorrelator.correlate (.kind .sustained) blankSources) := by
  have hraised := correlate_of_measure measure_blank
  exact ⟨hraised, fun h => Bool.false_ne_true (h _ hraised)⟩

end Correlator

end Reliability

end McpRuntime
