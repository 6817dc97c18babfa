import McpRuntime.Reliability.Prometheus

/-!
# Reports of a window

What the client, the runtime and the pod report of a window: the load in the report of the
client, the percentile of the durations in the log of spans, and the peaks of what the pod
used.

* `Correlator.clientLoad`, `Correlator.runtimeSpanP99`, `Correlator.podResources`: the readers.
* `clientLoad_closed`: only a load that is nested too deeply for `json.dumps` raises another
  exception than `ValueError`.
* `Timed`, `runtimeSpanP99_closed`: only a duration that no float holds does.
* `podResources_closed`: no sample of the pod does.
-/

namespace McpRuntime

namespace Reliability

/-! ## The report of the client -/

/-- The targets that a report qualifies for. -/
def expectedTargets : List (Text × ℤ) :=
  [(lit "sustained_requests_per_second", 50), (lit "burst_requests_per_second", 200),
    (lit "request_bytes", 60000), (lit "response_bytes", 500000)]

/-- The members of the items of an array, where each of them is an object. -/
def objects : List Json → Option (List (List (Text × Json)))
  | [] => some []
  | .obj members :: items => (objects items).map (members :: ·)
  | _ :: _ => none

namespace Correlator

variable (correlator : Correlator)

/-- `_client_load`, up to the load that is asked for. -/
def requestedLoad (reportText : Text) (kind : ReliabilityLoadKind) :
    Except CorrelationRaised (List (Text × Json)) := do
  let report ← correlator.jsonObject (← boundedText reportText)
  let names := ["schema_version", "lane", "route", "targets", "loads", "passed"].map lit
  if hasKeys names report = false then
    .error (.valueError (lit "client reliability report has an invalid shape"))
  else if ¬ (isInt 1 (Json.pyGet (lit "schema_version") report) ∧
      isStr ReliabilityLane.agentgateway.value (Json.pyGet (lit "lane") report) ∧
      isStr (lit "/gateway/runtime/mcp") (Json.pyGet (lit "route") report) ∧
      Json.pyGet (lit "passed") report matches .bool true) then
    .error (.valueError (lit "client reliability report is not passing AgentGateway evidence"))
  else
    match Json.pyGet (lit "targets") report with
    | .obj targets =>
      if ¬ (hasKeys (expectedTargets.map Prod.fst) targets ∧
          expectedTargets.all fun item => isInt item.2 (Json.pyGet item.1 targets)) then
        .error (.valueError (lit "client reliability report does not carry qualification targets"))
      else
        match Json.pyGet (lit "loads") report with
        | .arr loads =>
          if ¬ (1 ≤ loads.length ∧ loads.length ≤ 3) then
            .error (.valueError (lit "client reliability report has invalid load evidence"))
          else
            match objects loads with
            | none => .error (.valueError (lit "client reliability report has invalid load evidence"))
            | some loads =>
              match loads.filter fun load => isStr kind.value (Json.pyGet (lit "kind") load) with
              | [load] => .ok load
              | _ =>
                .error (.valueError
                  (lit "client reliability report must contain one requested load window"))
        | _ => .error (.valueError (lit "client reliability report has invalid load evidence"))
    | _ =>
      .error (.valueError (lit "client reliability report does not carry qualification targets"))

/-- `ReliabilityLoadEvidence.model_validate_json` of what `json.dumps` writes. -/
def loadEvidence (load : List (Text × Json)) : Except CorrelationRaised ReliabilityLoadEvidence :=
  if correlator.tooDeep (.obj load) then .error .recursionError
  else
    match correlator.fields (.obj load) with
    | none => .error (.valueError (lit "client reliability load evidence is invalid"))
    | some evidence =>
      if ¬ evidence.Valid then
        .error (.valueError (lit "client reliability load evidence is invalid"))
      else .ok evidence

/-- `_client_load`. -/
def clientLoad (reportText : Text) (kind : ReliabilityLoadKind) :
    Except CorrelationRaised ReliabilityLoadEvidence := do
  let load ← correlator.loadEvidence (← correlator.requestedLoad reportText kind)
  if load.lane ≠ .agentgateway ∨ load.kind ≠ kind ∨ load.successful ≠ load.completed then
    .error (.valueError (lit "client reliability load is not a successful AgentGateway window"))
  else .ok load

variable {correlator}

theorem requestedLoad_closed (reportText : Text) (kind : ReliabilityLoadKind) :
    Closed (correlator.requestedLoad reportText kind) := by
  refine raisesOnly_bind.2 ⟨boundedText_closed _, fun text _ => ?_⟩
  refine raisesOnly_bind.2 ⟨jsonObject_closed _, fun report _ => ?_⟩
  refine closed_check rfl fun _ => closed_check rfl fun _ => ?_
  split
  · refine closed_check rfl fun _ => ?_
    split
    · refine closed_check rfl fun _ => ?_
      split
      · exact raisesOnly_error.2 rfl
      · split
        · exact raisesOnly_ok
        · exact raisesOnly_error.2 rfl
    · exact raisesOnly_error.2 rfl
  · exact raisesOnly_error.2 rfl

theorem loadEvidence_closed {load : List (Text × Json)} :
    Closed (correlator.loadEvidence load) ↔ correlator.tooDeep (.obj load) = false := by
  rw [loadEvidence]
  cases correlator.tooDeep (.obj load) with
  | true => exact iff_of_false (fun h => Bool.false_ne_true (h _ rfl)) Bool.noConfusion
  | false =>
    refine iff_of_true ?_ rfl
    rw [if_neg Bool.false_ne_true]
    split
    · exact raisesOnly_error.2 rfl
    · exact closed_check rfl fun _ => raisesOnly_ok

/-- Which reports are read without another exception. -/
theorem clientLoad_closed {reportText : Text} {kind : ReliabilityLoadKind} :
    Closed (correlator.clientLoad reportText kind) ↔
      ∀ load, correlator.requestedLoad reportText kind = .ok load →
        correlator.tooDeep (.obj load) = false := by
  refine raisesOnly_bind.trans ((and_iff_right (requestedLoad_closed _ _)).trans ?_)
  refine forall₂_congr fun load _ => raisesOnly_bind.trans ?_
  rw [← loadEvidence_closed]
  exact and_iff_left fun evidence _ => closed_check rfl fun _ => raisesOnly_ok

end Correlator

/-! ## Spans -/

/-- `_SPAN_PREFIX`. -/
def spanPrefix : Text := lit "TESSERIX_RELIABILITY_SPAN "

/-- The keys of a span. -/
def spanKeys : List Text := ["schema_version", "name", "outcome", "duration_seconds"].map lit

/-- `items[i]`, which counts a negative index from the end. -/
def itemAt {α : Type} (items : List α) (i : ℤ) : Option α :=
  if 0 ≤ i then items[i.toNat]? else if 0 ≤ i + items.length then items[(i + items.length).toNat]?
  else none

/-- There is an item at an index below the length, and at the last one from the end. -/
theorem exists_itemAt {α : Type} {items : List α} (hne : items ≠ []) {i : ℤ} (hlow : -1 ≤ i)
    (hhigh : i < items.length) : ∃ a ∈ items, itemAt items i = some a := by
  have hpos : 0 < items.length := List.length_pos_iff.2 hne
  have hget {n : ℕ} (hn : n < items.length) : ∃ a ∈ items, items[n]? = some a :=
    ⟨items[n], List.getElem_mem hn, List.getElem?_eq_getElem hn⟩
  rw [itemAt]
  split_ifs with h h'
  · exact hget (by omega)
  · exact hget (by omega)
  · exact absurd (by omega) h'

/-- The members of a span that are as they should be, the duration apart. -/
def isSpan (sample : List (Text × Json)) : Bool :=
  isInt 1 (Json.pyGet (lit "schema_version") sample) &&
    isStr (lit "mcp.tool.execution") (Json.pyGet (lit "name") sample) &&
    isStr (lit "success") (Json.pyGet (lit "outcome") sample)

namespace Correlator

variable (correlator : Correlator)

/-- The duration in a span; `math.isfinite` converts an integer to a float. -/
def spanDuration (sample : List (Text × Json)) : Except CorrelationRaised PyFloat :=
  let invalid := CorrelationRaised.valueError (lit "runtime reliability span is invalid")
  match Json.pyGet (lit "duration_seconds") sample with
  | .int n =>
    if (PyFloat.finite n).overflows then .error .overflowError
    else if ¬ (0 < n ∧ n ≤ 300) then .error invalid
    else .ok (correlator.arithmetic.rounding n)
  | .float x =>
    if ¬ (x.isFinite ∧ (PyFloat.finite 0).lt x ∧ x.le (.finite (300 : ℤ))) then .error invalid
    else .ok x
  | _ => .error invalid

/-- What a line adds to the durations. -/
def readSpan (durations : List PyFloat) (line : Text) : Except CorrelationRaised (List PyFloat) :=
  if spanPrefix.isPrefixOf line = false then .ok durations
  else do
    let sample ← correlator.jsonObject (line.drop spanPrefix.length)
    if hasKeys spanKeys sample = false then
      .error (.valueError (lit "runtime reliability span has an invalid shape"))
    else if isSpan sample = false then
      .error (.valueError (lit "runtime reliability span is invalid"))
    else do
      let duration ← correlator.spanDuration sample
      .ok (durations ++ [duration])

/-- The percentile of the durations. -/
def spanPercentile (durations : List PyFloat) : Except CorrelationRaised (ℕ × PyFloat) :=
  if ¬ (1 ≤ durations.length ∧ durations.length ≤ 100000) then
    .error (.valueError (lit "runtime reliability spans must contain bounded samples"))
  else do
    let rank ← converted (correlator.arithmetic.rank durations.length)
    match itemAt (durations.insertionSort fun a b => a.le b) (rank - 1) with
    | none => .error .indexError
    | some duration =>
      let milliseconds := duration.mul correlator.arithmetic.rounding (.finite (1000 : ℤ))
      let p99 ← converted (milliseconds.round correlator.arithmetic.rounding 6)
      .ok (durations.length, p99)

/-- `_runtime_span_p99`. -/
def runtimeSpanP99 (source : Text) : Except CorrelationRaised (ℕ × PyFloat) := do
  let text ← boundedText source
  let durations ← (splitlines text).foldlM correlator.readSpan []
  correlator.spanPercentile durations

/-- A span that is as it should be, but for its duration, an integer that no float holds. -/
def Overflowing (line : Text) : Prop :=
  ∃ sample n, spanPrefix.isPrefixOf line = true ∧
    correlator.jsonObject (line.drop spanPrefix.length) = .ok sample ∧
    hasKeys spanKeys sample = true ∧ isSpan sample = true ∧
    Json.pyGet (lit "duration_seconds") sample = .int n ∧ (PyFloat.finite n).overflows = true

/-- No span in a bounded text has a duration that no float holds, as far as the spans before it
    are read. -/
def Timed (source : Text) : Prop :=
  boundedText source = .ok source →
    ∀ before line after durations, splitlines source = before ++ line :: after →
      before.foldlM correlator.readSpan [] = .ok durations → ¬ correlator.Overflowing line

variable {correlator}

theorem spanDuration_closed {sample : List (Text × Json)} :
    Closed (correlator.spanDuration sample) ↔
      ∀ n, Json.pyGet (lit "duration_seconds") sample = .int n →
        (PyFloat.finite n).overflows = false := by
  rw [spanDuration]
  cases Json.pyGet (lit "duration_seconds") sample with
  | int n =>
    simp only [Json.int.injEq, forall_eq']
    cases (PyFloat.finite n).overflows with
    | true => exact iff_of_false (fun h => Bool.false_ne_true (h _ rfl)) Bool.noConfusion
    | false =>
      rw [if_neg Bool.false_ne_true]
      exact iff_of_true (closed_check rfl fun _ => raisesOnly_ok) rfl
  | float x =>
    exact iff_of_true (closed_check rfl fun _ => raisesOnly_ok) fun n h => by cases h
  | null | bool | str | arr | obj =>
    exact iff_of_true (raisesOnly_error.2 rfl) fun n h => by cases h

/-- A duration is at most that of the longest span. -/
theorem spanDuration_upTo {sample : List (Text × Json)} {x : PyFloat}
    (h : correlator.spanDuration sample = .ok x) : x.UpTo 300 := by
  rw [spanDuration] at h
  split at h
  · next n _ =>
    split_ifs at h with _ hn
    cases h
    refine correlator.arithmetic.rounding_upTo (by norm_num) ?_ ?_
    · exact_mod_cast hn.1.le
    · exact_mod_cast hn.2
  · next y _ =>
    split_ifs at h with hy
    cases h
    exact ⟨PyFloat.le_of_finite_lt hy.2.1, hy.2.2⟩
  · cases h

/-- A line is read without another exception exactly when it is no span that overflows. -/
theorem readSpan_closed {durations : List PyFloat} {line : Text} :
    Closed (correlator.readSpan durations line) ↔ ¬ correlator.Overflowing line := by
  rw [readSpan]
  by_cases hspan : spanPrefix.isPrefixOf line = false
  -- A line of another log is not parsed.
  · rw [if_pos hspan]
    refine iff_of_true raisesOnly_ok fun h => ?_
    obtain ⟨_, _, hprefix, -⟩ := h
    cases hspan.symm.trans hprefix
  rw [if_neg hspan]
  -- The reading of the object refuses whatever it cannot read, so only the duration is left.
  refine raisesOnly_bind.trans ((and_iff_right (jsonObject_closed _)).trans ?_)
  constructor
  · rintro h ⟨sample, n, -, hsample, hkeys, hmembers, hn, hoverflow⟩
    have hclosed := h sample hsample
    rw [if_neg (Bool.not_eq_false _ ▸ hkeys), if_neg (Bool.not_eq_false _ ▸ hmembers)] at hclosed
    have hduration := spanDuration_closed.1 (raisesOnly_bind.1 hclosed).1 n hn
    cases hduration.symm.trans hoverflow
  · intro h sample hsample
    refine closed_check rfl fun hkeys => closed_check rfl fun hmembers => ?_
    refine raisesOnly_bind.2 ⟨spanDuration_closed.2 fun n hn => ?_, fun _ _ => raisesOnly_ok⟩
    by_contra hoverflow
    exact h ⟨sample, n, Bool.not_eq_false _ ▸ hspan, hsample, Bool.not_eq_false _ ▸ hkeys,
      Bool.not_eq_false _ ▸ hmembers, hn, Bool.not_eq_false _ ▸ hoverflow⟩

/-- The durations of a log are at most that of the longest span. -/
theorem durations_upTo {lines : List Text} {durations : List PyFloat}
    (h : lines.foldlM correlator.readSpan [] = .ok durations) : ∀ x ∈ durations, x.UpTo 300 := by
  refine foldlM_keeps (Q := fun durations => ∀ x ∈ durations, PyFloat.UpTo 300 x) ?_
    (fun x hx => by cases hx) h
  intro durations line durations' hdurations hread
  rw [readSpan] at hread
  split_ifs at hread
  · cases hread
    exact hdurations
  · obtain ⟨sample, -, hread⟩ := bind_eq_ok.1 hread
    split_ifs at hread
    obtain ⟨x, hx, hread⟩ := bind_eq_ok.1 hread
    cases hread
    exact List.forall_mem_append.2 ⟨hdurations, List.forall_mem_singleton.2 (spanDuration_upTo hx)⟩

/-- The rank of a bounded number of durations is one of them, or the last one from the end. -/
theorem spanPercentile_closed {durations : List PyFloat} (h : ∀ x ∈ durations, x.UpTo 300) :
    Closed (correlator.spanPercentile durations) := by
  refine closed_check rfl fun hlength => ?_
  obtain ⟨hpos, hbound⟩ := not_not.1 hlength
  obtain ⟨rank, hrank, hlow, hhigh⟩ := correlator.arithmetic.rank_le (hbound.trans (by norm_num))
  have hperm := List.perm_insertionSort (fun a b : PyFloat => a.le b) durations
  obtain ⟨x, hx, hitem⟩ := exists_itemAt (i := rank - 1)
    (List.ne_nil_of_length_pos (hperm.length_eq ▸ hpos)) (by omega) (by rw [hperm.length_eq]; omega)
  have hfactor : (PyFloat.finite (1000 : ℤ)).UpTo 1000 :=
    (PyFloat.upTo_iff rfl).2 ⟨Int.cast_nonneg (by norm_num), le_rfl⟩
  -- A duration of at most 300 seconds stays finite in milliseconds.
  have hproduct := correlator.arithmetic.mul_upTo (by norm_num) (h x (hperm.mem_iff.1 hx)) hfactor
  obtain ⟨p99, hp99⟩ := correlator.arithmetic.round_upTo (by norm_num) hproduct 6
  rw [hrank]
  refine raisesOnly_bind.2 ⟨raisesOnly_ok, fun _ he => ?_⟩
  cases he
  rw [hitem]
  refine raisesOnly_bind.2 ⟨?_, fun _ _ => raisesOnly_ok⟩
  intro e he
  rw [hp99] at he
  cases he

/-- Which logs are read without another exception. -/
theorem runtimeSpanP99_closed {source : Text} :
    Closed (correlator.runtimeSpanP99 source) ↔ correlator.Timed source := by
  refine raisesOnly_bind.trans ((and_iff_right (boundedText_closed source)).trans ?_)
  have hrest (text : Text) : Closed ((splitlines text).foldlM correlator.readSpan [] >>=
      correlator.spanPercentile) ↔ ∀ before line after durations,
        splitlines text = before ++ line :: after →
          before.foldlM correlator.readSpan [] = .ok durations → ¬ correlator.Overflowing line := by
    refine raisesOnly_bind.trans ?_
    simp only [raisesOnly_foldlM, readSpan_closed]
    exact and_iff_left fun durations hdurations => spanPercentile_closed (durations_upTo hdurations)
  constructor
  · exact fun h hsource => (hrest source).1 (h source hsource)
  · rintro h text htext
    obtain rfl := boundedText_eq_ok htext
    exact (hrest text).2 (h htext)

end Correlator

/-! ## Resources -/

/-- `(?:0|[1-9][0-9]*)(?:\.[0-9]+)?` -/
def isPlainDecimal (t : Text) : Bool :=
  let whole := t.takeWhile CodePoint.isDigit
  let rest := t.dropWhile CodePoint.isDigit
  whole ≠ [] && (whole.head? ≠ some 48 || whole = [48]) &&
    (rest = [] || (rest.head? = some 46 && rest.tail ≠ [] && rest.tail.all CodePoint.isDigit))

/-- `_CPU_PERCENT.fullmatch`. -/
def isCpuPercent (cpu : Text) : Bool := cpu.getLast? = some 37 && isPlainDecimal cpu.dropLast

/-- The units of memory, with the mebibytes in each. -/
def factors : List (Text × PyFloat) :=
  [(lit "B", .finite (1 / 1048576)), (lit "KiB", .finite (1 / 1024)), (lit "MiB", .finite 1),
    (lit "GiB", .finite 1024)]

/-- An amount of memory: the text of its value, and the mebibytes in its unit. -/
def memoryAmount (t : Text) : Option (Text × PyFloat) :=
  let isValueChar (c : CodePoint) : Bool := c.isDigit || c = 46
  let value := t.takeWhile isValueChar
  if isPlainDecimal value then
    (factors.lookup (t.dropWhile isValueChar)).map fun factor => (value, factor)
  else none

/-- `_MEMORY_USAGE.fullmatch`: the amount in use, and the limit. -/
def memoryUsage (memory : Text) : Option ((Text × PyFloat) × (Text × PyFloat)) :=
  match Text.partition 47 memory with
  | (used, some limit) =>
    if used.getLast?.any isBlank && limit.head?.any isBlank then do
      some (← memoryAmount (used.rdropWhile isBlank), ← memoryAmount (limit.dropWhile isBlank))
    else none
  | (_, none) => none

namespace Correlator

variable (correlator : Correlator)

/-- The mebibytes of an amount of memory. -/
def mebibytes (amount : Text × PyFloat) : Except CorrelationRaised PyFloat := do
  let value ← correlator.float amount.1
  .ok (value.mul correlator.arithmetic.rounding amount.2)

/-- What a line adds to the samples of the pod. -/
def readResources (samples : List (PyFloat × PyFloat)) (line : Text) :
    Except CorrelationRaised (List (PyFloat × PyFloat)) :=
  if line = [] then .ok samples
  else do
    let sample ← correlator.jsonObject line
    match Json.pyGet (lit "CPUPerc") sample with
    | .str cpu =>
      if isCpuPercent cpu = false then .error (.valueError (lit "pod CPU resource sample is invalid"))
      else
        match Json.pyGet (lit "MemUsage") sample with
        | .str memory =>
          match memoryUsage memory with
          | none => .error (.valueError (lit "pod RSS resource sample is invalid"))
          | some (used, limit) => do
            let percent ← correlator.float cpu.dropLast
            let cpuMillicores := percent.mul correlator.arithmetic.rounding (.finite 10)
            let rssMebibytes ← correlator.mebibytes used
            let limitMebibytes ← correlator.mebibytes limit
            if ¬ (cpuMillicores.isFinite ∧
                (PyFloat.finite 0).le cpuMillicores ∧ cpuMillicores.le (.finite (1000000 : ℤ)) ∧
                rssMebibytes.isFinite ∧
                (PyFloat.finite 0).lt rssMebibytes ∧ rssMebibytes.le (.finite (4096 : ℤ)) ∧
                limitMebibytes.isFinite ∧ limitMebibytes.lt rssMebibytes = false) then
              .error (.valueError (lit "pod resource sample is outside reliability bounds"))
            else .ok (samples ++ [(cpuMillicores, rssMebibytes)])
        | _ => .error (.valueError (lit "pod RSS resource sample is invalid"))
    | _ => .error (.valueError (lit "pod CPU resource sample is invalid"))

/-- `round(max(samples), 3)`. -/
def peak (samples : List PyFloat) : Except CorrelationRaised PyFloat :=
  match PyFloat.maximum samples with
  | none => .error (.valueError (lit "max() iterable argument is empty"))
  | some x => converted (x.round correlator.arithmetic.rounding 3)

/-- `_pod_resources`. -/
def podResources (source : Text) : Except CorrelationRaised (ℕ × PyFloat × PyFloat) := do
  let text ← boundedText source
  let samples ← (splitlines text).foldlM correlator.readResources []
  if ¬ (2 ≤ samples.length ∧ samples.length ≤ 100000) then
    .error (.valueError (lit "pod resources must contain at least two bounded samples"))
  else do
    let cpuPeak ← correlator.peak (samples.map Prod.fst)
    let rssPeak ← correlator.peak (samples.map Prod.snd)
    .ok (samples.length, cpuPeak, rssPeak)

variable {correlator}

theorem mebibytes_closed (amount : Text × PyFloat) : Closed (correlator.mebibytes amount) :=
  raisesOnly_bind.2 ⟨float_closed _, fun _ _ => raisesOnly_ok⟩

theorem readResources_closed {samples : List (PyFloat × PyFloat)} {line : Text} :
    Closed (correlator.readResources samples line) := by
  rw [readResources]
  split_ifs
  · exact raisesOnly_ok
  refine raisesOnly_bind.2 ⟨jsonObject_closed _, fun sample _ => ?_⟩
  split
  · refine closed_check rfl fun _ => ?_
    split
    · split
      · exact raisesOnly_error.2 rfl
      · refine raisesOnly_bind.2 ⟨float_closed _, fun percent _ => ?_⟩
        refine raisesOnly_bind.2 ⟨mebibytes_closed _, fun rss _ => ?_⟩
        refine raisesOnly_bind.2 ⟨mebibytes_closed _, fun limit _ => ?_⟩
        exact closed_check rfl fun _ => raisesOnly_ok
    · exact raisesOnly_error.2 rfl
  · exact raisesOnly_error.2 rfl

/-- The samples of the pod are within their bounds. -/
theorem resources_upTo {lines : List Text} {samples : List (PyFloat × PyFloat)}
    (h : lines.foldlM correlator.readResources [] = .ok samples) :
    ∀ sample ∈ samples, sample.1.UpTo 1000000 ∧ sample.2.UpTo 4096 := by
  refine foldlM_keeps (Q := fun samples => ∀ sample ∈ samples,
    PyFloat.UpTo 1000000 sample.1 ∧ PyFloat.UpTo 4096 sample.2) ?_ (fun x hx => by cases hx) h
  intro samples line samples' hsamples hread
  rw [readResources] at hread
  split_ifs at hread
  -- An empty line adds no sample.
  · cases hread
    exact hsamples
  obtain ⟨sample, -, hread⟩ := bind_eq_ok.1 hread
  split at hread
  · split_ifs at hread
    split at hread
    · split at hread
      · cases hread
      · obtain ⟨percent, -, hread⟩ := bind_eq_ok.1 hread
        obtain ⟨rss, -, hread⟩ := bind_eq_ok.1 hread
        obtain ⟨limit, -, hread⟩ := bind_eq_ok.1 hread
        split_ifs at hread with hbounds
        cases hread
        obtain ⟨-, hcpu, hcpu', -, hrss, hrss', -⟩ := hbounds
        -- The comparisons with the bounds also leave out the values that are no numbers.
        refine List.forall_mem_append.2 ⟨hsamples, List.forall_mem_singleton.2 ⟨⟨hcpu, hcpu'⟩, ?_⟩⟩
        exact ⟨PyFloat.le_of_finite_lt hrss, hrss'⟩
    · cases hread
  · cases hread

theorem peak_closed {samples : List PyFloat} {b : ℤ} (hb : |b| ≤ 2 ^ 53)
    (h : ∀ x ∈ samples, x.UpTo b) : Closed (correlator.peak samples) := by
  rw [peak]
  cases hmax : PyFloat.maximum samples with
  | none => exact raisesOnly_error.2 rfl
  | some x =>
    obtain ⟨y, hy⟩ := correlator.arithmetic.round_upTo hb (h x (PyFloat.mem_of_maximum hmax)) 3
    dsimp only
    rw [hy]
    exact raisesOnly_ok

theorem podResources_closed (source : Text) : Closed (correlator.podResources source) := by
  refine raisesOnly_bind.2 ⟨boundedText_closed source, fun text _ => raisesOnly_bind.2 ⟨?_, ?_⟩⟩
  · exact raisesOnly_foldlM.2 fun _ _ _ _ _ _ => readResources_closed
  intro samples hsamples
  have hall := resources_upTo hsamples
  refine closed_check rfl fun _ => raisesOnly_bind.2 ⟨?_, fun cpu _ => raisesOnly_bind.2 ⟨?_, ?_⟩⟩
  · exact peak_closed (b := 1000000) (by norm_num)
      (List.forall_mem_map.2 fun sample hs => (hall sample hs).1)
  · exact peak_closed (b := 4096) (by norm_num)
      (List.forall_mem_map.2 fun sample hs => (hall sample hs).2)
  · exact fun _ _ => raisesOnly_ok

end Correlator

end Reliability

end McpRuntime
