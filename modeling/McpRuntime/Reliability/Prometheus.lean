import McpRuntime.Reliability.Sources

/-!
# Metrics of a window

The samples in a text of Prometheus metrics, and what two such texts tell about the window
between them: how much a counter has grown, and the percentile of a histogram.

* `Correlator.prometheusSamples`: the samples of a text, line by line.
* `Worded`: every line that is read has a word before its first brace.
* `prometheusSamples_closed`: only for a text that is not worded does the reader raise another
  exception than `ValueError`.
* `counterDelta_closed`, `histogramDeltaP99_closed`: what is computed from samples.
-/

namespace McpRuntime

namespace Reliability

/-- `_PrometheusSample`. -/
structure PrometheusSample where
  name : Text
  labels : List (Text × Text)
  value : PyFloat
  deriving DecidableEq

/-- `has_labels`. -/
def PrometheusSample.hasLabels (sample : PrometheusSample) (required : List (Text × Text)) : Bool :=
  required.all fun item => sample.labels.lookup item.1 = some item.2

/-- `_GATEWAY_METRICS`. -/
def gatewayMetrics : List Text :=
  [lit "agentgateway_mcp_requests_total", lit "agentgateway_request_duration_seconds_bucket",
    lit "agentgateway_request_duration_seconds_count"]

/-- `_RUNTIME_METRICS`. -/
def runtimeMetrics : List Text :=
  [lit "mcp_server_request_count_total", lit "mcp_server_request_duration_seconds_bucket",
    lit "mcp_server_request_duration_seconds_count"]

/-! ## Labels -/

/-- `[a-zA-Z0-9_]`. -/
def isLabelChar (c : CodePoint) : Bool := c.isAlphanumeric || c = 95

/-- `((?:\\.|[^"\\])*)"`, and the rest of the text; `escaped` after a backslash. -/
def takeEncoded (escaped : Bool) : Text → Option (Text × Text)
  | [] => none
  | c :: t =>
    if escaped then
      if c = 10 then none else (takeEncoded false t).map fun (u, rest) => (c :: u, rest)
    else if c = 34 then some ([], t)
    else (takeEncoded (c = 92) t).map fun (u, rest) => (c :: u, rest)

/-- `_LABEL.match`: a name, an encoded value, and the rest of the text. -/
def matchLabel (t : Text) : Option (Text × Text × Text) :=
  let t := t.dropWhile CodePoint.isSpace
  let name := t.takeWhile isLabelChar
  let rest := t.dropWhile isLabelChar
  if name.head?.any (fun c => !c.isDigit) && (lit "=\"").isPrefixOf rest then
    (takeEncoded false (rest.drop 2)).map fun (encoded, rest) =>
      (name, encoded, rest.dropWhile CodePoint.isSpace)
  else none

namespace Correlator

variable (correlator : Correlator)

/-- The value that is encoded in a label. -/
def labelValue (encoded : Text) : Except CorrelationRaised Text :=
  match correlator.loader.loads (34 :: (encoded ++ [34])) with
  | .ok (.str decoded) =>
    if 2048 < decoded.length then .error (.valueError (lit "Prometheus label value is invalid"))
    else .ok decoded
  | .ok _ => .error (.valueError (lit "Prometheus label value is invalid"))
  | .error .decode => .error (.valueError (lit "Prometheus label encoding is invalid"))
  | .error .refused | .error .digits => .error (.valueError [])
  | .error .recursion => .error .recursionError

/-- The loop of `_labels` over so many labels at most. -/
def labelsFrom : ℕ → List (Text × Text) → Text → Except CorrelationRaised (List (Text × Text))
  | 0, labels, _ => .ok labels
  | fuel + 1, labels, t =>
    if t = [] then .ok labels
    else
      match matchLabel t with
      | none => .error (.valueError (lit "Prometheus labels are invalid"))
      | some (name, encoded, rest) =>
        if name ∈ labels.map Prod.fst then
          .error (.valueError (lit "Prometheus labels must be unique"))
        else do
          let decoded ← correlator.labelValue encoded
          if rest = [] then .ok (labels ++ [(name, decoded)])
          else if rest.head? ≠ some 44 then
            .error (.valueError (lit "Prometheus labels are invalid"))
          else labelsFrom fuel (labels ++ [(name, decoded)]) rest.tail

/-- `_labels`. A label takes more than one character. -/
def labels (value : Option Text) : Except CorrelationRaised (List (Text × Text)) := do
  let labels ← correlator.labelsFrom (value.getD []).length [] (value.getD [])
  .ok (labels.insertionSort fun a b => a.1 ≤ b.1)

end Correlator

/-! ## Samples -/

/-- `[ \t]`. -/
def isBlank (c : CodePoint) : Bool := c = 32 || c = 9

/-- `[ \t]+(?P<value>...)(?:[ \t]+[0-9]+)?$`: the text of the value. -/
def metricValue (t : Text) : Option Text :=
  let value := t.dropWhile isBlank
  let rest := value.dropWhile (!isBlank ·)
  let stamp := rest.dropWhile isBlank
  let value := value.takeWhile (!isBlank ·)
  if t.head?.any isBlank && (decimalParts value).isSome &&
      (rest = [] || (stamp ≠ [] && stamp.all CodePoint.isDigit)) then some value
  else none

/-- The text before the last of a character, and the text after it. -/
def splitLast (separator : CodePoint) (t : Text) : Option (Text × Text) :=
  match Text.partition separator t.reverse with
  | (_, none) => none
  | (after, some before) => some (before.reverse, after.reverse)

/-- `_METRIC_LINE.fullmatch`, of a line: the text of the labels, if there are any, and that of
    the value. -/
def matchMetricLine (line : Text) : Option (Option Text × Text) :=
  let isNameChar (c : CodePoint) : Bool := isLabelChar c || c = 58
  let rest := line.dropWhile isNameChar
  if line.head?.any fun c => isNameChar c && !c.isDigit then
    if rest.head? = some 123 then do
      let (labels, rest) ← splitLast 125 rest.tail
      some (some labels, ← metricValue rest)
    else do some (none, ← metricValue rest)
  else none

/-- `line.split("{", 1)[0].split(None, 1)[0]`, if there is one. -/
def firstWord (line : Text) : Option Text :=
  match (line.takeWhile (· ≠ 123)).dropWhile CodePoint.isSpace with
  | [] => none
  | c :: t => some ((c :: t).takeWhile (!·.isSpace))

/-- An empty line or a comment. -/
def isSkipped (line : Text) : Bool := line = [] || line.head? = some 35

/-- A line with a character other than white space before its first brace. -/
def HasWord (line : Text) : Prop := ∃ c ∈ line.takeWhile (· ≠ 123), c.isSpace = false

namespace Correlator

variable (correlator : Correlator)

/-- What a line adds to the samples. -/
def readMetric (metricNames : List Text) (samples : List PrometheusSample) (line : Text) :
    Except CorrelationRaised (List PrometheusSample) :=
  if isSkipped line then .ok samples
  else
    match firstWord line with
    | none => .error .indexError
    | some name =>
      if name ∉ metricNames then .ok samples
      else
        match matchMetricLine line with
        | none => .error (.valueError (lit "Prometheus reliability metric is invalid"))
        | some (labels, value) => do
          let labels ← correlator.labels labels
          let value ← correlator.float value
          if ¬ (value.isFinite ∧ (PyFloat.finite 0).le value ∧
              value.le (.finite 1000000000000)) then
            .error (.valueError (lit "Prometheus reliability metric must be finite and bounded"))
          else if (name, labels) ∈ samples.map fun sample => (sample.name, sample.labels) then
            .error (.valueError (lit "Prometheus reliability metric series must be unique"))
          else .ok (samples ++ [⟨name, labels, value⟩])

/-- `_prometheus_samples`. -/
def prometheusSamples (source : Text) (metricNames : List Text) :
    Except CorrelationRaised (List PrometheusSample) := do
  let text ← boundedText source
  (splitlines text).foldlM (correlator.readMetric metricNames) []

/-- Every line of a bounded text that is neither empty nor a comment has a word before its first
    brace, as far as the lines before it are read. -/
def Worded (source : Text) (metricNames : List Text) : Prop :=
  boundedText source = .ok source →
    ∀ before line after samples, splitlines source = before ++ line :: after →
      before.foldlM (correlator.readMetric metricNames) [] = .ok samples →
        isSkipped line = false → HasWord line

/-! ## Counters -/

/-- `_metric_total`. -/
def metricTotal (samples : List PrometheusSample) (name : Text) (labels : List (Text × Text)) :
    PyFloat :=
  PyFloat.sum correlator.arithmetic.rounding
    ((samples.filter fun sample => sample.name = name && sample.hasLabels labels).map
      PrometheusSample.value)

/-- `_counter_delta`. -/
def counterDelta (before after : List PrometheusSample) (name : Text) (labels : List (Text × Text)) :
    Except CorrelationRaised ℕ :=
  let baseline := correlator.metricTotal before name labels
  let final := correlator.metricTotal after name labels
  let delta := final.sub correlator.arithmetic.rounding baseline
  if ¬ (baseline.isInteger ∧ final.isInteger ∧ (PyFloat.finite 1).le delta ∧
      delta.le (.finite (100000 : ℤ))) then
    .error (.valueError (lit "Prometheus reliability counter delta is invalid"))
  else do
    let n ← converted delta.toInt
    .ok n.toNat

/-! ## Histograms -/

/-- `buckets[boundary] += value`. -/
def addBucket (buckets : List (PyFloat × PyFloat)) (boundary value : PyFloat) :
    List (PyFloat × PyFloat) :=
  let add := PyFloat.add correlator.arithmetic.rounding
  if boundary ∈ buckets.map Prod.fst then
    buckets.map fun bucket => if bucket.1 = boundary then (boundary, add bucket.2 value) else bucket
  else buckets ++ [(boundary, add (.finite 0) value)]

/-- What a sample adds to the buckets. -/
def readBucket (name : Text) (labels : List (Text × Text)) (buckets : List (PyFloat × PyFloat))
    (sample : PrometheusSample) : Except CorrelationRaised (List (PyFloat × PyFloat)) :=
  if sample.name ≠ name ∨ sample.hasLabels labels = false then .ok buckets
  else
    match sample.labels.lookup (lit "le") with
    | none => .error (.valueError (lit "Prometheus histogram bucket is missing its boundary"))
    | some boundary =>
      match if boundary = lit "+Inf" then .ok .posInf else correlator.float boundary with
      | .error _ => .error (.valueError (lit "Prometheus histogram boundary is invalid"))
      | .ok parsedBoundary =>
        if parsedBoundary.le (.finite 0) ∨ parsedBoundary = .nan then
          .error (.valueError (lit "Prometheus histogram boundary is invalid"))
        else .ok (correlator.addBucket buckets parsedBoundary sample.value)

/-- `_histogram_buckets`. -/
def histogramBuckets (samples : List PrometheusSample) (name : Text) (labels : List (Text × Text)) :
    Except CorrelationRaised (List (PyFloat × PyFloat)) :=
  samples.foldlM (correlator.readBucket name labels) []

/-- What a boundary adds to the cumulative counts. -/
def readDelta (baseline final : List (PyFloat × PyFloat)) (count : ℕ) (deltas : List (PyFloat × ℤ))
    (boundary : PyFloat) : Except CorrelationRaised (List (PyFloat × ℤ)) :=
  let previous := (deltas.getLast?.map Prod.snd).getD 0
  let delta := ((final.lookup boundary).getD (.finite 0)).sub correlator.arithmetic.rounding
    ((baseline.lookup boundary).getD (.finite 0))
  if ¬ (delta.isInteger ∧ (PyFloat.finite previous).le delta ∧ delta.le (.finite count)) then
    .error (.valueError (lit "Prometheus reliability histogram delta is invalid"))
  else do
    let n ← converted delta.toInt
    .ok (deltas ++ [(boundary, n)])

/-- `_histogram_delta_p99`. -/
def histogramDeltaP99 (before after : List PrometheusSample) (bucketName countName : Text)
    (labels : List (Text × Text)) : Except CorrelationRaised (ℕ × PyFloat) := do
  let count ← correlator.counterDelta before after countName labels
  let baseline ← correlator.histogramBuckets before bucketName labels
  let final ← correlator.histogramBuckets after bucketName labels
  let boundaries := ((baseline ++ final).map Prod.fst).dedup.insertionSort fun a b => a.le b
  if boundaries.getLast? ≠ some .posInf then
    .error (.valueError (lit "Prometheus reliability histogram must contain +Inf"))
  else do
    let deltas ← boundaries.foldlM (correlator.readDelta baseline final count) []
    if (deltas.getLast?.map Prod.snd).getD 0 ≠ count then
      .error (.valueError (lit "Prometheus reliability histogram does not cover its count"))
    else do
      let rank ← converted (correlator.arithmetic.rank count)
      match deltas.find? fun item => rank ≤ item.2 with
      | none => .error (.valueError (lit "Prometheus reliability histogram cannot produce p99"))
      | some (boundary, _) =>
        if ¬ boundary.isFinite then
          .error (.valueError (lit "Prometheus reliability p99 exceeds the finite buckets"))
        else .ok (count, boundary.mul correlator.arithmetic.rounding (.finite 1000))

variable {correlator}

/-! ## What reading raises -/

/-- A text that begins with a quotation mark is a string, or no JSON. -/
theorem loads_quote {loader : Loader} {t : Text} {e : LoadError}
    (h : loader.loads (34 :: t) = .error e) : e = .decode := by
  have hskip : skipSpace (34 :: t) = 34 :: t := List.dropWhile_cons_of_neg (by decide)
  rw [Loader.loads, List.length_cons, Loader.value.eq_def] at h
  dsimp only at h
  rw [hskip, if_pos List.head?_cons, List.tail_cons, Loader.string] at h
  cases hstring : parseString t.length t with
  | none =>
    rw [hstring] at h
    cases h
    rfl
  | some result =>
    rw [hstring] at h
    dsimp only [Except.map] at h
    split_ifs at h
    cases h
    rfl

theorem labelValue_closed (encoded : Text) : Closed (correlator.labelValue encoded) := by
  rw [labelValue]
  split
  · exact closed_check rfl fun _ => raisesOnly_ok
  · exact raisesOnly_error.2 rfl
  · exact raisesOnly_error.2 rfl
  · exact raisesOnly_error.2 rfl
  · exact raisesOnly_error.2 rfl
  · next h => cases loads_quote h

theorem labelsFrom_closed (fuel : ℕ) (labels : List (Text × Text)) (t : Text) :
    Closed (correlator.labelsFrom fuel labels t) := by
  induction fuel generalizing labels t with
  | zero => exact raisesOnly_ok
  | succ fuel ih =>
    rw [labelsFrom]
    split_ifs
    · exact raisesOnly_ok
    · split
      · exact raisesOnly_error.2 rfl
      · next name encoded rest _ =>
        refine closed_check rfl fun _ => raisesOnly_bind.2 ⟨labelValue_closed encoded, ?_⟩
        intro decoded _
        split_ifs
        · exact raisesOnly_ok
        · exact raisesOnly_error.2 rfl
        · exact ih _ _

theorem labels_closed (value : Option Text) : Closed (correlator.labels value) :=
  raisesOnly_bind.2 ⟨labelsFrom_closed _ _ _, fun _ _ => raisesOnly_ok⟩

/-- A line has a word exactly when there is a first word. -/
theorem firstWord_eq_none_iff {line : Text} : firstWord line = none ↔ ¬ HasWord line := by
  have hspace : (line.takeWhile (· ≠ 123)).dropWhile CodePoint.isSpace = [] ↔ ¬ HasWord line := by
    rw [List.dropWhile_eq_nil_iff, HasWord]
    simp only [not_exists, not_and, Bool.not_eq_false]
  rw [firstWord, ← hspace]
  split
  · next h => exact iff_of_true rfl h
  · next c t h => exact iff_of_false (fun h => by cases h) fun h' => by cases h.symm.trans h'

/-- A line is read without another exception exactly when it has a word, or is skipped. -/
theorem readMetric_closed {metricNames : List Text} {samples : List PrometheusSample} {line : Text} :
    Closed (correlator.readMetric metricNames samples line) ↔
      (isSkipped line = false → HasWord line) := by
  rw [readMetric]
  cases hskip : isSkipped line with
  | true => exact iff_of_true raisesOnly_ok fun h => by cases h
  | false =>
    rw [if_neg Bool.false_ne_true, forall_prop_of_true rfl]
    -- A line of spaces that is not empty has no word, and its first one is not there to read.
    cases hword : firstWord line with
    | none => exact iff_of_false (fun h => Bool.false_ne_true (h _ rfl)) (firstWord_eq_none_iff.1 hword)
    | some name =>
      have hhas : HasWord line := by
        by_contra h
        cases hword.symm.trans (firstWord_eq_none_iff.2 h)
      refine iff_of_true ?_ hhas
      dsimp only
      split_ifs
      · split
        · exact raisesOnly_error.2 rfl
        · refine raisesOnly_bind.2 ⟨labels_closed _, fun labels _ => ?_⟩
          refine raisesOnly_bind.2 ⟨float_closed _, fun value _ => ?_⟩
          exact closed_check rfl fun _ => closed_check rfl fun _ => raisesOnly_ok
      · exact raisesOnly_ok

/-- Which texts of metrics are read without another exception. -/
theorem prometheusSamples_closed {source : Text} {metricNames : List Text} :
    Closed (correlator.prometheusSamples source metricNames) ↔
      correlator.Worded source metricNames := by
  refine raisesOnly_bind.trans ((and_iff_right (boundedText_closed source)).trans ?_)
  simp only [raisesOnly_foldlM, readMetric_closed]
  constructor
  · exact fun h hsource before line after samples hlines hbefore =>
      h source hsource before line after samples hlines hbefore
  · rintro h text htext before line after samples hlines hbefore
    obtain rfl := boundedText_eq_ok htext
    exact h htext before line after samples hlines hbefore

/-! ## What computing raises -/

/-- A delta that is an integer is converted to it. -/
theorem converted_toInt_closed {x : PyFloat} (h : x.isFinite = true) : Closed (converted x.toInt) := by
  obtain ⟨n, hn⟩ := PyFloat.toInt_of_isFinite h
  rw [hn]
  exact raisesOnly_ok

theorem counterDelta_closed {before after : List PrometheusSample} {name : Text}
    {labels : List (Text × Text)} : Closed (correlator.counterDelta before after name labels) := by
  rw [counterDelta]
  refine closed_check rfl fun h => raisesOnly_bind.2 ⟨?_, fun _ _ => raisesOnly_ok⟩
  have hbounds := (not_not.1 h).2.2
  exact converted_toInt_closed (PyFloat.isFinite_of_le hbounds.1 hbounds.2)

theorem counterDelta_le {before after : List PrometheusSample} {name : Text}
    {labels : List (Text × Text)} {n : ℕ}
    (h : correlator.counterDelta before after name labels = .ok n) : n ≤ 100000 := by
  rw [counterDelta] at h
  split_ifs at h with hbounds
  obtain ⟨m, hm, hn⟩ := bind_eq_ok.1 h
  cases hn
  have hle := PyFloat.toInt_le hbounds.2.2.2 (converted_eq_ok.1 hm)
  exact Int.toNat_le.2 hle

theorem histogramBuckets_closed {samples : List PrometheusSample} {name : Text}
    {labels : List (Text × Text)} : Closed (correlator.histogramBuckets samples name labels) := by
  refine raisesOnly_foldlM.2 fun _ sample _ buckets _ _ => ?_
  rw [readBucket]
  split_ifs
  · exact raisesOnly_ok
  · split
    · exact raisesOnly_error.2 rfl
    · split
      · exact raisesOnly_error.2 rfl
      · exact closed_check rfl fun _ => raisesOnly_ok

theorem readDelta_closed {baseline final : List (PyFloat × PyFloat)} {count : ℕ}
    {deltas : List (PyFloat × ℤ)} {boundary : PyFloat} :
    Closed (correlator.readDelta baseline final count deltas boundary) := by
  rw [readDelta]
  refine closed_check rfl fun h => raisesOnly_bind.2 ⟨?_, fun _ _ => raisesOnly_ok⟩
  exact converted_toInt_closed (PyFloat.isFinite_of_isInteger (not_not.1 h).1)

/-- The rank of a count of requests is computed. -/
theorem converted_rank_closed {n : ℕ} (h : n ≤ 100000) :
    Closed (converted (correlator.arithmetic.rank n)) := by
  obtain ⟨k, hk, -⟩ := correlator.arithmetic.rank_le (h.trans (by norm_num))
  rw [hk]
  exact raisesOnly_ok

theorem histogramDeltaP99_closed {before after : List PrometheusSample} {bucketName countName : Text}
    {labels : List (Text × Text)} :
    Closed (correlator.histogramDeltaP99 before after bucketName countName labels) := by
  refine raisesOnly_bind.2 ⟨counterDelta_closed, fun count hcount => ?_⟩
  refine raisesOnly_bind.2 ⟨histogramBuckets_closed, fun baseline _ => ?_⟩
  refine raisesOnly_bind.2 ⟨histogramBuckets_closed, fun final _ => closed_check rfl fun _ => ?_⟩
  refine raisesOnly_bind.2 ⟨?_, fun deltas _ => closed_check rfl fun _ => ?_⟩
  · exact raisesOnly_foldlM.2 fun _ _ _ _ _ _ => readDelta_closed
  refine raisesOnly_bind.2 ⟨converted_rank_closed (counterDelta_le hcount), fun rank _ => ?_⟩
  split
  · exact raisesOnly_error.2 rfl
  · exact closed_check rfl fun _ => raisesOnly_ok

end Correlator

end Reliability

end McpRuntime
