import McpRuntime.Contracts
import McpRuntime.Python.Dict

/-!
# Observations

The checks that the runtime makes of its own observations: the identifiers in
metrics and logs, the bound on durations, and the structured log events. A log
event that fails its checks cannot be built.

* `isVisible_iff`: a bounded text (`IsText`) is visible unless it has the
  character `DEL`, which only the log event rejects.
-/

namespace McpRuntime

/-- `_DIMENSION`: a bounded identifier of low cardinality. -/
def isDimension : Text → Bool :=
  matchesName CodePoint.isAlphanumeric (fun c => c.isAlphanumeric || (lit "._/-").contains c) 128

/-- `_MAX_DURATION_SECONDS`. -/
def maxDurationSeconds : ℚ := 3600

/-- The check of a duration in `record_call` and in a log event. -/
def isDuration (seconds : PyFloat) : Bool :=
  seconds.isFinite && PyFloat.le (.finite 0) seconds && seconds.le (.finite maxDurationSeconds)

/-- The check of a request id in a log event: bounded visible text. -/
def isVisible (t : Text) : Bool :=
  1 ≤ t.length && t.length ≤ 256 && t.all fun c => 32 ≤ c.val && c.val ≠ 127

/-- What an operation is. -/
inductive RuntimeOperation
  | mcpRequest
  | toolCall
  | authorization
  | toolExecution
  | downstream
  deriving DecidableEq

/-- How an operation ends. -/
inductive RuntimeOutcome
  | success
  | policyRefusal
  | toolFailure
  | timeout
  | cancellation
  | overload
  | dependencyOutage
  | invalidInput
  | limitExceeded
  deriving DecidableEq

/-- A lowercase W3C trace identifier. -/
def isTraceId (t : Text) : Bool :=
  t.length = 32 && t.all fun c => c.isDigit || (97 ≤ c.val && c.val ≤ 102)

/-- The log event of a completed request. -/
structure RuntimeLogEvent where
  serverName : Text
  requestId : Text
  traceId : Option Text
  operation : RuntimeOperation
  toolName : Option Text
  outcome : RuntimeOutcome
  durationSeconds : PyFloat
  serverName_isDimension : isDimension serverName
  requestId_isVisible : isVisible requestId
  traceId_isTraceId : ∀ t ∈ traceId, isTraceId t
  toolName_isDimension : ∀ t ∈ toolName, isDimension t
  durationSeconds_isDuration : isDuration durationSeconds
  deriving DecidableEq

/-- The constructor of the log event of a completed request, which raises
    `ValueError` when a check fails. -/
def RuntimeLogEvent.create (serverName requestId : Text) (traceId : Option Text)
    (operation : RuntimeOperation) (toolName : Option Text) (outcome : RuntimeOutcome)
    (durationSeconds : PyFloat) : Option RuntimeLogEvent :=
  if h : isDimension serverName ∧ isVisible requestId ∧ (∀ t ∈ traceId, isTraceId t) ∧
      (∀ t ∈ toolName, isDimension t) ∧ isDuration durationSeconds then
    some {
      serverName, requestId, traceId, operation, toolName, outcome, durationSeconds
      serverName_isDimension := h.1
      requestId_isVisible := h.2.1
      traceId_isTraceId := h.2.2.1
      toolName_isDimension := h.2.2.2.1
      durationSeconds_isDuration := h.2.2.2.2 }
  else none

/-! ## Gauges -/

/-- `_MAX_TOOLS`. -/
def maxTools : ℕ := 128

/-- The in-flight gauges of the observability of a runtime, with the capacities
    they were first given, and its count of dropped events. -/
structure Gauges where
  serverCapacity : Option ℕ := none
  serverInFlight : ℤ := 0
  toolCapacity : Dict Text ℕ := ∅
  toolInFlight : Dict Text ℤ := ∅
  droppedEvents : ℕ := 0

namespace Gauges

/-- The in-flight gauge of a tool. -/
def ofTool (g : Gauges) (tool : Text) : ℤ := (g.toolInFlight.lookup tool).getD 0

/-- An event that is dropped. -/
def drop (g : Gauges) : Gauges := { g with droppedEvents := g.droppedEvents + 1 }

/-- The gauges move by `delta`, unless one of them would leave its range. -/
def move (g : Gauges) (tool : Text) (delta : ℤ) (serverCapacity toolCapacity : ℕ) : Gauges :=
  let nextServer := g.serverInFlight + delta
  let nextTool := g.ofTool tool + delta
  if (0 ≤ nextServer ∧ nextServer ≤ serverCapacity) ∧ 0 ≤ nextTool ∧ nextTool ≤ toolCapacity then
    { g with serverInFlight := nextServer, toolInFlight := g.toolInFlight.insert tool nextTool }
  else g.drop

/-- `change_in_flight`, which raises `ValueError` (`none`) for arguments out of
    range. Its exporter is not the runtime's own. -/
def changeInFlight (g : Gauges) (tool : Text) (delta : ℤ) (serverCapacity toolCapacity : ℕ) :
    Option Gauges :=
  if ¬ isDimension tool ∨ (delta ≠ -1 ∧ delta ≠ 1) ∨
      ¬ ((1 ≤ serverCapacity ∧ serverCapacity ≤ 256) ∧ 1 ≤ toolCapacity ∧ toolCapacity ≤ 128) then
    none
  else some <|
    -- the first capacity stays: a change with another one is dropped
    match g.serverCapacity, g.toolCapacity.lookup tool with
    | some capacity, known =>
      if capacity ≠ serverCapacity then g.drop
      else changeTool g known
    | none, known => changeTool { g with serverCapacity := some serverCapacity } known
where
  /-- The rest of the change, for a tool with a capacity or without. -/
  changeTool (g : Gauges) : Option ℕ → Gauges
    | none =>
      if maxTools ≤ g.toolCapacity.len then g.drop
      else
        { g with
          toolCapacity := g.toolCapacity.insert tool toolCapacity
          toolInFlight := g.toolInFlight.insert tool 0 }.move tool delta serverCapacity toolCapacity
    | some capacity =>
      if capacity ≠ toolCapacity then g.drop
      else g.move tool delta serverCapacity toolCapacity

/-- A change of arguments in range does not raise. -/
theorem changeInFlight_isSome (g : Gauges) {tool : Text} {delta : ℤ}
    {serverCapacity toolCapacity : ℕ} (htool : isDimension tool) (hdelta : delta = -1 ∨ delta = 1)
    (hserver : 1 ≤ serverCapacity ∧ serverCapacity ≤ 256)
    (hcapacity : 1 ≤ toolCapacity ∧ toolCapacity ≤ 128) :
    (g.changeInFlight tool delta serverCapacity toolCapacity).isSome := by
  have hdelta : ¬ (delta ≠ -1 ∧ delta ≠ 1) := by omega
  rw [changeInFlight, if_neg (by simp [htool, hdelta, hserver, hcapacity])]
  rfl

/-- The gauges are moved by `delta`, of a tool with this capacity. -/
structure Moved (g g' : Gauges) (tool : Text) (delta : ℤ) (toolCapacity : ℕ) : Prop where
  server : g'.serverInFlight = g.serverInFlight + delta
  ofTool : ∀ t, g'.ofTool t = if t = tool then g.ofTool tool + delta else g.ofTool t
  toolCapacity : ∀ t, g'.toolCapacity.lookup t =
    if t = tool then some toolCapacity else g.toolCapacity.lookup t

/-- The gauge of a tool after the gauge of another one was set. -/
theorem getD_lookup_insert (d : Dict Text ℤ) (tool t : Text) (n : ℤ) :
    ((d.insert tool n).lookup t).getD 0 = if t = tool then n else (d.lookup t).getD 0 := by
  rw [Dict.lookup_insert]
  split_ifs <;> rfl

/-- A change of a tool that is known, or for which there is room, moves the
    gauges. -/
theorem changeTool_moved {g : Gauges} {tool : Text} {delta : ℤ} (serverCapacity : ℕ) {toolCapacity : ℕ}
    (hcapacity : ∀ capacity ∈ g.toolCapacity.lookup tool, capacity = toolCapacity)
    (hknown : tool ∈ g.toolCapacity ∨ (g.toolCapacity.len < maxTools ∧ g.ofTool tool = 0))
    (hrange : (0 ≤ g.serverInFlight + delta ∧ g.serverInFlight + delta ≤ serverCapacity) ∧
      0 ≤ g.ofTool tool + delta ∧ g.ofTool tool + delta ≤ toolCapacity) :
    let g' := changeInFlight.changeTool tool delta serverCapacity toolCapacity g
      (g.toolCapacity.lookup tool)
    Moved g g' tool delta toolCapacity ∧ g'.serverCapacity = g.serverCapacity := by
  cases hl : g.toolCapacity.lookup tool with
  | none =>
    -- the gauge of a new tool starts at zero
    obtain ⟨hroom, hzero⟩ := hknown.resolve_left (AList.lookup_eq_none.1 hl)
    have hnew : ((g.toolInFlight.insert tool 0).lookup tool).getD 0 = 0 := by
      rw [getD_lookup_insert, if_pos rfl]
    rw [hzero] at hrange
    simp only [changeInFlight.changeTool, if_neg (Nat.not_le.2 hroom), move, Gauges.ofTool, hnew,
      if_pos hrange]
    refine ⟨⟨rfl, fun t => ?_, fun t => Dict.lookup_insert _ _ _ _⟩, trivial⟩
    simp only [Gauges.ofTool, getD_lookup_insert] at hzero ⊢
    split_ifs
    · rw [hzero]
    · rfl
  | some capacity =>
    obtain rfl := hcapacity capacity hl
    simp only [changeInFlight.changeTool, ne_eq, not_true, if_false, move, if_pos hrange]
    refine ⟨⟨rfl, fun t => getD_lookup_insert _ _ _ _, fun t => ?_⟩, trivial⟩
    split_ifs with ht
    · rw [ht, hl]
    · rfl

/-- A change with the capacities that the gauges have, of a tool that is known or
    for which there is room, moves the gauges. -/
theorem changeInFlight_moved {g g' : Gauges} {tool : Text} {delta : ℤ}
    {serverCapacity toolCapacity : ℕ}
    (h : g.changeInFlight tool delta serverCapacity toolCapacity = some g')
    (hserver : ∀ capacity ∈ g.serverCapacity, capacity = serverCapacity)
    (hcapacity : ∀ capacity ∈ g.toolCapacity.lookup tool, capacity = toolCapacity)
    (hknown : tool ∈ g.toolCapacity ∨ (g.toolCapacity.len < maxTools ∧ g.ofTool tool = 0))
    (hrange : (0 ≤ g.serverInFlight + delta ∧ g.serverInFlight + delta ≤ serverCapacity) ∧
      0 ≤ g.ofTool tool + delta ∧ g.ofTool tool + delta ≤ toolCapacity) :
    Moved g g' tool delta toolCapacity ∧ g'.serverCapacity = some serverCapacity := by
  rw [changeInFlight] at h
  split_ifs at h
  have h := Option.some.inj h
  cases hs : g.serverCapacity with
  | none =>
    rw [hs] at h
    subst h
    have hmoved := changeTool_moved (g := { g with serverCapacity := some serverCapacity }) serverCapacity
      hcapacity hknown hrange
    exact ⟨⟨hmoved.1.server, hmoved.1.ofTool, hmoved.1.toolCapacity⟩, hmoved.2⟩
  | some capacity =>
    obtain rfl := hserver capacity hs
    rw [hs] at h
    simp only [ne_eq, not_true, if_false] at h
    subst h
    have hmoved := changeTool_moved capacity hcapacity hknown hrange
    exact ⟨hmoved.1, hmoved.2.trans hs⟩

end Gauges

/-- The name of a tool is an identifier for metrics and logs. -/
theorem isDimension_of_isToolName {t : Text} (h : isToolName t) : isDimension t := by
  cases t with
  | nil => cases h
  | cons c t =>
    simp only [isToolName, isDimension, matchesName, Bool.and_eq_true, List.all_eq_true] at h ⊢
    refine ⟨⟨h.1.1.1, fun d hd => ?_⟩, h.2⟩
    have hd := h.1.2 d hd
    rw [Bool.or_eq_true] at hd ⊢
    refine hd.imp_right fun hc => ?_
    rw [List.contains_iff_mem] at hc ⊢
    have hsub : lit "_.-" ⊆ lit "._/-" := by decide
    exact hsub hc

/-- A bounded text is visible unless it has the character `DEL`. -/
theorem isVisible_iff {t : Text} (h : IsText 256 t) : isVisible t ↔ 127 ∉ t := by
  obtain ⟨hne, -, hlength, hcontrol⟩ := h
  have hpos : 1 ≤ t.length := List.length_pos_iff.2 hne
  simp only [isVisible, hpos, hlength, decide_true, Bool.true_and, List.all_eq_true,
    Bool.and_eq_true, decide_eq_true_eq]
  constructor
  · exact fun hall hmem => (hall 127 hmem).2 rfl
  · exact fun hdel c hc => ⟨hcontrol c hc, fun h127 =>
      have hc127 : c = 127 := Fin.ext h127
      hdel (hc127 ▸ hc)⟩

end McpRuntime
