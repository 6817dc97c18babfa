import McpRuntime.Outbound.Client
import McpRuntime.Python.Dict
import McpRuntime.Machine

/-!
# The circuits of the outbound client

A client keeps a bounded table of circuits, one for each destination it has
sent to. A circuit counts the failures since the last success, opens when they
reach the threshold, and lets a single *probe* through once it has been open
for the recovery interval.

* `admitCircuit` admits a request, or refuses it; `recordCircuitFailure` and
  `recordCircuitSuccess` record how an admitted request ended, and
  `recordOutcome` says which outcomes count as failures.
* `client` is the client as a machine: requests to any destinations are
  admitted and finish in any order, with any outcome and any readings of the
  circuit clock.

What a step does is said once, by the moves of the client (`Move`), which
every step is (`clientStep_move`); the invariants of
`McpRuntime.Outbound.CircuitRuns` rest on them.
-/

namespace McpRuntime.Outbound

/-- The circuit of a destination. -/
structure CircuitState where
  failures : ℕ := 0
  openedAt : Option PyFloat := none
  probeInFlight : Bool := false
  deriving DecidableEq

/-- The circuits of a client (`_circuits`). -/
abbrev Circuits := Dict EgressDestination CircuitState

/-! ## The circuit clock -/

/-- What a call of the circuit clock does. -/
inductive ClockReading
  /-- It returns an `int` or a `float`. -/
  | value (x : PyFloat)
  /-- It returns a `bool`, or what is not a number. -/
  | notNumber
  /-- It raises `ValueError`. -/
  | raisesValueError
  /-- It raises another exception. -/
  | raises
  deriving DecidableEq

/-- An exception of `_circuit_now`. -/
inductive ClockError
  | valueError
  | other

/-- `_circuit_now`: the reading, if it is finite and not negative. -/
def circuitNow : ClockReading → Except ClockError ℚ
  | .value x => if !x.isFinite || x.lt (.finite 0) then .error .valueError else .ok x.toRat
  | .notNumber | .raisesValueError => .error .valueError
  | .raises => .error .other

/-! ## Admission -/

/-- The result of `_admit_circuit`. -/
inductive Admission
  /-- The request may send, as a half-open probe or not. -/
  | admitted (probe : Bool)
  /-- The request is refused as `UNAVAILABLE`, at the circuit limit. -/
  | refused
  /-- The exception of the clock is raised. -/
  | raised
  deriving DecidableEq

section
variable (limits : OutboundHTTPLimits) (rnd : Rounding)

/-- The time since a circuit has opened, as `_admit_circuit` takes it: `-1` for
    an unusable reading, and none when the exception of the clock is raised. -/
def recovered (openedAt : PyFloat) (now : ClockReading) : Option PyFloat :=
  match circuitNow now with
  | .ok now => some (PyFloat.sub rnd (.finite now) openedAt)
  | .error .valueError => some (.finite (-1))
  | .error .other => none

/-- `_admit_circuit`. -/
def admitCircuit (circuits : Circuits) (destination : EgressDestination) (now : ClockReading) :
    Circuits × Admission :=
  match circuits.lookup destination with
  | none =>
    if circuits.len ≥ limits.maxCircuitDestinations then (circuits, .refused)
    else (circuits.insert destination {}, .admitted false)
  | some state =>
    match state.openedAt with
    | none => (circuits, .admitted false)
    | some openedAt =>
      match recovered rnd openedAt now with
      | none => (circuits, .raised)
      | some recovered =>
        if recovered.lt (.finite limits.circuitRecoverySeconds) || state.probeInFlight then
          (circuits, .refused)
        else (circuits.insert destination { state with probeInFlight := true }, .admitted true)

/-! ## Outcomes -/

/-- `_record_circuit_failure`, on the circuit of the destination. -/
def failedEntry (state : CircuitState) (now : ClockReading) : CircuitState :=
  let state := { state with probeInFlight := false, failures := state.failures + 1 }
  if state.failures ≥ limits.circuitFailureThreshold then
    match circuitNow now with
    | .ok now => { state with openedAt := some (.finite now) }
    | .error .valueError => { state with openedAt := some .posInf }
    -- the exception of the clock is raised before the circuit opens
    | .error .other => state
  else state

/-- `_record_circuit_failure`. -/
def recordCircuitFailure (circuits : Circuits) (destination : EgressDestination)
    (now : ClockReading) : Circuits :=
  match circuits.lookup destination with
  | none => circuits
  | some state => circuits.insert destination (failedEntry limits state now)

/-- `_record_circuit_success`. -/
def recordCircuitSuccess (circuits : Circuits) (destination : EgressDestination) : Circuits :=
  circuits.erase destination

end

/-- The effect of an outcome on the circuit of the destination. -/
inductive CircuitEffect
  | failure
  | success
  /-- The outcome is not recorded. -/
  | unrecorded
  deriving DecidableEq

/-- `_CIRCUIT_FAILURE_STATUSES`. -/
def circuitFailureStatuses : List ℕ := [408, 425, 429, 500, 502, 503, 504]

/-- What the handlers of `request` record for an outcome. None of them handles
    a `CancelledError`. -/
def RequestOutcome.effect : RequestOutcome → CircuitEffect
  | .response status => if status ∈ circuitFailureStatuses then .failure else .success
  | .outboundError code =>
    if code ∈ [ErrorCode.overloaded, .timeout, .unavailable] then .failure else .success
  | .egressPolicyViolation => .success
  | .timeout => .failure
  | .redactionError => .success
  | .exception => .failure
  | .cancelled => .unrecorded

/-- The circuits after a request to `destination` has ended. -/
def recordOutcome (limits : OutboundHTTPLimits) (circuits : Circuits)
    (destination : EgressDestination) (outcome : RequestOutcome) (now : ClockReading) :
    Circuits :=
  match outcome.effect with
  | .failure => recordCircuitFailure limits circuits destination now
  | .success => recordCircuitSuccess circuits destination
  | .unrecorded => circuits

/-! ## The client as a machine -/

/-- A request that was admitted and has not ended. -/
structure Running where
  destination : EgressDestination
  /-- It was admitted as a half-open probe. -/
  probe : Bool
  deriving DecidableEq

/-- The circuits of a client and its running requests, by number. -/
structure ClientState where
  circuits : Circuits
  running : Dict ℕ Running

/-- An event of a client. -/
inductive ClientEvent
  /-- The request `r` to an authorized destination asks for admission. -/
  | request (r : ℕ) (destination : EgressDestination) (now : ClockReading)
  /-- The running request `r` ends. -/
  | finish (r : ℕ) (outcome : RequestOutcome) (now : ClockReading)

/-- The state after an event. -/
def clientStep (limits : OutboundHTTPLimits) (rnd : Rounding) (s : ClientState) :
    ClientEvent → Option ClientState
  | .request r destination now =>
    if r ∈ s.running then none
    else
      match admitCircuit limits rnd s.circuits destination now with
      | (circuits, .admitted probe) =>
        some ⟨circuits, s.running.insert r ⟨destination, probe⟩⟩
      | (circuits, _) => some ⟨circuits, s.running⟩
  | .finish r outcome now =>
    match s.running.lookup r with
    | none => none
    | some q =>
      some ⟨recordOutcome limits s.circuits q.destination outcome now, s.running.erase r⟩

/-- The client, from no circuit and no running request. -/
def client (limits : OutboundHTTPLimits) (rnd : Rounding) : Machine ClientState ClientEvent where
  init := ⟨∅, ∅⟩
  step := clientStep limits rnd

/-! ## What a step does -/

section
variable {limits : OutboundHTTPLimits} {rnd : Rounding}

/-- A circuit is open and a reading of the clock does not show it recovered. -/
def CircuitState.Unrecovered (limits : OutboundHTTPLimits) (rnd : Rounding)
    (state : CircuitState) (now : ClockReading) : Prop :=
  ∃ openedAt, state.openedAt = some openedAt ∧ ∀ q, circuitNow now = .ok q →
    (PyFloat.sub rnd (.finite q) openedAt).lt (.finite limits.circuitRecoverySeconds)

variable (limits) in
/-- The recovered time of a circuit is below the interval exactly when no
    reading shows the circuit recovered. -/
theorem recovered_lt_iff {c : CircuitState} {openedAt : PyFloat} (ho : c.openedAt = some openedAt)
    {now : ClockReading} {t : PyFloat} (ht : recovered rnd openedAt now = some t) :
    t.lt (.finite limits.circuitRecoverySeconds) ↔ c.Unrecovered limits rnd now := by
  rw [recovered] at ht
  rw [CircuitState.Unrecovered, ho]
  split at ht
  · next q hq =>
    obtain rfl := Option.some.inj ht
    constructor
    · intro h
      refine ⟨_, rfl, fun q' hq' => ?_⟩
      obtain rfl : q = q' := Except.ok.inj (hq.symm.trans hq')
      exact h
    · rintro ⟨_, ho', h⟩
      obtain rfl := Option.some.inj ho'
      exact h q hq
  · next hq =>
    obtain rfl := Option.some.inj ht
    have hpos := limits.circuitRecoverySeconds_range.1
    refine iff_of_true ?_ ⟨_, rfl, fun q hq' => ?_⟩
    · rw [PyFloat.lt_finite, decide_eq_true_iff]
      linarith
    · rw [hq] at hq'
      cases hq'
  · cases ht

variable (limits rnd) in
/-- What `_admit_circuit` does: it admits the first request to a destination
    while the table has room, any request while the circuit is closed, and one
    probe once an open circuit has recovered; it changes nothing otherwise. -/
theorem admitCircuit_cases (circuits : Circuits) (d : EgressDestination) (now : ClockReading) :
    (circuits.lookup d = none ∧ circuits.len < limits.maxCircuitDestinations ∧
      admitCircuit limits rnd circuits d now = (circuits.insert d {}, .admitted false)) ∨
    (circuits.lookup d = none ∧ limits.maxCircuitDestinations ≤ circuits.len ∧
      admitCircuit limits rnd circuits d now = (circuits, .refused)) ∨
    (∃ c, circuits.lookup d = some c ∧ c.openedAt = none ∧
      admitCircuit limits rnd circuits d now = (circuits, .admitted false)) ∨
    (∃ c, circuits.lookup d = some c ∧ c.openedAt.isSome ∧ c.probeInFlight = false ∧
      ¬ c.Unrecovered limits rnd now ∧ admitCircuit limits rnd circuits d now =
        (circuits.insert d { c with probeInFlight := true }, .admitted true)) ∨
    (∃ c, circuits.lookup d = some c ∧ c.openedAt.isSome ∧
      (c.probeInFlight ∨ c.Unrecovered limits rnd now) ∧
      (admitCircuit limits rnd circuits d now = (circuits, .refused) ∨
        admitCircuit limits rnd circuits d now = (circuits, .raised))) := by
  rw [admitCircuit]
  cases hc : circuits.lookup d with
  | none =>
    rcases lt_or_ge circuits.len limits.maxCircuitDestinations with hlt | hge
    · exact .inl ⟨rfl, hlt, if_neg hlt.not_ge⟩
    · exact .inr (.inl ⟨rfl, hge, if_pos hge⟩)
  | some c =>
    refine .inr (.inr ?_)
    cases ho : c.openedAt with
    | none => exact .inl ⟨c, rfl, ho, by simp only [ho]⟩
    | some openedAt =>
      refine .inr ?_
      have hopen : c.openedAt.isSome := Option.isSome_of_eq_some ho
      cases ht : recovered rnd openedAt now with
      | none =>
        -- no reading: the exception of the clock is raised
        have hnow : ∀ q, circuitNow now ≠ .ok q := fun q hq => by simp [recovered, hq] at ht
        exact .inr ⟨c, rfl, hopen, .inr ⟨_, ho, fun q hq => absurd hq (hnow q)⟩,
          .inr (by simp only [ho, ht])⟩
      | some t =>
        have hiff := recovered_lt_iff limits ho ht
        by_cases hlt : (t.lt (.finite limits.circuitRecoverySeconds) || c.probeInFlight) = true
        · refine .inr ⟨c, rfl, hopen, ?_, .inl (by simp only [ho, ht, hlt, if_true])⟩
          rw [Bool.or_eq_true] at hlt
          exact hlt.symm.imp_right hiff.1
        · refine .inl ⟨c, rfl, hopen, ?_, ?_, by simp only [ho, ht, hlt]; rfl⟩
          all_goals rw [Bool.or_eq_true, not_or] at hlt
          · exact Bool.eq_false_iff.2 hlt.2
          · exact fun h => hlt.1 (hiff.2 h)

/-- An outcome changes the circuit of its destination alone. -/
theorem recordOutcome_lookup_ne {circuits : Circuits} {d d' : EgressDestination} (h : d' ≠ d)
    (outcome : RequestOutcome) (now : ClockReading) :
    (recordOutcome limits circuits d outcome now).lookup d' = circuits.lookup d' := by
  rw [recordOutcome]
  cases outcome.effect with
  | failure =>
    simp only [recordCircuitFailure]
    split
    · rfl
    · rw [Dict.lookup_insert, if_neg h]
  | success => exact (Dict.lookup_erase ..).trans (if_neg h)
  | unrecorded => rfl

/-- The circuit of a destination after an outcome of a request to it. -/
theorem recordOutcome_lookup (circuits : Circuits) (d : EgressDestination)
    (outcome : RequestOutcome) (now : ClockReading) :
    (recordOutcome limits circuits d outcome now).lookup d =
      match outcome.effect with
      | .failure => (circuits.lookup d).map fun c => failedEntry limits c now
      | .success => none
      | .unrecorded => circuits.lookup d := by
  rw [recordOutcome]
  cases outcome.effect with
  | failure =>
    simp only [recordCircuitFailure]
    cases hc : circuits.lookup d with
    | none => simp only [hc, Option.map_none]
    | some c => simp only [Dict.lookup_insert, if_true, Option.map_some]
  | success => exact (Dict.lookup_erase ..).trans (if_pos rfl)
  | unrecorded => rfl

/-- A failure clears the mark of the probe. -/
@[simp] theorem failedEntry_probeInFlight (c : CircuitState) (now : ClockReading) :
    (failedEntry limits c now).probeInFlight = false := by
  simp only [failedEntry]
  split
  · split <;> rfl
  · rfl

/-- A failure is counted. -/
@[simp] theorem failedEntry_failures (c : CircuitState) (now : ClockReading) :
    (failedEntry limits c now).failures = c.failures + 1 := by
  simp only [failedEntry]
  split
  · split <;> rfl
  · rfl

/-- A move of the client: a request is turned away, or admitted as the first
    request to its destination, at a closed circuit or as a probe, or a running
    request ends. -/
inductive Move (limits : OutboundHTTPLimits) (rnd : Rounding) :
    ClientState → ClientEvent → ClientState → Prop
  | turnedAway {s : ClientState} {r : ℕ} {d : EgressDestination} {now : ClockReading} :
      Move limits rnd s (.request r d now) s
  | first {s : ClientState} {r : ℕ} {d : EgressDestination} {now : ClockReading} :
      s.running.lookup r = none → s.circuits.lookup d = none →
      Move limits rnd s (.request r d now)
        ⟨s.circuits.insert d {}, s.running.insert r ⟨d, false⟩⟩
  | closed {s : ClientState} {r : ℕ} {d : EgressDestination} {now : ClockReading}
      {c : CircuitState} :
      s.running.lookup r = none → s.circuits.lookup d = some c → c.openedAt = none →
      Move limits rnd s (.request r d now) ⟨s.circuits, s.running.insert r ⟨d, false⟩⟩
  | probe {s : ClientState} {r : ℕ} {d : EgressDestination} {now : ClockReading}
      {c : CircuitState} :
      s.running.lookup r = none → s.circuits.lookup d = some c → c.openedAt.isSome →
      c.probeInFlight = false →
      Move limits rnd s (.request r d now)
        ⟨s.circuits.insert d { c with probeInFlight := true }, s.running.insert r ⟨d, true⟩⟩
  | finish {s : ClientState} {r : ℕ} {q : Running} {outcome : RequestOutcome}
      {now : ClockReading} :
      s.running.lookup r = some q →
      Move limits rnd s (.finish r outcome now)
        ⟨recordOutcome limits s.circuits q.destination outcome now, s.running.erase r⟩

/-- Every step of the client is a move. -/
theorem clientStep_move {s s' : ClientState} {e : ClientEvent}
    (h : (client limits rnd).step s e = some s') : Move limits rnd s e s' := by
  cases e with
  | request r d now =>
    change clientStep limits rnd s (.request r d now) = some s' at h
    rw [clientStep] at h
    split_ifs at h with hr
    have hr : s.running.lookup r = none := AList.lookup_eq_none.2 hr
    rcases admitCircuit_cases limits rnd s.circuits d now with
      ⟨hc, -, ha⟩ | ⟨-, -, ha⟩ | ⟨c, hc, ho, ha⟩ | ⟨c, hc, ho, hp, -, ha⟩ | ⟨c, -, -, -, ha | ha⟩
    all_goals
      rw [ha] at h
      obtain rfl := Option.some.inj h
    · exact .first hr hc
    · exact .turnedAway
    · exact .closed hr hc ho
    · exact .probe hr hc ho hp
    · exact .turnedAway
    · exact .turnedAway
  | finish r outcome now =>
    change clientStep limits rnd s (.finish r outcome now) = some s' at h
    rw [clientStep] at h
    split at h
    · cases h
    · next q hq =>
      obtain rfl := Option.some.inj h
      exact .finish hq

end

end McpRuntime.Outbound
