import McpRuntime.Outbound.Circuit
import Mathlib.Data.Finset.Card

/-!
# The circuits over the runs of the client

What holds in every state a client reaches, whatever requests are admitted and
in whatever order they end.

* `probe_flag_released`: while no probe is cancelled as the only one, a mark
  of a probe in flight belongs to a running probe, so that an open circuit
  without running requests lets a probe through once it has recovered. A
  cancelled probe leaves its mark behind (`cancelled_probe_wedges`).
* `single_probe`: while no outcome arrives beside a running probe, a
  destination has at most one probe in flight and admits nothing else
  meanwhile. The late failure of a request admitted before the circuit opened
  clears the mark (`late_failure_admits_second_probe`).
* `refused_of_circuit`: without cancellations, a request is refused only for
  its own circuit, or for a table filled by destinations that are running or
  failing. A destination may hold a place in the table by a single failure
  (`failing_destination_blocks`).
-/

namespace McpRuntime.Outbound

variable {limits : OutboundHTTPLimits} {rnd : Rounding}

namespace ClientState

/-- The request `r` is a running probe of the destination `d`. -/
def Probing (s : ClientState) (d : EgressDestination) (r : ℕ) : Prop :=
  s.running.lookup r = some ⟨d, true⟩

/-- A request to the destination `d` is running. -/
def Busy (s : ClientState) (d : EgressDestination) : Prop :=
  ∃ r q, s.running.lookup r = some q ∧ q.destination = d

/-- Requests to the destination `d` have failed since the last success. -/
def Failing (s : ClientState) (d : EgressDestination) : Prop :=
  ∃ c, s.circuits.lookup d = some c ∧ 0 < c.failures

/-- Every mark of a probe in flight belongs to a running probe. -/
def MarksHeld (s : ClientState) : Prop :=
  ∀ d c, s.circuits.lookup d = some c → c.probeInFlight = true → ∃ r, s.Probing d r

end ClientState

/-! ## Guards -/

/-- The event does not cancel the only running probe of a destination whose
    circuit is marked. -/
def KeepsProbe (s : ClientState) : ClientEvent → Prop
  | .finish r .cancelled _ => ∀ q ∈ s.running.lookup r, q.probe = true →
      ∀ c ∈ s.circuits.lookup q.destination, c.probeInFlight = true →
        ∃ r' ∈ s.running.keys, r' ≠ r ∧ s.Probing q.destination r'
  | _ => True

/-- The event records no outcome of a request beside a running probe of its
    destination. -/
def NoLateOutcome (s : ClientState) : ClientEvent → Prop
  | .finish r outcome _ => outcome.effect ≠ .unrecorded → ∀ q ∈ s.running.lookup r,
      ∀ r' ∈ s.running.keys, r' ≠ r → ¬ s.Probing q.destination r'
  | _ => True

/-- The event cancels no request. -/
def NoCancellation (_ : ClientState) : ClientEvent → Prop
  | .finish _ outcome _ => outcome ≠ .cancelled
  | _ => True

instance (s : ClientState) (d : EgressDestination) (r : ℕ) : Decidable (s.Probing d r) := by
  unfold ClientState.Probing; infer_instance

instance (s : ClientState) : DecidablePred (KeepsProbe s) := fun e => by
  unfold KeepsProbe; split <;> infer_instance

instance (s : ClientState) : DecidablePred (NoLateOutcome s) := fun e => by
  unfold NoLateOutcome; split <;> infer_instance

instance (s : ClientState) : DecidablePred (NoCancellation s) := fun e => by
  unfold NoCancellation; split <;> infer_instance

/-- Without cancellations, no probe is cancelled. -/
theorem NoCancellation.keepsProbe {s : ClientState} {e : ClientEvent}
    (h : NoCancellation s e) : KeepsProbe s e := by
  cases e with
  | request => trivial
  | finish r outcome now =>
    cases outcome with
    | cancelled => exact absurd rfl h
    | response | outboundError | egressPolicyViolation | timeout | redactionError | exception =>
      trivial

/-- Only a cancellation is not recorded. -/
theorem effect_eq_unrecorded {outcome : RequestOutcome} (h : outcome.effect = .unrecorded) :
    outcome = .cancelled := by
  cases outcome with
  | cancelled => rfl
  | response status => rw [RequestOutcome.effect] at h; split_ifs at h
  | outboundError code => rw [RequestOutcome.effect] at h; split_ifs at h
  | egressPolicyViolation | timeout | redactionError | exception => cases h

/-! ## Example clients -/

/-- A usable reading of the circuit clock. -/
def tick (q : ℚ) : ClockReading := .value (.finite q)

/-- The circuit opens by a failure, and a probe is admitted once it has
    recovered. -/
def probeEvents : List ClientEvent :=
  [.request 0 billing (tick 0), .finish 0 .timeout (tick 0), .request 1 billing (tick 5)]

/-! ## Running requests -/

section
variable {circuits circuits' : Circuits} {running : Dict ℕ Running} {d d' : EgressDestination}
  {r r' : ℕ} {q : Running}

theorem ClientState.probing_iff {s : ClientState} :
    s.Probing d r ↔ s.running.lookup r = some ⟨d, true⟩ := .rfl

/-- A running probe is still running after another request was admitted. -/
theorem ClientState.Probing.insert (h : (ClientState.mk circuits running).Probing d r')
    (hr : running.lookup r = none) :
    (ClientState.mk circuits' (running.insert r q)).Probing d r' := by
  have hne : r' ≠ r := fun he => by
    rw [ClientState.probing_iff, he, hr] at h
    cases h
  rwa [ClientState.probing_iff, Dict.lookup_insert, if_neg hne]

/-- A running probe is still running after another request has ended. -/
theorem ClientState.Probing.erase (h : (ClientState.mk circuits running).Probing d r')
    (hne : r' ≠ r) : (ClientState.mk circuits' (running.erase r)).Probing d r' := by
  rwa [ClientState.probing_iff, Dict.lookup_erase, if_neg hne]

variable (circuits) in
/-- A probe that is running after a request has ended is another request. -/
theorem ClientState.Probing.of_erase
    (h : (ClientState.mk circuits' (running.erase r)).Probing d r') :
    r' ≠ r ∧ (ClientState.mk circuits running).Probing d r' := by
  rw [ClientState.probing_iff, Dict.lookup_erase] at h
  split_ifs at h with hne
  exact ⟨hne, h⟩

variable (circuits) in
/-- A probe that is running after a request was admitted is that request or
    was running before. -/
theorem ClientState.Probing.of_insert
    (h : (ClientState.mk circuits' (running.insert r q)).Probing d r') :
    (r' = r ∧ q = ⟨d, true⟩) ∨ (ClientState.mk circuits running).Probing d r' := by
  rw [ClientState.probing_iff, Dict.lookup_insert] at h
  split_ifs at h with he
  · exact .inl ⟨he, Option.some.inj h⟩
  · exact .inr h

variable (circuits) in
/-- A request admitted at a closed circuit adds no probe. -/
theorem ClientState.Probing.of_insert_closed
    (h : (ClientState.mk circuits' (running.insert r ⟨d', false⟩)).Probing d r') :
    (ClientState.mk circuits running).Probing d r' := by
  rcases h.of_insert circuits with ⟨-, hq⟩ | h
  · cases hq
  · exact h

/-- An admitted request keeps its destination busy. -/
theorem ClientState.busy_insert :
    (ClientState.mk circuits (running.insert r q)).Busy q.destination :=
  ⟨r, q, by rw [Dict.lookup_insert, if_pos rfl], rfl⟩

/-- A busy destination is still busy after another request was admitted. -/
theorem ClientState.Busy.insert (h : (ClientState.mk circuits running).Busy d)
    (hr : running.lookup r = none) :
    (ClientState.mk circuits' (running.insert r q)).Busy d := by
  obtain ⟨r', q', hq', hd'⟩ := h
  have hne : r' ≠ r := fun he => by
    rw [he, hr] at hq'
    cases hq'
  exact ⟨r', q', by rwa [Dict.lookup_insert, if_neg hne], hd'⟩

/-- A busy destination is still busy after a request to another one has ended. -/
theorem ClientState.Busy.erase (h : (ClientState.mk circuits running).Busy d)
    (hq : running.lookup r = some q) (hd : q.destination ≠ d) :
    (ClientState.mk circuits' (running.erase r)).Busy d := by
  obtain ⟨r', q', hq', hd'⟩ := h
  have hne : r' ≠ r := fun he => by
    rw [he, hq] at hq'
    exact hd ((congrArg Running.destination (Option.some.inj hq')).trans hd')
  exact ⟨r', q', by rwa [Dict.lookup_erase, if_neg hne], hd'⟩

end

/-! ## Marks -/

/-- The marks stay with running probes. -/
theorem marksHeld_step {s s' : ClientState} {e : ClientEvent} (hi : s.MarksHeld)
    (hg : KeepsProbe s e) (hm : Move limits rnd s e s') : s'.MarksHeld := by
  intro d' c' hc' hp'
  cases hm with
  | turnedAway => exact hi d' c' hc' hp'
  | first hr hc =>
    rw [Dict.lookup_insert] at hc'
    split_ifs at hc' with hd
    · obtain rfl := Option.some.inj hc'
      cases hp'
    · obtain ⟨r', hr'⟩ := hi d' c' hc' hp'
      exact ⟨r', hr'.insert hr⟩
  | closed hr hc ho =>
    obtain ⟨r', hr'⟩ := hi d' c' hc' hp'
    exact ⟨r', hr'.insert hr⟩
  | @probe r d now c hr hc ho hp =>
    rw [Dict.lookup_insert] at hc'
    split_ifs at hc' with hd
    · exact ⟨r, by rw [hd, ClientState.probing_iff, Dict.lookup_insert, if_pos rfl]⟩
    · obtain ⟨r', hr'⟩ := hi d' c' hc' hp'
      exact ⟨r', hr'.insert hr⟩
  | @finish r q outcome now hq =>
    by_cases hd : d' = q.destination
    · subst hd
      rw [recordOutcome_lookup] at hc'
      cases he : outcome.effect with
      | failure =>
        rw [he] at hc'
        obtain ⟨c, -, rfl⟩ := Option.map_eq_some_iff.1 hc'
        rw [failedEntry_probeInFlight] at hp'
        cases hp'
      | success => rw [he] at hc'; cases hc'
      | unrecorded =>
        -- the mark stays, so another probe has to hold it
        rw [he] at hc'
        obtain rfl := effect_eq_unrecorded he
        obtain ⟨r', hr'⟩ := hi _ c' hc' hp'
        by_cases hrr : r' = r
        · rw [hrr] at hr'
          have hprobe := congrArg Running.probe (Option.some.inj (hq.symm.trans hr'))
          obtain ⟨r'', -, hne, hr''⟩ := hg _ hq hprobe c' hc' hp'
          exact ⟨r'', hr''.erase hne⟩
        · exact ⟨r', hr'.erase hrr⟩
    · rw [recordOutcome_lookup_ne hd] at hc'
      obtain ⟨r', hr'⟩ := hi d' c' hc' hp'
      have hne : r' ≠ r := fun h => by
        rw [ClientState.probing_iff, h, hq] at hr'
        exact hd (congrArg Running.destination (Option.some.inj hr')).symm
      exact ⟨r', hr'.erase hne⟩

/-- In a run that cancels no probe that is the only one of its destination,
    every mark belongs to a running probe. -/
theorem marksHeld_of_run {h : List ClientEvent} {s : ClientState}
    (hr : (client limits rnd).Run KeepsProbe h s) : s.MarksHeld :=
  hr.invariant (fun _ _ hc => by cases hc) fun _ _ _ hi hg hs =>
    marksHeld_step hi hg (clientStep_move hs)

/-- A cancellation that does not keep the probe leaves a mark without one. -/
theorem not_marksHeld_of_cancelled {s s' : ClientState} {e : ClientEvent}
    (hs : (client limits rnd).step s e = some s') (hg : ¬ KeepsProbe s e) : ¬ s'.MarksHeld := by
  cases clientStep_move hs with
  | turnedAway | first | closed | probe => exact absurd trivial hg
  | @finish r q outcome now hq =>
    cases outcome with
    | cancelled =>
      intro hheld
      refine hg fun q' hq' _ c hc hm => ?_
      obtain rfl := Option.some.inj (hq.symm.trans hq')
      obtain ⟨r', hr'⟩ := hheld _ c hc hm
      obtain ⟨hne, hr'⟩ := hr'.of_erase s.circuits
      exact ⟨r', Dict.mem_keys_of_lookup hr', hne, hr'⟩
    | response | outboundError | egressPolicyViolation | timeout | redactionError | exception =>
      exact absurd trivial hg

/-- A circuit that is open, is not marked and is shown recovered lets a probe
    through. -/
theorem admitted_of_recovered {s : ClientState} {d : EgressDestination} {c : CircuitState}
    (hc : s.circuits.lookup d = some c) (ho : c.openedAt.isSome) (hp : c.probeInFlight = false)
    {now : ClockReading} (hnow : ¬ c.Unrecovered limits rnd now) :
    (admitCircuit limits rnd s.circuits d now).2 = .admitted true := by
  rcases admitCircuit_cases limits rnd s.circuits d now with
    ⟨hn, -⟩ | ⟨hn, -⟩ | ⟨c', hc', ho', -⟩ | ⟨_, -, -, -, -, ha⟩ | ⟨c', hc', -, hp', -⟩
  · rw [hn] at hc; cases hc
  · rw [hn] at hc; cases hc
  · obtain rfl := Option.some.inj (hc.symm.trans hc')
    rw [ho'] at ho; cases ho
  · rw [ha]
  · obtain rfl := Option.some.inj (hc.symm.trans hc')
    rcases hp' with hp' | hu
    · rw [hp] at hp'; cases hp'
    · exact absurd hu hnow

/-- While no probe is cancelled as the only one of its destination, a mark of a
    probe in flight belongs to a running probe; hence a destination whose
    circuit is open and has recovered admits the next request when it has no
    running one. -/
theorem probe_flag_released {h : List ClientEvent} {s : ClientState}
    (hr : (client limits rnd).Run KeepsProbe h s) :
    (∀ d c, s.circuits.lookup d = some c → c.probeInFlight = true → ∃ r, s.Probing d r) ∧
    ∀ d c now, s.circuits.lookup d = some c → c.openedAt.isSome →
      ¬ c.Unrecovered limits rnd now → ¬ s.Busy d →
      (admitCircuit limits rnd s.circuits d now).2 = .admitted true := by
  have hheld := marksHeld_of_run hr
  refine ⟨hheld, fun d c now hc ho hnow hbusy => admitted_of_recovered hc ho ?_ hnow⟩
  rw [Bool.eq_false_iff]
  intro hp
  obtain ⟨r, hr⟩ := hheld d c hc hp
  exact hbusy ⟨r, _, hr, rfl⟩

theorem probe_flag_released_example :
    ∃ h s, (client eagerLimits .finite).Run KeepsProbe h s ∧ ∃ r, s.Probing billing r := by
  have heval : ∃ s ∈ (client eagerLimits .finite).exec (client eagerLimits .finite).init probeEvents,
      (client eagerLimits .finite).Meets KeepsProbe (client eagerLimits .finite).init probeEvents ∧
      s.circuits.lookup billing = some ⟨1, some (.finite 0), true⟩ := by decide +kernel
  obtain ⟨s, hs, hmeets, hc⟩ := heval
  have hr := Machine.run_of_exec hs hmeets
  exact ⟨_, s, hr, (probe_flag_released hr).1 billing _ hc rfl⟩

/-- A client without running requests is busy with no destination. -/
theorem not_busy_of_keys {s : ClientState} (h : s.running.keys = []) (d : EgressDestination) :
    ¬ s.Busy d := by
  rintro ⟨r, q, hq, -⟩
  have := Dict.mem_keys_of_lookup hq
  rw [h] at this
  cases this

/-- A probe that is cancelled leaves its mark: no request is running, the open
    interval has long elapsed, and the next request is refused. -/
theorem cancelled_probe_wedges :
    ∃ h s c, (client eagerLimits .finite).Run Machine.Free h s ∧
      s.circuits.lookup billing = some c ∧ c.probeInFlight = true ∧
      (∀ r, ¬ s.Probing billing r) ∧ ¬ s.Busy billing ∧
      c.openedAt.isSome ∧ ¬ c.Unrecovered eagerLimits .finite (tick 1000) ∧
      (admitCircuit eagerLimits .finite s.circuits billing (tick 1000)).2 = .refused := by
  have heval : ∃ s ∈ (client eagerLimits .finite).exec (client eagerLimits .finite).init
        (probeEvents ++ [.finish 1 .cancelled (tick 5)]),
      s.running.keys = [] ∧ s.circuits.lookup billing = some ⟨1, some (.finite 0), true⟩ ∧
      (admitCircuit eagerLimits .finite s.circuits billing (tick 1000)).2 = .refused := by
    decide +kernel
  obtain ⟨s, hs, hk, hc, ha⟩ := heval
  have hidle := not_busy_of_keys hk billing
  refine ⟨_, s, _, Machine.run_of_exec hs (Machine.meets_free _ _), hc, rfl,
    fun r hr => hidle ⟨r, _, hr, rfl⟩, hidle, rfl, ?_, ha⟩
  rintro ⟨openedAt, ho, hu⟩
  obtain rfl := Option.some.inj ho
  have := hu 1000 rfl
  revert this
  decide +kernel

/-! ## Single probes -/

/-- A running probe is the only one of its destination, whose circuit is open
    and marked. -/
structure ClientState.ProbesMarked (s : ClientState) : Prop where
  marked : ∀ d r, s.Probing d r →
    ∃ c, s.circuits.lookup d = some c ∧ c.openedAt.isSome ∧ c.probeInFlight = true
  unique : ∀ d r r', s.Probing d r → s.Probing d r' → r = r'

/-- A destination whose circuit is open and marked admits nothing. -/
theorem not_admitted_of_marked {s : ClientState} {d : EgressDestination} {c : CircuitState}
    (hc : s.circuits.lookup d = some c) (ho : c.openedAt.isSome) (hp : c.probeInFlight = true)
    (now : ClockReading) (probe : Bool) :
    (admitCircuit limits rnd s.circuits d now).2 ≠ .admitted probe := by
  rcases admitCircuit_cases limits rnd s.circuits d now with
    ⟨hn, -⟩ | ⟨hn, -⟩ | ⟨c', hc', ho', -⟩ | ⟨c', hc', -, hp', -⟩ | ⟨_, -, -, -, ha | ha⟩
  · rw [hn] at hc; cases hc
  · rw [hn] at hc; cases hc
  · obtain rfl := Option.some.inj (hc.symm.trans hc')
    rw [ho'] at ho; cases ho
  · obtain rfl := Option.some.inj (hc.symm.trans hc')
    rw [hp'] at hp; cases hp
  · rw [ha]; nofun
  · rw [ha]; nofun

/-- The running probes stay marked and single. -/
theorem probesMarked_step {s s' : ClientState} {e : ClientEvent} (hi : s.ProbesMarked)
    (hg : NoLateOutcome s e) (hm : Move limits rnd s e s') : s'.ProbesMarked := by
  cases hm with
  | turnedAway => exact hi
  | @first r d now hr hc =>
    refine ⟨fun d' r' h' => ?_, fun d' r' r'' h' h'' => hi.unique _ _ _
      (h'.of_insert_closed s.circuits) (h''.of_insert_closed s.circuits)⟩
    obtain ⟨c', hc', hp'⟩ := hi.marked d' r' (h'.of_insert_closed s.circuits)
    refine ⟨c', ?_, hp'⟩
    rw [Dict.lookup_insert, if_neg (fun hd => by rw [hd, hc] at hc'; cases hc')]
    exact hc'
  | @closed r d now c hr hc ho =>
    exact ⟨fun d' r' h' => hi.marked d' r' (h'.of_insert_closed s.circuits),
      fun d' r' r'' h' h'' => hi.unique _ _ _ (h'.of_insert_closed s.circuits)
        (h''.of_insert_closed s.circuits)⟩
  | @probe r d now c hr hc ho hp =>
    -- the circuit of `d` was not marked, so `d` had no running probe
    have hnone : ∀ r', ¬ s.Probing d r' := fun r' h' => by
      obtain ⟨c', hc', -, hp'⟩ := hi.marked d r' h'
      obtain rfl := Option.some.inj (hc.symm.trans hc')
      rw [hp] at hp'
      cases hp'
    have hold : ∀ d' r', ClientState.Probing ⟨s.circuits.insert d { c with probeInFlight := true },
        s.running.insert r ⟨d, true⟩⟩ d' r' → (d' = d ∧ r' = r) ∨ (d' ≠ d ∧ s.Probing d' r') := by
      intro d' r' h'
      rcases h'.of_insert s.circuits with ⟨hr', hq⟩ | h'
      · exact .inl ⟨(congrArg Running.destination hq).symm, hr'⟩
      · exact .inr ⟨fun hd => hnone r' (hd ▸ h'), h'⟩
    constructor
    · intro d' r' h'
      rcases hold d' r' h' with ⟨hd, -⟩ | ⟨hd, h'⟩
      · exact ⟨{ c with probeInFlight := true }, by rw [Dict.lookup_insert, if_pos hd], ho, rfl⟩
      · rw [Dict.lookup_insert, if_neg hd]
        exact hi.marked d' r' h'
    · intro d' r' r'' h' h''
      rcases hold d' r' h' with ⟨hd, hr'⟩ | ⟨hd, h'⟩ <;>
        rcases hold d' r'' h'' with ⟨hd', hr''⟩ | ⟨hd', h''⟩
      · rw [hr', hr'']
      · exact absurd hd hd'
      · exact absurd hd' hd
      · exact hi.unique d' r' r'' h' h''
  | @finish r q outcome now hq =>
    constructor
    · intro d' r' h'
      obtain ⟨hne, h'⟩ := h'.of_erase s.circuits
      obtain ⟨c', hc', hp'⟩ := hi.marked d' r' h'
      refine ⟨c', ?_, hp'⟩
      by_cases hd : d' = q.destination
      · by_cases he : outcome.effect = .unrecorded
        · rw [hd, recordOutcome_lookup, he, ← hd]
          exact hc'
        · exact absurd (hd ▸ h') (hg he q hq r' (Dict.mem_keys_of_lookup h') hne)
      · rw [recordOutcome_lookup_ne hd]
        exact hc'
    · intro d' r' r'' h' h''
      exact hi.unique d' r' r'' (h'.of_erase s.circuits).2
        (h''.of_erase s.circuits).2

/-- In a run without an outcome beside a running probe, the running probes are
    marked and single. -/
theorem probesMarked_of_run {h : List ClientEvent} {s : ClientState}
    (hr : (client limits rnd).Run NoLateOutcome h s) : s.ProbesMarked :=
  hr.invariant ⟨fun _ _ h' => (by cases h'), fun _ _ _ h' => (by cases h')⟩ fun _ _ _ hi hg hs =>
    probesMarked_step hi hg (clientStep_move hs)

/-- While no outcome is recorded beside a running probe, a destination has at
    most one probe in flight, and admits no other request meanwhile. -/
theorem single_probe {h : List ClientEvent} {s : ClientState}
    (hr : (client limits rnd).Run NoLateOutcome h s) (d : EgressDestination) :
    (∀ r r', s.Probing d r → s.Probing d r' → r = r') ∧
    ∀ r, s.Probing d r → ∀ now probe,
      (admitCircuit limits rnd s.circuits d now).2 ≠ .admitted probe := by
  have hm := probesMarked_of_run hr
  refine ⟨hm.unique d, fun r hp now probe => ?_⟩
  obtain ⟨c, hc, ho, hf⟩ := hm.marked d r hp
  exact not_admitted_of_marked hc ho hf now probe

theorem single_probe_example :
    ∃ h s, (client eagerLimits .finite).Run NoLateOutcome h s ∧ s.Probing billing 1 ∧
      (admitCircuit eagerLimits .finite s.circuits billing (tick 1000)).2 ≠ .admitted true := by
  have heval : ∃ s ∈ (client eagerLimits .finite).exec (client eagerLimits .finite).init probeEvents,
      (client eagerLimits .finite).Meets NoLateOutcome (client eagerLimits .finite).init
        probeEvents ∧ s.Probing billing 1 := by decide +kernel
  obtain ⟨s, hs, hmeets, hp⟩ := heval
  have hr := Machine.run_of_exec hs hmeets
  exact ⟨_, s, hr, hp, (single_probe hr billing).2 1 hp (tick 1000) true⟩

/-- The late failure of a request admitted before the circuit opened clears the
    mark of the running probe, and a second probe is admitted beside it. -/
theorem late_failure_admits_second_probe :
    ∃ h s, (client eagerLimits .finite).Run Machine.Free h s ∧
      s.Probing billing 2 ∧ s.Probing billing 3 := by
  have heval : ∃ s ∈ (client eagerLimits .finite).exec (client eagerLimits .finite).init
        [.request 0 billing (tick 0), .request 1 billing (tick 0), .finish 0 .timeout (tick 0),
          .request 2 billing (tick 5), .finish 1 .timeout (tick 6), .request 3 billing (tick 11)],
      s.Probing billing 2 ∧ s.Probing billing 3 := by decide +kernel
  obtain ⟨s, hs, hp⟩ := heval
  exact ⟨_, s, Machine.run_of_exec hs (Machine.meets_free _ _), hp⟩

/-! ## The table -/

/-- Every circuit in the table belongs to a destination that is running or
    failing, and its mark to a running probe. -/
structure ClientState.EntriesUsed (s : ClientState) : Prop where
  held : s.MarksHeld
  used : ∀ d c, s.circuits.lookup d = some c → s.Busy d ∨ 0 < c.failures

/-- Without cancellations, every place in the table stays with a destination
    that is running or failing. -/
theorem entriesUsed_step {s s' : ClientState} {e : ClientEvent} (hi : s.EntriesUsed)
    (hg : NoCancellation s e) (hm : Move limits rnd s e s') : s'.EntriesUsed := by
  refine ⟨marksHeld_step hi.held hg.keepsProbe hm, fun d' c' hc' => ?_⟩
  cases hm with
  | turnedAway => exact hi.used d' c' hc'
  | @first r d now hr hc =>
    by_cases hd : d' = d
    · exact .inl (hd ▸ ClientState.busy_insert)
    · rw [Dict.lookup_insert, if_neg hd] at hc'
      exact (hi.used d' c' hc').imp_left (·.insert hr)
  | closed hr hc ho => exact (hi.used d' c' hc').imp_left (·.insert hr)
  | @probe r d now c hr hc ho hp =>
    by_cases hd : d' = d
    · exact .inl (hd ▸ ClientState.busy_insert)
    · rw [Dict.lookup_insert, if_neg hd] at hc'
      exact (hi.used d' c' hc').imp_left (·.insert hr)
  | @finish r q outcome now hq =>
    by_cases hd : d' = q.destination
    · subst hd
      rw [recordOutcome_lookup] at hc'
      cases he : outcome.effect with
      | failure =>
        rw [he] at hc'
        obtain ⟨c, -, rfl⟩ := Option.map_eq_some_iff.1 hc'
        rw [failedEntry_failures]
        exact .inr (Nat.succ_pos _)
      | success => rw [he] at hc'; cases hc'
      | unrecorded => exact absurd (effect_eq_unrecorded he) hg
    · rw [recordOutcome_lookup_ne hd] at hc'
      exact (hi.used d' c' hc').imp_left (·.erase hq (Ne.symm hd))

/-- In a run without cancellations, every place in the table belongs to a
    destination that is running or failing. -/
theorem entriesUsed_of_run {h : List ClientEvent} {s : ClientState}
    (hr : (client limits rnd).Run NoCancellation h s) : s.EntriesUsed :=
  hr.invariant ⟨fun _ _ hc => (by cases hc), fun _ _ hc => (by cases hc)⟩ fun _ _ _ hi hg hs =>
    entriesUsed_step hi hg (clientStep_move hs)

/-- A full table has a circuit for `max_circuit_destinations` destinations
    other than one without a circuit. -/
theorem exists_tracked {circuits : Circuits} {d : EgressDestination} {n : ℕ}
    (hd : circuits.lookup d = none) (hn : n ≤ circuits.len) :
    ∃ ds : Finset EgressDestination, n ≤ ds.card ∧ d ∉ ds ∧
      ∀ d' ∈ ds, ∃ c, circuits.lookup d' = some c := by
  refine ⟨circuits.keys.toFinset, ?_, ?_, fun d' hd' => ?_⟩
  · rwa [List.toFinset_card_of_nodup circuits.keys_nodup]
  · rw [List.mem_toFinset]
    exact Dict.notMem_keys hd
  · exact Dict.exists_lookup (List.mem_toFinset.1 hd')

/-- Without cancellations, a request is refused at the circuit limit only if
    the circuit of its destination is open and not shown recovered, or a probe
    of its destination is running, or as many other destinations as the table
    holds are running or failing. -/
theorem refused_of_circuit {h : List ClientEvent} {s : ClientState}
    (hr : (client limits rnd).Run NoCancellation h s) {d : EgressDestination}
    {now : ClockReading} (hd : (admitCircuit limits rnd s.circuits d now).2 = .refused) :
    (∃ c, s.circuits.lookup d = some c ∧ c.Unrecovered limits rnd now) ∨
    (∃ r, s.Probing d r) ∨
    ∃ ds : Finset EgressDestination, limits.maxCircuitDestinations ≤ ds.card ∧ d ∉ ds ∧
      ∀ d' ∈ ds, s.Busy d' ∨ s.Failing d' := by
  have hu := entriesUsed_of_run hr
  rcases admitCircuit_cases limits rnd s.circuits d now with
    ⟨-, -, ha⟩ | ⟨hn, hlen, -⟩ | ⟨_, -, -, ha⟩ | ⟨_, -, -, -, -, ha⟩ | ⟨c, hc, -, hp, -⟩
  · rw [ha] at hd; cases hd
  · obtain ⟨ds, hcard, hnot, hds⟩ := exists_tracked hn hlen
    refine .inr (.inr ⟨ds, hcard, hnot, fun d' hd' => ?_⟩)
    obtain ⟨c, hc⟩ := hds d' hd'
    exact (hu.used d' c hc).imp_right fun hf => ⟨c, hc, hf⟩
  · rw [ha] at hd; cases hd
  · rw [ha] at hd; cases hd
  · rcases hp with hp | hopen
    · exact .inr (.inl (hu.held d c hc hp))
    · exact .inl ⟨c, hc, hopen⟩

theorem refused_of_circuit_example :
    ∃ h s, (client narrowLimits .finite).Run NoCancellation h s ∧
      ((∃ c, s.circuits.lookup search = some c ∧ c.Unrecovered narrowLimits .finite (tick 0)) ∨
      (∃ r, s.Probing search r) ∨
      ∃ ds : Finset EgressDestination, narrowLimits.maxCircuitDestinations ≤ ds.card ∧
        search ∉ ds ∧ ∀ d' ∈ ds, s.Busy d' ∨ s.Failing d') := by
  have heval : ∃ s ∈ (client narrowLimits .finite).exec (client narrowLimits .finite).init
        [.request 0 billing (tick 0)],
      (client narrowLimits .finite).Meets NoCancellation (client narrowLimits .finite).init
        [.request 0 billing (tick 0)] ∧
      (admitCircuit narrowLimits .finite s.circuits search (tick 0)).2 = .refused := by
    decide +kernel
  obtain ⟨s, hs, hmeets, ha⟩ := heval
  have hr := Machine.run_of_exec hs hmeets
  exact ⟨_, s, hr, refused_of_circuit hr ha⟩

/-- A destination holds its place in the table by a single failure: no request
    is running, no circuit is open, and another destination is refused. -/
theorem failing_destination_blocks :
    ∃ h s, (client narrowLimits .finite).Run Machine.Free h s ∧
      (admitCircuit narrowLimits .finite s.circuits search (tick 0)).2 = .refused ∧
      s.circuits.lookup search = none ∧ (∀ d, ¬ s.Busy d) ∧ (∀ d r, ¬ s.Probing d r) ∧
      ∀ d c, s.circuits.lookup d = some c → c.openedAt = none := by
  have heval : ∃ s ∈ (client narrowLimits .finite).exec (client narrowLimits .finite).init
        [.request 0 billing (tick 0), .finish 0 .timeout (tick 0)],
      (admitCircuit narrowLimits .finite s.circuits search (tick 0)).2 = .refused ∧
      s.circuits.lookup search = none ∧ s.running.keys = [] ∧
      ∀ d ∈ s.circuits.keys, ∀ c ∈ s.circuits.lookup d, c.openedAt = none := by
    decide +kernel
  obtain ⟨s, hs, ha, hn, hk, ho⟩ := heval
  have hidle := not_busy_of_keys hk
  exact ⟨_, s, Machine.run_of_exec hs (Machine.meets_free _ _), ha, hn, hidle,
    fun d r hr => hidle d ⟨r, _, hr, rfl⟩, fun d c hc => ho d (Dict.mem_keys_of_lookup hc) c hc⟩

end McpRuntime.Outbound
