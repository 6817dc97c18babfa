import McpRuntime.Machine
import Mathlib.Algebra.BigOperators.Group.List.Lemmas
import Mathlib.Algebra.Order.Group.Nat
import Mathlib.Algebra.Ring.Nat

/-!
# Reports of drops

The exporter of the observability learns from the exports themselves how many
observations were dropped: an export reads the pending count under the lock,
reports it outside, and settles it under the lock again. Exports run at the same
time, and the exporter may raise at each of its calls.

* `Telemetry.telemetry`: the machine of all interleavings. Its lock-protected
  sections and its calls of the exporter are the steps.
* `Telemetry.Covered`: what is reported is still pending, beyond what other exports
  have reported and not settled.
* `run_covered_iff`: the drops are accounted for in every state of a run exactly
  when every report of the run is covered.
* `reported_twice`: two exports report one drop.
-/

namespace McpRuntime

/-- How far a call of `_export` is. -/
inductive Export
  /-- It has read a positive count, and is about to report it. -/
  | reporting (count : ℕ)
  /-- The exporter has the count, which is still pending. -/
  | settling (count : ℕ)
  /-- It is about to run its operation. -/
  | operating
  /-- The operation has raised. -/
  | failed
  deriving DecidableEq

/-- What an export has reported and not settled. -/
def Export.unsettled : Export → ℕ
  | .settling count => count
  | _ => 0

/-- The counts of drops, and the exports in flight. -/
structure Telemetry where
  /-- `_dropped_events`. -/
  droppedEvents : ℕ := 0
  /-- `_pending_drops`. -/
  pendingDrops : ℕ := 0
  /-- The exports in flight. -/
  exports : List Export := []
  /-- All drops that the exporter was told of. -/
  delivered : ℕ := 0
  /-- All drops recorded by `record_dropped`. -/
  recorded : ℕ := 0
  deriving DecidableEq

namespace Telemetry

/-- `_MAX_DROPPED_BATCH`. -/
def maxDroppedBatch : ℤ := 1000000

/-- `record_dropped`, which raises `ValueError` for a count out of range. -/
def recordDropped (s : Telemetry) (count : ℤ) : Option Telemetry :=
  if 1 ≤ count ∧ count ≤ maxDroppedBatch then
    some { s with
      droppedEvents := s.droppedEvents + count.toNat
      pendingDrops := s.pendingDrops + count.toNat
      recorded := s.recorded + count.toNat }
  else none

/-- An export in flight goes on. -/
def advance (s : Telemetry) (e e' : Export) : Option Telemetry :=
  if e ∈ s.exports then some { s with exports := e' :: s.exports.erase e } else none

/-- An export in flight ends. -/
def finish (s : Telemetry) (e : Export) : Option Telemetry :=
  if e ∈ s.exports then some { s with exports := s.exports.erase e } else none

/-- What happens to the counts. -/
inductive Event
  /-- A call of `record_dropped`. -/
  | drop (count : ℤ)
  /-- An observation is dropped on a bound of the observability, which counts it
      for its own metrics and reports it to no exporter. -/
  | discard
  /-- An export reads the pending count. -/
  | begin
  /-- An export reports the count that it has read. -/
  | report (count : ℕ) (raises : Bool)
  /-- An export settles what it has reported. -/
  | settle (count : ℕ)
  /-- An export runs its operation. -/
  | operate (raises : Bool)
  /-- An export records that its operation was dropped. -/
  | recordFailure
  deriving DecidableEq

/-- A step of `record_dropped` or of `_export`. -/
def step (s : Telemetry) : Event → Option Telemetry
  | .drop count => some ((s.recordDropped count).getD s)
  | .discard => some { s with droppedEvents := s.droppedEvents + 1 }
  | .begin =>
    some { s with exports :=
      (if s.pendingDrops = 0 then .operating else .reporting s.pendingDrops) :: s.exports }
  | .report count true => s.advance (.reporting count) .operating
  | .report count false => do
    let s ← s.advance (.reporting count) (.settling count)
    some { s with delivered := s.delivered + count }
  | .settle count => do
    let s ← s.advance (.settling count) .operating
    some { s with pendingDrops := s.pendingDrops - count }
  | .operate true => s.advance .operating .failed
  | .operate false => s.finish .operating
  | .recordFailure => do (← s.finish .failed).recordDropped 1

/-- The machine of an observability with an exporter. -/
def telemetry : Machine Telemetry Event := ⟨{}, step⟩

/-- What all exports have reported and not settled. -/
def unsettled (s : Telemetry) : ℕ := (s.exports.map Export.unsettled).sum

/-- Each recorded drop is either reported or pending: of the pending ones, those that
    are being settled are reported. -/
def Accounted (s : Telemetry) : Prop := s.delivered + (s.pendingDrops - s.unsettled) = s.recorded

instance (s : Telemetry) : Decidable s.Accounted := inferInstanceAs (Decidable (_ = _))

/-- A count that the exporter takes is still pending, beyond what others have
    reported and not settled. -/
def Covered (s : Telemetry) : Event → Prop
  | .report count false => s.unsettled + count ≤ s.pendingDrops
  | _ => True

instance (s : Telemetry) : ∀ e, Decidable (s.Covered e)
  | .report _ false => inferInstanceAs (Decidable (_ ≤ _))
  | .report _ true | .drop _ | .discard | .begin | .settle _ | .operate _ | .recordFailure =>
    .isTrue trivial

/-- The invariant of runs with covered reports. -/
structure Balanced (s : Telemetry) : Prop where
  total : s.delivered + s.pendingDrops = s.recorded + s.unsettled
  unsettled_le : s.unsettled ≤ s.pendingDrops

variable {s s' : Telemetry} {e e' : Export}

/-- In a balanced state the drops are accounted for. -/
theorem Balanced.accounted (h : s.Balanced) : s.Accounted := by
  have htotal := h.total
  have hle := h.unsettled_le
  rw [Accounted]
  omega

/-! ## Steps -/

/-- What a step leaves of what is unsettled, of an export that goes on. -/
theorem advance_eq_some (h : s.advance e e' = some s') :
    s' = { s with exports := s'.exports } ∧
      s'.unsettled + e.unsettled = s.unsettled + e'.unsettled := by
  rw [advance] at h
  split_ifs at h with hmem
  cases h
  refine ⟨rfl, ?_⟩
  have hsum := List.sum_map_erase Export.unsettled hmem
  rw [unsettled, unsettled, List.map_cons, List.sum_cons]
  omega

/-- What a step leaves of what is unsettled, of an export that ends. -/
theorem finish_eq_some (h : s.finish e = some s') :
    s' = { s with exports := s'.exports } ∧ s'.unsettled + e.unsettled = s.unsettled := by
  rw [finish] at h
  split_ifs at h with hmem
  cases h
  refine ⟨rfl, ?_⟩
  have hsum := List.sum_map_erase Export.unsettled hmem
  simp only [unsettled]
  omega

/-- A recorded drop keeps the balance. -/
theorem Balanced.recordDropped (hs : s.Balanced) {count : ℤ}
    (h : s.recordDropped count = some s') : s'.Balanced := by
  rw [Telemetry.recordDropped] at h
  split_ifs at h
  cases h
  have htotal := hs.total
  have hle := hs.unsettled_le
  constructor <;> simp only [unsettled] at * <;> omega

/-- An export that goes on with nothing reported or settled keeps the balance. -/
theorem Balanced.exports (hs : s.Balanced) (h : s' = { s with exports := s'.exports })
    (hunsettled : s'.unsettled = s.unsettled) : s'.Balanced := by
  have htotal := hs.total
  have hle := hs.unsettled_le
  rw [← hunsettled] at htotal hle
  rw [h]
  exact ⟨htotal, hle⟩

/-- A report keeps the balance when it is covered. Otherwise some drops are
    reported twice. -/
theorem Balanced.report (hs : s.Balanced) {count : ℕ}
    (h : s.step (.report count false) = some s') :
    (s.Covered (.report count false) → s'.Balanced) ∧
      (s'.Accounted → s.Covered (.report count false)) := by
  obtain ⟨t, ht, heq⟩ := Option.bind_eq_some_iff.1 h
  obtain ⟨hframe, hunsettled⟩ := advance_eq_some ht
  have htotal := hs.total
  have hle := hs.unsettled_le
  cases heq
  rw [hframe] at hunsettled ⊢
  simp only [Export.unsettled, unsettled] at hunsettled htotal hle
  rw [Covered, Accounted]
  constructor
  · intro hcovered
    constructor <;> simp only [unsettled] at * <;> omega
  · intro haccounted
    simp only [unsettled] at *
    omega

/-- What is settled was pending. -/
theorem Balanced.settle (hs : s.Balanced) {count : ℕ} (h : s.step (.settle count) = some s') :
    s'.Balanced := by
  obtain ⟨t, ht, heq⟩ := Option.bind_eq_some_iff.1 h
  obtain ⟨hframe, hunsettled⟩ := advance_eq_some ht
  have htotal := hs.total
  have hle := hs.unsettled_le
  cases heq
  rw [hframe] at hunsettled ⊢
  simp only [Export.unsettled, unsettled] at hunsettled htotal hle
  constructor <;> simp only [unsettled] <;> omega

/-- A covered step keeps the balance, and the drops are accounted for after no
    other one. -/
theorem Balanced.step (hs : s.Balanced) {e : Event} (h : s.step e = some s') :
    (s.Covered e → s'.Balanced) ∧ (s'.Accounted → s.Covered e) := by
  have hfree (hb : s'.Balanced) (hcovered : s.Covered e) :
      (s.Covered e → s'.Balanced) ∧ (s'.Accounted → s.Covered e) :=
    ⟨fun _ => hb, fun _ => hcovered⟩
  cases e with
  | drop count =>
    refine hfree ?_ trivial
    cases hrecord : s.recordDropped count with
    | none =>
      rw [Telemetry.step, hrecord] at h
      cases h
      exact hs
    | some t =>
      rw [Telemetry.step, hrecord] at h
      cases h
      exact hs.recordDropped hrecord
  | discard =>
    cases h
    exact hfree ⟨hs.total, hs.unsettled_le⟩ trivial
  | begin =>
    cases h
    refine hfree (hs.exports rfl ?_) trivial
    rw [unsettled, List.map_cons, List.sum_cons]
    split_ifs <;> exact Nat.zero_add _
  | report count raises =>
    cases raises with
    | false => exact hs.report h
    | true =>
      obtain ⟨hframe, hunsettled⟩ := advance_eq_some h
      exact hfree (hs.exports hframe hunsettled) trivial
  | settle count => exact hfree (hs.settle h) trivial
  | operate raises =>
    cases raises with
    | false =>
      obtain ⟨hframe, hunsettled⟩ := finish_eq_some h
      exact hfree (hs.exports hframe hunsettled) trivial
    | true =>
      obtain ⟨hframe, hunsettled⟩ := advance_eq_some h
      exact hfree (hs.exports hframe hunsettled) trivial
  | recordFailure =>
    obtain ⟨t, ht, hrecord⟩ := Option.bind_eq_some_iff.1 h
    obtain ⟨hframe, hunsettled⟩ := finish_eq_some ht
    exact hfree ((hs.exports hframe hunsettled).recordDropped hrecord) trivial

/-! ## Runs -/

/-- The drops are accounted for after the step. -/
def AccountedAfter (s : Telemetry) (e : Event) : Prop := ∀ s' ∈ s.step e, s'.Accounted

/-- A run with covered reports leads to a balanced state. -/
theorem balanced_of_covered {h : List Event} (hr : telemetry.Run Covered h s) : s.Balanced := by
  refine hr.invariant ⟨rfl, le_rfl⟩ fun s e s' hs hcovered hstep => ?_
  exact (hs.step hstep).1 hcovered

/-- The drops are accounted for in all states of a run exactly when every report of
    it is covered. -/
theorem run_covered_iff {h : List Event} :
    telemetry.Run Covered h s ↔ telemetry.Run AccountedAfter h s := by
  constructor
  · intro hr
    induction hr with
    | init => exact .init
    | step hr hcovered hstep ih =>
      refine .step ih (fun s' hs' => ?_) hstep
      exact (((balanced_of_covered hr).step hs').1 hcovered).accounted
  · intro hr
    induction hr with
    | init => exact .init
    | step _ haccounted hstep ih =>
      exact .step ih (((balanced_of_covered ih).step hstep).2 (haccounted _ hstep)) hstep

/-- In a run, the drops are accounted for in every state exactly when every report
    is covered. Then what is delivered and what is pending add up to what was
    recorded whenever no export is between its report and its settlement. -/
theorem drops_exact (h : List Event) (s : Telemetry) :
    (telemetry.Run Covered h s ↔ telemetry.Run AccountedAfter h s) ∧
    (telemetry.Run Covered h s → s.Accounted ∧
      (s.unsettled = 0 → s.delivered + s.pendingDrops = s.recorded)) := by
  refine ⟨run_covered_iff, fun hr => ?_⟩
  have hbalanced := balanced_of_covered hr
  refine ⟨hbalanced.accounted, fun hzero => ?_⟩
  rw [hbalanced.total, hzero, Nat.add_zero]

/-- One drop, and two exports that both read it before the other one settles it. -/
def overlappingExports : List Event :=
  [.drop 1, .begin, .begin, .report 1 false, .report 1 false, .settle 1, .settle 1,
    .operate false, .operate false]

/-- Two exports report one drop, and no export is left in flight. -/
theorem reported_twice :
    ∃ h s, telemetry.Run Machine.Free h s ∧ s.exports = [] ∧ s.recorded = 1 ∧
      s.delivered = 2 ∧ s.pendingDrops = 0 ∧ ¬ s.Accounted :=
  ⟨overlappingExports.reverse, { droppedEvents := 1, delivered := 2, recorded := 1 },
    Machine.run_of_exec (m := telemetry) (by decide) (Machine.meets_free _ _),
    rfl, rfl, rfl, rfl, by decide⟩

/-- One export that fails to report two drops, and another that reports them with the
    drop of the first. -/
def successiveExports : List Event :=
  [.drop 2, .begin, .report 2 true, .operate true, .recordFailure, .begin, .report 3 false,
    .settle 3, .operate false]

/-- Three drops are reported once. -/
theorem drops_exact_example :
    let s : Telemetry := { droppedEvents := 3, delivered := 3, recorded := 3 }
    s.delivered + s.pendingDrops = s.recorded :=
  ((drops_exact successiveExports.reverse _).2
    (Machine.run_of_exec (m := telemetry) (by decide) (by decide))).2 rfl

end Telemetry

end McpRuntime
