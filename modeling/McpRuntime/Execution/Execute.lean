import McpRuntime.Execution.Limits
import McpRuntime.Machine

/-!
# Executing a call under its deadline

`ExecutionController.execute` runs the work of a call as a task of its own, and
races it against the caller's cancellation and the deadline. When it stops the
work (`_stop`), it signals the linked cancellation, cancels the task, waits for
a grace time, and keeps a task that has still not finished in the detached set.

* `execution` is one call of `execute` as a machine. Its phases are the points
  where it awaits; at each of them it may be resumed, once what it awaits is
  done, or be cancelled (`cancelMain`), any number of times. The work, the
  caller, the deadline and the grace time proceed in any order meanwhile.
* `no_orphaned_work`: whenever `execute` exits, the work has finished or is
  detached, unless the task of the call is cancelled a second time while
  `_stop` waits for the work in the handler of a first cancellation
  (`second_cancel_orphans`).
-/

namespace McpRuntime.Execution

variable {ν : Type*}

/-- The task of the work. -/
inductive Work (ν : Type*)
  | notCreated
  | pending
  | returned (value : ν)
  | raised
  | cancelled
  deriving DecidableEq

/-- The task has been created and has ended. -/
def Work.done : Work ν → Bool
  | notCreated | pending => false
  | returned _ | raised | cancelled => true

/-- How `execute` exits: with the value or the exception of the work, with
    `TimeoutError`, with `CancelledError`, or with an exception from before the
    work was created. -/
inductive Outcome (ν : Type*)
  | returned (value : ν)
  | raised
  | timeout
  | cancelled
  | rejected
  deriving DecidableEq

/-- Where `execute` calls `_stop`: after the deadline, or in the handler of
    `CancelledError`. -/
inductive StopSite
  | deadline
  | handler
  deriving DecidableEq

/-- Where `execute` awaits. -/
inductive Phase (ν : Type*)
  /-- It has not started. -/
  | entry
  /-- `asyncio.wait` on the work, the caller's cancellation and the deadline. -/
  | waiting
  /-- `asyncio.sleep(0)` in `_stop`. -/
  | stopYield (site : StopSite)
  /-- `asyncio.gather` in `_stop`, on work found done. -/
  | stopGather (site : StopSite)
  /-- `asyncio.wait` on the work and the grace time. -/
  | stopGrace (site : StopSite)
  /-- `asyncio.gather` on work done within the grace time. -/
  | graceGather (site : StopSite)
  /-- `_cancel_tasks` on the grace time, in the `finally` of `_stop`, with
      `CancelledError` to raise again or not. -/
  | cancelGrace (site : StopSite) (raising : Bool)
  /-- `_cancel_tasks` on the caller's cancellation and the deadline, in the
      `finally` of `execute`. -/
  | cleanup (outcome : Outcome ν)
  | exited (outcome : Outcome ν)
  deriving DecidableEq

/-- The state of one call of `execute`. -/
structure ExecState (ν : Type*) where
  phase : Phase ν := .entry
  work : Work ν := .notCreated
  /-- `task.cancel()` was called on the work. -/
  cancelRequested : Bool := false
  /-- The work is in the detached set of the controller. -/
  detached : Bool := false
  /-- The linked cancellation was signalled. -/
  linked : Bool := false
  /-- The cancellation of the caller's context is set. -/
  callerCancelled : Bool := false
  /-- The task that waits for the caller's cancellation is done. -/
  callerDone : Bool := false
  deadlineDone : Bool := false
  graceDone : Bool := false
  deriving DecidableEq

namespace ExecState

/-- The start of `_stop`. -/
def stop (s : ExecState ν) (site : StopSite) : ExecState ν :=
  if s.work.done then { s with phase := .stopGather site }
  else { s with phase := .stopYield site }

/-- The handler of `CancelledError` in `execute`. -/
def handle (s : ExecState ν) : ExecState ν := { s with linked := true }.stop .handler

/-- `_stop` has returned: `execute` raises `TimeoutError`, or `CancelledError`
    again. -/
def stopped (s : ExecState ν) : StopSite → ExecState ν
  | .deadline => { s with phase := .cleanup .timeout }
  | .handler => { s with phase := .cleanup .cancelled }

/-- `CancelledError` is raised in `_stop`. -/
def stopCancelled (s : ExecState ν) : StopSite → ExecState ν
  | .deadline => s.handle
  | .handler => { s with phase := .cleanup .cancelled }

@[simp] theorem stop_cancelRequested (s : ExecState ν) (site : StopSite) :
    (s.stop site).cancelRequested = s.cancelRequested := by
  rw [stop]; split <;> rfl

@[simp] theorem handle_cancelRequested (s : ExecState ν) :
    s.handle.cancelRequested = s.cancelRequested :=
  stop_cancelRequested { s with linked := true } .handler

@[simp] theorem stopped_cancelRequested (s : ExecState ν) (site : StopSite) :
    (s.stopped site).cancelRequested = s.cancelRequested := by
  cases site <;> rfl

@[simp] theorem stopCancelled_cancelRequested (s : ExecState ν) (site : StopSite) :
    (s.stopCancelled site).cancelRequested = s.cancelRequested := by
  cases site
  · exact s.handle_cancelRequested
  · rfl

end ExecState

/-- An event of a call. -/
inductive ExecEvent (ν : Type*)
  /-- `execute` is called, with the reading of its clock, if there is one. -/
  | start (now : Option PyFloat)
  /-- The work ends. -/
  | workReturns (value : ν)
  | workRaises
  | workCancelled
  /-- The cancellation of the caller's context is set. -/
  | callerCancels
  /-- The task that waits for the caller's cancellation is done. -/
  | callerDone
  | deadlineDone
  | graceDone
  /-- `execute` is resumed: what it awaits is done. -/
  | resume
  /-- `CancelledError` is raised where `execute` awaits. -/
  | cancelMain

section
variable (limits : ExecutionLimits) (rnd : Rounding) (context : CallContext)

/-- `execute`, up to its first await. -/
def startStep (s : ExecState ν) (now : Option PyFloat) : ExecState ν :=
  match now with
  | none => { s with phase := .exited .rejected }
  | some now =>
    let deadline := limits.boundedDeadline rnd now context
    -- the bounded context rejects a deadline that is not finite or is negative
    if !deadline.isFinite || deadline.lt (.finite 0) then { s with phase := .exited .rejected }
    else if s.callerCancelled then { s with phase := .exited .cancelled }
    else if deadline.le now then { s with phase := .exited .timeout }
    else { s with phase := .waiting, work := .pending }

end

/-- The task of the work ends: a task that is done leaves the detached set. -/
def workStep (s : ExecState ν) (work : Work ν) : Option (ExecState ν) :=
  match s.work with
  | .pending => some { s with work, detached := false }
  | _ => none

/-- `execute` goes on from where it awaits, if what it awaits is done. -/
def resumeStep (s : ExecState ν) : Option (ExecState ν) :=
  match s.phase with
  | .entry | .exited _ => none
  | .waiting =>
    if s.work.done || s.callerDone || s.deadlineDone then
      if s.callerDone || s.callerCancelled then some { s with linked := true }.handle
      else if s.deadlineDone then some ({ s with linked := true }.stop .deadline)
      else
        -- the work is done: `await work` does not suspend
        match s.work with
        | .returned value => some { s with phase := .cleanup (.returned value) }
        | .cancelled => some s.handle
        | _ => some { s with phase := .cleanup .raised }
    else none
  | .stopYield site =>
    if s.work.done then some { s with phase := .stopGather site }
    else some { s with phase := .stopGrace site, cancelRequested := true, graceDone := false }
  | .stopGather site => some (s.stopped site)
  | .stopGrace site =>
    if s.work.done then some { s with phase := .graceGather site }
    else if s.graceDone then
      some { s with phase := .cancelGrace site false, detached := true }
    else none
  | .graceGather site => some { s with phase := .cancelGrace site false }
  | .cancelGrace site raising =>
    if raising then some (s.stopCancelled site) else some (s.stopped site)
  | .cleanup outcome => some { s with phase := .exited outcome }

/-- `CancelledError` is raised where `execute` awaits. -/
def cancelStep (s : ExecState ν) : Option (ExecState ν) :=
  match s.phase with
  | .entry | .exited _ => none
  | .waiting => some s.handle
  | .stopYield site | .stopGather site => some (s.stopCancelled site)
  | .stopGrace site | .graceGather site => some { s with phase := .cancelGrace site true }
  | .cancelGrace site _ => some (s.stopCancelled site)
  | .cleanup _ => some { s with phase := .exited .cancelled }

/-- The state after an event. -/
def execStep (limits : ExecutionLimits) (rnd : Rounding) (context : CallContext)
    (s : ExecState ν) : ExecEvent ν → Option (ExecState ν)
  | .start now => if s.phase matches .entry then some (startStep limits rnd context s now) else none
  | .workReturns value => workStep s (.returned value)
  | .workRaises => workStep s .raised
  | .workCancelled => workStep s .cancelled
  | .callerCancels => some { s with callerCancelled := true }
  | .callerDone => some { s with callerDone := true }
  | .deadlineDone => some { s with deadlineDone := true }
  | .graceDone => some { s with graceDone := true }
  | .resume => resumeStep s
  | .cancelMain => cancelStep s

/-- One call of `execute`. -/
def execution (ν : Type*) (limits : ExecutionLimits) (rnd : Rounding) (context : CallContext) :
    Machine (ExecState ν) (ExecEvent ν) where
  init := {}
  step := execStep limits rnd context

/-! ## The invariant -/

namespace ExecState

/-- The work is not left behind: it was not created, or it has ended, or it is
    in the detached set. -/
def Settled (s : ExecState ν) : Prop :=
  s.work = .notCreated ∨ s.work.done = true ∨ s.detached = true

/-- The work was left alone: neither the linked cancellation was signalled nor
    the task cancelled. -/
def Untouched (s : ExecState ν) : Prop := s.linked = false ∧ s.cancelRequested = false

/-- What holds when `execute` leaves with an outcome. -/
def Sound (s : ExecState ν) (outcome : Outcome ν) : Prop :=
  s.Settled ∧ ∀ value, outcome = .returned value → s.work = .returned value ∧ s.Untouched

/-- What holds in a phase. -/
def PhaseInv (s : ExecState ν) : Phase ν → Prop
  | .entry => s.work = .notCreated ∧ s.Untouched
  | .waiting => s.work ≠ .notCreated ∧ s.Untouched
  | .stopYield _ | .stopGrace _ | .cancelGrace .deadline true =>
    s.work ≠ .notCreated ∧ s.linked = true
  | .stopGather _ | .graceGather _ => s.work.done = true ∧ s.linked = true
  | .cancelGrace _ _ => s.work ≠ .notCreated ∧ s.linked = true ∧ s.Settled
  | .cleanup outcome | .exited outcome => s.Sound outcome

/-- The invariant of a call: what holds in its phase, and that the linked
    cancellation was signalled if the task was cancelled. -/
structure Inv (s : ExecState ν) : Prop where
  phase : s.PhaseInv s.phase
  linked : s.cancelRequested = true → s.linked = true

/-- A task that is done was created. -/
theorem ne_notCreated_of_done {work : Work ν} (h : work.done = true) : work ≠ .notCreated := by
  rintro rfl
  cases h

/-- `_stop` starts with the linked cancellation signalled. -/
theorem inv_stop {s : ExecState ν} (hw : s.work ≠ .notCreated) (hl : s.linked = true)
    (site : StopSite) : (s.stop site).Inv := by
  rw [stop]
  split_ifs with hd
  · exact ⟨⟨hd, hl⟩, fun _ => hl⟩
  · exact ⟨⟨hw, hl⟩, fun _ => hl⟩

/-- The handler of `CancelledError` stops the work. -/
theorem inv_handle {s : ExecState ν} (hw : s.work ≠ .notCreated) : s.handle.Inv :=
  inv_stop (s := { s with linked := true }) hw rfl .handler

/-- `execute` may leave with another outcome than a value once the work is not
    left behind. -/
theorem inv_cleanup {s : ExecState ν} (hs : s.Settled)
    (hl : s.cancelRequested = true → s.linked = true) {outcome : Outcome ν} (ho : ∀ value, outcome ≠ .returned value) :
    Inv { s with phase := .cleanup outcome } :=
  ⟨⟨hs, fun value he => absurd he (ho value)⟩, hl⟩

/-- `_stop` returns once the work is not left behind. -/
theorem inv_stopped {s : ExecState ν} (hs : s.Settled) (hl : s.linked = true) (site : StopSite) :
    (s.stopped site).Inv := by
  cases site with
  | deadline => exact inv_cleanup hs (fun _ => hl) nofun
  | handler => exact inv_cleanup hs (fun _ => hl) nofun

/-- `CancelledError` in `_stop` after the deadline is handled by another
    `_stop`; in the handler it leaves `execute`. -/
theorem inv_stopCancelled {s : ExecState ν} (hw : s.work ≠ .notCreated) (hl : s.linked = true)
    {site : StopSite} (hs : site = .handler → s.Settled) : (s.stopCancelled site).Inv := by
  cases site with
  | deadline => exact inv_handle hw
  | handler => exact inv_cleanup (hs rfl) (fun _ => hl) nofun

end ExecState

/-! ## Steps -/

/-- The event does not cancel the call while `_stop` waits for the work in the
    handler of a first cancellation. -/
def NoSecondCancel (s : ExecState ν) : ExecEvent ν → Prop
  | .cancelMain =>
    (s.phase matches .stopYield .handler ∨ s.phase matches .stopGrace .handler) →
      s.work.done = true
  | _ => True

instance (s : ExecState ν) : DecidablePred (NoSecondCancel s) := fun e => by
  unfold NoSecondCancel; split <;> infer_instance

open ExecState

/-- The entry of `execute` creates the work, or leaves without. -/
theorem inv_startStep {limits : ExecutionLimits} {rnd : Rounding} {context : CallContext}
    {s : ExecState ν} (hi : s.Inv) (hp : s.phase = .entry) (now : Option PyFloat) :
    (startStep limits rnd context s now).Inv := by
  have hentry := hi.phase
  rw [hp] at hentry
  have hleave : ∀ {outcome : Outcome ν}, (∀ value, outcome ≠ .returned value) →
      Inv { s with phase := .exited outcome } := fun ho =>
    ⟨⟨.inl hentry.1, fun value he => absurd he (ho value)⟩, hi.linked⟩
  cases now with
  | none => exact hleave nofun
  | some now =>
    simp only [startStep]
    split_ifs
    · exact hleave nofun
    · exact hleave nofun
    · exact hleave nofun
    · exact ⟨⟨nofun, hentry.2⟩, hi.linked⟩

/-- The end of the work keeps the invariant: a task that leaves the detached
    set is done. -/
theorem inv_workStep {s s' : ExecState ν} {work : Work ν} (hi : s.Inv) (hd : work.done = true)
    (h : workStep s work = some s') : s'.Inv := by
  obtain ⟨phase, w, cancelRequested, detached, linked, callerCancelled, callerDone, deadlineDone,
    graceDone⟩ := s
  cases w with
  | pending =>
    obtain rfl := Option.some.inj h
    refine ⟨?_, hi.linked⟩
    have hw := ne_notCreated_of_done hd
    have hphase := hi.phase
    cases phase with
    | entry => cases hphase.1
    | waiting => exact ⟨hw, hphase.2⟩
    | stopYield site | stopGrace site => exact ⟨hw, hphase.2⟩
    | stopGather site | graceGather site => cases hphase.1
    | cancelGrace site raising =>
      cases site <;> cases raising
      · exact ⟨hw, hphase.2.1, .inr (.inl hd)⟩
      · exact ⟨hw, hphase.2⟩
      · exact ⟨hw, hphase.2.1, .inr (.inl hd)⟩
      · exact ⟨hw, hphase.2.1, .inr (.inl hd)⟩
    | cleanup outcome | exited outcome =>
      refine ⟨.inr (.inl hd), fun value he => ?_⟩
      cases (hphase.2 value he).1
  | notCreated | returned | raised | cancelled => cases h

/-- Going on from an await keeps the invariant. -/
theorem inv_resumeStep {s s' : ExecState ν} (hi : s.Inv) (h : resumeStep s = some s') :
    s'.Inv := by
  have hphase := hi.phase
  rw [resumeStep] at h
  cases hp : s.phase with
  | entry | exited outcome => rw [hp] at h; cases h
  | waiting =>
    rw [hp] at h hphase
    obtain ⟨hw, hun⟩ := hphase
    dsimp only at h
    split_ifs at h with hready hcaller hdeadline
    · exact Option.some.inj h ▸ inv_handle hw
    · exact Option.some.inj h ▸ inv_stop (s := { s with linked := true }) hw rfl .deadline
    · cases hwork : s.work with
      | notCreated => exact absurd hwork hw
      | pending =>
        -- nothing was done, so the wait has not ended
        have hcd := (Bool.or_eq_false_iff.1 (Bool.eq_false_iff.2 hcaller)).1
        rw [hwork, hcd, Bool.eq_false_iff.2 hdeadline] at hready
        cases hready
      | returned value =>
        rw [hwork] at h
        obtain rfl := Option.some.inj h
        refine ⟨⟨.inr (.inl rfl), ?_⟩, hi.linked⟩
        rintro _ ⟨⟩
        exact ⟨rfl, hun⟩
      | raised =>
        rw [hwork] at h
        obtain rfl := Option.some.inj h
        exact ⟨⟨.inr (.inl rfl), fun _ he => by cases he⟩, hi.linked⟩
      | cancelled =>
        rw [hwork] at h
        exact Option.some.inj h ▸ inv_handle hw
  | stopYield site =>
    rw [hp] at h hphase
    obtain ⟨hw, hl⟩ := hphase
    dsimp only at h
    split_ifs at h with hd
    · obtain rfl := Option.some.inj h
      exact ⟨⟨hd, hl⟩, fun _ => hl⟩
    · obtain rfl := Option.some.inj h
      exact ⟨⟨hw, hl⟩, fun _ => hl⟩
  | stopGather site =>
    rw [hp] at h hphase
    exact Option.some.inj h ▸ inv_stopped (.inr (.inl hphase.1)) hphase.2 site
  | stopGrace site =>
    rw [hp] at h hphase
    obtain ⟨hw, hl⟩ := hphase
    dsimp only at h
    split_ifs at h with hd hg
    · obtain rfl := Option.some.inj h
      exact ⟨⟨hd, hl⟩, fun _ => hl⟩
    · obtain rfl := Option.some.inj h
      refine ⟨?_, fun _ => hl⟩
      cases site <;> exact ⟨hw, hl, .inr (.inr rfl)⟩
  | graceGather site =>
    rw [hp] at h hphase
    obtain rfl := Option.some.inj h
    refine ⟨?_, fun _ => hphase.2⟩
    cases site <;> exact ⟨ne_notCreated_of_done hphase.1, hphase.2, .inr (.inl hphase.1)⟩
  | cancelGrace site raising =>
    rw [hp] at h hphase
    cases raising with
    | false =>
      have hset : s.work ≠ .notCreated ∧ s.linked = true ∧ s.Settled := by
        cases site <;> exact hphase
      exact Option.some.inj h ▸ inv_stopped hset.2.2 hset.2.1 site
    | true =>
      cases site with
      | deadline => exact Option.some.inj h ▸ inv_stopCancelled hphase.1 hphase.2 nofun
      | handler =>
        exact Option.some.inj h ▸ inv_stopCancelled hphase.1 hphase.2.1 fun _ => hphase.2.2
  | cleanup outcome =>
    rw [hp] at h hphase
    obtain rfl := Option.some.inj h
    exact ⟨hphase, hi.linked⟩

/-- A cancellation of the call keeps the invariant, unless it is a second one
    that leaves the work behind. -/
theorem inv_cancelStep {s s' : ExecState ν} (hi : s.Inv) (hg : NoSecondCancel s .cancelMain)
    (h : cancelStep s = some s') : s'.Inv := by
  have hphase := hi.phase
  rw [cancelStep] at h
  cases hp : s.phase with
  | entry | exited outcome => rw [hp] at h; cases h
  | waiting =>
    rw [hp] at h hphase
    exact Option.some.inj h ▸ inv_handle hphase.1
  | stopYield site =>
    rw [hp] at h hphase
    refine Option.some.inj h ▸ inv_stopCancelled hphase.1 hphase.2 ?_
    rintro rfl
    exact .inr (.inl (hg (.inl (by rw [hp]))))
  | stopGather site =>
    rw [hp] at h hphase
    exact Option.some.inj h ▸ inv_stopCancelled (ne_notCreated_of_done hphase.1) hphase.2
      fun _ => .inr (.inl hphase.1)
  | stopGrace site =>
    rw [hp] at h hphase
    obtain rfl := Option.some.inj h
    refine ⟨?_, fun _ => hphase.2⟩
    cases site with
    | deadline => exact hphase
    | handler => exact ⟨hphase.1, hphase.2, .inr (.inl (hg (.inr (by rw [hp]))))⟩
  | graceGather site =>
    rw [hp] at h hphase
    obtain rfl := Option.some.inj h
    have hw := ne_notCreated_of_done hphase.1
    refine ⟨?_, fun _ => hphase.2⟩
    cases site with
    | deadline => exact ⟨hw, hphase.2⟩
    | handler => exact ⟨hw, hphase.2, .inr (.inl hphase.1)⟩
  | cancelGrace site raising =>
    rw [hp] at h hphase
    cases site with
    | deadline =>
      have hset : s.work ≠ .notCreated ∧ s.linked = true := by
        cases raising
        · exact ⟨hphase.1, hphase.2.1⟩
        · exact hphase
      exact Option.some.inj h ▸ inv_stopCancelled hset.1 hset.2 nofun
    | handler =>
      -- The work has settled by now, whether the grace time ran out or a first
      -- cancellation came in.
      have hset : s.work ≠ .notCreated ∧ s.linked = true ∧ s.Settled := by
        cases raising <;> exact hphase
      exact Option.some.inj h ▸ inv_stopCancelled hset.1 hset.2.1 fun _ => hset.2.2
  | cleanup outcome =>
    rw [hp] at h hphase
    obtain rfl := Option.some.inj h
    exact ⟨⟨hphase.1, nofun⟩, hi.linked⟩

variable {limits : ExecutionLimits} {rnd : Rounding} {context : CallContext}

/-- Every guarded step keeps the invariant. -/
theorem inv_step {s s' : ExecState ν} {e : ExecEvent ν} (hi : s.Inv) (hg : NoSecondCancel s e)
    (h : (execution ν limits rnd context).step s e = some s') : s'.Inv := by
  change execStep limits rnd context s e = some s' at h
  cases e with
  | start now =>
    rw [execStep] at h
    cases hp : s.phase with
    | entry =>
      rw [hp] at h
      exact Option.some.inj h ▸ inv_startStep hi hp now
    | _ => rw [hp] at h; cases h
  | workReturns value => exact inv_workStep hi rfl h
  | workRaises => exact inv_workStep hi rfl h
  | workCancelled => exact inv_workStep hi rfl h
  | callerCancels | callerDone | deadlineDone | graceDone =>
    obtain rfl := Option.some.inj h
    exact ⟨hi.phase, hi.linked⟩
  | resume => exact inv_resumeStep hi h
  | cancelMain => exact inv_cancelStep hi hg h

/-- The task is cancelled only where `_stop` goes on from its first await. -/
theorem cancelRequested_step {s s' : ExecState ν} {e : ExecEvent ν}
    (h : (execution ν limits rnd context).step s e = some s') :
    s'.cancelRequested = s.cancelRequested ∨ ∃ site, s.phase = .stopYield site := by
  change execStep limits rnd context s e = some s' at h
  cases e with
  | start now =>
    rw [execStep] at h
    cases hp : s.phase with
    | entry =>
      rw [hp] at h
      obtain rfl := Option.some.inj h
      refine .inl ?_
      cases now with
      | none => rfl
      | some now => simp only [startStep]; split_ifs <;> rfl
    | _ => rw [hp] at h; cases h
  | workReturns | workRaises | workCancelled =>
    simp only [execStep, workStep] at h
    split at h
    · obtain rfl := Option.some.inj h
      exact .inl rfl
    · cases h
  | callerCancels | callerDone | deadlineDone | graceDone =>
    obtain rfl := Option.some.inj h
    exact .inl rfl
  | resume =>
    simp only [execStep, resumeStep] at h
    cases hp : s.phase with
    | stopYield site => exact .inr ⟨site, rfl⟩
    | entry | exited => rw [hp] at h; cases h
    | waiting =>
      rw [hp] at h
      refine .inl ?_
      dsimp only at h
      split_ifs at h
      · obtain rfl := Option.some.inj h; simp
      · obtain rfl := Option.some.inj h; simp
      · split at h <;> obtain rfl := Option.some.inj h <;> simp
    | stopGrace site =>
      rw [hp] at h
      dsimp only at h
      split_ifs at h <;> obtain rfl := Option.some.inj h <;> exact .inl rfl
    | cancelGrace site raising =>
      rw [hp] at h
      dsimp only at h
      split_ifs at h <;> obtain rfl := Option.some.inj h <;> simp
    | stopGather | graceGather | cleanup =>
      rw [hp] at h
      obtain rfl := Option.some.inj h
      simp
  | cancelMain =>
    simp only [execStep, cancelStep] at h
    cases hp : s.phase with
    | entry | exited => rw [hp] at h; cases h
    | waiting | stopYield | stopGather | stopGrace | graceGather | cancelGrace | cleanup =>
      rw [hp] at h
      obtain rfl := Option.some.inj h
      simp

/-- Every state of a guarded call keeps the invariant. -/
theorem inv_of_run {h : List (ExecEvent ν)} {s : ExecState ν}
    (hr : (execution ν limits rnd context).Run NoSecondCancel h s) : s.Inv :=
  hr.invariant ⟨⟨rfl, rfl, rfl⟩, nofun⟩ fun _ _ _ => inv_step

/-! ## No orphaned work -/

/-- While the task of a call is not cancelled again in the handler of a
    cancellation, before the work has ended or was detached: at an exit of
    `execute`, the task it created has ended or is in the detached set; the
    linked cancellation is signalled before the task is cancelled; and a value
    is returned only if the task returned it, before the linked cancellation
    was signalled. -/
theorem no_orphaned_work {h : List (ExecEvent ν)} {s : ExecState ν}
    (hr : (execution ν limits rnd context).Run NoSecondCancel h s) :
    (∀ outcome, s.phase = .exited outcome →
      s.work = .notCreated ∨ s.work.done = true ∨ s.detached = true) ∧
    (∀ e s', (execution ν limits rnd context).step s e = some s' →
      s'.cancelRequested = true → s.linked = true) ∧
    ∀ value, s.phase = .exited (.returned value) →
      s.work = .returned value ∧ s.linked = false ∧ s.cancelRequested = false := by
  have hi := inv_of_run hr
  refine ⟨fun outcome hp => ?_, fun e s' hs hc => ?_, fun value hp => ?_⟩
  · have hphase := hi.phase
    rw [hp] at hphase
    exact hphase.1
  · rcases cancelRequested_step hs with he | ⟨site, hp⟩
    · exact hi.linked (he ▸ hc)
    · have hphase := hi.phase
      rw [hp] at hphase
      exact hphase.2
  · have hphase := hi.phase
    rw [hp] at hphase
    exact hphase.2 value rfl

theorem no_orphaned_work_example :
    ∃ h, ∃ s : ExecState ℕ, (execution ℕ .standard .finite aliceCall).Run NoSecondCancel h s ∧
      s.phase = .exited .timeout ∧
      (s.work = .notCreated ∨ s.work.done = true ∨ s.detached = true) := by
  -- the work does not end within the grace time after the deadline
  have heval : ∃ s ∈ (execution ℕ .standard .finite aliceCall).exec
        (execution ℕ .standard .finite aliceCall).init
        [.start (some (.finite 0)), .deadlineDone, .resume, .resume, .graceDone, .resume, .resume,
          .resume],
      (execution ℕ .standard .finite aliceCall).Meets NoSecondCancel
        (execution ℕ .standard .finite aliceCall).init
        [.start (some (.finite 0)), .deadlineDone, .resume, .resume, .graceDone, .resume, .resume,
          .resume] ∧ s.phase = .exited .timeout := by decide +kernel
  obtain ⟨s, hs, hmeets, hp⟩ := heval
  have hr := Machine.run_of_exec hs hmeets
  exact ⟨_, s, hr, hp, (no_orphaned_work hr).1 _ hp⟩

/-- A second cancellation of the task of the call, while `_stop` waits in the
    handler of the first one, makes `execute` exit with the work still running:
    it is neither cancelled nor detached. -/
theorem second_cancel_orphans :
    ∃ h, ∃ s : ExecState ℕ, (execution ℕ .standard .finite aliceCall).Run Machine.Free h s ∧
      s.phase = .exited .cancelled ∧ s.work = .pending ∧ s.cancelRequested = false ∧
      s.detached = false := by
  have heval : ∃ s ∈ (execution ℕ .standard .finite aliceCall).exec
        (execution ℕ .standard .finite aliceCall).init
        [.start (some (.finite 0)), .cancelMain, .cancelMain, .resume],
      s.phase = .exited .cancelled ∧ s.work = .pending ∧ s.cancelRequested = false ∧
        s.detached = false := by decide +kernel
  obtain ⟨s, hs, hp⟩ := heval
  exact ⟨_, s, Machine.run_of_exec hs (Machine.meets_free _ _), hp⟩

end McpRuntime.Execution
