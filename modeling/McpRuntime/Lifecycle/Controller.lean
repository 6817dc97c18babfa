import McpRuntime.Contracts
import McpRuntime.Machine

/-!
# Lifecycle hooks

A controller starts its components in order, and drains and stops those it has
started in the reverse order. A hook that raises does not keep the rest from
running: the failures are counted, and one exception is raised at the end. A
start hook that raises is followed by the stop hooks of what was started.

An application bounds its drain and its stop by a deadline: the operation runs in
a task of its own, which is cancelled when the deadline passes. The cancellation
is raised in the hook that is running, or while the operation waits for the lock
of another one. A hook may let it through, and then the operation ends there.

* `runHooks` is the loop over the hooks; `runHooks_of_completed` says what it does
  unless a hook lets a cancellation through.
* `lifecycle` is a controller with its operations, in any order.
-/

namespace McpRuntime

variable {κ : Type*}

/-- A hook of a component. -/
inductive Hook
  | start
  | drain
  | stop
  deriving DecidableEq

/-- How a hook ends. -/
inductive HookEnd
  | returns
  /-- It raises an `Exception`. -/
  | raises
  /-- It lets `CancelledError` through, which is no `Exception`. -/
  | cancelled
  deriving DecidableEq

/-- The run of a hook. -/
structure Invocation (κ : Type*) where
  hook : Hook
  component : κ
  ended : HookEnd

/-- What the operations of a controller raise. An exception names its component
    by `component.name`. -/
inductive LifecycleError (κ : Type*)
  /-- `LifecycleFailure`. -/
  | failure (phase : LifecycleState) (component : κ) (failureCount : ℕ)
  /-- `LifecycleTransitionError`. -/
  | transition (operation : Text) (state : LifecycleState)
  | valueError
  | cancelledError
  /-- `ApplicationDeadlineExceeded`. -/
  | deadlineExceeded (phase : LifecycleState)

/-! ## The loop over the hooks -/

/-- What a loop over hooks leaves: the hooks it ran, `failed_component`,
    `failure_count`, and whether a cancellation ended it. -/
structure HookLoop (κ : Type*) where
  log : List (Invocation κ)
  failedComponent : Option κ
  failureCount : ℕ
  cancelled : Bool

/-- The loop over the hooks of the components, of which the `n`-th ends as `ends n`
    says. The first component that fails is kept, and the failures are counted. -/
def runHooks (hook : Hook) (ends : ℕ → HookEnd) (n : ℕ) (failedComponent : Option κ)
    (failureCount : ℕ) : List κ → HookLoop κ
  | [] => ⟨[], failedComponent, failureCount, false⟩
  | component :: rest =>
    match ends n with
    | .returns =>
      let loop := runHooks hook ends (n + 1) failedComponent failureCount rest
      { loop with log := ⟨hook, component, .returns⟩ :: loop.log }
    | .raises =>
      let failed := if failedComponent.isNone then some component else failedComponent
      let loop := runHooks hook ends (n + 1) failed (failureCount + 1) rest
      { loop with log := ⟨hook, component, .raises⟩ :: loop.log }
    | .cancelled => ⟨[⟨hook, component, .cancelled⟩], failedComponent, failureCount, true⟩

/-- The hooks of a log, each with its component. -/
def invoked (log : List (Invocation κ)) : List (Hook × κ) :=
  log.map fun invocation => (invocation.hook, invocation.component)

/-- The number of the hooks of a log that raised. -/
def failures (log : List (Invocation κ)) : ℕ :=
  log.countP fun invocation => invocation.ended = .raises

@[simp] theorem invoked_nil : invoked ([] : List (Invocation κ)) = [] := rfl

@[simp] theorem invoked_cons (invocation : Invocation κ) (log : List (Invocation κ)) :
    invoked (invocation :: log) = (invocation.hook, invocation.component) :: invoked log := rfl

@[simp] theorem invoked_append (log log' : List (Invocation κ)) :
    invoked (log ++ log') = invoked log ++ invoked log' := List.map_append

/-- A hook that raised is counted. -/
theorem failures_cons_raises (hook : Hook) (component : κ) (log : List (Invocation κ)) :
    failures (⟨hook, component, .raises⟩ :: log) = failures log + 1 :=
  List.countP_cons_of_pos (decide_eq_true rfl)

section

variable {hook : Hook} {ends : ℕ → HookEnd} {n : ℕ} {failedComponent : Option κ}
  {failureCount : ℕ} {l : List κ}

/-- A loop ends by a cancellation when one of its hooks lets it through. -/
theorem runHooks_cancelled :
    (runHooks hook ends n failedComponent failureCount l).cancelled = true ↔
      ∃ i, n ≤ i ∧ i < n + l.length ∧ ends i = .cancelled := by
  induction l generalizing n failedComponent failureCount with
  | nil =>
    rw [runHooks, List.length_nil]
    exact ⟨nofun, fun ⟨i, hi, hi', _⟩ => by omega⟩
  | cons component rest ih =>
    -- the hook at `n` lets no cancellation through, so that the rest decides
    have hrest (hn : ends n ≠ .cancelled) :
        (∃ i, n + 1 ≤ i ∧ i < n + 1 + rest.length ∧ ends i = .cancelled) ↔
          ∃ i, n ≤ i ∧ i < n + (component :: rest).length ∧ ends i = .cancelled := by
      rw [List.length_cons]
      refine ⟨fun ⟨i, hi, hi', he⟩ => ⟨i, by omega, by omega, he⟩, fun ⟨i, hi, hi', he⟩ => ?_⟩
      have hne : i ≠ n := fun h => hn (h ▸ he)
      exact ⟨i, by omega, by omega, he⟩
    rw [runHooks]
    cases hn : ends n with
    | returns => exact ih.trans (hrest (by rw [hn]; decide))
    | raises => exact ih.trans (hrest (by rw [hn]; decide))
    | cancelled => exact ⟨fun _ => ⟨n, le_rfl, by rw [List.length_cons]; omega, hn⟩, fun _ => rfl⟩

/-- A loop runs the hooks of the components in their order, all of them unless a
    cancellation ends it. -/
theorem runHooks_invoked :
    invoked (runHooks hook ends n failedComponent failureCount l).log <+: l.map (hook, ·) ∧
      ((runHooks hook ends n failedComponent failureCount l).cancelled = false →
        invoked (runHooks hook ends n failedComponent failureCount l).log = l.map (hook, ·)) := by
  induction l generalizing n failedComponent failureCount with
  | nil => exact ⟨List.nil_prefix, fun _ => rfl⟩
  | cons component rest ih =>
    rw [runHooks, List.map_cons]
    cases ends n with
    | returns => exact ⟨List.cons_prefix_cons.2 ⟨rfl, ih.1⟩, fun h => congrArg _ (ih.2 h)⟩
    | raises => exact ⟨List.cons_prefix_cons.2 ⟨rfl, ih.1⟩, fun h => congrArg _ (ih.2 h)⟩
    | cancelled => exact ⟨List.cons_prefix_cons.2 ⟨rfl, List.nil_prefix⟩, nofun⟩

/-- A loop ends with the first hook that lets a cancellation through. -/
theorem runHooks_interrupted {m : ℕ} (hm : n ≤ m) (hlt : m < n + l.length)
    (hends : ∀ i, ends i = .cancelled ↔ i = m) :
    invoked (runHooks hook ends n failedComponent failureCount l).log =
      (l.take (m - n + 1)).map (hook, ·) := by
  induction l generalizing n failedComponent failureCount with
  | nil => rw [List.length_nil] at hlt; omega
  | cons component rest ih =>
    rw [runHooks, List.take_succ_cons, List.map_cons]
    by_cases heq : n = m
    · rw [heq, (hends m).2 rfl, Nat.sub_self, List.take_zero]
      rfl
    · have hsub : m - n = m - (n + 1) + 1 := by omega
      rw [List.length_cons] at hlt
      rw [hsub]
      cases hn : ends n with
      | cancelled => exact absurd ((hends n).1 hn) heq
      | returns => exact congrArg _ (ih (by omega) (by omega))
      | raises => exact congrArg _ (ih (by omega) (by omega))

/-- A loop counts the hooks that raise. -/
theorem runHooks_failureCount :
    (runHooks hook ends n failedComponent failureCount l).failureCount =
      failureCount + failures (runHooks hook ends n failedComponent failureCount l).log := by
  induction l generalizing n failedComponent failureCount with
  | nil => rfl
  | cons component rest ih =>
    rw [runHooks]
    cases ends n with
    | returns => exact ih
    | raises =>
      refine ih.trans ?_
      change _ = failureCount + failures (⟨hook, component, .raises⟩ :: _)
      rw [failures_cons_raises, Nat.add_assoc, Nat.add_comm 1]
    | cancelled => rfl

end

/-! ## The controller -/

/-- `LifecycleController`. -/
structure LifecycleController (κ : Type*) where
  components : List κ
  started : List κ := []
  state : LifecycleState := .startup

/-- What an operation does: the controller after it, the hooks that it ran, and
    what it raises. -/
structure Operation (κ : Type*) where
  controller : LifecycleController κ
  log : List (Invocation κ) := []
  raised : Option (LifecycleError κ) := none

namespace LifecycleController

variable (c : LifecycleController κ) (ends : ℕ → HookEnd)

/-- The loop of `_start` over the components that are left. -/
def startFrom (c : LifecycleController κ) (n : ℕ) : List κ → Operation κ
  | [] => { controller := { c with state := .ready } }
  | component :: rest =>
    match ends n with
    | .returns =>
      let operation := startFrom { c with started := c.started ++ [component] } (n + 1) rest
      { operation with log := ⟨.start, component, .returns⟩ :: operation.log }
    | .raises =>
      let cleanup := runHooks .stop ends (n + 1) (some component) 1
        (component :: c.started.reverse)
      let log := ⟨.start, component, .raises⟩ :: cleanup.log
      if cleanup.cancelled then { controller := c, log, raised := some .cancelledError }
      else
        { controller := { c with state := .stopped }
          log
          raised := some (.failure .startup component cleanup.failureCount) }
    | .cancelled =>
      { controller := c
        log := [⟨.start, component, .cancelled⟩]
        raised := some .cancelledError }

/-- `start`. -/
def start : Operation κ :=
  if c.state = .startup then c.startFrom ends 0 c.components
  else { controller := c, raised := some (.transition (lit "start") c.state) }

/-- What the end of a loop raises. -/
def loopError (phase : LifecycleState) (loop : HookLoop κ) : Option (LifecycleError κ) :=
  if loop.cancelled then some .cancelledError
  else loop.failedComponent.map fun component => .failure phase component loop.failureCount

/-- `validate_deadline`: the deadline is finite and not negative. -/
def isDeadline (deadline : PyFloat) : Bool := deadline.isFinite && !deadline.lt (.finite 0)

/-- `drain`. -/
def drain (deadline : PyFloat) : Operation κ :=
  if !isDeadline deadline then { controller := c, raised := some .valueError }
  else
    match c.state with
    | .draining | .stopped => { controller := c }
    | .startup => { controller := c, raised := some (.transition (lit "drain") c.state) }
    | .ready =>
      let loop := runHooks .drain ends 0 none 0 c.started.reverse
      { controller := { c with state := .draining }
        log := loop.log
        raised := loopError .draining loop }

/-- `stop`. A cancellation leaves the state as it is. -/
def stop : Operation κ :=
  if c.state = .stopped then { controller := c }
  else
    let loop := runHooks .stop ends 0 none 0 c.started.reverse
    { controller := if loop.cancelled then c else { c with state := .stopped }
      log := loop.log
      raised := loopError .stopped loop }

end LifecycleController

/-! ## Deadlines -/

/-- What the deadline of an operation does to it. -/
inductive Deadline
  /-- The operation ends before the deadline. -/
  | kept
  /-- The deadline passes while the operation waits for the lock. -/
  | inLock
  /-- The deadline passes while the `n`-th hook runs, which ends as `ended` says. -/
  | inHook (n : ℕ) (ended : HookEnd)

/-- How the hooks end, when the `n`-th of them raises as `raises n` says unless the
    deadline interrupts it. -/
def Deadline.ends (deadline : Deadline) (raises : ℕ → Bool) (n : ℕ) : HookEnd :=
  match deadline with
  | inHook m ended => if n = m then ended else if raises n then .raises else .returns
  | _ => if raises n then .raises else .returns

/-- `_run_before_deadline`, of an operation of the controller `c`. An operation that
    is interrupted does not return, whatever the hook makes of the cancellation;
    an exception of it other than the cancellation is raised as it is. -/
def runBeforeDeadline (c : LifecycleController κ) (phase : LifecycleState) (deadline : Deadline)
    (operation : Operation κ) : Operation κ :=
  match deadline with
  | .kept => operation
  | .inLock => { controller := c, raised := some (.deadlineExceeded phase) }
  | .inHook n _ =>
    if n < operation.log.length then
      match operation.raised with
      | none | some .cancelledError =>
        { operation with raised := some (.deadlineExceeded phase) }
      | some _ => operation
    else operation

/-- An operation of an application, with the hooks that raise. -/
inductive LifecycleEvent
  | start (raises : ℕ → Bool)
  | drain (due : PyFloat) (raises : ℕ → Bool) (deadline : Deadline)
  | stop (raises : ℕ → Bool) (deadline : Deadline)

/-- The operation runs to completion. -/
def LifecycleEvent.Completed : LifecycleEvent → Prop
  | start _ => True
  | drain _ _ deadline => deadline = .kept
  | stop _ deadline => deadline = .kept

/-- What an operation does to a controller. -/
def LifecycleController.perform (c : LifecycleController κ) : LifecycleEvent → Operation κ
  | .start raises => c.start (Deadline.kept.ends raises)
  | .drain due raises deadline =>
    runBeforeDeadline c .draining deadline (c.drain (deadline.ends raises) due)
  | .stop raises deadline =>
    runBeforeDeadline c .stopped deadline (c.stop (deadline.ends raises))

/-- A controller with the hooks that have run, the last of them at the end. -/
structure Lifecycle (κ : Type*) where
  controller : LifecycleController κ
  log : List (Invocation κ) := []

/-- A controller of components with its operations, in any order. -/
def lifecycle (components : List κ) : Machine (Lifecycle κ) LifecycleEvent where
  init := { controller := { components } }
  step
    | s, e =>
      let operation := s.controller.perform e
      some { controller := operation.controller, log := s.log ++ operation.log }

end McpRuntime
