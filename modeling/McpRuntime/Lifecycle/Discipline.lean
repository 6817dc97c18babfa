import McpRuntime.Lifecycle.Controller
import Mathlib.Data.List.Infix
import Mathlib.Data.List.Count

/-!
# The discipline of the lifecycle

What the operations of a controller do to its components, in any order.

* `Lifecycle.disciplined`: with operations that run to completion, the components
  start in their order, a start that fails is rolled back in the reverse order,
  every component is stopped at most once, and has been stopped when the state is
  `STOPPED`; the state only moves forward, and failures are counted.
* `Lifecycle.stopped_iff`: a stop with a deadline stops every started component,
  unless the deadline passes in the lock, or in a hook that lets the cancellation
  through. Then it leaves the rest of them as they are
  (`Lifecycle.stop_interrupted`).
-/

namespace McpRuntime

variable {κ : Type*}

/-! ## Hooks in a log -/

/-- The components of which a hook has run, in the order of the log. -/
def ran (hook : Hook) (log : List (Invocation κ)) : List κ :=
  ((invoked log).filter (·.1 = hook)).map Prod.snd

@[simp] theorem ran_nil (hook : Hook) : ran hook ([] : List (Invocation κ)) = [] := rfl

@[simp] theorem ran_append (hook : Hook) (log log' : List (Invocation κ)) :
    ran hook (log ++ log') = ran hook log ++ ran hook log' := by
  rw [ran, invoked_append, List.filter_append, List.map_append]
  rfl

/-- The hooks of a log that are all of one kind. -/
theorem ran_of_invoked {hook hook' : Hook} {log : List (Invocation κ)} (l : List κ)
    (h : invoked log = l.map (hook, ·)) : ran hook' log = if hook = hook' then l else [] := by
  rw [ran, h]
  split_ifs with heq
  · rw [List.filter_eq_self.2 (by simp [heq]), List.map_map]
    exact List.map_id l
  · rw [List.filter_eq_nil_iff.2 (by simp [heq])]
    rfl

/-- A component of which a hook has run. -/
theorem mem_ran {hook : Hook} {log : List (Invocation κ)} {component : κ} :
    component ∈ ran hook log ↔ (hook, component) ∈ invoked log := by
  rw [ran, List.mem_map]
  constructor
  · rintro ⟨⟨hook', component'⟩, hmem, rfl⟩
    rw [List.mem_filter, decide_eq_true_eq] at hmem
    obtain ⟨hmem, rfl⟩ := hmem
    exact hmem
  · exact fun h => ⟨_, List.mem_filter.2 ⟨h, decide_eq_true rfl⟩, rfl⟩

/-- The order of the states. -/
def LifecycleState.rank : LifecycleState → ℕ
  | startup => 0
  | ready => 1
  | draining => 2
  | stopped => 3

/-- The last state. -/
theorem LifecycleState.rank_le (state : LifecycleState) : state.rank ≤ stopped.rank := by
  cases state <;> decide

/-! ## The operations -/

namespace LifecycleController

variable {c : LifecycleController κ} {ends : ℕ → HookEnd}

/-- A loop of which no hook lets a cancellation through runs all hooks. -/
theorem runHooks_of_completed (hends : ∀ i, ends i ≠ .cancelled) (hook : Hook) (n : ℕ)
    (failedComponent : Option κ) (failureCount : ℕ) (l : List κ) :
    (runHooks hook ends n failedComponent failureCount l).cancelled = false ∧
      invoked (runHooks hook ends n failedComponent failureCount l).log = l.map (hook, ·) := by
  have hcancelled :
      (runHooks hook ends n failedComponent failureCount l).cancelled = false := by
    rw [← Bool.not_eq_true, runHooks_cancelled]
    exact fun ⟨i, _, _, he⟩ => hends i he
  exact ⟨hcancelled, runHooks_invoked.2 hcancelled⟩

/-- The loop of a start: all start hooks return and all components are started, or it
    stops at the first one that fails, after the stop hooks of this one and of those
    before it. -/
theorem startFrom_cases (hends : ∀ i, ends i ≠ .cancelled) (n : ℕ) (l : List κ) :
    (∀ i < l.length, ends (n + i) = .returns) ∧
        (c.startFrom ends n l).controller = { c with started := c.started ++ l, state := .ready } ∧
        invoked (c.startFrom ends n l).log = l.map (.start, ·) ∧
        (c.startFrom ends n l).raised = none ∨
      ∃ before component rest, l = before ++ component :: rest ∧
        (∀ i < before.length, ends (n + i) = .returns) ∧ ends (n + before.length) = .raises ∧
        (c.startFrom ends n l).controller =
          { c with started := c.started ++ before, state := .stopped } ∧
        invoked (c.startFrom ends n l).log = (before ++ [component]).map (.start, ·) ++
          (component :: (c.started ++ before).reverse).map (.stop, ·) ∧
        (c.startFrom ends n l).raised =
          some (.failure .startup component (failures (c.startFrom ends n l).log)) := by
  induction l generalizing c n with
  | nil => exact .inl ⟨nofun, by rw [startFrom, List.append_nil], rfl, rfl⟩
  | cons component rest ih =>
    rw [startFrom]
    cases hn : ends n with
    | cancelled => exact absurd hn (hends n)
    | returns =>
      -- The start hook at `n` returned, and so did those that the loop ran after it.
      have hreturns {m : ℕ} (h : ∀ i < m, ends (n + 1 + i) = .returns) (i : ℕ) (hi : i < m + 1) :
          ends (n + i) = .returns := by
        cases i with
        | zero => exact hn
        | succ i =>
          rw [← Nat.add_assoc, Nat.add_right_comm]
          exact h i (Nat.lt_of_succ_lt_succ hi)
      rcases ih (c := { c with started := c.started ++ [component] }) (n + 1) with
        ⟨hall, hc, hlog, hraised⟩ | ⟨before, failing, after, rfl, hall, hfails, hc, hlog, hraised⟩
      · refine .inl ⟨hreturns hall, hc.trans ?_, congrArg ((Hook.start, component) :: ·) hlog,
          hraised⟩
        rw [List.append_assoc, List.singleton_append]
      · refine .inr ⟨component :: before, failing, after, rfl, hreturns hall, ?_, hc.trans ?_, ?_,
          hraised⟩
        · rw [List.length_cons, ← Nat.add_assoc, Nat.add_right_comm]
          exact hfails
        · rw [List.append_assoc, List.singleton_append]
        · refine (congrArg ((Hook.start, component) :: ·) hlog).trans ?_
          rw [List.append_assoc c.started, List.singleton_append]
          rfl
    | raises =>
      obtain ⟨hcancelled, hlog⟩ := runHooks_of_completed hends .stop (n + 1) (some component) 1
        (component :: c.started.reverse)
      refine .inr ⟨[], component, rest, rfl, nofun, hn, ?_, ?_, ?_⟩
      · simp only [hcancelled, Bool.false_eq_true, if_false, List.append_nil]
      · simp only [hcancelled, Bool.false_eq_true, if_false, invoked_cons, hlog]
        rw [List.append_nil]
        rfl
      · simp only [hcancelled, Bool.false_eq_true, if_false, failures_cons_raises,
          runHooks_failureCount]
        rw [Nat.add_comm]

/-- A start that is allowed. -/
theorem start_eq (h : c.state = .startup) : c.start ends = c.startFrom ends 0 c.components :=
  if_pos h

/-- The exception at the end of a loop counts its failures. -/
theorem failureCount_of_loopError {hook : Hook} {n : ℕ} {failedComponent : Option κ} {l : List κ}
    {phase phase' : LifecycleState} {component : κ} {failureCount : ℕ}
    (h : loopError phase (runHooks hook ends n failedComponent 0 l) =
      some (.failure phase' component failureCount)) :
    failureCount = failures (runHooks hook ends n failedComponent 0 l).log := by
  rw [loopError] at h
  split_ifs at h
  · cases h
  · obtain ⟨_, -, he⟩ := Option.map_eq_some_iff.1 h
    cases he
    rw [runHooks_failureCount, Nat.zero_add]

end LifecycleController

theorem Deadline.kept_ends_eq (raises : ℕ → Bool) (n : ℕ) :
    Deadline.kept.ends raises n = if raises n then .raises else .returns := rfl

/-- No hook of an operation that is kept lets a cancellation through. -/
theorem Deadline.kept_ends (raises : ℕ → Bool) (n : ℕ) : Deadline.kept.ends raises n ≠ .cancelled := by
  rw [kept_ends_eq]
  split_ifs
  · decide
  · decide

/-! ## Operations that run to completion -/

/-- What holds of a controller of components and of the hooks that have run. -/
structure Lifecycle.Disciplined (components : List κ) (s : Lifecycle κ) : Prop where
  components_eq : s.controller.components = components
  startup : s.controller.state = .startup →
    s.controller.started = [] ∧ ran .start s.log = [] ∧ ran .stop s.log = []
  running : s.controller.state = .ready ∨ s.controller.state = .draining →
    s.controller.started = components ∧ ran .start s.log = components ∧ ran .stop s.log = []
  stopped : s.controller.state = .stopped →
    ran .start s.log <+: components ∧ (ran .stop s.log).Perm (ran .start s.log)

namespace Lifecycle

variable {components : List κ} {s : Lifecycle κ}

/-- A start that is allowed leaves a running controller, or a stopped one. -/
theorem disciplined_start (hd : Disciplined components s) (hstate : s.controller.state = .startup)
    {ends : ℕ → HookEnd} (hends : ∀ i, ends i ≠ .cancelled) :
    Disciplined components
      ⟨(s.controller.start ends).controller, s.log ++ (s.controller.start ends).log⟩ := by
  obtain ⟨hstarted, hstarts, hstops⟩ := hd.startup hstate
  rw [LifecycleController.start_eq hstate]
  rcases LifecycleController.startFrom_cases (c := s.controller) hends 0 s.controller.components with
    ⟨-, hc, hlog, -⟩ | ⟨before, failing, rest, hcomponents, -, -, hc, hlog, -⟩
  · rw [hc, hstarted, List.nil_append, hd.components_eq]
    rw [hd.components_eq] at hlog
    refine ⟨rfl, nofun, fun _ => ⟨rfl, ?_, ?_⟩, nofun⟩
    · rw [ran_append, hstarts, ran_of_invoked _ hlog, if_pos rfl, List.nil_append]
    · rw [ran_append, hstops, ran_of_invoked _ hlog, if_neg (by decide), List.nil_append]
  · rw [hc]
    rw [hstarted, List.nil_append] at hlog
    have hran (hook : Hook) : ran hook (s.controller.startFrom ends 0 s.controller.components).log =
        (if .start = hook then before ++ [failing] else []) ++
          if .stop = hook then failing :: before.reverse else [] := by
      have hsplit : invoked (s.controller.startFrom ends 0 s.controller.components).log =
          invoked (((before ++ [failing]).map fun component => ⟨.start, component, .returns⟩) ++
            (failing :: before.reverse).map fun component => ⟨.stop, component, .returns⟩) := by
        rw [hlog, invoked_append, invoked, invoked, List.map_map, List.map_map]
        rfl
      rw [ran, hsplit, ← ran, ran_append, ran_of_invoked (before ++ [failing]),
        ran_of_invoked (failing :: before.reverse)]
      · rw [invoked, List.map_map]
        rfl
      · rw [invoked, List.map_map]
        rfl
    refine ⟨hd.components_eq, nofun, fun h => h.elim nofun nofun, fun _ => ?_⟩
    rw [ran_append, ran_append, hstarts, hstops, hran, hran]
    simp only [List.nil_append, if_true, reduceCtorEq, if_false, List.append_nil]
    rw [hd.components_eq] at hcomponents
    refine ⟨⟨rest, by rw [hcomponents, List.append_assoc]; rfl⟩, ?_⟩
    exact ((List.reverse_perm before).cons failing).trans (List.perm_append_singleton _ _).symm

/-- A stop of a controller that is not stopped stops what is started. -/
theorem disciplined_stop (hd : Disciplined components s) (hstate : s.controller.state ≠ .stopped)
    {ends : ℕ → HookEnd} (hends : ∀ i, ends i ≠ .cancelled) :
    Disciplined components
      ⟨(s.controller.stop ends).controller, s.log ++ (s.controller.stop ends).log⟩ := by
  obtain ⟨hcancelled, hlog⟩ := LifecycleController.runHooks_of_completed hends .stop 0 none 0
    s.controller.started.reverse
  rw [LifecycleController.stop, if_neg hstate]
  simp only [hcancelled, Bool.false_eq_true, if_false]
  refine ⟨hd.components_eq, nofun, fun h => h.elim nofun nofun, fun _ => ?_⟩
  rw [ran_append, ran_append, ran_of_invoked _ hlog, ran_of_invoked _ hlog, if_neg (by decide),
    if_pos rfl, List.append_nil]
  cases hs : s.controller.state with
  | startup =>
    obtain ⟨hstarted, hstarts, hstops⟩ := hd.startup hs
    rw [hstarted, hstarts, hstops]
    exact ⟨List.nil_prefix, .nil⟩
  | ready | draining =>
    obtain ⟨hstarted, hstarts, hstops⟩ := hd.running (by rw [hs]; decide)
    rw [hstarted, hstarts, hstops]
    exact ⟨List.prefix_rfl, List.reverse_perm components⟩
  | stopped => exact absurd hs hstate

/-- A drain of a running controller runs no start and no stop hooks. -/
theorem disciplined_drain (hd : Disciplined components s) (hstate : s.controller.state = .ready)
    {ends : ℕ → HookEnd} (hends : ∀ i, ends i ≠ .cancelled) :
    Disciplined components ⟨{ s.controller with state := .draining },
      s.log ++ (runHooks .drain ends 0 none 0 s.controller.started.reverse).log⟩ := by
  obtain ⟨-, hlog⟩ := LifecycleController.runHooks_of_completed hends .drain 0 none 0
    s.controller.started.reverse
  obtain ⟨hstarted, hstarts, hstops⟩ := hd.running (.inl hstate)
  refine ⟨hd.components_eq, nofun, fun _ => ⟨hstarted, ?_, ?_⟩, nofun⟩
  · rw [ran_append, ran_of_invoked _ hlog, if_neg (by decide), hstarts, List.append_nil]
  · rw [ran_append, ran_of_invoked _ hlog, if_neg (by decide), hstops, List.append_nil]

/-- Operations that run to completion keep the discipline. -/
theorem disciplined_step (hd : Disciplined components s) {e : LifecycleEvent} (he : e.Completed) :
    Disciplined components
      ⟨(s.controller.perform e).controller, s.log ++ (s.controller.perform e).log⟩ := by
  have hsame : Disciplined components ⟨s.controller, s.log ++ []⟩ := by rwa [List.append_nil]
  cases e with
  | start raises =>
    by_cases hstate : s.controller.state = .startup
    · exact disciplined_start hd hstate (Deadline.kept_ends raises)
    · rwa [LifecycleController.perform, LifecycleController.start, if_neg hstate]
  | drain due raises deadline =>
    obtain rfl : deadline = .kept := he
    rw [LifecycleController.perform, runBeforeDeadline, LifecycleController.drain]
    split_ifs
    · exact hsame
    · cases hstate : s.controller.state with
      | ready => exact disciplined_drain hd hstate (Deadline.kept_ends raises)
      | startup | draining | stopped => exact hsame
  | stop raises deadline =>
    obtain rfl : deadline = .kept := he
    rw [LifecycleController.perform, runBeforeDeadline]
    by_cases hstate : s.controller.state = .stopped
    · rwa [LifecycleController.stop, if_pos hstate]
    · exact disciplined_stop hd hstate (Deadline.kept_ends raises)

end Lifecycle

namespace LifecycleController

variable (c : LifecycleController κ)

/-- The state does not move backward. -/
theorem rank_le_perform (e : LifecycleEvent) :
    c.state.rank ≤ (c.perform e).controller.state.rank := by
  have hbefore (phase : LifecycleState) (deadline : Deadline) (operation : Operation κ)
      (h : c.state.rank ≤ operation.controller.state.rank) :
      c.state.rank ≤ (runBeforeDeadline c phase deadline operation).controller.state.rank := by
    cases deadline with
    | kept => exact h
    | inLock => exact le_rfl
    | inHook n ended =>
      rw [runBeforeDeadline]
      split
      · split <;> exact h
      · exact h
  cases e with
  | start raises =>
    by_cases hstate : c.state = .startup
    · rw [hstate]
      exact Nat.zero_le _
    · rw [perform, start, if_neg hstate]
  | drain due raises deadline =>
    refine hbefore _ _ _ ?_
    rw [drain]
    split_ifs
    · exact le_rfl
    · cases hstate : c.state with
      | ready => exact Nat.le_succ 1
      | startup | draining | stopped => simp only [hstate]; exact le_rfl
  | stop raises deadline =>
    refine hbefore _ _ _ ?_
    rw [stop]
    split_ifs with hstopped
    · exact le_rfl
    · change _ ≤ (if _ then c else { c with state := .stopped }).state.rank
      split_ifs
      · exact le_rfl
      · exact c.state.rank_le

/-- An exception counts the hooks that raised. -/
theorem failureCount_of_perform {e : LifecycleEvent} {phase : LifecycleState} {component : κ}
    {failureCount : ℕ} (h : (c.perform e).raised = some (.failure phase component failureCount)) :
    failureCount = failures (c.perform e).log := by
  have hbefore {phase' : LifecycleState} {deadline : Deadline} {operation : Operation κ}
      (hoperation : operation.raised = some (.failure phase component failureCount) →
        failureCount = failures operation.log)
      (h : (runBeforeDeadline c phase' deadline operation).raised =
        some (.failure phase component failureCount)) :
      failureCount = failures (runBeforeDeadline c phase' deadline operation).log := by
    cases deadline with
    | kept => exact hoperation h
    | inLock => cases h
    | inHook n ended =>
      rw [runBeforeDeadline] at h ⊢
      split_ifs at h ⊢ with hlt
      · cases hraised : operation.raised with
        | none => simp only [hraised] at h; cases h
        | some error =>
          cases error with
          | cancelledError => simp only [hraised] at h; cases h
          | failure | transition | valueError | deadlineExceeded =>
            simp only [hraised] at h ⊢
            exact hoperation (hraised ▸ h)
      · exact hoperation h
  cases e with
  | start raises =>
    by_cases hstate : c.state = .startup
    · rw [perform, start_eq hstate] at h ⊢
      rcases startFrom_cases (c := c) (Deadline.kept_ends raises) 0 c.components with
        ⟨-, -, -, hraised⟩ | ⟨_, _, _, -, -, -, -, -, hraised⟩
      · rw [hraised] at h
        cases h
      · rw [hraised] at h
        cases h
        rfl
    · rw [perform, start, if_neg hstate] at h
      cases h
  | drain due raises deadline =>
    refine hbefore (fun h => ?_) h
    rw [drain] at h ⊢
    split_ifs at h ⊢
    · cases h
    · cases hstate : c.state with
      | ready =>
        simp only [hstate] at h ⊢
        exact failureCount_of_loopError h
      | startup | draining | stopped => simp only [hstate] at h; cases h
  | stop raises deadline =>
    refine hbefore (fun h => ?_) h
    by_cases hstopped : c.state = .stopped
    · rw [stop, if_pos hstopped] at h
      cases h
    · rw [stop, if_neg hstopped] at h ⊢
      exact failureCount_of_loopError h

end LifecycleController

namespace Lifecycle

variable {components : List κ} {s : Lifecycle κ} {h : List LifecycleEvent}

/-- How a start of the components ends, when the `n`-th of its hooks raises as
    `raises n` says. -/
inductive StartEnds (components : List κ) (raises : ℕ → Bool) (operation : Operation κ) : Prop
  /-- No start hook raises: the components are started in their order. -/
  | ready (hreturns : ∀ i < components.length, raises i = false)
      (hlog : invoked operation.log = components.map (.start, ·))
      (hstarted : operation.controller.started = components)
      (hstate : operation.controller.state = .ready) (hraised : operation.raised = none)
  /-- The start hook of `failing` is the first that raises: this component is stopped,
      and then those started before, in the reverse order. -/
  | failed (before : List κ) (failing : κ) (rest : List κ)
      (hcomponents : components = before ++ failing :: rest)
      (hreturns : ∀ i < before.length, raises i = false) (hraises : raises before.length = true)
      (hlog : invoked operation.log = (before ++ [failing]).map (.start, ·) ++
        (failing :: before.reverse).map (.stop, ·))
      (hstate : operation.controller.state = .stopped)
      (hraised : operation.raised = some (.failure .startup failing (failures operation.log)))

/-- A start in `STARTUP` runs the start hooks, until one raises. -/
theorem startEnds_perform (hd : Disciplined components s) (hstate : s.controller.state = .startup)
    (raises : ℕ → Bool) : StartEnds components raises (s.controller.perform (.start raises)) := by
  obtain ⟨hstarted, -, -⟩ := hd.startup hstate
  have hreturns {i : ℕ} (h : Deadline.kept.ends raises (0 + i) = .returns) : raises i = false := by
    rw [Nat.zero_add, Deadline.kept_ends_eq] at h
    split_ifs at h with hi
    exact Bool.eq_false_of_not_eq_true hi
  rw [LifecycleController.perform, LifecycleController.start_eq hstate, hd.components_eq]
  rcases LifecycleController.startFrom_cases (c := s.controller) (Deadline.kept_ends raises) 0
    components with ⟨hall, hc, hlog, hraised⟩ |
      ⟨before, failing, rest, hcomponents, hall, hfails, hc, hlog, hraised⟩
  · refine .ready (fun i hi => hreturns (hall i hi)) hlog ?_ ?_ hraised
    · rw [hc, hstarted, List.nil_append]
    · rw [hc]
  · rw [hstarted, List.nil_append] at hlog
    refine .failed before failing rest hcomponents (fun i hi => hreturns (hall i hi)) ?_ hlog ?_
      hraised
    · rw [Nat.zero_add, Deadline.kept_ends_eq] at hfails
      split_ifs at hfails with hi
      exact hi
    · rw [hc]

/-- In every run of operations that run to completion: the components start in their
    order, and are stopped once for each start at most, and for each start when the
    state is `STOPPED`. A start in `STARTUP` starts all components, unless a start hook
    raises; then it stops that component, and those started before in the reverse order.
    Any other start does nothing. The state does not move backward in an operation, and
    one that raises a failure counts the hooks that raised. -/
theorem disciplined (hr : (lifecycle components).Run (fun _ e => e.Completed) h s) :
    ran .start s.log <+: components ∧ (ran .stop s.log).Subperm (ran .start s.log) ∧
    (s.controller.state = .ready ∨ s.controller.state = .draining →
      ran .start s.log = components ∧ ran .stop s.log = []) ∧
    (s.controller.state = .stopped → (ran .stop s.log).Perm (ran .start s.log)) ∧
    (components.Nodup → (ran .stop s.log).Nodup) ∧
    (∀ raises, (s.controller.state = .startup →
        StartEnds components raises (s.controller.perform (.start raises))) ∧
      (s.controller.state ≠ .startup → s.controller.perform (.start raises) =
        ⟨s.controller, [], some (.transition (lit "start") s.controller.state)⟩)) ∧
    ∀ e, s.controller.state.rank ≤ (s.controller.perform e).controller.state.rank ∧
      ∀ phase failing failureCount,
        (s.controller.perform e).raised = some (.failure phase failing failureCount) →
          failureCount = failures (s.controller.perform e).log := by
  have hd : Disciplined components s :=
    hr.invariant ⟨rfl, fun _ => ⟨rfl, rfl, rfl⟩, fun h => h.elim nofun nofun, nofun⟩
      fun t e t' ht he hstep => by
        cases hstep
        exact disciplined_step ht he
  have hstarted : ran .start s.log <+: components := by
    cases hs : s.controller.state with
    | startup => rw [(hd.startup hs).2.1]; exact List.nil_prefix
    | ready | draining => rw [(hd.running (by rw [hs]; simp)).2.1]
    | stopped => exact (hd.stopped hs).1
  have hsubperm : (ran .stop s.log).Subperm (ran .start s.log) := by
    cases hs : s.controller.state with
    | startup => rw [(hd.startup hs).2.2]; exact List.nil_subperm
    | ready | draining => rw [(hd.running (by rw [hs]; simp)).2.2]; exact List.nil_subperm
    | stopped => exact (hd.stopped hs).2.subperm
  refine ⟨hstarted, hsubperm, fun hs => (hd.running hs).2, fun hs => (hd.stopped hs).2,
    fun hnodup => ?_, fun raises => ⟨fun hs => startEnds_perform hd hs raises, fun hs => ?_⟩,
    fun e => ⟨s.controller.rank_le_perform e, fun phase failing failureCount =>
      s.controller.failureCount_of_perform⟩⟩
  · obtain ⟨l, hperm, hsub⟩ := hsubperm
    exact hperm.nodup_iff.1 ((hnodup.sublist hstarted.sublist).sublist hsub)
  · rw [LifecycleController.perform, LifecycleController.start, if_neg hs]

/-- The second of three components fails to start, and so does the stop of the first:
    the third is never started, and a later stop does nothing. -/
theorem disciplined_example :
    StartEnds [0, 1, 2] (fun i => i = 1 ∨ i = 3)
      ((lifecycle [0, 1, 2]).init.controller.perform (.start fun i => i = 1 ∨ i = 3)) ∧
    ∃ s : Lifecycle ℕ,
      (lifecycle [0, 1, 2]).exec (lifecycle [0, 1, 2]).init
        [.start fun i => i = 1 ∨ i = 3, .stop (fun _ => true) .kept] = some s ∧
      ran .start s.log = [0, 1] ∧ s.controller.state = .stopped ∧
      (ran .stop s.log).Perm (ran .start s.log) := by
  refine ⟨(((disciplined .init).2.2.2.2.2.1 _).1 rfl), _, rfl, rfl, rfl, ?_⟩
  have hr : (lifecycle [0, 1, 2]).Run (fun _ e => e.Completed)
      [.stop (fun _ => true) .kept, .start fun i => i = 1 ∨ i = 3] _ :=
    .step (.step .init trivial rfl) rfl rfl
  exact (disciplined hr).2.2.2.1 rfl

/-! ## Operations with a deadline -/

/-- The deadline ends a stop of a controller before its end: while it waits for the
    lock, or in a hook that lets the cancellation through. -/
def Interrupts (deadline : Deadline) (c : LifecycleController κ) : Prop :=
  c.state ≠ .stopped ∧
    (deadline = .inLock ∨ ∃ n, deadline = .inHook n .cancelled ∧ n < c.started.length)

/-- What holds of a controller with the hooks that have run, whatever the deadlines
    do: nothing is started before the start, and a controller is stopped only when
    every started component is. -/
structure Settled (s : Lifecycle κ) : Prop where
  startup : s.controller.state = .startup → s.controller.started = []
  stopped : s.controller.state = .stopped → ∀ c ∈ s.controller.started, c ∈ ran .stop s.log

/-- The hooks that a deadline lets end with a cancellation. -/
theorem ends_eq_cancelled {deadline : Deadline} {raises : ℕ → Bool} {i : ℕ} :
    deadline.ends raises i = .cancelled ↔ deadline = .inHook i .cancelled := by
  have hends : (if raises i then HookEnd.raises else .returns) ≠ .cancelled := by
    split_ifs
    · decide
    · decide
  cases deadline with
  | kept => exact ⟨fun h => absurd h hends, nofun⟩
  | inLock => exact ⟨fun h => absurd h hends, nofun⟩
  | inHook n ended =>
    rw [Deadline.ends, Deadline.inHook.injEq]
    split_ifs with h
    · exact ⟨fun he => ⟨h.symm, he⟩, And.right⟩
    · exact ⟨fun he => absurd he (by decide), fun he => absurd he.1.symm h⟩
    · exact ⟨fun he => absurd he (by decide), fun he => absurd he.1.symm h⟩

/-- A stop that the deadline does not wait for in the lock. -/
theorem perform_stop (raises : ℕ → Bool) {deadline : Deadline} (h : deadline ≠ .inLock)
    (c : LifecycleController κ) :
    (c.perform (.stop raises deadline)).controller = (c.stop (deadline.ends raises)).controller ∧
      (c.perform (.stop raises deadline)).log = (c.stop (deadline.ends raises)).log := by
  cases deadline with
  | kept => exact ⟨rfl, rfl⟩
  | inLock => exact absurd rfl h
  | inHook n ended =>
    rw [LifecycleController.perform, runBeforeDeadline]
    split
    · split <;> exact ⟨rfl, rfl⟩
    · exact ⟨rfl, rfl⟩

/-- A stop that is not interrupted stops every started component. -/
theorem stopped_of_not_interrupts {c : LifecycleController κ} (hstate : c.state ≠ .stopped)
    (raises : ℕ → Bool) {deadline : Deadline} (h : ¬ Interrupts deadline c) :
    (c.perform (.stop raises deadline)).controller = { c with state := .stopped } ∧
      invoked (c.perform (.stop raises deadline)).log = c.started.reverse.map (.stop, ·) := by
  have hlock : deadline ≠ .inLock := fun heq => h ⟨hstate, .inl heq⟩
  have hcancelled :
      (runHooks .stop (deadline.ends raises) 0 none 0 c.started.reverse).cancelled = false := by
    rw [← Bool.not_eq_true, runHooks_cancelled]
    rintro ⟨i, -, hi, he⟩
    rw [List.length_reverse, Nat.zero_add] at hi
    exact h ⟨hstate, .inr ⟨i, ends_eq_cancelled.1 he, hi⟩⟩
  obtain ⟨hcontroller, hlog⟩ := perform_stop raises hlock c
  rw [hcontroller, hlog, LifecycleController.stop, if_neg hstate]
  simp only [hcancelled, Bool.false_eq_true, if_false, true_and]
  exact runHooks_invoked.2 hcancelled

/-- A stop that is interrupted leaves the controller as it is: no hook runs while
    it waits for the lock, and none after the one that is interrupted. -/
theorem stop_interrupted {c : LifecycleController κ} {raises : ℕ → Bool} {deadline : Deadline}
    (h : Interrupts deadline c) :
    (c.perform (.stop raises deadline)).controller = c ∧
      (deadline = .inLock → (c.perform (.stop raises deadline)).log = []) ∧
      ∀ n, deadline = .inHook n .cancelled →
        invoked (c.perform (.stop raises deadline)).log =
          (c.started.reverse.take (n + 1)).map (.stop, ·) := by
  obtain ⟨hstate, rfl | ⟨n, rfl, hn⟩⟩ := h
  · exact ⟨rfl, fun _ => rfl, nofun⟩
  · have hlock : Deadline.inHook n .cancelled ≠ .inLock := nofun
    obtain ⟨hcontroller, hlog⟩ := perform_stop raises hlock c
    have hends (i : ℕ) : (Deadline.inHook n .cancelled).ends raises i = .cancelled ↔ i = n := by
      rw [ends_eq_cancelled, Deadline.inHook.injEq, eq_comm]
      exact and_iff_left rfl
    have hlt : n < 0 + c.started.reverse.length := by
      rwa [List.length_reverse, Nat.zero_add]
    have hcancelled : (runHooks .stop ((Deadline.inHook n .cancelled).ends raises) 0 none 0
        c.started.reverse).cancelled = true :=
      runHooks_cancelled.2 ⟨n, Nat.zero_le n, hlt, (hends n).2 rfl⟩
    rw [hcontroller, hlog, LifecycleController.stop, if_neg hstate]
    simp only [hcancelled, if_true, true_and]
    refine ⟨nofun, fun m hm => ?_⟩
    cases hm
    exact runHooks_interrupted (Nat.zero_le n) hlt hends

/-- A stop of a controller that is stopped does nothing. -/
theorem perform_stop_of_stopped {c : LifecycleController κ} (h : c.state = .stopped)
    (raises : ℕ → Bool) (deadline : Deadline) :
    (c.perform (.stop raises deadline)).controller = c ∧
      (c.perform (.stop raises deadline)).log = [] := by
  by_cases hlock : deadline = .inLock
  · rw [hlock]
    exact ⟨rfl, rfl⟩
  · rw [(perform_stop raises hlock c).1, (perform_stop raises hlock c).2, LifecycleController.stop,
      if_pos h]
    exact ⟨rfl, rfl⟩

/-- A drain does not start or stop a controller. -/
theorem perform_drain (c : LifecycleController κ) (due : PyFloat) (raises : ℕ → Bool)
    (deadline : Deadline) :
    (c.perform (.drain due raises deadline)).controller = c ∨
      (c.perform (.drain due raises deadline)).controller = { c with state := .draining } := by
  have hdrain (ends : ℕ → HookEnd) : (c.drain ends due).controller = c ∨
      (c.drain ends due).controller = { c with state := .draining } := by
    rw [LifecycleController.drain]
    split_ifs
    · exact .inl rfl
    · cases hstate : c.state with
      | ready => exact .inr rfl
      | startup | draining | stopped => exact .inl rfl
  rw [LifecycleController.perform]
  cases deadline with
  | kept => exact hdrain _
  | inLock => exact .inl rfl
  | inHook n ended =>
    rw [runBeforeDeadline]
    split
    · split <;> exact hdrain _
    · exact hdrain _

/-- Every operation settles the controller. -/
theorem settled_step (hs : Settled s) (e : LifecycleEvent) :
    Settled ⟨(s.controller.perform e).controller, s.log ++ (s.controller.perform e).log⟩ := by
  have hlater {log : List (Invocation κ)} : Settled ⟨s.controller, s.log ++ log⟩ :=
    ⟨hs.startup, fun hstate c hc => by
      rw [ran_append]
      exact List.mem_append_left _ (hs.stopped hstate c hc)⟩
  cases e with
  | start raises =>
    by_cases hstate : s.controller.state = .startup
    · rw [LifecycleController.perform, LifecycleController.start_eq hstate]
      rcases LifecycleController.startFrom_cases (c := s.controller) (Deadline.kept_ends raises) 0
        s.controller.components with ⟨-, hc, -, -⟩ | ⟨before, failing, rest, -, -, -, hc, hlog, -⟩
      · rw [hc]
        exact ⟨nofun, nofun⟩
      · rw [hc]
        refine ⟨nofun, fun _ component hmem => ?_⟩
        rw [ran_append, List.mem_append]
        refine .inr (mem_ran.2 ?_)
        rw [hlog]
        refine List.mem_append_right _ (List.mem_map_of_mem (List.mem_cons_of_mem _ ?_))
        exact List.mem_reverse.2 hmem
    · rw [LifecycleController.perform, LifecycleController.start, if_neg hstate]
      exact hlater
  | drain due raises deadline =>
    rcases perform_drain s.controller due raises deadline with hc | hc
    · rw [hc]
      exact hlater
    · rw [hc]
      exact ⟨nofun, nofun⟩
  | stop raises deadline =>
    by_cases hstate : s.controller.state = .stopped
    · rw [(perform_stop_of_stopped hstate raises deadline).1]
      exact hlater
    · by_cases hinterrupts : Interrupts deadline s.controller
      · rw [(stop_interrupted hinterrupts).1]
        exact hlater
      · obtain ⟨hc, hlog⟩ := stopped_of_not_interrupts hstate raises hinterrupts
        rw [hc]
        refine ⟨nofun, fun _ component hmem => ?_⟩
        rw [ran_append, List.mem_append]
        refine .inr (mem_ran.2 ?_)
        rw [hlog]
        exact List.mem_map_of_mem (List.mem_reverse.2 hmem)

/-- In every run, whatever the deadlines of the operations: once a stop has ended,
    every started component has been stopped and the state is `STOPPED` just when
    the deadline does not interrupt it. Where the deadline does, the stop leaves the
    controller as it is, and has run the hooks up to the one that was interrupted. -/
theorem stopped_iff (hr : (lifecycle components).Run Machine.Free h s) (raises : ℕ → Bool)
    (deadline : Deadline) :
    (((s.controller.perform (.stop raises deadline)).controller.state = .stopped ∧
        ∀ c ∈ (s.controller.perform (.stop raises deadline)).controller.started,
          c ∈ ran .stop (s.log ++ (s.controller.perform (.stop raises deadline)).log)) ↔
      ¬ Interrupts deadline s.controller) ∧
    (Interrupts deadline s.controller →
      (s.controller.perform (.stop raises deadline)).controller = s.controller ∧
      (deadline = .inLock → (s.controller.perform (.stop raises deadline)).log = []) ∧
      ∀ n, deadline = .inHook n .cancelled →
        invoked (s.controller.perform (.stop raises deadline)).log =
          (s.controller.started.reverse.take (n + 1)).map (.stop, ·)) := by
  have hs : Settled s := hr.invariant ⟨fun _ => rfl, nofun⟩ fun t e t' ht _ hstep => by
    cases hstep
    exact settled_step ht e
  refine ⟨⟨fun hstopped hinterrupts => ?_, fun hinterrupts => ?_⟩, stop_interrupted⟩
  · rw [(stop_interrupted hinterrupts).1] at hstopped
    exact hinterrupts.1 hstopped.1
  · have hafter := settled_step hs (.stop raises deadline)
    have hstate : (s.controller.perform (.stop raises deadline)).controller.state = .stopped := by
      by_cases hstate : s.controller.state = .stopped
      · rwa [(perform_stop_of_stopped hstate raises deadline).1]
      · rw [(stopped_of_not_interrupts hstate _ hinterrupts).1]
    exact ⟨hstate, hafter.stopped hstate⟩

/-- Two components are started, and stopped before the deadline. -/
theorem stopped_iff_example :
    ∃ s : Lifecycle ℕ,
      (lifecycle [0, 1]).exec (lifecycle [0, 1]).init [.start fun _ => false] = some s ∧
      (s.controller.perform (.stop (fun _ => true) .kept)).controller.state = .stopped ∧
      ∀ c ∈ (s.controller.perform (.stop (fun _ => true) .kept)).controller.started,
        c ∈ ran .stop (s.log ++ (s.controller.perform (.stop (fun _ => true) .kept)).log) := by
  refine ⟨_, rfl, ?_⟩
  have hr : (lifecycle [0, 1]).Run Machine.Free [.start fun _ => false] _ :=
    .step .init trivial rfl
  exact (stopped_iff hr (fun _ => true) .kept).1.2 fun h => h.2.elim nofun fun ⟨_, h, _⟩ => nomatch h

/-- Two components are started. The deadline passes in the stop hook of the second,
    which lets the cancellation through: the first is never stopped, and the
    state is not `STOPPED`. -/
theorem stop_leaves_component :
    ∃ s : Lifecycle ℕ,
      (lifecycle [0, 1]).exec (lifecycle [0, 1]).init [.start fun _ => false] = some s ∧
      let operation := s.controller.perform (.stop (fun _ => false) (.inHook 0 .cancelled))
      operation.raised = some (.deadlineExceeded .stopped) ∧
        operation.controller.state = .ready ∧ 0 ∈ operation.controller.started ∧
        0 ∉ ran .stop (s.log ++ operation.log) := by
  refine ⟨_, rfl, rfl, rfl, ?_, ?_⟩
  · decide
  · decide

end Lifecycle

end McpRuntime
