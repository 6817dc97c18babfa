import McpRuntime.Lifecycle.Controller
import Mathlib.Data.List.Perm.Basic

/-!
# Draining an application

An application accepts calls while it is ready, and tracks those that run. A drain
flips the state, and then drains the transport, the tracker of the calls and the
other components, in the reverse order of their start; the tracker waits until no
call runs. A later drain waits for the lock of an earlier one, and has nothing to do
then. The work of a drain is cancelled when its deadline passes.

* `draining` is an application with calls and drains, in any order.
* `Draining.drained_of_run`: a drain that returns normally leaves no call unfinished
  and lets none begin, as long as no deadline lets a cancellation through the drain
  of the transport, before the tracker; and the event of the tracker is set just
  when no call runs.
* Otherwise a second drain returns while calls run (`Draining.drained_with_a_call`).
-/

namespace McpRuntime

/-- Where the work of a drain is. -/
inductive DrainPhase
  /-- In the drain hook of the transport. -/
  | transport
  /-- In `_empty.wait()`, which the event has woken or not. -/
  | waiting (woken : Bool)
  /-- In `_cancel_calls`, which waits for the calls it has cancelled. -/
  | cancelling (calls : List ℕ)
  /-- In the drain hook of another component, with `left` more after it. -/
  | component (left : ℕ)
  deriving DecidableEq

/-- The work of a drain that holds the lock, and whether one of its hooks failed. -/
structure DrainWork where
  call : ℕ
  failed : Bool
  phase : DrainPhase
  deriving DecidableEq

/-- An application with its calls and its drains, by number. -/
structure Draining where
  state : LifecycleState := .ready
  /-- The calls that were accepted, and those that have ended. -/
  accepted : List ℕ := []
  finished : List ℕ := []
  /-- `_tasks` and `_empty` of the tracker. -/
  tasks : List ℕ := []
  empty : Bool := true
  /-- The drains that wait for the lock, and the work of the drain that holds it. -/
  waiting : List ℕ := []
  work : Option DrainWork := none
  /-- The drains whose work has ended, and whether it raised. -/
  ended : List (ℕ × Bool) := []
  /-- The drains that do not wait for their work any more, and raise. -/
  late : List ℕ := []
  /-- The drains that have returned normally. -/
  returned : List ℕ := []
  deriving DecidableEq

/-- An event of an application. -/
inductive DrainEvent
  /-- `invoke`, of a new call. -/
  | invoke (call : ℕ)
  /-- A call returns, fails or is cancelled. -/
  | finish (call : ℕ)
  /-- `drain`, of a new drain. -/
  | drain (call : ℕ)
  /-- A drain that waits gets the lock. -/
  | acquire (call : ℕ)
  /-- The drain hook of the transport or of a component ends. -/
  | hookEnds (raises : Bool)
  /-- The wait for the event returns. -/
  | wake
  /-- The calls that were cancelled have ended. -/
  | gathered
  /-- A cancellation is raised in the work of a drain: its deadline passes, or the
      task that waits for it is cancelled after the deadline. The hook that runs
      ends as `ended` says. -/
  | interrupt (call : ℕ) (ended : HookEnd)
  /-- The task of a drain is cancelled before the deadline, and its work goes on. -/
  | abandon (call : ℕ)
  /-- A drain returns, or raises. -/
  | leave (call : ℕ)
  deriving DecidableEq

namespace Draining

variable (s : Draining)

/-- The work of a drain ends, and with it the lock is released. -/
def endWork (call : ℕ) (raises : Bool) : Draining :=
  { s with work := none, ended := (call, raises) :: s.ended }

/-- `_drain`, of a drain that gets the lock. -/
def enter (call : ℕ) : Draining :=
  match s.state with
  | .ready => { s with state := .draining, work := some ⟨call, false, .transport⟩ }
  | .draining | .stopped => s.endWork call false
  | .startup => s.endWork call true

/-- The loop goes on to the next of `left` components. -/
def nextComponent (call : ℕ) (failed : Bool) : ℕ → Draining
  | 0 => s.endWork call failed
  | left + 1 => { s with work := some ⟨call, failed, .component left⟩ }

/-- The loop goes on to the tracker, which does not wait where no call runs. -/
def enterTracker (components call : ℕ) (failed : Bool) : Draining :=
  if s.tasks = [] then s.nextComponent call failed components
  else { s with work := some ⟨call, failed, .waiting false⟩ }

/-- The hook of the transport or of a component ends. -/
def endHook (components : ℕ) (work : DrainWork) (raises : Bool) : Option Draining :=
  match work.phase with
  | .transport => some (s.enterTracker components work.call (work.failed || raises))
  | .component left => some (s.nextComponent work.call (work.failed || raises) left)
  | _ => none

/-- A cancellation is raised in the work of a drain. -/
def interruptWork (components : ℕ) (work : DrainWork) (ended : HookEnd) : Option Draining :=
  match work.phase with
  | .waiting _ | .cancelling _ =>
    -- the calls are cancelled, and a second cancellation waits for them as well
    some { s with work := some { work with phase := .cancelling s.tasks } }
  | _ =>
    match ended with
    | .returns => s.endHook components work false
    | .raises => s.endHook components work true
    | .cancelled => some (s.endWork work.call true)

/-- `finish`, of the tracker: the last call sets the event. -/
def finishCall (call : ℕ) : Draining :=
  let tasks := s.tasks.erase call
  let wake (work : DrainWork) : DrainWork :=
    match work.phase with
    | .waiting _ => { work with phase := .waiting true }
    | _ => work
  { s with
    tasks
    finished := call :: s.finished
    empty := if tasks = [] then true else s.empty
    work := if tasks = [] then s.work.map wake else s.work }

/-- The drain has not been called before. -/
def isNew (call : ℕ) : Bool :=
  !s.waiting.contains call && !(s.work.any fun work => work.call = call) &&
    !(s.ended.map Prod.fst).contains call && !s.late.contains call && !s.returned.contains call

end Draining

/-- An application with calls and drains, and with `components` other components. -/
def draining (components : ℕ) : Machine Draining DrainEvent where
  init := {}
  step
    | s, .invoke call =>
      if call ∈ s.accepted then none
      else if s.state = .ready then
        some { s with accepted := call :: s.accepted, tasks := call :: s.tasks, empty := false }
      else some s
    | s, .finish call => if call ∈ s.tasks then some (s.finishCall call) else none
    | s, .drain call =>
      if !s.isNew call then none
      else if s.work.isNone then some (s.enter call)
      else some { s with waiting := call :: s.waiting }
    | s, .acquire call =>
      if s.work.isNone ∧ call ∈ s.waiting then
        some ({ s with waiting := s.waiting.erase call }.enter call)
      else none
    | s, .hookEnds raises => s.work.bind fun work => s.endHook components work raises
    | s, .wake =>
      s.work.bind fun work =>
        if work.phase = .waiting true then some (s.nextComponent work.call work.failed components)
        else none
    | s, .gathered =>
      s.work.bind fun work =>
        match work.phase with
        | .cancelling calls => if ∀ i ∈ calls, i ∉ s.tasks then some (s.endWork work.call true) else none
        | _ => none
    | s, .interrupt call ended =>
      let s' := { s with late := call :: s.late }
      if call ∈ s.waiting then
        some { s' with waiting := s.waiting.erase call, ended := (call, true) :: s.ended }
      else
        s.work.bind fun work =>
          if work.call = call then s'.interruptWork components work ended else none
    | s, .abandon call =>
      if call ∈ s.waiting ∨ s.work.any fun work => work.call = call then
        some { s with late := call :: s.late }
      else none
    | s, .leave call =>
      match s.ended.lookup call with
      | none => none
      | some raises =>
        let s' := { s with ended := s.ended.filter (·.1 ≠ call) }
        if raises ∨ call ∈ s.late then some { s' with late := call :: s.late }
        else some { s' with returned := call :: s.returned }

namespace Draining

variable {components : ℕ} {s s' : Draining}

/-! ## What a drain leaves alone -/

/-- The calls and their tracker are the same. -/
structure Frame (s s' : Draining) : Prop where
  accepted : s'.accepted = s.accepted
  finished : s'.finished = s.finished
  tasks : s'.tasks = s.tasks
  empty : s'.empty = s.empty

/-- The work of a drain goes on, or ends. -/
theorem frame_nextComponent (s : Draining) (call : ℕ) (failed : Bool) (left : ℕ) :
    Frame s (s.nextComponent call failed left) ∧
      (s.nextComponent call failed left).state = s.state := by
  cases left <;> exact ⟨⟨rfl, rfl, rfl, rfl⟩, rfl⟩

/-- A hook that ends does not touch the calls. -/
theorem frame_endHook {work : DrainWork} {raises : Bool}
    (h : s.endHook components work raises = some s') : Frame s s' ∧ s'.state = s.state := by
  rw [endHook] at h
  split at h
  · cases h
    rw [enterTracker]
    split_ifs
    · exact frame_nextComponent s _ _ _
    · exact ⟨⟨rfl, rfl, rfl, rfl⟩, rfl⟩
  · cases h
    exact frame_nextComponent s _ _ _
  · cases h

/-- Nor does a cancellation. -/
theorem frame_interruptWork {work : DrainWork} {ended : HookEnd}
    (h : s.interruptWork components work ended = some s') : Frame s s' ∧ s'.state = s.state := by
  unfold interruptWork at h
  split at h
  · cases h
    exact ⟨⟨rfl, rfl, rfl, rfl⟩, rfl⟩
  · cases h
    exact ⟨⟨rfl, rfl, rfl, rfl⟩, rfl⟩
  · split at h
    · exact frame_endHook h
    · exact frame_endHook h
    · cases h
      exact ⟨⟨rfl, rfl, rfl, rfl⟩, rfl⟩

/-- A drain that gets the lock flips the state. -/
theorem frame_enter (s : Draining) (call : ℕ) :
    Frame s (s.enter call) ∧ ((s.enter call).state = s.state ∨ (s.enter call).state = .draining) := by
  rw [enter]
  split
  · exact ⟨⟨rfl, rfl, rfl, rfl⟩, .inr rfl⟩
  · exact ⟨⟨rfl, rfl, rfl, rfl⟩, .inl rfl⟩
  · exact ⟨⟨rfl, rfl, rfl, rfl⟩, .inl rfl⟩
  · exact ⟨⟨rfl, rfl, rfl, rfl⟩, .inl rfl⟩

/-- The events of the drains leave the calls alone. -/
theorem frame_step {e : DrainEvent} (hstep : (draining components).step s e = some s')
    (hinvoke : ∀ call, e ≠ .invoke call) (hfinish : ∀ call, e ≠ .finish call) :
    Frame s s' ∧ (s'.state = s.state ∨ s'.state = .draining) := by
  have hsame {t : Draining} (h : Frame s t ∧ t.state = s.state) :
      Frame s t ∧ (t.state = s.state ∨ t.state = .draining) := ⟨h.1, .inl h.2⟩
  simp only [draining] at hstep
  cases e with
  | invoke call => exact absurd rfl (hinvoke call)
  | finish call => exact absurd rfl (hfinish call)
  | drain call =>
    simp only at hstep
    split_ifs at hstep
    · cases hstep
      exact frame_enter s call
    · cases hstep
      exact ⟨⟨rfl, rfl, rfl, rfl⟩, .inl rfl⟩
  | acquire call =>
    simp only at hstep
    split_ifs at hstep
    cases hstep
    obtain ⟨hframe, hstate⟩ := frame_enter { s with waiting := s.waiting.erase call } call
    exact ⟨⟨hframe.accepted, hframe.finished, hframe.tasks, hframe.empty⟩, hstate⟩
  | hookEnds raises =>
    obtain ⟨work, -, h⟩ := Option.bind_eq_some_iff.1 hstep
    exact hsame (frame_endHook h)
  | wake =>
    obtain ⟨work, -, h⟩ := Option.bind_eq_some_iff.1 hstep
    split_ifs at h
    cases h
    exact hsame (frame_nextComponent s _ _ _)
  | gathered =>
    obtain ⟨work, -, h⟩ := Option.bind_eq_some_iff.1 hstep
    split at h
    · split_ifs at h
      cases h
      exact hsame ⟨⟨rfl, rfl, rfl, rfl⟩, rfl⟩
    · cases h
  | interrupt call ended =>
    simp only at hstep
    split_ifs at hstep
    · cases hstep
      exact hsame ⟨⟨rfl, rfl, rfl, rfl⟩, rfl⟩
    · obtain ⟨work, -, h⟩ := Option.bind_eq_some_iff.1 hstep
      split_ifs at h
      obtain ⟨hframe, hstate⟩ := frame_interruptWork h
      exact hsame ⟨⟨hframe.accepted, hframe.finished, hframe.tasks, hframe.empty⟩, hstate⟩
  | abandon call =>
    simp only at hstep
    split_ifs at hstep
    cases hstep
    exact hsame ⟨⟨rfl, rfl, rfl, rfl⟩, rfl⟩
  | leave call =>
    simp only at hstep
    split at hstep
    · cases hstep
    · split_ifs at hstep
      · cases hstep
        exact hsame ⟨⟨rfl, rfl, rfl, rfl⟩, rfl⟩
      · cases hstep
        exact hsame ⟨⟨rfl, rfl, rfl, rfl⟩, rfl⟩

/-! ## The tracker -/

/-- The tracker knows the calls that run, and its event is set when there are
    none. -/
structure Tracked (s : Draining) : Prop where
  empty_iff : s.empty = true ↔ s.tasks = []
  nodup : s.tasks.Nodup
  accepted : ∀ i ∈ s.tasks, i ∈ s.accepted
  unfinished : ∀ i ∈ s.accepted, i ∉ s.finished → i ∈ s.tasks

/-- Every event keeps the tracker right. -/
theorem tracked_step (ht : Tracked s) {e : DrainEvent}
    (hstep : (draining components).step s e = some s') : Tracked s' := by
  by_cases hinvoke : ∃ call, e = .invoke call
  · obtain ⟨call, rfl⟩ := hinvoke
    simp only [draining] at hstep
    split_ifs at hstep with hnew hready
    · cases hstep
      refine ⟨⟨nofun, nofun⟩, List.nodup_cons.2 ⟨fun h => hnew (ht.accepted call h), ht.nodup⟩,
        fun i hi => ?_, fun i hi hfinished => ?_⟩
      · rcases List.mem_cons.1 hi with rfl | hi
        · exact List.mem_cons_self
        · exact List.mem_cons_of_mem _ (ht.accepted i hi)
      · rcases List.mem_cons.1 hi with rfl | hi
        · exact List.mem_cons_self
        · exact List.mem_cons_of_mem _ (ht.unfinished i hi hfinished)
    · cases hstep
      exact ht
  by_cases hfinish : ∃ call, e = .finish call
  · obtain ⟨call, rfl⟩ := hfinish
    simp only [draining] at hstep
    split_ifs at hstep with hmem
    cases hstep
    refine ⟨?_, ht.nodup.erase call, fun i hi => ht.accepted i (List.mem_of_mem_erase hi),
      fun i hi hfinished => ?_⟩
    · change (if s.tasks.erase call = [] then true else s.empty) = true ↔ s.tasks.erase call = []
      split_ifs with hnil
      · exact ⟨fun _ => hnil, fun _ => rfl⟩
      · rw [ht.empty_iff]
        refine ⟨fun h => ?_, fun h => absurd h hnil⟩
        rw [h]
        rfl
    · change i ∉ call :: s.finished at hfinished
      rw [List.mem_cons, not_or] at hfinished
      exact (List.mem_erase_of_ne hfinished.1).2 (ht.unfinished i hi hfinished.2)
  · obtain ⟨hframe, -⟩ := frame_step hstep (fun call h => hinvoke ⟨call, h⟩)
      fun call h => hfinish ⟨call, h⟩
    refine ⟨?_, hframe.tasks ▸ ht.nodup, ?_, ?_⟩
    · rw [hframe.empty, hframe.tasks]
      exact ht.empty_iff
    · rw [hframe.tasks, hframe.accepted]
      exact ht.accepted
    · rw [hframe.accepted, hframe.finished, hframe.tasks]
      exact ht.unfinished

/-- In every run the tracker is right. -/
theorem tracked_of_run {G : Draining → DrainEvent → Prop} {h : List DrainEvent}
    (hr : (draining components).Run G h s) : Tracked s :=
  hr.invariant ⟨⟨fun _ => rfl, fun _ => rfl⟩, List.nodup_nil, nofun, nofun⟩
    fun _ _ _ ht _ hstep => tracked_step ht hstep

/-! ## The end of a drain -/

/-- No call runs, and none can begin. -/
def Drained (s : Draining) : Prop := s.state = .draining ∧ s.tasks = []

/-- No drain has returned normally, and none will whose work has ended. -/
def Quiet (s : Draining) : Prop := s.returned = [] ∧ ∀ e ∈ s.ended, e.2 = true

/-- The work of a drain has yet to wait for the calls, or waits for them. -/
def Pending (tasks : List ℕ) : DrainPhase → Prop
  | .transport => True
  | .waiting woken => woken = false
  | .cancelling calls => ∀ i ∈ tasks, i ∈ calls
  | .component _ => False

/-- Calls may run: there has been no drain, or its work is still pending. -/
def Undrained (s : Draining) : Prop :=
  s.Quiet ∧ ((s.state = .ready ∧ s.work = none) ∨
    s.state = .draining ∧ ∃ work, s.work = some work ∧ Pending s.tasks work.phase)

/-- The event is no cancellation that the drain hook of the transport lets through,
    before the tracker is drained. -/
def Orderly (s : Draining) : DrainEvent → Prop
  | .interrupt call .cancelled => ∀ work ∈ s.work, work.call = call → work.phase ≠ .transport
  | _ => True

/-- What is drained stays so. -/
theorem drained_step (hs : s.Drained) {e : DrainEvent}
    (hstep : (draining components).step s e = some s') : s'.Drained := by
  obtain ⟨hstate, htasks⟩ := hs
  by_cases hinvoke : ∃ call, e = .invoke call
  · obtain ⟨call, rfl⟩ := hinvoke
    simp only [draining, hstate, reduceCtorEq, if_false] at hstep
    split_ifs at hstep
    cases hstep
    exact ⟨hstate, htasks⟩
  by_cases hfinish : ∃ call, e = .finish call
  · obtain ⟨call, rfl⟩ := hfinish
    simp only [draining, htasks, List.not_mem_nil, if_false] at hstep
    cases hstep
  · obtain ⟨hframe, hnext⟩ := frame_step hstep (fun call h => hinvoke ⟨call, h⟩)
      fun call h => hfinish ⟨call, h⟩
    exact ⟨hnext.elim (fun h => h.trans hstate) id, hframe.tasks.trans htasks⟩

/-- A hook before the tracker, or in it, leads to the tracker or past it. -/
theorem undrained_endHook {work : DrainWork} {raises : Bool} (hquiet : s.Quiet)
    (hstate : s.state = .draining) (hpending : Pending s.tasks work.phase)
    (h : s.endHook components work raises = some s') : s'.Undrained ∨ s'.Drained := by
  obtain ⟨hframe, hstate'⟩ := frame_endHook h
  by_cases hnil : s.tasks = []
  · exact .inr ⟨hstate'.trans hstate, hframe.tasks.trans hnil⟩
  rw [endHook] at h
  split at h
  · cases h
    rw [enterTracker, if_neg hnil]
    exact .inl ⟨hquiet, .inr ⟨hstate, _, rfl, rfl⟩⟩
  · -- no component is drained before the calls have ended
    rename_i hphase
    rw [hphase] at hpending
    exact hpending.elim
  · cases h

/-- A cancellation in the work makes it wait for the calls, unless it ends in the
    hook of the transport. -/
theorem undrained_interruptWork {work : DrainWork} {ended : HookEnd} (hquiet : s.Quiet)
    (hstate : s.state = .draining) (hpending : Pending s.tasks work.phase)
    (horderly : ended = .cancelled → work.phase ≠ .transport)
    (h : s.interruptWork components work ended = some s') : s'.Undrained ∨ s'.Drained := by
  unfold interruptWork at h
  cases hphase : work.phase with
  | waiting woken =>
    simp only [hphase] at h
    cases h
    exact .inl ⟨hquiet, .inr ⟨hstate, _, rfl, fun i hi => hi⟩⟩
  | cancelling calls =>
    simp only [hphase] at h
    cases h
    exact .inl ⟨hquiet, .inr ⟨hstate, _, rfl, fun i hi => hi⟩⟩
  | component left =>
    rw [hphase] at hpending
    exact hpending.elim
  | transport =>
    simp only [hphase] at h
    cases ended with
    | returns => exact undrained_endHook hquiet hstate hpending h
    | raises => exact undrained_endHook hquiet hstate hpending h
    | cancelled => exact absurd hphase (horderly rfl)

/-- A drain that gets the lock first flips the state, and later ones have nothing to
    do. -/
theorem undrained_enter (hquiet : s.Quiet) (hstate : s.state = .ready) (call : ℕ) :
    (s.enter call).Undrained := by
  rw [enter, hstate]
  exact ⟨hquiet, .inr ⟨rfl, _, rfl, trivial⟩⟩

/-- The work of a drain is pending while calls may run. -/
theorem Undrained.pending (hs : s.Undrained) {work : DrainWork} (hwork : s.work = some work) :
    s.state = .draining ∧ Pending s.tasks work.phase := by
  rcases hs.2 with ⟨-, hnone⟩ | ⟨hstate, work', hwork', hpending⟩
  · rw [hnone] at hwork
    cases hwork
  · rw [hwork'] at hwork
    cases hwork
    exact ⟨hstate, hpending⟩

/-- Without work there has been no drain. -/
theorem Undrained.ready (hs : s.Undrained) (hnone : s.work = none) : s.state = .ready := by
  rcases hs.2 with ⟨hstate, -⟩ | ⟨-, work, hwork, -⟩
  · exact hstate
  · rw [hnone] at hwork
    cases hwork

/-- A call that begins. -/
theorem undrained_invoke (hs : s.Undrained) {call : ℕ}
    (hstep : (draining components).step s (.invoke call) = some s') : s'.Undrained := by
  obtain ⟨hquiet, hphase⟩ := hs
  simp only [draining] at hstep
  rcases hphase with ⟨hstate, hwork⟩ | ⟨hstate, hwork⟩
  · simp only [hstate, if_true] at hstep
    split_ifs at hstep
    cases hstep
    exact ⟨hquiet, .inl ⟨rfl, hwork⟩⟩
  · simp only [hstate, reduceCtorEq, if_false] at hstep
    split_ifs at hstep
    cases hstep
    exact ⟨hquiet, .inr ⟨hstate, hwork⟩⟩

/-- With the last call that ends the application is drained, wherever the work of the drain
    is. -/
theorem undrained_finishCall (hs : s.Undrained) (call : ℕ) :
    (s.finishCall call).Undrained ∨ (s.finishCall call).Drained := by
  obtain ⟨hquiet, ⟨hstate, hwork⟩ | ⟨hstate, work, hwork, hpending⟩⟩ := hs
  · refine .inl ⟨hquiet, .inl ⟨hstate, ?_⟩⟩
    simp only [finishCall, hwork, Option.map_none, ite_self]
  by_cases hnil : s.tasks.erase call = []
  · exact .inr ⟨hstate, hnil⟩
  refine .inl ⟨hquiet, .inr ⟨hstate, work, ?_, ?_⟩⟩
  · simp only [finishCall, hnil, if_false, hwork]
  · change Pending (s.tasks.erase call) work.phase
    cases hphase : work.phase with
    | cancelling calls =>
      rw [hphase] at hpending
      exact fun i hi => hpending i (List.mem_of_mem_erase hi)
    | transport | waiting | component =>
      rw [hphase] at hpending
      exact hpending

/-- The calls that were cancelled have ended, and there are no others. -/
theorem drained_gathered (hs : s.Undrained)
    (hstep : (draining components).step s .gathered = some s') : s'.Drained := by
  obtain ⟨work, hwork, h⟩ := Option.bind_eq_some_iff.1 hstep
  obtain ⟨hstate, hpending⟩ := hs.pending hwork
  split at h
  · rename_i calls hcancelling
    split_ifs at h with hgone
    cases h
    rw [hcancelling] at hpending
    exact ⟨hstate, List.eq_nil_iff_forall_not_mem.2 fun i hi => hgone i (hpending i hi) hi⟩
  · cases h

/-- A cancellation of a drain that waits for the lock, or of the work. -/
theorem undrained_interrupt (hs : s.Undrained) {call : ℕ} {ended : HookEnd}
    (he : Orderly s (.interrupt call ended))
    (hstep : (draining components).step s (.interrupt call ended) = some s') :
    s'.Undrained ∨ s'.Drained := by
  simp only [draining] at hstep
  split_ifs at hstep
  · cases hstep
    refine .inl ⟨⟨hs.1.1, fun e he => ?_⟩, hs.2⟩
    rcases List.mem_cons.1 he with rfl | he
    · rfl
    · exact hs.1.2 e he
  · obtain ⟨work, hwork, h⟩ := Option.bind_eq_some_iff.1 hstep
    split_ifs at h with hcall
    obtain ⟨hstate, hpending⟩ := hs.pending hwork
    refine undrained_interruptWork (s := { s with late := call :: s.late }) hs.1 hstate
      hpending (fun hended => ?_) h
    rw [hended] at he
    exact he work hwork hcall

/-- No drain has returned normally so far: those that have ended raise. -/
theorem undrained_leave (hs : s.Undrained) {call : ℕ}
    (hstep : (draining components).step s (.leave call) = some s') : s'.Undrained := by
  simp only [draining] at hstep
  cases hlookup : s.ended.lookup call with
  | none => simp only [hlookup] at hstep; cases hstep
  | some raises =>
    obtain ⟨before, after, heq, -⟩ := List.lookup_eq_some_iff.1 hlookup
    obtain rfl : raises = true := hs.1.2 (call, raises) (heq ▸ by simp)
    simp only [hlookup, true_or, if_true] at hstep
    cases hstep
    exact ⟨⟨hs.1.1, fun e he => hs.1.2 e (List.mem_of_mem_filter he)⟩, hs.2⟩

/-- An orderly event lets no drain return while calls may run. -/
theorem undrained_step (hs : s.Undrained) {e : DrainEvent} (he : Orderly s e)
    (hstep : (draining components).step s e = some s') : s'.Undrained ∨ s'.Drained := by
  cases e with
  | invoke call => exact .inl (undrained_invoke hs hstep)
  | finish call =>
    simp only [draining] at hstep
    split_ifs at hstep
    cases hstep
    exact undrained_finishCall hs call
  | drain call =>
    simp only [draining] at hstep
    split_ifs at hstep with hnew hnone
    · cases hstep
      exact .inl (undrained_enter hs.1 (hs.ready (Option.isNone_iff_eq_none.1 hnone)) call)
    · cases hstep
      exact .inl hs
  | acquire call =>
    simp only [draining] at hstep
    split_ifs at hstep with hnone
    cases hstep
    exact .inl (undrained_enter (s := { s with waiting := s.waiting.erase call }) hs.1
      (hs.ready (Option.isNone_iff_eq_none.1 hnone.1)) call)
  | hookEnds raises =>
    obtain ⟨work, hwork, h⟩ := Option.bind_eq_some_iff.1 hstep
    obtain ⟨hstate, hpending⟩ := hs.pending hwork
    exact undrained_endHook hs.1 hstate hpending h
  | wake =>
    obtain ⟨work, hwork, h⟩ := Option.bind_eq_some_iff.1 hstep
    split_ifs at h with hwoken
    -- the event of the tracker wakes a drain only when no call is left
    have hpending := (hs.pending hwork).2
    rw [hwoken] at hpending
    cases hpending
  | gathered => exact .inr (drained_gathered hs hstep)
  | interrupt call ended => exact undrained_interrupt hs he hstep
  | abandon call =>
    simp only [draining] at hstep
    split_ifs at hstep
    cases hstep
    exact .inl hs
  | leave call => exact .inl (undrained_leave hs hstep)

/-- In every run, the event of the tracker is set just when no call runs; and in
    every orderly run, once a drain has returned normally, every accepted call has
    ended, and no call is accepted any more. -/
theorem drained_of_run (components : ℕ) :
    (∀ h s, (draining components).Run Machine.Free h s → (s.empty = true ↔ s.tasks = [])) ∧
    ∀ h s, (draining components).Run Orderly h s → s.returned ≠ [] →
      (∀ call ∈ s.accepted, call ∈ s.finished) ∧
      ∀ call s', (draining components).step s (.invoke call) = some s' →
        s'.accepted = s.accepted := by
  refine ⟨fun h s hr => (tracked_of_run hr).empty_iff, fun h s hr hreturned => ?_⟩
  have hi : s.Undrained ∨ s.Drained := by
    have hinit : (draining components).init.Undrained := ⟨⟨rfl, nofun⟩, .inl ⟨rfl, rfl⟩⟩
    refine hr.invariant (I := fun t => t.Undrained ∨ t.Drained) (.inl hinit)
      fun t e t' ht he hstep => ?_
    rcases ht with ht | ht
    · exact undrained_step ht he hstep
    · exact .inr (drained_step ht hstep)
  rcases hi with hundrained | ⟨hstate, htasks⟩
  · exact absurd hundrained.1.1 hreturned
  · constructor
    · intro call hcall
      by_contra hfinished
      have hmem := (tracked_of_run hr).unfinished call hcall hfinished
      rw [htasks] at hmem
      cases hmem
    · intro call s' hstep
      simp only [draining, hstate, reduceCtorEq, if_false] at hstep
      split_ifs at hstep
      cases hstep
      rfl

/-- A call runs while the application drains, and ends before the drain returns. -/
theorem drained_example :
    ∃ s, (draining 1).exec {} [.invoke 0, .drain 0, .invoke 1, .hookEnds false, .finish 0, .wake,
        .hookEnds false, .leave 0] = some s ∧
      s.returned = [0] ∧ s.accepted = [0] ∧ ∀ call ∈ s.accepted, call ∈ s.finished := by
  refine ⟨_, rfl, rfl, rfl, ?_⟩
  have hr : (draining 1).Run Orderly [.leave 0, .hookEnds false, .wake, .finish 0, .hookEnds false,
      .invoke 1, .drain 0, .invoke 0] _ :=
    .step (.step (.step (.step (.step (.step (.step (.step .init trivial rfl) trivial rfl) trivial
      rfl) trivial rfl) trivial rfl) trivial rfl) trivial rfl) trivial rfl
  exact ((drained_of_run 1).2 _ _ hr (List.cons_ne_nil _ _)).1

/-- A call runs. The deadline of a drain passes in the drain of the transport, which
    lets the cancellation through; the next drain finds the state flipped, and
    returns while the call runs. -/
theorem drained_with_a_call :
    ¬ ∀ components h s, (draining components).Run Machine.Free h s → s.returned ≠ [] →
      ∀ call ∈ s.accepted, call ∈ s.finished := by
  intro hall
  have hr : (draining 0).Run Machine.Free [.leave 1, .drain 1, .leave 0, .interrupt 0 .cancelled,
      .drain 0, .invoke 0] _ :=
    .step (.step (.step (.step (.step (.step .init trivial rfl) trivial rfl) trivial rfl) trivial
      rfl) trivial rfl) trivial rfl
  exact absurd (hall 0 _ _ hr (List.cons_ne_nil _ _) 0 List.mem_cons_self) List.not_mem_nil

end Draining

end McpRuntime
