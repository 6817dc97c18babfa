import McpRuntime.Execution.Limits
import McpRuntime.Python.Dict

/-!
# Admission

An execution controller counts the calls that are running, in all, for each
tool and for each tenant, and admits another one while no limit is reached.
-/

namespace McpRuntime

/-- The counts of an execution controller. -/
structure Admission where
  active : ℕ := 0
  byTool : Dict Text ℕ := ∅
  byTenant : Dict Text ℕ := ∅

namespace Admission

/-- `counts.get(key, 0)`. -/
def count (counts : Dict Text ℕ) (key : Text) : ℕ := (counts.lookup key).getD 0

/-- The limit that a call reaches. -/
inductive Limit
  | global
  | server
  | tool
  | tenant
  deriving DecidableEq

variable (limits : ExecutionLimits) (s : Admission) (toolName tenant : Text)

/-- The first limit that a call of a tool for a tenant reaches. -/
def reached : Option Limit :=
  if limits.maxGlobalConcurrency ≤ s.active then some .global
  else if limits.maxServerConcurrency ≤ s.active then some .server
  else if limits.maxToolConcurrency ≤ count s.byTool toolName then some .tool
  else if limits.maxTenantConcurrency ≤ count s.byTenant tenant then some .tenant
  else none

/-- `admit`: the counts with the call, unless a limit is reached. -/
def admitCall : Option Admission :=
  match s.reached limits toolName tenant with
  | some _ => none
  | none =>
    some {
      active := s.active + 1
      byTool := s.byTool.insert toolName (count s.byTool toolName + 1)
      byTenant := s.byTenant.insert tenant (count s.byTenant tenant + 1) }

/-- `_decrement`: a count that gets zero is removed. -/
def decrement (counts : Dict Text ℕ) (key : Text) : Dict Text ℕ :=
  if count counts key - 1 = 0 then counts.erase key
  else counts.insert key (count counts key - 1)

/-- `release`, of the lease of a call. -/
def release : Admission where
  active := s.active - 1
  byTool := decrement s.byTool toolName
  byTenant := decrement s.byTenant tenant

/-- A call is admitted exactly when it reaches no limit. -/
theorem admitCall_isSome : (s.admitCall limits toolName tenant).isSome ↔
    s.reached limits toolName tenant = none := by
  rw [admitCall]
  split
  · next h => simp [h]
  · next h => simp [h]

/-- A call reaches no limit when each count is below its limit. -/
theorem reached_eq_none : s.reached limits toolName tenant = none ↔
    (s.active < limits.maxGlobalConcurrency ∧ s.active < limits.maxServerConcurrency) ∧
      count s.byTool toolName < limits.maxToolConcurrency ∧
      count s.byTenant tenant < limits.maxTenantConcurrency := by
  rw [reached]
  split_ifs <;> simp <;> omega

/-- The count of a key after it was counted up. -/
theorem count_insert (counts : Dict Text ℕ) (key key' : Text) (n : ℕ) :
    count (counts.insert key n) key' = if key' = key then n else count counts key' := by
  rw [count, Dict.lookup_insert]
  split_ifs <;> rfl

/-- The count of a key after it was counted down. -/
theorem count_decrement (counts : Dict Text ℕ) (key key' : Text) :
    count (decrement counts key) key' =
      if key' = key then count counts key - 1 else count counts key' := by
  rw [decrement]
  split_ifs with hzero hkey hkey
  · rw [count, Dict.lookup_erase, if_pos hkey, hzero]
    rfl
  · rw [count, Dict.lookup_erase, if_neg hkey]
    rfl
  · rw [count_insert, if_pos hkey]
  · rw [count_insert, if_neg hkey]

/-- A released call leaves the counts as they were before it was admitted. -/
theorem count_release_admitCall {s' : Admission} (h : s.admitCall limits toolName tenant = some s') :
    (s'.release toolName tenant).active = s.active ∧
      (∀ key, count (s'.release toolName tenant).byTool key = count s.byTool key) ∧
      ∀ key, count (s'.release toolName tenant).byTenant key = count s.byTenant key := by
  rw [admitCall] at h
  split at h
  · cases h
  · obtain rfl := Option.some.inj h
    refine ⟨rfl, fun key => ?_, fun key => ?_⟩
    all_goals
      rw [release, count_decrement, count_insert, count_insert, if_pos rfl, Nat.add_sub_cancel]
      split_ifs with hkey
      · rw [hkey]
      · rfl

end Admission

end McpRuntime
