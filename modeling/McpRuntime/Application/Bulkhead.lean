import McpRuntime.Application.Admission
import McpRuntime.Errors
import McpRuntime.Machine
import McpRuntime.Observability
import McpRuntime.Python.Counter
import Mathlib.Data.List.Perm.Subperm

/-!
# Bulkheads

An execution controller admits calls while no limit is reached, and gets their
leases back when they end. It moves its three counts, and the gauges of its
observability, with each lease.

* `bulkheads` is a controller with the calls that it admits and releases, in any
  order.
* `balanced_of_run`: the counts are those of the outstanding leases, and within
  the limits; an admission that is rejected changes nothing, and a release does
  not fail. The gauges show the same numbers while no more tools than the
  observability keeps have been seen.
* A name that is no identifier takes a slot for good, and the gauges do not show
  a tool beyond the bound (`slot_lost_and_gauges_full`).
-/

namespace McpRuntime

/-- `_ExecutionLease`. -/
structure Lease where
  toolName : Text
  tenant : Text
  deriving DecidableEq

/-- An execution controller with its observability, and the leases that it has
    given out and not got back. -/
structure Bulkhead where
  admission : Admission := {}
  gauges : Gauges := {}
  outstanding : List Lease := []

namespace Bulkhead

variable (limits : ExecutionLimits) (s : Bulkhead)

/-- `change_in_flight`, with the capacities of the controller. -/
def changeGauges (gauges : Gauges) (toolName : Text) (delta : ℤ) : Option Gauges :=
  gauges.changeInFlight toolName delta limits.maxServerConcurrency limits.maxToolConcurrency

/-- `admit`: the state after it, and the lease, `None` or the exception. The
    counts move before the gauges, which may raise. -/
def admitCall (toolName tenant : Text) : Bulkhead × Except PyException (Option Lease) :=
  match s.admission.admitCall limits toolName tenant with
  | none =>
    -- `record_limit`
    (s, if isDimension toolName then .ok none else .error .valueError)
  | some admission =>
    match changeGauges limits s.gauges toolName 1 with
    | some gauges =>
      ({ admission, gauges, outstanding := ⟨toolName, tenant⟩ :: s.outstanding },
        .ok (some ⟨toolName, tenant⟩))
    | none => ({ s with admission }, .error .valueError)

/-- `release`: the state after it, and its exception, if there is one. A count
    that is not there raises `KeyError`. -/
def release (lease : Lease) : Bulkhead × Except PyException Unit :=
  let s := { s with
    outstanding := s.outstanding.erase lease
    admission := { s.admission with active := s.admission.active - 1 } }
  let keyError : Except PyException Unit := .error ⟨.keyError, lit "KeyError"⟩
  if lease.toolName ∉ s.admission.byTool then (s, keyError)
  else
    let byTool := Admission.decrement s.admission.byTool lease.toolName
    let s := { s with admission := { s.admission with byTool } }
    if lease.tenant ∉ s.admission.byTenant then (s, keyError)
    else
      let byTenant := Admission.decrement s.admission.byTenant lease.tenant
      let s := { s with admission := { s.admission with byTenant } }
      match changeGauges limits s.gauges lease.toolName (-1) with
      | some gauges => ({ s with gauges }, .ok ())
      | none => (s, .error .valueError)

/-- An event of a controller. -/
inductive Event
  | admitCall (toolName tenant : Text)
  /-- A call gives back its lease. -/
  | release (lease : Lease)

/-- The name of the tool of an admission is an identifier, as the name of every
    registered tool is. -/
def Event.Named : Event → Prop
  | admitCall toolName _ => isDimension toolName
  | release _ => True

/-- The tools that were to be admitted. -/
def toolNames : List Event → List Text
  | [] => []
  | .admitCall toolName _ :: h => toolName :: toolNames h
  | .release _ :: h => toolNames h

end Bulkhead

/-- A controller with the calls it admits and releases. -/
def bulkheads (limits : ExecutionLimits) : Machine Bulkhead Bulkhead.Event where
  init := {}
  step
    | s, .admitCall toolName tenant => some (s.admitCall limits toolName tenant).1
    | s, .release lease => if lease ∈ s.outstanding then some (s.release limits lease).1 else none

namespace Bulkhead

variable {limits : ExecutionLimits}

/-- The counts are those of the outstanding leases, and within the limits. -/
structure Balanced (limits : ExecutionLimits) (s : Bulkhead) : Prop where
  active_eq : s.admission.active = s.outstanding.length
  byTool : Counts s.admission.byTool (s.outstanding.map Lease.toolName)
  byTenant : Counts s.admission.byTenant (s.outstanding.map Lease.tenant)
  active_le : s.admission.active ≤ limits.maxGlobalConcurrency ∧
    s.admission.active ≤ limits.maxServerConcurrency
  byTool_le : ∀ tool, occurrences tool (s.outstanding.map Lease.toolName) ≤ limits.maxToolConcurrency
  byTenant_le : ∀ tenant, occurrences tenant (s.outstanding.map Lease.tenant) ≤
    limits.maxTenantConcurrency
  named : ∀ lease ∈ s.outstanding, isDimension lease.toolName

/-- The gauges show the outstanding leases, and know the tools among `names`. -/
structure Shown (limits : ExecutionLimits) (names : List Text) (s : Bulkhead) : Prop where
  server : s.gauges.serverInFlight = s.outstanding.length
  tool : ∀ tool, s.gauges.ofTool tool = occurrences tool (s.outstanding.map Lease.toolName)
  serverCapacity : ∀ capacity ∈ s.gauges.serverCapacity, capacity = limits.maxServerConcurrency
  toolCapacity : ∀ tool, ∀ capacity ∈ s.gauges.toolCapacity.lookup tool,
    capacity = limits.maxToolConcurrency
  known : ∀ tool ∈ s.gauges.toolCapacity, tool ∈ names
  outstanding : ∀ lease ∈ s.outstanding, lease.toolName ∈ s.gauges.toolCapacity

/-! ## Counts -/

variable {s : Bulkhead}

variable (limits) in
/-- The gauges take a change of an identifier. -/
theorem changeGauges_isSome (gauges : Gauges) {toolName : Text} (h : isDimension toolName)
    {delta : ℤ} (hdelta : delta = -1 ∨ delta = 1) :
    ∃ gauges', changeGauges limits gauges toolName delta = some gauges' :=
  Option.isSome_iff_exists.1 <| gauges.changeInFlight_isSome h hdelta
    limits.maxServerConcurrency_within limits.maxToolConcurrency_within

/-- What an admission of an identifier does: nothing where a limit is reached, or
    else it counts the call. -/
theorem admitCall_cases (limits : ExecutionLimits) (s : Bulkhead) {toolName : Text} (tenant : Text)
    (h : isDimension toolName) :
    (s.admission.reached limits toolName tenant ≠ none ∧
      s.admitCall limits toolName tenant = (s, .ok none)) ∨
    (s.admission.reached limits toolName tenant = none ∧ ∃ gauges,
      changeGauges limits s.gauges toolName 1 = some gauges ∧
      s.admitCall limits toolName tenant = (
        { admission :=
            { active := s.admission.active + 1
              byTool := s.admission.byTool.insert toolName
                (Admission.count s.admission.byTool toolName + 1)
              byTenant := s.admission.byTenant.insert tenant
                (Admission.count s.admission.byTenant tenant + 1) }
          gauges
          outstanding := ⟨toolName, tenant⟩ :: s.outstanding },
        .ok (some ⟨toolName, tenant⟩))) := by
  obtain ⟨gauges, hgauges⟩ := changeGauges_isSome limits s.gauges h (.inr rfl)
  cases hreached : s.admission.reached limits toolName tenant with
  | some limit => exact .inl ⟨nofun, by simp [admitCall, Admission.admitCall, hreached, h]⟩
  | none => exact .inr ⟨rfl, gauges, hgauges, by simp [admitCall, Admission.admitCall, hreached, hgauges]⟩

/-- One occurrence less of a counted key. -/
theorem counts_decrement {d : Dict Text ℕ} {l l' : List Text} {key : Text} (h : Counts d l)
    (hperm : l.Perm (key :: l')) : Counts (Admission.decrement d key) l' := by
  have hcount : Admission.count d key - 1 = occurrences key l' := by
    rw [Admission.count, h.getD_lookup, occurrences_perm hperm, occurrences_cons, if_pos rfl,
      Nat.add_sub_cancel]
  rw [Admission.decrement, hcount]
  split_ifs with hlast
  · exact h.erase hperm hlast
  · exact h.insert_pred hperm hlast

/-- The release of an outstanding lease takes its counts back and does not
    fail. -/
theorem release_eq (hb : Balanced limits s) {lease : Lease} (h : lease ∈ s.outstanding) :
    ∃ gauges, changeGauges limits s.gauges lease.toolName (-1) = some gauges ∧
      s.release limits lease = (
        { admission := s.admission.release lease.toolName lease.tenant
          gauges
          outstanding := s.outstanding.erase lease }, .ok ()) := by
  obtain ⟨gauges, hgauges⟩ := changeGauges_isSome limits s.gauges (hb.named lease h)
    (.inl rfl)
  have htool : lease.toolName ∈ s.admission.byTool := hb.byTool.mem.2 (List.mem_map_of_mem h)
  have htenant : lease.tenant ∈ s.admission.byTenant := hb.byTenant.mem.2 (List.mem_map_of_mem h)
  exact ⟨gauges, hgauges, by simp [release, htool, htenant, hgauges, Admission.release]⟩

/-- An admission keeps the balance. -/
theorem balanced_admitCall (hb : Balanced limits s) {toolName : Text} (tenant : Text)
    (h : isDimension toolName) : Balanced limits (s.admitCall limits toolName tenant).1 := by
  rcases admitCall_cases limits s tenant h with ⟨-, hadmitted⟩ | ⟨hreached, gauges, -, hadmitted⟩
  · rw [hadmitted]
    exact hb
  · rw [hadmitted]
    rw [Admission.reached_eq_none, Admission.count, Admission.count, hb.byTool.getD_lookup,
      hb.byTenant.getD_lookup] at hreached
    obtain ⟨⟨hglobal, hserver⟩, htool, htenant⟩ := hreached
    refine ⟨?_, ?_, ?_, ⟨hglobal, hserver⟩, fun tool => ?_, fun tenant' => ?_, ?_⟩
    · simp [hb.active_eq]
    · simp only [Admission.count, hb.byTool.getD_lookup]
      exact hb.byTool.insert_succ
    · simp only [Admission.count, hb.byTenant.getD_lookup]
      exact hb.byTenant.insert_succ
    · rw [List.map_cons, occurrences_cons]
      split_ifs with heq
      · rw [heq]
        exact htool
      · exact hb.byTool_le tool
    · rw [List.map_cons, occurrences_cons]
      split_ifs with heq
      · rw [heq]
        exact htenant
      · exact hb.byTenant_le tenant'
    · exact List.forall_mem_cons.2 ⟨h, hb.named⟩

/-- A release keeps the balance. -/
theorem balanced_release (hb : Balanced limits s) {lease : Lease} (h : lease ∈ s.outstanding) :
    Balanced limits (s.release limits lease).1 := by
  obtain ⟨gauges, -, hrelease⟩ := release_eq hb h
  have hperm := List.perm_cons_erase h
  have hle (f : Lease → Text) (key : Text) :
      occurrences key ((s.outstanding.erase lease).map f) ≤
        occurrences key (s.outstanding.map f) :=
    (List.erase_sublist.map f).countP_le
  rw [hrelease]
  refine ⟨?_, ?_, ?_, ?_, fun tool => ?_, fun tenant => ?_, fun other hother => ?_⟩
  · rw [List.length_erase_of_mem h, ← hb.active_eq]
    rfl
  · exact counts_decrement hb.byTool (hperm.map Lease.toolName)
  · exact counts_decrement hb.byTenant (hperm.map Lease.tenant)
  · have hactive := hb.active_le
    simp only [Admission.release]
    omega
  · exact (hle _ _).trans (hb.byTool_le tool)
  · exact (hle _ _).trans (hb.byTenant_le tenant)
  · exact hb.named other (List.mem_of_mem_erase hother)

/-! ## Gauges -/

variable {names : List Text}

/-- There is room for a new tool while the names are no more than the gauges
    keep. -/
theorem len_lt_of_known {gauges : Gauges} (h : ∀ tool ∈ gauges.toolCapacity, tool ∈ names)
    {toolName : Text} (hnew : toolName ∉ gauges.toolCapacity)
    (hbound : (toolName :: names).dedup.length ≤ maxTools) : gauges.toolCapacity.len < maxTools := by
  have hnodup : (toolName :: gauges.toolCapacity.keys).Nodup :=
    List.nodup_cons.2 ⟨fun hmem => hnew (AList.mem_keys.2 hmem), gauges.toolCapacity.keys_nodup⟩
  have hsubset : (toolName :: gauges.toolCapacity.keys) ⊆ (toolName :: names).dedup := by
    intro tool htool
    rw [List.mem_dedup]
    rcases List.mem_cons.1 htool with rfl | hmem
    · exact List.mem_cons_self
    · exact List.mem_cons_of_mem _ (h tool (AList.mem_keys.2 hmem))
  exact (List.subperm_of_subset hnodup hsubset).length_le.trans hbound

/-- The gauges after a change, of leases that changed by the same. -/
theorem shown_of_moved {s' : Bulkhead} {toolName : Text} {delta : ℤ} (hshown : Shown limits names s)
    (hmoved : Gauges.Moved s.gauges s'.gauges toolName delta limits.maxToolConcurrency)
    (hcapacity : s'.gauges.serverCapacity = some limits.maxServerConcurrency)
    (hname : toolName ∈ names) (hlength : (s'.outstanding.length : ℤ) = s.outstanding.length + delta)
    (hcount : ∀ tool, (occurrences tool (s'.outstanding.map Lease.toolName) : ℤ) =
      occurrences tool (s.outstanding.map Lease.toolName) + if tool = toolName then delta else 0)
    (hsub : ∀ lease ∈ s'.outstanding, lease ∈ s.outstanding ∨ lease.toolName = toolName) :
    Shown limits names s' := by
  have hknown (tool : Text) :
      tool ∈ s'.gauges.toolCapacity ↔ tool = toolName ∨ tool ∈ s.gauges.toolCapacity := by
    rw [← AList.lookup_isSome, hmoved.toolCapacity]
    split_ifs with heq
    · simp [heq]
    · simp [heq, AList.lookup_isSome]
  refine ⟨?_, fun tool => ?_, ?_, fun tool capacity h => ?_, fun tool h => ?_, fun lease h => ?_⟩
  · rw [hmoved.server, hlength, hshown.server]
  · rw [hmoved.ofTool, hcount, ← hshown.tool]
    split_ifs with heq
    · rw [heq]
    · rw [add_zero]
  · rw [hcapacity]
    exact fun capacity h => (Option.some.inj h).symm
  · rw [hmoved.toolCapacity] at h
    split_ifs at h with heq
    · exact (Option.some.inj h).symm
    · exact hshown.toolCapacity tool capacity h
  · exact ((hknown tool).1 h).elim (fun heq => heq ▸ hname) (hshown.known tool)
  · exact (hknown _).2 ((hsub lease h).symm.imp id (hshown.outstanding lease))

/-- The gauges show an admission. -/
theorem shown_admitCall (hshown : Shown limits names s) (hb : Balanced limits s)
    {toolName : Text} (tenant : Text) (h : isDimension toolName)
    (hbound : (toolName :: names).dedup.length ≤ maxTools) :
    Shown limits (toolName :: names) (s.admitCall limits toolName tenant).1 := by
  have hknown := hshown.known
  have hshown : Shown limits (toolName :: names) s :=
    { hshown with known := fun tool ht => List.mem_cons_of_mem _ (hknown tool ht) }
  rcases admitCall_cases limits s tenant h with ⟨-, hadmitted⟩ | ⟨hreached, gauges, hgauges, hadmitted⟩
  · rw [hadmitted]
    exact hshown
  · rw [Admission.reached_eq_none, Admission.count, hb.byTool.getD_lookup, hb.active_eq] at hreached
    obtain ⟨⟨-, hserver⟩, htool, -⟩ := hreached
    have hroom : toolName ∈ s.gauges.toolCapacity ∨
        (s.gauges.toolCapacity.len < maxTools ∧ s.gauges.ofTool toolName = 0) := by
      by_cases hmem : toolName ∈ s.gauges.toolCapacity
      · exact .inl hmem
      · refine .inr ⟨len_lt_of_known hknown hmem hbound, ?_⟩
        have hnone : toolName ∉ s.outstanding.map Lease.toolName := fun hmap => by
          obtain ⟨lease, hlease, rfl⟩ := List.mem_map.1 hmap
          exact hmem (hshown.outstanding lease hlease)
        rw [hshown.tool, Nat.eq_zero_of_not_pos (mt occurrences_pos.1 hnone)]
        rfl
    obtain ⟨hmoved, hcapacity⟩ := Gauges.changeInFlight_moved hgauges hshown.serverCapacity
      (hshown.toolCapacity toolName) hroom (by rw [hshown.server, hshown.tool]; omega)
    rw [hadmitted]
    refine shown_of_moved hshown hmoved hcapacity List.mem_cons_self (by simp) (fun tool => ?_)
      fun lease hlease => ?_
    · rw [List.map_cons, occurrences_cons]
      split_ifs <;> simp
    · rcases List.mem_cons.1 hlease with rfl | hmem
      · exact .inr rfl
      · exact .inl hmem

/-- The gauges show a release. -/
theorem shown_release (hshown : Shown limits names s) (hb : Balanced limits s) {lease : Lease}
    (h : lease ∈ s.outstanding) : Shown limits names (s.release limits lease).1 := by
  obtain ⟨gauges, hgauges, hrelease⟩ := release_eq hb h
  have hperm := (List.perm_cons_erase h).map Lease.toolName
  have hcount (tool : Text) := (occurrences_perm hperm tool).trans (occurrences_cons _ _ _)
  have hlength := List.length_erase_of_mem h
  have hpos := List.length_pos_of_mem h
  have hserver := hb.active_le.2
  have htool := hb.byTool_le lease.toolName
  have hone := hcount lease.toolName
  rw [if_pos rfl] at hone
  rw [hb.active_eq] at hserver
  have hknown := hshown.outstanding lease h
  obtain ⟨hmoved, hcapacity⟩ := Gauges.changeInFlight_moved hgauges hshown.serverCapacity
    (hshown.toolCapacity lease.toolName) (.inl hknown)
    (by rw [hshown.server, hshown.tool]; omega)
  rw [hrelease]
  refine shown_of_moved hshown hmoved hcapacity (hshown.known _ hknown) ?_ (fun tool => ?_)
    fun other hother => .inl (List.mem_of_mem_erase hother)
  · simp only
    omega
  · rw [hcount tool]
    split_ifs <;> simp

/-! ## Runs -/

/-- Every run of admissions of identifiers keeps the balance, and the gauges
    show it while the names are no more than they keep. -/
theorem invariant_of_run {h : List Event} {s : Bulkhead}
    (hr : (bulkheads limits).Run (fun _ e => e.Named) h s) :
    Balanced limits s ∧ ((toolNames h).dedup.length ≤ maxTools → Shown limits (toolNames h) s) := by
  refine hr.history_invariant (I := fun h s => Balanced limits s ∧
    ((toolNames h).dedup.length ≤ maxTools → Shown limits (toolNames h) s)) ⟨?_, fun _ => ?_⟩
    fun h s e s' ⟨hb, hshown⟩ hnamed hs => ?_
  · exact ⟨rfl, .nil, .nil, ⟨Nat.zero_le _, Nat.zero_le _⟩, fun _ => Nat.zero_le _,
      fun _ => Nat.zero_le _, nofun⟩
  · exact ⟨rfl, fun _ => rfl, nofun, fun _ _ h => (nomatch h), fun _ h => absurd h (AList.notMem_empty _),
      nofun⟩
  · cases e with
    | admitCall toolName tenant =>
      obtain rfl := Option.some.inj hs
      refine ⟨balanced_admitCall hb tenant hnamed, fun hbound => ?_⟩
      have hle : (toolNames h).dedup.length ≤ (toolName :: toolNames h).dedup.length :=
        (List.subperm_of_subset (List.nodup_dedup _) fun tool htool => List.mem_dedup.2 <|
          List.mem_cons_of_mem _ (List.mem_dedup.1 htool)).length_le
      exact shown_admitCall (hshown (hle.trans hbound)) hb tenant hnamed hbound
    | release lease =>
      simp only [bulkheads] at hs
      split_ifs at hs with hmem
      obtain rfl := Option.some.inj hs
      exact ⟨balanced_release hb hmem, fun hbound => shown_release (hshown hbound) hb hmem⟩

/-- In every run of admissions, of tools whose names are identifiers, and releases
    of outstanding leases: the active calls are the outstanding leases; each table
    adds up to them, and binds exactly the keys of the leases, to their numbers;
    all counts are within their limits; an admission that reaches a limit changes
    nothing; and a release does not fail. While no more tools were seen than the
    gauges keep, the gauges show the same numbers. -/
theorem balanced_of_run {h : List Event} {s : Bulkhead}
    (hr : (bulkheads limits).Run (fun _ e => e.Named) h s) :
    s.admission.active = s.outstanding.length ∧
    (s.admission.byTool.entries.map Sigma.snd).sum = s.admission.active ∧
    (s.admission.byTenant.entries.map Sigma.snd).sum = s.admission.active ∧
    (∀ tool n, s.admission.byTool.lookup tool = some n ↔
      0 < n ∧ n = s.outstanding.countP fun lease => lease.toolName = tool) ∧
    (∀ tenant n, s.admission.byTenant.lookup tenant = some n ↔
      0 < n ∧ n = s.outstanding.countP fun lease => lease.tenant = tenant) ∧
    (s.admission.active ≤ limits.maxGlobalConcurrency ∧
      s.admission.active ≤ limits.maxServerConcurrency ∧
      (∀ tool n, s.admission.byTool.lookup tool = some n → n ≤ limits.maxToolConcurrency) ∧
      ∀ tenant n, s.admission.byTenant.lookup tenant = some n → n ≤ limits.maxTenantConcurrency) ∧
    (∀ toolName tenant, isDimension toolName →
      s.admission.reached limits toolName tenant ≠ none →
        s.admitCall limits toolName tenant = (s, .ok none)) ∧
    (∀ lease ∈ s.outstanding, (s.release limits lease).2 = .ok ()) ∧
    ((toolNames h).dedup.length ≤ maxTools →
      s.gauges.serverInFlight = s.admission.active ∧
      ∀ tool, s.gauges.ofTool tool = s.outstanding.countP fun lease => lease.toolName = tool) := by
  obtain ⟨hb, hshown⟩ := invariant_of_run hr
  have htool (tool : Text) : occurrences tool (s.outstanding.map Lease.toolName) =
      s.outstanding.countP fun lease => lease.toolName = tool := List.countP_map
  have htenant (tenant : Text) : occurrences tenant (s.outstanding.map Lease.tenant) =
      s.outstanding.countP fun lease => lease.tenant = tenant := List.countP_map
  refine ⟨hb.active_eq, ?_, ?_, fun tool n => ?_, fun tenant n => ?_,
    ⟨hb.active_le.1, hb.active_le.2, fun tool n hn => ?_, fun tenant n hn => ?_⟩,
    fun toolName tenant hname hreached => ?_, fun lease hlease => ?_, fun hbound => ⟨?_, fun tool => ?_⟩⟩
  · rw [hb.byTool.sum_eq_length, List.length_map, hb.active_eq]
  · rw [hb.byTenant.sum_eq_length, List.length_map, hb.active_eq]
  · rw [hb.byTool.lookup_eq_some, htool]
  · rw [hb.byTenant.lookup_eq_some, htenant]
  · rw [(hb.byTool.lookup_eq_some.1 hn).2]
    exact hb.byTool_le tool
  · rw [(hb.byTenant.lookup_eq_some.1 hn).2]
    exact hb.byTenant_le tenant
  · rcases admitCall_cases limits s tenant hname with ⟨-, hadmitted⟩ | ⟨hnone, -⟩
    · exact hadmitted
    · exact absurd hnone hreached
  · obtain ⟨gauges, -, hrelease⟩ := release_eq hb hlease
    rw [hrelease]
  · rw [(hshown hbound).server, hb.active_eq]
  · rw [(hshown hbound).tool, htool]

/-- Two calls of one tool are admitted, and one of them ends. -/
def twoCalls : List Event :=
  [.admitCall (lit "refund") (lit "north"), .admitCall (lit "refund") (lit "south"),
    .release ⟨lit "refund", lit "north"⟩]

theorem balanced_of_run_example :
    ∃ s, (bulkheads .standard).Run (fun _ e => e.Named) twoCalls.reverse s ∧
      s.admission.active = s.outstanding.length ∧ s.gauges.serverInFlight = s.admission.active := by
  have hsome : ((bulkheads .standard).exec {} twoCalls).isSome := by decide +kernel
  obtain ⟨s, hs⟩ := Option.isSome_iff_exists.1 hsome
  have hr := Machine.run_of_exec (G := fun _ e => Event.Named e) hs ?_
  · have hbalanced := balanced_of_run hr
    exact ⟨s, hr, hbalanced.1, (hbalanced.2.2.2.2.2.2.2.2 (by decide)).1⟩
  · have hname : isDimension (lit "refund") := by decide
    exact ⟨hname, fun _ _ => ⟨hname, fun _ _ => ⟨trivial, fun _ _ => trivial⟩⟩⟩

/-- Identifiers of tools. -/
def manyTools (n : ℕ) : List Text :=
  (List.range n).map fun i => [Fin.ofNat _ (97 + i / 16), Fin.ofNat _ (97 + i % 16)]

theorem nodup_manyTools {n : ℕ} (h : n ≤ 4096) : (manyTools n).Nodup := by
  refine List.Nodup.map_on (fun i hi j hj heq => ?_) List.nodup_range
  rw [List.mem_range] at hi hj
  simp only [List.cons.injEq, Fin.ext_iff, Fin.val_ofNat] at heq
  omega

/-- A call of each of `n` tools is admitted, and all of them but the last end. -/
def oneByOne (n : ℕ) : List Event :=
  (manyTools n).flatMap (fun tool => [.admitCall tool (lit "north"), .release ⟨tool, lit "north"⟩]) ++
    [.admitCall (lit "refund") (lit "north")]

/-- No call is admitted, and nothing was dropped. -/
structure Idle (limits : ExecutionLimits) (names : List Text) (s : Bulkhead) : Prop where
  active : s.admission.active = 0
  byTool : ∀ tool, Admission.count s.admission.byTool tool = 0
  byTenant : ∀ tenant, Admission.count s.admission.byTenant tenant = 0
  outstanding : s.outstanding = []
  server : s.gauges.serverInFlight = 0
  dropped : s.gauges.droppedEvents = 0
  serverCapacity : ∀ capacity ∈ s.gauges.serverCapacity, capacity = limits.maxServerConcurrency
  known : s.gauges.toolCapacity.keys = names

/-- An idle controller admits every call. -/
theorem Idle.reached_eq_none {names : List Text} (h : Idle limits names s) {tool tenant : Text} :
    s.admission.reached limits tool tenant = none := by
  rw [Admission.reached_eq_none, h.active, h.byTool, h.byTenant]
  exact ⟨⟨limits.maxGlobalConcurrency_within.1, limits.maxServerConcurrency_within.1⟩,
    limits.maxToolConcurrency_within.1, limits.maxTenantConcurrency_within.1⟩

/-- The gauges take the first call of a tool, where there is room for it. -/
theorem changeGauges_new {g : Gauges} {tool : Text} (htool : isDimension tool)
    (hserver : g.serverInFlight = 0)
    (hcapacity : ∀ capacity ∈ g.serverCapacity, capacity = limits.maxServerConcurrency)
    (hnew : tool ∉ g.toolCapacity.keys) (hroom : g.toolCapacity.len < maxTools) :
    changeGauges limits g tool 1 = some {
      serverCapacity := some limits.maxServerConcurrency
      serverInFlight := 1
      toolCapacity := g.toolCapacity.insert tool limits.maxToolConcurrency
      toolInFlight := (g.toolInFlight.insert tool 0).insert tool 1
      droppedEvents := g.droppedEvents } := by
  have hlookup : g.toolCapacity.lookup tool = none := AList.lookup_eq_none.2 hnew
  have hroom : ¬ maxTools ≤ g.toolCapacity.len := Nat.not_le.2 hroom
  have hwithin := limits.maxServerConcurrency_within
  have hwithin' := limits.maxToolConcurrency_within
  have hone : (1 : ℤ) ≤ limits.maxServerConcurrency := by exact_mod_cast hwithin.1
  have hone' : (1 : ℤ) ≤ limits.maxToolConcurrency := by exact_mod_cast hwithin'.1
  cases hs : g.serverCapacity with
  | none =>
    simp [changeGauges, Gauges.changeInFlight, Gauges.changeInFlight.changeTool, Gauges.move,
      Gauges.ofTool, htool, hlookup, hroom, hserver, hs, hwithin, hwithin', hone, hone',
      AList.lookup_insert]
  | some capacity =>
    obtain rfl := hcapacity capacity hs
    simp [changeGauges, Gauges.changeInFlight, Gauges.changeInFlight.changeTool, Gauges.move,
      Gauges.ofTool, htool, hlookup, hroom, hserver, hs, hwithin, hwithin', hone, hone',
      AList.lookup_insert]

/-- The gauges take the end of the only call. -/
theorem changeGauges_last {g : Gauges} {tool : Text} (htool : isDimension tool)
    (hserver : g.serverInFlight = 1) (hcapacity : g.serverCapacity = some limits.maxServerConcurrency)
    (hknown : g.toolCapacity.lookup tool = some limits.maxToolConcurrency)
    (hone : g.ofTool tool = 1) :
    changeGauges limits g tool (-1) =
      some { g with serverInFlight := 0, toolInFlight := g.toolInFlight.insert tool 0 } := by
  have hwithin := limits.maxServerConcurrency_within
  have hwithin' := limits.maxToolConcurrency_within
  rw [Gauges.ofTool] at hone
  simp [changeGauges, Gauges.changeInFlight, Gauges.changeInFlight.changeTool, Gauges.move,
    Gauges.ofTool, htool, hknown, hserver, hcapacity, hwithin, hwithin', hone]

/-- A call that starts and ends leaves a controller idle, and its gauges know one
    more tool. -/
theorem Idle.call {names : List Text} (h : Idle limits names s) {tool : Text} (tenant : Text)
    (htool : isDimension tool) (hnew : tool ∉ names) (hroom : names.length < maxTools) :
    ∃ s', (bulkheads limits).exec s [.admitCall tool tenant, .release ⟨tool, tenant⟩] = some s' ∧
      Idle limits (tool :: names) s' := by
  have hnew : tool ∉ s.gauges.toolCapacity.keys := by rw [h.known]; exact hnew
  have hroom : s.gauges.toolCapacity.len < maxTools := by rw [Dict.len, h.known]; exact hroom
  have hgauges := changeGauges_new htool h.server h.serverCapacity hnew hroom
  rcases admitCall_cases limits s tenant htool with ⟨hrefused, -⟩ | ⟨-, gauges, hchange, hadmitted⟩
  · exact absurd h.reached_eq_none hrefused
  obtain rfl := Option.some.inj (hgauges.symm.trans hchange)
  have hlast : changeGauges limits {
      serverCapacity := some limits.maxServerConcurrency
      serverInFlight := 1
      toolCapacity := s.gauges.toolCapacity.insert tool limits.maxToolConcurrency
      toolInFlight := (s.gauges.toolInFlight.insert tool 0).insert tool 1
      droppedEvents := s.gauges.droppedEvents } tool (-1) = some _ :=
    changeGauges_last htool rfl rfl (AList.lookup_insert _)
      (congrArg (Option.getD · 0) (AList.lookup_insert _))
  have htaken : tool ∈ s.admission.byTool.insert tool (Admission.count s.admission.byTool tool + 1) :=
    (AList.mem_insert _).2 (.inl rfl)
  have htenant : tenant ∈
      s.admission.byTenant.insert tenant (Admission.count s.admission.byTenant tenant + 1) :=
    (AList.mem_insert _).2 (.inl rfl)
  refine ⟨(release limits (s.admitCall limits tool tenant).1 ⟨tool, tenant⟩).1, ?_, ?_⟩
  · simp [Machine.exec, bulkheads, hadmitted]
  · have hcount (d : Dict Text ℕ) (hzero : ∀ key, Admission.count d key = 0) (key key' : Text) :
        Admission.count (Admission.decrement (d.insert key (Admission.count d key + 1)) key) key' = 0 := by
      rw [Admission.count_decrement, Admission.count_insert, Admission.count_insert, if_pos rfl,
        Nat.add_sub_cancel, hzero, hzero]
      split_ifs <;> rfl
    simp only [hadmitted, release, htaken, htenant, not_true, if_false, hlast, h.active, h.outstanding]
    exact {
      active := rfl
      byTool := hcount _ h.byTool tool
      byTenant := hcount _ h.byTenant tenant
      outstanding := List.erase_cons_head _ _
      server := rfl
      dropped := h.dropped
      serverCapacity := fun capacity hc => (Option.some.inj hc).symm
      known := by
        rw [AList.insert_of_notMem hnew, ← h.known]
        rfl }

/-- Calls of tools one after the other leave a controller idle, and its gauges know
    the tools. -/
theorem Idle.calls {tools names : List Text} (h : Idle limits names s) (tenant : Text)
    (htools : ∀ tool ∈ tools, isDimension tool) (hnodup : (tools ++ names).Nodup)
    (hroom : (tools ++ names).length ≤ maxTools) :
    ∃ s', (bulkheads limits).exec s
      (tools.flatMap fun tool => [.admitCall tool tenant, .release ⟨tool, tenant⟩]) = some s' ∧
        Idle limits (tools.reverse ++ names) s' := by
  induction tools generalizing names s with
  | nil => exact ⟨s, rfl, h⟩
  | cons tool tools ih =>
    rw [List.cons_append, List.nodup_cons, List.mem_append, not_or] at hnodup
    rw [List.cons_append, List.length_cons, List.length_append] at hroom
    have hnew : (tools ++ tool :: names).Nodup :=
      List.nodup_middle.2 (List.nodup_cons.2 ⟨by rw [List.mem_append, not_or]; exact hnodup.1, hnodup.2⟩)
    obtain ⟨t, ht, hidle⟩ := h.call tenant (htools tool List.mem_cons_self) hnodup.1.2 (by omega)
    obtain ⟨s', hs', hidle⟩ := ih hidle (fun u hu => htools u (List.mem_cons_of_mem _ hu)) hnew
      (by rw [List.length_append, List.length_cons]; omega)
    refine ⟨s', ?_, by rwa [List.reverse_cons, List.append_assoc]⟩
    rw [List.flatMap_cons, Machine.exec_append, ht]
    exact hs'

/-- The gauges do not show the call of a tool that they do not know when they know
    as many as they keep. -/
theorem Idle.admitCall_full {names : List Text} (h : Idle limits names s) {tool : Text}
    (htool : isDimension tool) (hnew : tool ∉ names) (hfull : maxTools ≤ names.length) (tenant : Text) :
    (s.admitCall limits tool tenant).1.admission.active = 1 ∧
      (s.admitCall limits tool tenant).1.gauges.serverInFlight = 0 ∧
      (s.admitCall limits tool tenant).1.gauges.droppedEvents = 1 := by
  have hlookup : s.gauges.toolCapacity.lookup tool = none :=
    AList.lookup_eq_none.2 fun hmem => hnew (h.known ▸ hmem)
  have hfull : maxTools ≤ s.gauges.toolCapacity.len := by rw [Dict.len, h.known]; exact hfull
  have hwithin := limits.maxServerConcurrency_within
  have hwithin' := limits.maxToolConcurrency_within
  rcases admitCall_cases limits s tenant htool with ⟨hrefused, -⟩ | ⟨-, gauges, hchange, hadmitted⟩
  · exact absurd h.reached_eq_none hrefused
  · rw [hadmitted]
    refine ⟨congrArg (· + 1) h.active, ?_⟩
    cases hs : s.gauges.serverCapacity with
    | none =>
      simp [changeGauges, Gauges.changeInFlight, Gauges.changeInFlight.changeTool, Gauges.drop, htool,
        hlookup, hfull, hs, hwithin, hwithin'] at hchange
      rw [← hchange]
      exact ⟨h.server, congrArg (· + 1) h.dropped⟩
    | some capacity =>
      obtain rfl := h.serverCapacity capacity hs
      simp [changeGauges, Gauges.changeInFlight, Gauges.changeInFlight.changeTool, Gauges.drop, htool,
        hlookup, hfull, hs, hwithin, hwithin'] at hchange
      rw [← hchange]
      exact ⟨h.server, congrArg (· + 1) h.dropped⟩

/-- An admission of a name that is no identifier takes a slot and gives no lease;
    and the gauges do not show a call of a tool after as many as they keep. -/
theorem slot_lost_and_gauges_full :
    (∃ s ∈ (bulkheads .standard).exec {} [.admitCall [] (lit "north")],
      s.admission.active = 1 ∧ s.outstanding = []) ∧
    ∃ s ∈ (bulkheads .standard).exec {} (oneByOne 128),
      s.admission.active = 1 ∧ s.gauges.serverInFlight = 0 ∧ s.gauges.droppedEvents = 1 := by
  refine ⟨by decide +kernel, ?_⟩
  have hidle : Idle .standard [] {} := ⟨rfl, fun _ => rfl, fun _ => rfl, rfl, rfl, rfl, nofun, rfl⟩
  have htools : ∀ tool ∈ manyTools 128, isDimension tool := by decide +kernel
  have hnodup : (manyTools 128 ++ []).Nodup := by rw [List.append_nil]; exact nodup_manyTools (by decide)
  obtain ⟨s, hs, hidle⟩ := hidle.calls (lit "north") htools hnodup (by decide +kernel)
  have hfull := @Idle.admitCall_full _ _ _ hidle (lit "refund") (by decide) (by decide +kernel)
    (by decide +kernel) (lit "north")
  rw [oneByOne, Machine.exec_append, hs]
  exact ⟨_, rfl, hfull⟩

end Bulkhead

end McpRuntime
