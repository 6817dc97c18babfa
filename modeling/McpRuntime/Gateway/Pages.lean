import McpRuntime.Gateway.Reconciliation

/-!
# Pages of the desired state

A snapshot comes in pages of a size: each page has the next slice of the routes
and of the tenants, the counts and the digest of the whole, and the cursor that
the page before it named.

* `Splitting`: a canonical split of a snapshot, into an allowed number of pages
  with distinct cursors.
* `assemble_eq_some_iff`: `assemble_gateway_reconciliation_pages` returns a
  snapshot exactly for the pages of one of its splittings.
* `assemble_exact`: no page may be missing, reordered, duplicated or foreign.
-/

namespace McpRuntime.Gateway

/-! ## Slices -/

section

variable {α : Type*} {l pre mid post : List α} {size index : ℕ}

/-- The slice of a list with an index. -/
def slice (size index : ℕ) (l : List α) : List α := (l.drop (index * size)).take size

theorem length_slice : (slice size index l).length = min size (l.length - index * size) := by
  rw [slice, List.length_take, List.length_drop]

/-- What stands between the slices before it and the slices after it, with the
    length of a slice, is the slice. -/
theorem slice_of_append (h : pre ++ (mid ++ post) = l) (hpre : pre.length = min (index * size) l.length)
    (hmid : mid.length = min size (l.length - index * size)) : slice size index l = mid := by
  subst h
  rw [slice]
  simp only [List.length_append] at hpre hmid
  rcases le_total (index * size) (pre ++ (mid ++ post)).length with hle | hle
  · simp only [List.length_append] at hle
    rw [List.drop_append_of_le_length (by omega), List.drop_of_length_le (by omega), List.nil_append]
    rcases le_total size (mid.length + post.length) with hsize | hsize
    · rw [List.take_append_of_le_length (by omega), List.take_of_length_le (by omega)]
    · obtain rfl : post = [] := List.eq_nil_of_length_eq_zero (by omega)
      rw [List.append_nil, List.take_of_length_le (by omega)]
  · simp only [List.length_append] at hle
    obtain rfl : mid = [] := List.eq_nil_of_length_eq_zero (by omega)
    rw [List.drop_of_length_le (by simp only [List.length_append]; omega), List.take_nil]

/-- The rest of a list from a slice on. -/
theorem slice_append_drop :
    slice size index l ++ l.drop ((index + 1) * size) = l.drop (index * size) := by
  rw [slice, Nat.succ_mul, ← List.drop_drop, List.take_append_drop]

/-- Lists with the lengths of the slices of a whole are the slices of what they
    make up. -/
theorem slice_flatMap {β : Type*} {f : β → List α} {parts : List β} {total : ℕ}
    (hlength : ∀ i part, parts[i]? = some part → (f part).length = min size (total - i * size))
    (htotal : total ≤ parts.length * size) :
    (parts.flatMap f).length = total ∧
      ∀ i part, parts[i]? = some part → slice size i (parts.flatMap f) = f part := by
  have hbefore : ∀ n ≤ parts.length, ((parts.take n).flatMap f).length = min (n * size) total := by
    intro n
    induction n with
    | zero => simp
    | succ n ih =>
      intro hn
      have hpart : parts[n]? = some parts[n] := List.getElem?_eq_getElem hn
      rw [List.take_succ_eq_append_getElem hn, List.flatMap_append, List.length_append, ih (by omega),
        List.flatMap_singleton, hlength n _ hpart, Nat.succ_mul]
      omega
  have hall : (parts.flatMap f).length = total := by
    have h := hbefore parts.length le_rfl
    rw [List.take_length] at h
    omega
  refine ⟨hall, fun i part hpart => ?_⟩
  obtain ⟨hi, rfl⟩ := List.getElem?_eq_some_iff.1 hpart
  have hsplit : (parts.take i).flatMap f ++ (f parts[i] ++ (parts.drop (i + 1)).flatMap f) =
      parts.flatMap f := by
    conv_rhs => rw [← List.take_append_drop i parts, List.drop_eq_getElem_cons hi]
    rw [List.flatMap_append, List.flatMap_cons]
  refine slice_of_append hsplit ?_ ?_
  · rw [hall, hbefore i hi.le]
  · rw [hall]
    exact hlength i _ hpart

end

/-! ## Assembly -/

/-- One bounded page that is unusable until the complete snapshot is assembled. -/
@[ext]
structure GatewayReconciliationPage (hashing : Hashing) where
  schemaVersion : SchemaVersion
  environment : Text
  generation : ℕ
  observedAt : Text
  snapshotDigest : Text
  pageIndex : ℕ
  pageSize : ℕ
  routeCount : ℕ
  resourceCount : ℕ
  tenantCount : ℕ
  cursor : Option Text
  nextCursor : Option Text
  complete : Bool
  routes : List (GatewayRouteRecord hashing)
  tenants : List GatewayTenantSnapshot
  requestId : Text
  environment_valid : isEnvironment environment
  generation_valid : isGeneration generation
  observedAt_canonical : (DateTime.canonicalTimestamp observedAt).isSome
  digest_valid : isRegistryDigest snapshotDigest
  pageIndex_le : pageIndex ≤ 9
  pageSize_bounded : 1 ≤ pageSize ∧ pageSize ≤ 100
  counts_le : routeCount ≤ 1000 ∧ resourceCount ≤ 4000 ∧ tenantCount ≤ 1000
  cursors_valid : (∀ t ∈ cursor, isRequestId t) ∧ ∀ t ∈ nextCursor, isRequestId t
  lengths_le : routes.length ≤ 100 ∧ tenants.length ≤ 100
  requestId_valid : isRequestId requestId
  /-- Only incomplete pages carry a next cursor. -/
  complete_iff : complete = true ↔ nextCursor = none
  /-- Only continuation pages carry a cursor. -/
  cursor_matches_index : pageIndex = 0 ↔ cursor = none

variable {hashing : Hashing}

/-- The state of the loop over the pages. -/
structure Assembly (hashing : Hashing) where
  routes : List (GatewayRouteRecord hashing) := []
  tenants : List GatewayTenantSnapshot := []
  expectedCursor : Option Text := none
  seenCursors : Finset Text := ∅

/-- The state after a page. -/
def Assembly.add (state : Assembly hashing) (page : GatewayReconciliationPage hashing) :
    Assembly hashing where
  routes := state.routes ++ page.routes
  tenants := state.tenants ++ page.tenants
  expectedCursor := page.nextCursor
  seenCursors := page.nextCursor.elim state.seenCursors fun cursor => insert cursor state.seenCursors

/-- A page is of the same snapshot and split as the first one. -/
def GatewayReconciliationPage.agrees (first page : GatewayReconciliationPage hashing) : Bool :=
  page.schemaVersion = first.schemaVersion && page.environment = first.environment &&
    page.generation = first.generation && page.observedAt = first.observedAt &&
    page.snapshotDigest = first.snapshotDigest && page.pageSize = first.pageSize &&
    page.routeCount = first.routeCount && page.resourceCount = first.resourceCount &&
    page.tenantCount = first.tenantCount && page.requestId = first.requestId

/-- The number of pages that so many routes and tenants take. -/
def expectedPages (pageSize routeCount tenantCount : ℕ) : ℕ :=
  max (max 1 ((routeCount + pageSize - 1) / pageSize)) ((tenantCount + pageSize - 1) / pageSize)

/-- The body of the loop over the pages. -/
def addPage (first : GatewayReconciliationPage hashing) (expected index : ℕ)
    (state : Assembly hashing) (page : GatewayReconciliationPage hashing) :
    Option (Assembly hashing) :=
  if !first.agrees page || page.pageIndex ≠ index || page.cursor ≠ state.expectedCursor ||
      page.complete ≠ decide (index = expected - 1) then none
  else if page.routes.length ≠ min first.pageSize (first.routeCount - index * first.pageSize) ∨
      page.tenants.length ≠ min first.pageSize (first.tenantCount - index * first.pageSize) then none
  else if page.nextCursor.any fun cursor => decide (cursor ∈ state.seenCursors) then none
  else some (state.add page)

/-- The loop over the pages. -/
def addPages (first : GatewayReconciliationPage hashing) (expected : ℕ) :
    ℕ → Assembly hashing → List (GatewayReconciliationPage hashing) → Option (Assembly hashing)
  | _, state, [] => some state
  | index, state, page :: pages => do
    addPages first expected (index + 1) (← addPage first expected index state page) pages

/-- `assemble_gateway_reconciliation_pages`, which raises
    `GatewayReconciliationContractError`. -/
def assembleGatewayReconciliationPages (pages : List (GatewayReconciliationPage hashing)) :
    Option (GatewayReconciliationSnapshot hashing) :=
  match pages with
  | [] => none
  | first :: _ =>
    let expected := expectedPages first.pageSize first.routeCount first.tenantCount
    if pages.length > 10 ∨ expected ≠ pages.length ∨ expected > 10 then none
    else do
      let state ← addPages first expected 0 {} pages
      if state.routes ≠ sortedRoutes state.routes ∨ state.tenants ≠ sortedTenants state.tenants then
        none
      else do
        let snapshot ← GatewayReconciliationSnapshot.create first.environment first.generation
          first.observedAt state.routes state.tenants first.requestId
        if snapshot.resourceCount ≠ first.resourceCount ∨
            snapshot.snapshotDigest ≠ first.snapshotDigest then none
        else some snapshot

/-! ## The loop -/

section

variable {first page : GatewayReconciliationPage hashing} {expected index : ℕ}
  {state final : Assembly hashing} {pages : List (GatewayReconciliationPage hashing)}

/-- A page has the content that belongs at an index. -/
structure Placed (first : GatewayReconciliationPage hashing) (expected index : ℕ)
    (page : GatewayReconciliationPage hashing) : Prop where
  agrees : first.agrees page = true
  index_eq : page.pageIndex = index
  complete_eq : page.complete = decide (index = expected - 1)
  routes_length : page.routes.length = min first.pageSize (first.routeCount - index * first.pageSize)
  tenants_length :
    page.tenants.length = min first.pageSize (first.tenantCount - index * first.pageSize)

/-- A page is added when it belongs at the index and its cursors are those of the
    chain. -/
theorem addPage_eq_some : addPage first expected index state page = some final ↔
    (Placed first expected index page ∧ page.cursor = state.expectedCursor ∧
      ∀ cursor ∈ page.nextCursor, cursor ∉ state.seenCursors) ∧ state.add page = final := by
  rw [addPage]
  split_ifs with hbad hlengths hseen
  · refine ⟨nofun, fun ⟨⟨hplaced, hcursor, _⟩, _⟩ => ?_⟩
    simp [hplaced.agrees, hplaced.index_eq, hcursor, hplaced.complete_eq] at hbad
  · refine ⟨nofun, fun ⟨⟨hplaced, _⟩, _⟩ => ?_⟩
    exact (hlengths.elim (· hplaced.routes_length) (· hplaced.tenants_length)).elim
  · refine ⟨nofun, fun ⟨⟨_, _, hfresh⟩, _⟩ => ?_⟩
    obtain ⟨cursor, hcursor, hmem⟩ := (Option.any_eq_true _ _).1 hseen
    exact (hfresh cursor hcursor (of_decide_eq_true hmem)).elim
  · simp only [Bool.or_eq_true, Bool.not_eq_true', decide_eq_true_eq, not_or, Bool.not_eq_false,
      not_not] at hbad
    obtain ⟨⟨⟨hagrees, hindex⟩, hcursor⟩, hcomplete⟩ := hbad
    rw [not_or, not_not, not_not] at hlengths
    rw [Option.some.injEq]
    refine (and_iff_right ?_).symm
    refine ⟨⟨hagrees, hindex, hcomplete, hlengths.1, hlengths.2⟩, hcursor, fun cursor hc hmem => ?_⟩
    exact hseen ((Option.any_eq_true _ _).2 ⟨cursor, hc, decide_eq_true hmem⟩)

/-- Pages that belong one after the other, each at the cursor that the page before
    it named. -/
structure Chained (first : GatewayReconciliationPage hashing) (expected index : ℕ)
    (state : Assembly hashing) (pages : List (GatewayReconciliationPage hashing)) : Prop where
  placed : ∀ (i : ℕ) (page : GatewayReconciliationPage hashing), pages[i]? = some page → Placed first expected (index + i) page
  linked : ∀ (i : ℕ) (page : GatewayReconciliationPage hashing), pages[i]? = some page →
    (state.expectedCursor :: pages.map GatewayReconciliationPage.nextCursor)[i]? = some page.cursor
  fresh : ∀ page ∈ pages, ∀ cursor ∈ page.nextCursor, cursor ∉ state.seenCursors
  distinct : pages.Pairwise fun page page' => ∀ cursor ∈ page.nextCursor, cursor ∉ page'.nextCursor

theorem chained_cons : Chained first expected index state (page :: pages) ↔
    (Placed first expected index page ∧ page.cursor = state.expectedCursor ∧
      ∀ cursor ∈ page.nextCursor, cursor ∉ state.seenCursors) ∧
      Chained first expected (index + 1) (state.add page) pages := by
  constructor
  · intro h
    have hdistinct := List.pairwise_cons.1 h.distinct
    refine ⟨⟨h.placed 0 page rfl, (Option.some.inj (h.linked 0 page rfl)).symm,
      h.fresh page List.mem_cons_self⟩, ?_, fun i next hnext => h.linked (i + 1) next hnext, ?_,
      hdistinct.2⟩
    · intro i next hnext
      have hplaced := h.placed (i + 1) next hnext
      rwa [← Nat.add_assoc, Nat.add_right_comm] at hplaced
    · -- The cursors that have been seen are those from before and the page's.
      intro next hnext cursor hcursor hseen
      rw [Assembly.add] at hseen
      cases hpage : page.nextCursor with
      | none =>
        rw [hpage] at hseen
        exact h.fresh next (List.mem_cons_of_mem _ hnext) cursor hcursor hseen
      | some cursor' =>
        rw [hpage] at hseen
        rcases Finset.mem_insert.1 hseen with rfl | hseen
        · exact hdistinct.1 next hnext cursor hpage hcursor
        · exact h.fresh next (List.mem_cons_of_mem _ hnext) cursor hcursor hseen
  · rintro ⟨⟨hplaced, hcursor, hfresh⟩, h⟩
    have hseen {cursor : Text} (hmem : cursor ∉ (state.add page).seenCursors) :
        cursor ∉ state.seenCursors ∧ cursor ∉ page.nextCursor := by
      rw [Assembly.add] at hmem
      cases hpage : page.nextCursor with
      | none =>
        rw [hpage] at hmem
        exact ⟨hmem, nofun⟩
      | some cursor' =>
        rw [hpage, Option.elim, Finset.mem_insert, not_or] at hmem
        exact ⟨hmem.2, fun heq => hmem.1 (Option.some.inj heq).symm⟩
    refine ⟨?_, ?_, List.forall_mem_cons.2 ⟨hfresh, fun next hnext cursor hc => ?_⟩,
      List.pairwise_cons.2 ⟨fun next hnext cursor hc hc' => ?_, h.distinct⟩⟩
    · intro i next hnext
      cases i with
      | zero =>
        cases hnext
        exact hplaced
      | succ i =>
        have hplaced := h.placed i next hnext
        rwa [Nat.add_right_comm, Nat.add_assoc] at hplaced
    · intro i next hnext
      cases i with
      | zero =>
        cases hnext
        exact congrArg some hcursor.symm
      | succ i => exact h.linked i next hnext
    · exact (hseen (h.fresh next hnext cursor hc)).1
    · exact (hseen (h.fresh next hnext cursor hc')).2 hc

theorem addPages_eq_some : addPages first expected index state pages = some final ↔
    Chained first expected index state pages ∧ pages.foldl Assembly.add state = final := by
  induction pages generalizing index state with
  | nil =>
    rw [addPages, Option.some.injEq]
    exact (and_iff_right ⟨nofun, nofun, nofun, .nil⟩).symm
  | cons page pages ih =>
    rw [addPages]
    simp only [Option.bind_eq_bind, Option.bind_eq_some_iff, addPage_eq_some, ih]
    rw [chained_cons, List.foldl_cons]
    constructor
    · rintro ⟨_, ⟨hfollows, rfl⟩, hchained, rfl⟩
      exact ⟨⟨hfollows, hchained⟩, rfl⟩
    · rintro ⟨⟨hfollows, hchained⟩, rfl⟩
      exact ⟨_, ⟨hfollows, rfl⟩, hchained, rfl⟩

theorem foldl_add_routes :
    (pages.foldl Assembly.add state).routes = state.routes ++ pages.flatMap (·.routes) := by
  induction pages generalizing state with
  | nil => simp
  | cons page pages ih => rw [List.foldl_cons, ih, Assembly.add, List.flatMap_cons, List.append_assoc]

theorem foldl_add_tenants :
    (pages.foldl Assembly.add state).tenants = state.tenants ++ pages.flatMap (·.tenants) := by
  induction pages generalizing state with
  | nil => simp
  | cons page pages ih => rw [List.foldl_cons, ih, Assembly.add, List.flatMap_cons, List.append_assoc]

end

/-- The pages are enough for the items. -/
theorem le_expectedPages (routeCount tenantCount : ℕ) {pageSize : ℕ} (h : 1 ≤ pageSize) :
    routeCount ≤ expectedPages pageSize routeCount tenantCount * pageSize ∧
      tenantCount ≤ expectedPages pageSize routeCount tenantCount * pageSize := by
  have hceil (n : ℕ) : n ≤ (n + pageSize - 1) / pageSize * pageSize := by
    have := Nat.lt_mul_div_succ (n + pageSize - 1) (Nat.lt_of_lt_of_le Nat.zero_lt_one h)
    rw [Nat.mul_comm, Nat.succ_mul] at this
    omega
  exact ⟨(hceil _).trans (Nat.mul_le_mul_right _ ((le_max_right _ _).trans (le_max_left _ _))),
    (hceil _).trans (Nat.mul_le_mul_right _ (le_max_right _ _))⟩

theorem expectedPages_pos {pageSize routeCount tenantCount : ℕ} :
    1 ≤ expectedPages pageSize routeCount tenantCount :=
  le_max_of_le_left (le_max_left _ _)

/-- What assembly accepts: a chain of the expected pages, whose content makes a
    snapshot with the counts and the digest of the pages. -/
theorem assemble_cons_eq_some {first : GatewayReconciliationPage hashing}
    {rest : List (GatewayReconciliationPage hashing)}
    {snapshot : GatewayReconciliationSnapshot hashing} :
    assembleGatewayReconciliationPages (first :: rest) = some snapshot ↔
      ((first :: rest).length ≤ 10 ∧
        expectedPages first.pageSize first.routeCount first.tenantCount = (first :: rest).length) ∧
      Chained first (first :: rest).length 0 {} (first :: rest) ∧
      (snapshot.environment = first.environment ∧ snapshot.generation = first.generation ∧
        snapshot.observedAt = first.observedAt ∧ snapshot.requestId = first.requestId ∧
        snapshot.resourceCount = first.resourceCount ∧
        snapshot.snapshotDigest = first.snapshotDigest) ∧
      snapshot.routes = (first :: rest).flatMap (·.routes) ∧
      snapshot.tenants = (first :: rest).flatMap (·.tenants) := by
  rw [assembleGatewayReconciliationPages]
  split_ifs with hlength
  · refine ⟨nofun, fun ⟨⟨hle, heq⟩, _⟩ => ?_⟩
    omega
  · have hexpected : (first :: rest).length ≤ 10 ∧
        expectedPages first.pageSize first.routeCount first.tenantCount = (first :: rest).length := by
      omega
    rw [and_iff_right hexpected, hexpected.2]
    simp only [Option.bind_eq_bind, Option.bind_eq_some_iff, addPages_eq_some]
    constructor
    · rintro ⟨final, ⟨hchained, rfl⟩, h⟩
      split_ifs at h with hsorted
      rw [not_or, not_not, not_not, foldl_add_routes, foldl_add_tenants] at hsorted
      obtain ⟨created, hcreated, h⟩ := Option.bind_eq_some_iff.1 h
      split_ifs at h with hdigest
      cases h
      rw [not_or, not_not, not_not] at hdigest
      obtain ⟨henvironment, hgeneration, hobserved, hrequest, hroutes, htenants⟩ :=
        GatewayReconciliationSnapshot.create_eq_some.1 hcreated
      rw [foldl_add_routes, ← hsorted.1] at hroutes
      rw [foldl_add_tenants, ← hsorted.2] at htenants
      exact ⟨hchained, ⟨henvironment, hgeneration, hobserved, hrequest, hdigest⟩, hroutes, htenants⟩
    · rintro ⟨hchained, ⟨henvironment, hgeneration, hobserved, hrequest, hdigest⟩, hroutes, htenants⟩
      refine ⟨_, ⟨hchained, rfl⟩, ?_⟩
      rw [foldl_add_routes, foldl_add_tenants, List.nil_append, List.nil_append, ← hroutes, ← htenants,
        ← snapshot.valid.routes_canonical, ← snapshot.valid.tenants_canonical]
      rw [if_neg (by simp), Option.bind_eq_some_iff]
      refine ⟨snapshot, GatewayReconciliationSnapshot.create_eq_some.2 ⟨henvironment, hgeneration,
        hobserved, hrequest, snapshot.valid.routes_canonical, snapshot.valid.tenants_canonical⟩, ?_⟩
      rw [if_neg (by simp [hdigest])]

/-! ## Splittings -/

/-- A canonical split of a snapshot: into slices of a size, in no more pages than
    are allowed, with a cursor of its own after every page but the last. -/
structure Splitting (snapshot : GatewayReconciliationSnapshot hashing) where
  pageSize : ℕ
  cursorAfter : ℕ → Text
  pageSize_bounded : 1 ≤ pageSize ∧ pageSize ≤ 100
  pages_le : expectedPages pageSize snapshot.routeCount snapshot.tenantCount ≤ 10
  cursors_valid : ∀ i, i + 1 < expectedPages pageSize snapshot.routeCount snapshot.tenantCount →
    isRequestId (cursorAfter i)
  cursors_distinct : ∀ i j,
    i < j → j + 1 < expectedPages pageSize snapshot.routeCount snapshot.tenantCount →
      cursorAfter i ≠ cursorAfter j

namespace Splitting

variable {snapshot : GatewayReconciliationSnapshot hashing} (s : Splitting snapshot)

/-- The number of pages. -/
def count : ℕ := expectedPages s.pageSize snapshot.routeCount snapshot.tenantCount

/-- The cursor that leads to a page. -/
def cursorBefore : ℕ → Option Text
  | 0 => none
  | i + 1 => some (s.cursorAfter i)

/-- A page of the split. -/
def page (i : ℕ) (h : i < s.count) : GatewayReconciliationPage hashing where
  schemaVersion := snapshot.schemaVersion
  environment := snapshot.environment
  generation := snapshot.generation
  observedAt := snapshot.observedAt
  snapshotDigest := snapshot.snapshotDigest
  pageIndex := i
  pageSize := s.pageSize
  routeCount := snapshot.routeCount
  resourceCount := snapshot.resourceCount
  tenantCount := snapshot.tenantCount
  cursor := s.cursorBefore i
  nextCursor := if i + 1 = s.count then none else some (s.cursorAfter i)
  complete := decide (i + 1 = s.count)
  routes := slice s.pageSize i snapshot.routes
  tenants := slice s.pageSize i snapshot.tenants
  requestId := snapshot.requestId
  environment_valid := snapshot.valid.environment
  generation_valid := snapshot.valid.generation
  observedAt_canonical := snapshot.valid.observedAt
  digest_valid := snapshot.valid.digest
  pageIndex_le := Nat.le_of_lt_succ (h.trans_le s.pages_le)
  pageSize_bounded := s.pageSize_bounded
  counts_le := ⟨snapshot.valid.routeCount_le, snapshot.valid.resourceCount_le,
    snapshot.valid.tenantCount_le⟩
  cursors_valid := by
    constructor
    · intro t ht
      cases i with
      | zero => cases ht
      | succ i =>
        cases ht
        exact s.cursors_valid i h
    · intro t ht
      split_ifs at ht with hlast
      · cases ht
      · cases ht
        exact s.cursors_valid i (lt_of_le_of_ne h hlast)
  lengths_le := by
    have := s.pageSize_bounded
    simp only [length_slice]
    omega
  requestId_valid := snapshot.valid.requestId
  complete_iff := by
    rw [decide_eq_true_iff]
    split_ifs with hlast <;> simp [hlast]
  cursor_matches_index := by cases i <;> simp [cursorBefore]

/-- So many pages from an index on. -/
def pagesFrom : (n i : ℕ) → i + n = s.count → List (GatewayReconciliationPage hashing)
  | 0, _, _ => []
  | n + 1, i, h => s.page i (by omega) :: pagesFrom n (i + 1) (by omega)

/-- The pages of the split. -/
def pages : List (GatewayReconciliationPage hashing) := s.pagesFrom s.count 0 (Nat.zero_add _)

variable {s}

theorem mem_nextCursor {i : ℕ} {h : i < s.count} {cursor : Text} :
    cursor ∈ (s.page i h).nextCursor ↔ i + 1 < s.count ∧ cursor = s.cursorAfter i := by
  rw [page]
  split_ifs with hlast
  · exact ⟨nofun, fun hmem => absurd hlast hmem.1.ne⟩
  · rw [Option.mem_some_iff, eq_comm]
    exact (and_iff_right (lt_of_le_of_ne h hlast)).symm

theorem getElem?_pagesFrom {n i k : ℕ} (h : i + n = s.count) (hk : k < n) :
    (s.pagesFrom n i h)[k]? = some (s.page (i + k) (by omega)) := by
  induction n generalizing i k with
  | zero => cases hk
  | succ n ih =>
    cases k with
    | zero => rfl
    | succ k =>
      rw [pagesFrom, List.getElem?_cons_succ, ih (by omega) (Nat.lt_of_succ_lt_succ hk)]
      congr 2
      omega

/-- The page at an index. -/
theorem getElem?_pages {i : ℕ} (h : i < s.count) : s.pages[i]? = some (s.page i h) := by
  rw [pages, getElem?_pagesFrom _ h]
  congr 2
  omega

theorem length_pages : s.pages.length = s.count := by
  have hfrom {n i : ℕ} (h : i + n = s.count) : (s.pagesFrom n i h).length = n := by
    induction n generalizing i with
    | zero => rfl
    | succ n ih => rw [pagesFrom, List.length_cons, ih]
  exact hfrom _

theorem exists_of_getElem? {i : ℕ} {page : GatewayReconciliationPage hashing}
    (h : s.pages[i]? = some page) : ∃ hi : i < s.count, s.page i hi = page := by
  obtain ⟨hi, -⟩ := List.getElem?_eq_some_iff.1 h
  rw [length_pages] at hi
  exact ⟨hi, Option.some.inj ((getElem?_pages hi).symm.trans h)⟩

/-- The pages have all routes and all tenants. -/
theorem flatMap_pages : s.pages.flatMap (·.routes) = snapshot.routes ∧
    s.pages.flatMap (·.tenants) = snapshot.tenants := by
  have hfrom {n i : ℕ} (h : i + n = s.count) :
      (s.pagesFrom n i h).flatMap (·.routes) = snapshot.routes.drop (i * s.pageSize) ∧
        (s.pagesFrom n i h).flatMap (·.tenants) = snapshot.tenants.drop (i * s.pageSize) := by
    induction n generalizing i with
    | zero =>
      obtain rfl : i = s.count := h
      obtain ⟨hroutes, htenants⟩ := le_expectedPages snapshot.routeCount snapshot.tenantCount
        s.pageSize_bounded.1
      have hroutes := snapshot.valid.routeCount_eq.symm.trans_le hroutes
      have htenants := snapshot.valid.tenantCount_eq.symm.trans_le htenants
      exact ⟨(List.drop_of_length_le hroutes).symm, (List.drop_of_length_le htenants).symm⟩
    | succ n ih =>
      obtain ⟨hroutes, htenants⟩ := @ih (i + 1) (by omega)
      rw [pagesFrom, List.flatMap_cons, List.flatMap_cons, hroutes, htenants]
      exact ⟨slice_append_drop, slice_append_drop⟩
  have hall := hfrom (Nat.zero_add s.count)
  rw [Nat.zero_mul] at hall
  exact hall

/-- The pages of a split are assembled to the snapshot. -/
theorem assemble_pages : assembleGatewayReconciliationPages s.pages = some snapshot := by
  have hpos : 0 < s.count := expectedPages_pos
  obtain ⟨first, rest, hpages⟩ : ∃ first rest, s.pages = first :: rest :=
    List.exists_cons_of_length_pos (by rw [length_pages]; exact hpos)
  have hfirst : s.page 0 hpos = first := by
    have h := getElem?_pages hpos
    rw [hpages] at h
    exact (Option.some.inj h).symm
  have hlength : (first :: rest).length = s.count := by rw [← hpages, length_pages]
  rw [hpages, assemble_cons_eq_some, hlength, ← hpages, flatMap_pages.1, flatMap_pages.2]
  subst hfirst
  refine ⟨⟨s.pages_le, rfl⟩, ⟨?_, ?_, nofun, ?_⟩, ⟨rfl, rfl, rfl, rfl, rfl, rfl⟩, rfl, rfl⟩
  · intro i page hpage
    obtain ⟨hi, rfl⟩ := exists_of_getElem? hpage
    rw [Nat.zero_add]
    refine ⟨by simp [GatewayReconciliationPage.agrees, Splitting.page], rfl, ?_, ?_, ?_⟩
    · exact decide_eq_decide.2 ⟨fun h => by omega, fun h => by omega⟩
    · rw [show (s.page i hi).routes = slice s.pageSize i snapshot.routes from rfl, length_slice,
        ← snapshot.valid.routeCount_eq]
      rfl
    · rw [show (s.page i hi).tenants = slice s.pageSize i snapshot.tenants from rfl, length_slice,
        ← snapshot.valid.tenantCount_eq]
      rfl
  · intro i page hpage
    obtain ⟨hi, rfl⟩ := exists_of_getElem? hpage
    cases i with
    | zero => rfl
    | succ i =>
      rw [List.getElem?_cons_succ, List.getElem?_map, getElem?_pages (Nat.lt_of_succ_lt hi)]
      exact congrArg some (if_neg hi.ne)
  · -- Every page but the last has a cursor, and these are distinct.
    rw [List.pairwise_iff_getElem]
    intro i j hi hj hij cursor hcursor hcursor'
    have hget {k : ℕ} (hk : k < s.pages.length) : ∃ h, s.pages[k] = s.page k h := by
      obtain ⟨h, heq⟩ := exists_of_getElem? (List.getElem?_eq_getElem hk)
      exact ⟨h, heq.symm⟩
    obtain ⟨hi, hpage⟩ := hget hi
    obtain ⟨hj, hpage'⟩ := hget hj
    rw [hpage, mem_nextCursor] at hcursor
    rw [hpage', mem_nextCursor] at hcursor'
    exact s.cursors_distinct i j hij hcursor'.1 (hcursor.2.symm.trans hcursor'.2)

end Splitting

/-! ## Exactness -/

variable {pages pages' : List (GatewayReconciliationPage hashing)}
  {snapshot snapshot' : GatewayReconciliationSnapshot hashing}

/-- What a page that agrees with the first one has in common with it. -/
theorem agrees_iff {first page : GatewayReconciliationPage hashing} :
    first.agrees page = true ↔ page.schemaVersion = first.schemaVersion ∧
      page.environment = first.environment ∧ page.generation = first.generation ∧
      page.observedAt = first.observedAt ∧ page.snapshotDigest = first.snapshotDigest ∧
      page.pageSize = first.pageSize ∧ page.routeCount = first.routeCount ∧
      page.resourceCount = first.resourceCount ∧ page.tenantCount = first.tenantCount ∧
      page.requestId = first.requestId := by
  simp only [GatewayReconciliationPage.agrees, Bool.and_eq_true, decide_eq_true_eq, and_assoc]

/-- The cursor that the page at an index names. -/
def cursorAfter (pages : List (GatewayReconciliationPage hashing)) (i : ℕ) : Text :=
  ((pages[i]?).bind (·.nextCursor)).getD []

theorem cursorAfter_eq {i : ℕ} {page : GatewayReconciliationPage hashing} {cursor : Text}
    (hpage : pages[i]? = some page) (hcursor : page.nextCursor = some cursor) :
    cursorAfter pages i = cursor := by
  rw [cursorAfter, hpage, Option.bind_some, hcursor, Option.getD_some]

section Chained

variable {first page : GatewayReconciliationPage hashing} {i : ℕ}
  (hchained : Chained first pages.length 0 {} pages)
include hchained

/-- Each page is in its place. -/
theorem placed_of_chained (hpage : pages[i]? = some page) : Placed first pages.length i page := by
  have h := hchained.placed i page hpage
  rwa [Nat.zero_add] at h

/-- Every page but the last names the cursor of the next one. -/
theorem exists_nextCursor (hi : i + 1 < pages.length) : ∃ page cursor, pages[i]? = some page ∧
    page.nextCursor = some cursor := by
  have hpage : pages[i]? = some pages[i] := List.getElem?_eq_getElem (Nat.lt_of_succ_lt hi)
  have hcomplete : pages[i].complete ≠ true := by
    rw [(placed_of_chained hchained hpage).complete_eq, ne_eq, decide_eq_true_iff]
    omega
  rw [ne_eq, pages[i].complete_iff, ← ne_eq, Option.ne_none_iff_exists'] at hcomplete
  obtain ⟨cursor, hcursor⟩ := hcomplete
  exact ⟨_, cursor, hpage, hcursor⟩

/-- No two pages name the same cursor. -/
theorem cursorAfter_ne {j : ℕ} (hij : i < j) (hj : j + 1 < pages.length) :
    cursorAfter pages i ≠ cursorAfter pages j := by
  intro heq
  obtain ⟨page, cursor, hpage, hcursor⟩ :=
    exists_nextCursor hchained (show i + 1 < pages.length by omega)
  obtain ⟨page', cursor', hpage', hcursor'⟩ := exists_nextCursor hchained hj
  rw [cursorAfter_eq hpage hcursor, cursorAfter_eq hpage' hcursor'] at heq
  obtain ⟨hi, rfl⟩ := List.getElem?_eq_some_iff.1 hpage
  obtain ⟨hj, rfl⟩ := List.getElem?_eq_some_iff.1 hpage'
  exact List.pairwise_iff_getElem.1 hchained.distinct i j hi hj hij cursor hcursor (heq ▸ hcursor')

/-- The cursor of a page is the one that the page before it names. -/
theorem cursor_of_chained (hpage : pages[i]? = some page) :
    page.cursor = if i = 0 then none else some (cursorAfter pages (i - 1)) := by
  have hlinked := hchained.linked i page hpage
  cases i with
  | zero => exact (Option.some.inj hlinked).symm
  | succ i =>
    obtain ⟨hi, -⟩ := List.getElem?_eq_some_iff.1 hpage
    obtain ⟨before, cursor, hbefore, hcursor⟩ := exists_nextCursor hchained hi
    rw [List.getElem?_cons_succ, List.getElem?_map, hbefore, Option.map_some, hcursor] at hlinked
    rw [← Option.some.inj hlinked, ← cursorAfter_eq hbefore hcursor]
    rfl

/-- The last page names no cursor. -/
theorem nextCursor_of_chained (hpage : pages[i]? = some page) :
    page.nextCursor = if i + 1 = pages.length then none else some (cursorAfter pages i) := by
  split_ifs with hlast
  · have hcomplete : page.complete = true := by
      rw [(placed_of_chained hchained hpage).complete_eq, decide_eq_true_iff]
      omega
    exact page.complete_iff.1 hcomplete
  · obtain ⟨hi, -⟩ := List.getElem?_eq_some_iff.1 hpage
    obtain ⟨page', cursor, hpage', hcursor⟩ :=
      exists_nextCursor hchained (lt_of_le_of_ne hi hlast)
    cases hpage.symm.trans hpage'
    rw [hcursor, cursorAfter_eq hpage hcursor]

/-- The split of a snapshot into chained pages. -/
def splittingOf (hle : pages.length ≤ 10)
    (hcount : expectedPages first.pageSize snapshot.routeCount snapshot.tenantCount = pages.length) :
    Splitting snapshot where
  pageSize := first.pageSize
  cursorAfter := cursorAfter pages
  pageSize_bounded := first.pageSize_bounded
  pages_le := hcount.trans_le hle
  cursors_valid i hi := by
    obtain ⟨page, cursor, hpage, hcursor⟩ := exists_nextCursor hchained (hcount ▸ hi)
    rw [cursorAfter_eq hpage hcursor]
    exact page.cursors_valid.2 cursor hcursor
  cursors_distinct _ _ hij hj := cursorAfter_ne hchained hij (hcount ▸ hj)

end Chained

/-- The pages that are assembled to a snapshot are those of a split of it. -/
theorem exists_splitting (h : assembleGatewayReconciliationPages pages = some snapshot) :
    ∃ s : Splitting snapshot, s.pages = pages := by
  obtain _ | ⟨first, rest⟩ := pages
  · cases h
  obtain ⟨⟨hle, hexpected⟩, hchained, ⟨henvironment, hgeneration, hobserved, hrequest, hresources,
    hdigest⟩, hroutes, htenants⟩ := assemble_cons_eq_some.1 h
  clear h
  revert hchained hexpected hle hroutes htenants
  generalize first :: rest = pages
  intro hle hexpected hchained hroutes htenants
  -- the routes and the tenants are cut into slices
  have hbound := le_expectedPages first.routeCount first.tenantCount first.pageSize_bounded.1
  rw [hexpected] at hbound
  obtain ⟨hrouteCount, hrouteSlices⟩ := slice_flatMap
    (fun i page hpage => (placed_of_chained hchained hpage).routes_length) hbound.1
  obtain ⟨htenantCount, htenantSlices⟩ := slice_flatMap
    (fun i page hpage => (placed_of_chained hchained hpage).tenants_length) hbound.2
  rw [← hroutes] at hrouteCount hrouteSlices
  rw [← htenants] at htenantCount htenantSlices
  have hrouteCount := snapshot.valid.routeCount_eq.trans hrouteCount
  have htenantCount := snapshot.valid.tenantCount_eq.trans htenantCount
  have hcount : expectedPages first.pageSize snapshot.routeCount snapshot.tenantCount =
      pages.length := by rw [hrouteCount, htenantCount, hexpected]
  let s := splittingOf hchained hle hcount
  have hs : s.count = pages.length := hcount
  refine ⟨s, List.ext_getElem? fun i => ?_⟩
  rcases lt_or_ge i pages.length with hi | hi
  · rw [Splitting.getElem?_pages (hs ▸ hi)]
    have hpage : pages[i]? = some pages[i] := List.getElem?_eq_getElem hi
    rw [hpage]
    generalize pages[i] = page at hpage
    have hp := placed_of_chained hchained hpage
    obtain ⟨hversion, henvironment', hgeneration', hobserved', hdigest', hsize, hrouteCount',
      hresources', htenantCount', hrequest'⟩ := agrees_iff.1 hp.agrees
    refine congrArg some ?_
    ext1
    · cases snapshot.schemaVersion
      cases page.schemaVersion
      rfl
    · exact henvironment.trans henvironment'.symm
    · exact hgeneration.trans hgeneration'.symm
    · exact hobserved.trans hobserved'.symm
    · exact hdigest.trans hdigest'.symm
    · exact hp.index_eq.symm
    · exact hsize.symm
    · exact hrouteCount.trans hrouteCount'.symm
    · exact hresources.trans hresources'.symm
    · exact htenantCount.trans htenantCount'.symm
    · rw [cursor_of_chained hchained hpage]
      cases i <;> rfl
    · rw [nextCursor_of_chained hchained hpage]
      change (if i + 1 = s.count then none else some (cursorAfter pages i)) = _
      rw [hs]
    · rw [hp.complete_eq]
      exact decide_eq_decide.2 ⟨fun h => by omega, fun h => by omega⟩
    · exact hrouteSlices i page hpage
    · exact htenantSlices i page hpage
    · exact hrequest.trans hrequest'.symm
  · rw [List.getElem?_eq_none (by rw [Splitting.length_pages, hs]; exact hi),
      List.getElem?_eq_none hi]

/-- Assembly returns a snapshot exactly for the pages of a split of it. -/
theorem assemble_eq_some_iff : assembleGatewayReconciliationPages pages = some snapshot ↔
    ∃ s : Splitting snapshot, s.pages = pages :=
  ⟨exists_splitting, fun ⟨_, hs⟩ => hs ▸ Splitting.assemble_pages⟩

/-- Pages of accepted pages that are accepted are all of them, in order. -/
theorem eq_of_subset (h : assembleGatewayReconciliationPages pages = some snapshot)
    (h' : assembleGatewayReconciliationPages pages' = some snapshot') (hsub : pages' ⊆ pages) :
    pages' = pages := by
  obtain ⟨s, rfl⟩ := exists_splitting h
  obtain ⟨s', rfl⟩ := exists_splitting h'
  have hmem {i : ℕ} (hi : i < s'.count) : ∃ hi' : i < s.count, s.page i hi' = s'.page i hi := by
    have hpage := List.mem_of_getElem? (Splitting.getElem?_pages hi)
    obtain ⟨k, hk⟩ := List.getElem?_of_mem (hsub hpage)
    obtain ⟨hlt, heq⟩ := Splitting.exists_of_getElem? hk
    obtain rfl : k = i := congrArg GatewayReconciliationPage.pageIndex heq
    exact ⟨hlt, heq⟩
  have hcount : s'.count = s.count := by
    obtain ⟨hi, heq⟩ := hmem (expectedPages_pos : 0 < s'.count)
    have hsize : s.pageSize = s'.pageSize := congrArg GatewayReconciliationPage.pageSize heq
    have hroutes : snapshot.routeCount = snapshot'.routeCount :=
      congrArg GatewayReconciliationPage.routeCount heq
    have htenants : snapshot.tenantCount = snapshot'.tenantCount :=
      congrArg GatewayReconciliationPage.tenantCount heq
    rw [Splitting.count, Splitting.count, hsize, hroutes, htenants]
  refine List.ext_getElem? fun i => ?_
  rcases lt_or_ge i s.count with hi | hi
  · obtain ⟨hi', heq⟩ := hmem (hcount ▸ hi)
    rw [Splitting.getElem?_pages hi, Splitting.getElem?_pages (hcount ▸ hi), heq]
  · rw [List.getElem?_eq_none (by rw [Splitting.length_pages, hcount]; exact hi),
      List.getElem?_eq_none (by rw [Splitting.length_pages]; exact hi)]

/-- Accepted pages with the digest and the identity of a snapshot, even if a
    single one of them has them, make this snapshot. -/
theorem eq_of_digest (h : assembleGatewayReconciliationPages pages = some snapshot)
    {page : GatewayReconciliationPage hashing} (hpage : page ∈ pages)
    (hdigest : page.snapshotDigest = snapshot'.snapshotDigest)
    (hobserved : page.observedAt = snapshot'.observedAt)
    (hrequest : page.requestId = snapshot'.requestId)
    (hcollision : hashing.NoCollision snapshot.document snapshot'.document) :
    snapshot = snapshot' := by
  obtain ⟨s, rfl⟩ := exists_splitting h
  obtain ⟨i, hi⟩ := List.getElem?_of_mem hpage
  obtain ⟨hi, rfl⟩ := Splitting.exists_of_getElem? hi
  exact GatewayReconciliationSnapshot.ext_content hobserved hrequest hdigest
    (GatewayReconciliationSnapshot.same_content hdigest hcollision)

/-- Assembly returns a snapshot for the pages of its splits and for no others: not
    for some of these pages, repeated or in another order, and not for pages of
    which one is of another snapshot, unless SHA-256 collides. -/
theorem assemble_exact (pages : List (GatewayReconciliationPage hashing))
    (snapshot : GatewayReconciliationSnapshot hashing) :
    (assembleGatewayReconciliationPages pages = some snapshot ↔
      ∃ s : Splitting snapshot, s.pages = pages) ∧
    (assembleGatewayReconciliationPages pages = some snapshot →
      (snapshot.routes = pages.flatMap (·.routes) ∧ snapshot.tenants = pages.flatMap (·.tenants)) ∧
      (∀ pages' snapshot', assembleGatewayReconciliationPages pages' = some snapshot' →
        pages' ⊆ pages → pages' = pages) ∧
      (∀ page ∈ pages, ∀ snapshot' : GatewayReconciliationSnapshot hashing,
        page.snapshotDigest = snapshot'.snapshotDigest → page.observedAt = snapshot'.observedAt →
          page.requestId = snapshot'.requestId →
            hashing.NoCollision snapshot.document snapshot'.document → snapshot = snapshot')) := by
  refine ⟨assemble_eq_some_iff, fun h => ⟨?_, fun _ _ h' => eq_of_subset h h',
    fun _ hpage _ hdigest hobserved hrequest => eq_of_digest h hpage hdigest hobserved hrequest⟩⟩
  obtain ⟨s, rfl⟩ := exists_splitting h
  exact ⟨Splitting.flatMap_pages.1.symm, Splitting.flatMap_pages.2.symm⟩

/-- A suspended tenant with an identifier of one letter. -/
def suspendedTenant (letter : CodePoint) (h : isDnsLabel [letter]) : GatewayTenantSnapshot where
  tenantId := [letter]
  generation := 1
  state := .suspended
  desiredRouteCount := 0
  pruneAuthorized := true
  requestId := lit "r"
  tenantId_isDnsLabel := h
  generation_valid := by decide
  desiredRouteCount_le := by decide
  requestId_valid := by decide
  nonready_tenant_has_no_routes _ := rfl
  pending_cannot_authorize_pruning := nofun

/-- A snapshot of two suspended tenants. -/
def suspendedSnapshot : GatewayReconciliationSnapshot flatHashing where
  environment := lit "e"
  generation := 1
  observedAt := lit "2025-01-01T00:00:00Z"
  routeCount := 0
  resourceCount := 0
  tenantCount := 2
  routes := []
  tenants := [suspendedTenant 97 (by decide), suspendedTenant 98 (by decide)]
  snapshotDigest := lit "sha256:" ++ List.replicate 64 48
  requestId := lit "r"
  valid := by decide +kernel

/-- The snapshot in two pages of one tenant. -/
def suspendedPages : Splitting suspendedSnapshot where
  pageSize := 1
  cursorAfter _ := lit "c"
  pageSize_bounded := by decide
  pages_le := by decide
  cursors_valid _ _ := by decide
  cursors_distinct i j hij hj := by
    have : expectedPages 1 suspendedSnapshot.routeCount suspendedSnapshot.tenantCount = 2 := rfl
    omega

/-- The two pages are assembled, and the second one alone is not. -/
theorem assemble_exact_example :
    assembleGatewayReconciliationPages suspendedPages.pages = some suspendedSnapshot ∧
      suspendedPages.pages.length = 2 ∧
      ∀ snapshot, assembleGatewayReconciliationPages suspendedPages.pages.tail ≠ some snapshot := by
  have h := (assemble_exact suspendedPages.pages suspendedSnapshot).1.2 ⟨_, rfl⟩
  refine ⟨h, rfl, fun snapshot' h' => ?_⟩
  have heq := ((assemble_exact _ _).2 h).2.1 _ snapshot' h' (List.tail_subset _)
  exact absurd (congrArg List.length heq) (by decide)

end McpRuntime.Gateway
