import McpRuntime.Python.Float
import McpRuntime.RecencyMap

/-!
# The discovery cache

The cache of registry discovery keeps search results until they expire, and artifacts until
they are stale: an artifact that is no longer fresh is returned to a caller that allows it.
The cache never reads a clock; every call brings the time.

* `run` is what calls return or raise, in turn, and the cache that they leave;
* `run_refines`: after any calls at times of a clock that does not run backwards, a get
  returns the value of the latest put under its key where that is unexpired, and misses it
  only when as many other keys as the cache has room for were put or hit since.

The keys are compared and hashed as the values they are, so their types are parameters, as
are those of a stub and of an artifact.
-/

namespace McpRuntime.Registry

/-- What a call of the cache raises. -/
inductive CacheError
  | valueError
  | overflowError
  deriving DecidableEq

/-- The bounds of `InMemoryRegistryCache`. -/
structure CacheBounds where
  maxSearchEntries : ℕ := 128
  maxArtifactEntries : ℕ := 64
  search_bounds : 1 ≤ maxSearchEntries ∧ maxSearchEntries ≤ 1024 := by decide
  artifact_bounds : 1 ≤ maxArtifactEntries ∧ maxArtifactEntries ≤ 256 := by decide

/-- `_SearchCacheEntry`. -/
structure SearchCacheEntry (σ : Type*) where
  stubs : List σ
  expiresAt : ℚ

/-- `_ArtifactCacheEntry`. -/
structure ArtifactCacheEntry (α : Type*) where
  artifact : α
  freshUntil : ℚ
  staleUntil : ℚ
  ordered : freshUntil ≤ staleUntil

/-- `_MAX_SEARCH_RESULTS`. -/
def maxSearchResults : ℕ := 20

/-- `_validate_time`, with the number that a valid time is: the calls only compare it. -/
def validateTime (value : PyFloat) : Except CacheError ℚ :=
  -- `math.isfinite` converts an `int`
  if value.overflows then .error .overflowError
  else if !value.isFinite || value.lt (.finite 0) then .error .valueError
  else .ok value.toRat

/-- The entries of `InMemoryRegistryCache`. -/
structure InMemoryRegistryCache (κ σ κ' α : Type*) where
  search : RecencyMap κ (SearchCacheEntry σ)
  artifacts : RecencyMap κ' (ArtifactCacheEntry α)

/-- A call of the cache. -/
inductive CacheCall (κ σ κ' α : Type*)
  | getSearch (key : κ) (now : PyFloat)
  | putSearch (key : κ) (stubs : List σ) (expiresAt : PyFloat)
  | getArtifact (key : κ') (now : PyFloat) (allowStale : Bool)
  | putArtifact (key : κ') (artifact : α) (freshUntil staleUntil : PyFloat)

/-- What a call returns. -/
inductive CacheResult (σ α : Type*)
  | stubs (found : Option (List σ))
  | artifact (found : Option α)
  | stored

variable {κ σ κ' α : Type*} [DecidableEq κ] [DecidableEq κ']

namespace InMemoryRegistryCache

variable (bounds : CacheBounds) (c : InMemoryRegistryCache κ σ κ' α)

/-- `get_search`: what it returns or raises, and the cache that it leaves. -/
def getSearch (key : κ) (now : PyFloat) :
    Except CacheError (Option (List σ)) × InMemoryRegistryCache κ σ κ' α :=
  match validateTime now with
  | .error e => (.error e, c)
  | .ok now =>
    match c.search.get key with
    | none => (.ok none, c)
    | some entry =>
      if now ≥ entry.expiresAt then (.ok none, { c with search := c.search.delete key })
      else (.ok (some entry.stubs), { c with search := c.search.use key entry })

/-- `put_search`. -/
def putSearch (key : κ) (stubs : List σ) (expiresAt : PyFloat) :
    Except CacheError Unit × InMemoryRegistryCache κ σ κ' α :=
  match validateTime expiresAt with
  | .error e => (.error e, c)
  | .ok expiresAt =>
    if stubs.length > maxSearchResults then (.error .valueError, c)
    else
      let search := c.search.use key ⟨stubs, expiresAt⟩
      (.ok (), { c with search := search.trim bounds.maxSearchEntries })

/-- `get_artifact`. -/
def getArtifact (key : κ') (now : PyFloat) (allowStale : Bool) :
    Except CacheError (Option α) × InMemoryRegistryCache κ σ κ' α :=
  match validateTime now with
  | .error e => (.error e, c)
  | .ok now =>
    match c.artifacts.get key with
    | none => (.ok none, c)
    | some entry =>
      if now ≥ entry.staleUntil then (.ok none, { c with artifacts := c.artifacts.delete key })
      else if now ≥ entry.freshUntil ∧ !allowStale then (.ok none, c)
      else (.ok (some entry.artifact), { c with artifacts := c.artifacts.use key entry })

/-- `put_artifact`. -/
def putArtifact (key : κ') (artifact : α) (freshUntil staleUntil : PyFloat) :
    Except CacheError Unit × InMemoryRegistryCache κ σ κ' α :=
  match validateTime freshUntil, validateTime staleUntil with
  | .error e, _ | .ok _, .error e => (.error e, c)
  | .ok freshUntil, .ok staleUntil =>
    if h : freshUntil ≤ staleUntil then
      let artifacts := c.artifacts.use key ⟨artifact, freshUntil, staleUntil, h⟩
      (.ok (), { c with artifacts := artifacts.trim bounds.maxArtifactEntries })
    else (.error .valueError, c)

/-- A call. -/
def call : CacheCall κ σ κ' α →
    Except CacheError (CacheResult σ α) × InMemoryRegistryCache κ σ κ' α
  | .getSearch key now => (c.getSearch key now).map (·.map .stubs) id
  | .putSearch key stubs expiresAt =>
    (c.putSearch bounds key stubs expiresAt).map (·.map fun _ => .stored) id
  | .getArtifact key now allowStale => (c.getArtifact key now allowStale).map (·.map .artifact) id
  | .putArtifact key artifact freshUntil staleUntil =>
    (c.putArtifact bounds key artifact freshUntil staleUntil).map (·.map fun _ => .stored) id

end InMemoryRegistryCache

/-! ## Runs -/

namespace CacheCall

/-- The time at which a get is made, where it is valid. -/
def reading : CacheCall κ σ κ' α → Option ℚ
  | .getSearch _ now | .getArtifact _ now _ => (validateTime now).toOption
  | .putSearch _ _ _ | .putArtifact _ _ _ _ => none

/-- The times of calls, the last one first, are those of a clock that does not run backwards. -/
def Ordered (calls : List (CacheCall κ σ κ' α)) : Prop :=
  (calls.filterMap reading).Pairwise (· ≥ ·)

end CacheCall

/-- A call with what it returned or raised. -/
abbrev CacheCall.Done (κ σ κ' α : Type*) :=
  CacheCall κ σ κ' α × Except CacheError (CacheResult σ α)

namespace InMemoryRegistryCache

/-- The calls, the last one first, with what they returned or raised, and the cache after
    them. -/
def run (bounds : CacheBounds) : List (CacheCall κ σ κ' α) →
    List (CacheCall.Done κ σ κ' α) × InMemoryRegistryCache κ σ κ' α
  | [] => ([], ⟨.empty, .empty⟩)
  | call :: calls =>
    let (h, c) := run bounds calls
    ((call, (c.call bounds call).1) :: h, (c.call bounds call).2)

end InMemoryRegistryCache

omit [DecidableEq κ] [DecidableEq κ'] in
theorem validateTime_eq_ok {value : PyFloat} {t : ℚ} (h : validateTime value = .ok t) :
    value.toRat = t := by
  rw [validateTime] at h
  split_ifs at h with hover hfinite
  exact Except.ok.inj h

/-- What a call has put or read of the search results. -/
def searchEvent : CacheCall.Done κ σ κ' α → Option (MapEvent κ (SearchCacheEntry σ) ℚ)
  | (.putSearch key stubs expiresAt, .ok _) => some (.put key ⟨stubs, expiresAt.toRat⟩)
  | (.getSearch key now, .ok (.stubs found)) => some (.read key now.toRat found.isSome)
  | _ => none

/-- What a call has put or read of the artifacts. -/
def artifactEvent :
    CacheCall.Done κ σ κ' α → Option (MapEvent κ' (ArtifactCacheEntry α) (ℚ × Bool))
  | (.putArtifact key artifact freshUntil staleUntil, .ok _) =>
    if h : freshUntil.toRat ≤ staleUntil.toRat then some (.put key ⟨artifact, _, _, h⟩) else none
  | (.getArtifact key now allowStale, .ok (.artifact found)) =>
    some (.read key (now.toRat, allowStale) found.isSome)
  | _ => none

/-- What becomes of search results that are read. -/
def searchFate (entry : SearchCacheEntry σ) (now : ℚ) : Fate :=
  if now ≥ entry.expiresAt then .expired else .visible

/-- What becomes of an artifact that is read. -/
def artifactFate (entry : ArtifactCacheEntry α) (query : ℚ × Bool) : Fate :=
  if query.1 ≥ entry.staleUntil then .expired
  else if query.1 ≥ entry.freshUntil ∧ !query.2 then .hidden
  else .visible

theorem searchFate_eq_visible {entry : SearchCacheEntry σ} {now : ℚ} :
    searchFate entry now = .visible ↔ now < entry.expiresAt := by
  rw [searchFate]
  split_ifs with h
  · exact iff_of_false (by simp) (not_lt.2 h)
  · exact iff_of_true rfl (not_le.1 h)

theorem searchFate_eq_expired {entry : SearchCacheEntry σ} {now : ℚ} :
    searchFate entry now = .expired ↔ entry.expiresAt ≤ now := by
  rw [searchFate]
  split_ifs with h
  · exact iff_of_true rfl h
  · exact iff_of_false (by simp) h

theorem artifactFate_eq_visible {entry : ArtifactCacheEntry α} {query : ℚ × Bool} :
    artifactFate entry query = .visible ↔
      query.1 < entry.freshUntil ∨ query.2 ∧ query.1 < entry.staleUntil := by
  have hordered := entry.ordered
  rw [artifactFate]
  split_ifs with hstale hhidden
  · refine iff_of_false (by simp) ?_
    rintro (h | ⟨-, h⟩)
    · exact not_lt.2 (hordered.trans hstale) h
    · exact not_lt.2 hstale h
  · refine iff_of_false (by simp) ?_
    rintro (h | ⟨h, -⟩)
    · exact not_lt.2 hhidden.1 h
    · simp [h] at hhidden
  · refine iff_of_true rfl ?_
    by_cases hfresh : query.1 < entry.freshUntil
    · exact .inl hfresh
    · refine .inr ⟨?_, not_le.1 hstale⟩
      by_contra hallow
      exact hhidden ⟨not_lt.1 hfresh, by simpa using hallow⟩

theorem artifactFate_eq_expired {entry : ArtifactCacheEntry α} {query : ℚ × Bool} :
    artifactFate entry query = .expired ↔ entry.staleUntil ≤ query.1 := by
  rw [artifactFate]
  split_ifs with hstale hhidden
  · exact iff_of_true rfl hstale
  · exact iff_of_false (by simp) hstale
  · exact iff_of_false (by simp) hstale

section
variable {bounds : CacheBounds} {c : InMemoryRegistryCache κ σ κ' α}

namespace InMemoryRegistryCache

omit [DecidableEq κ'] in
theorem getSearch_of_valid {key : κ} {now : PyFloat} {t : ℚ} (h : validateTime now = .ok t) :
    c.getSearch key now =
      (.ok ((c.search.read searchFate key t).1.map (·.stubs)),
        { c with search := (c.search.read searchFate key t).2 }) := by
  simp only [getSearch, h, RecencyMap.read, searchFate]
  cases c.search.get key with
  | none => rfl
  | some entry =>
    by_cases hexpired : t ≥ entry.expiresAt
    · simp only [if_pos hexpired, Option.map_none]
    · simp only [if_neg hexpired, Option.map_some]

omit [DecidableEq κ] in
theorem getArtifact_of_valid {key : κ'} {now : PyFloat} {allowStale : Bool} {t : ℚ}
    (h : validateTime now = .ok t) :
    c.getArtifact key now allowStale =
      (.ok ((c.artifacts.read artifactFate key (t, allowStale)).1.map (·.artifact)),
        { c with artifacts := (c.artifacts.read artifactFate key (t, allowStale)).2 }) := by
  simp only [getArtifact, h, RecencyMap.read, artifactFate]
  cases c.artifacts.get key with
  | none => rfl
  | some entry =>
    by_cases hstale : t ≥ entry.staleUntil
    · simp only [if_pos hstale, Option.map_none]
    · by_cases hhidden : t ≥ entry.freshUntil ∧ !allowStale
      · simp only [if_neg hstale, if_pos hhidden, Option.map_none]
      · simp only [if_neg hstale, if_neg hhidden, Option.map_some]

/-- The calls on artifacts leave the search results as they are. -/
theorem call_search_eq {call : CacheCall κ σ κ' α}
    (h : ∀ r, searchEvent (call, r) = none) : (c.call bounds call).2.search = c.search := by
  cases call with
  | getSearch key now => cases h (.ok (.stubs none))
  | putSearch key stubs expiresAt => cases h (.ok .stored)
  | getArtifact key now allowStale =>
    rw [call, getArtifact]
    cases validateTime now with
    | error e => rfl
    | ok t =>
      cases c.artifacts.get key with
      | none => simp only [Prod.map_snd, id]
      | some entry =>
        simp only [Prod.map_snd, id]
        split_ifs <;> rfl
  | putArtifact key artifact freshUntil staleUntil =>
    rw [call, putArtifact]
    cases validateTime freshUntil with
    | error e => rfl
    | ok fresh =>
      cases validateTime staleUntil with
      | error e => rfl
      | ok stale =>
        by_cases hle : fresh ≤ stale
        · simp only [dif_pos hle, Prod.map_snd, id]
        · simp only [dif_neg hle, Prod.map_snd, id]

/-- A call makes of the search results what its event does. -/
theorem follows_call_search {h : List (CacheCall.Done κ σ κ' α)}
    (hd : RecencyMap.Follows bounds.maxSearchEntries searchFate (h.filterMap searchEvent) c.search)
    (call : CacheCall κ σ κ' α) :
    RecencyMap.Follows bounds.maxSearchEntries searchFate
      (((call, (c.call bounds call).1) :: h).filterMap searchEvent)
      (c.call bounds call).2.search := by
  cases call with
  | getSearch key now =>
    cases hv : validateTime now with
    | error e =>
      rw [InMemoryRegistryCache.call, getSearch, hv]
      exact hd
    | ok t =>
      have hhit : ((c.search.read searchFate key t).1.map (·.stubs)).isSome =
          (c.search.read searchFate key t).1.isSome := Option.isSome_map ..
      have hread := hd.read key t
      rw [← hhit] at hread
      rw [InMemoryRegistryCache.call, getSearch_of_valid hv]
      rw [← validateTime_eq_ok hv] at hread ⊢
      exact hread
  | putSearch key stubs expiresAt =>
    cases hv : validateTime expiresAt with
    | error e =>
      rw [InMemoryRegistryCache.call, putSearch, hv]
      exact hd
    | ok t =>
      rw [InMemoryRegistryCache.call, putSearch, hv]
      by_cases hlong : stubs.length > maxSearchResults
      · simp only [if_pos hlong]
        exact hd
      · simp only [if_neg hlong, ← validateTime_eq_ok hv]
        exact hd.put key ⟨stubs, expiresAt.toRat⟩
  | getArtifact key now allowStale =>
    rw [List.filterMap_cons_none rfl, call_search_eq fun _ => rfl]
    exact hd
  | putArtifact key artifact freshUntil staleUntil =>
    rw [List.filterMap_cons_none rfl, call_search_eq fun _ => rfl]
    exact hd

/-- The calls on search results leave the artifacts as they are. -/
theorem call_artifacts_eq {call : CacheCall κ σ κ' α}
    (h : ∀ r, artifactEvent (call, r) = none) :
    (c.call bounds call).2.artifacts = c.artifacts := by
  cases call with
  | getSearch key now =>
    rw [call, getSearch]
    cases validateTime now with
    | error e => rfl
    | ok t =>
      cases c.search.get key with
      | none => simp only [Prod.map_snd, id]
      | some entry =>
        simp only [Prod.map_snd, id]
        split_ifs <;> rfl
  | putSearch key stubs expiresAt =>
    rw [call, putSearch]
    cases validateTime expiresAt with
    | error e => rfl
    | ok t =>
      simp only [Prod.map_snd, id]
      split_ifs <;> rfl
  | getArtifact key now allowStale => cases h (.ok (.artifact none))
  | putArtifact key artifact freshUntil staleUntil =>
    by_cases hle : freshUntil.toRat ≤ staleUntil.toRat
    · have hnone := h (.ok .stored)
      rw [artifactEvent, dif_pos hle] at hnone
      cases hnone
    · rw [call, putArtifact]
      cases hfresh : validateTime freshUntil with
      | error e => rfl
      | ok fresh =>
        cases hstale : validateTime staleUntil with
        | error e => rfl
        | ok stale =>
          rw [validateTime_eq_ok hfresh, validateTime_eq_ok hstale] at hle
          simp only [dif_neg hle, Prod.map_snd, id]

/-- A call makes of the artifacts what its event does. -/
theorem follows_call_artifacts {h : List (CacheCall.Done κ σ κ' α)}
    (hd : RecencyMap.Follows bounds.maxArtifactEntries artifactFate (h.filterMap artifactEvent)
      c.artifacts) (call : CacheCall κ σ κ' α) :
    RecencyMap.Follows bounds.maxArtifactEntries artifactFate
      (((call, (c.call bounds call).1) :: h).filterMap artifactEvent)
      (c.call bounds call).2.artifacts := by
  cases call with
  | getSearch key now =>
    rw [List.filterMap_cons_none rfl, call_artifacts_eq fun _ => rfl]
    exact hd
  | putSearch key stubs expiresAt =>
    rw [List.filterMap_cons_none rfl, call_artifacts_eq fun _ => rfl]
    exact hd
  | getArtifact key now allowStale =>
    cases hv : validateTime now with
    | error e =>
      rw [InMemoryRegistryCache.call, getArtifact, hv]
      exact hd
    | ok t =>
      have hhit : ((c.artifacts.read artifactFate key (t, allowStale)).1.map (·.artifact)).isSome =
          (c.artifacts.read artifactFate key (t, allowStale)).1.isSome := Option.isSome_map ..
      have hread := hd.read key (t, allowStale)
      rw [← hhit] at hread
      rw [InMemoryRegistryCache.call, getArtifact_of_valid hv]
      rw [← validateTime_eq_ok hv] at hread ⊢
      exact hread
  | putArtifact key artifact freshUntil staleUntil =>
    rw [InMemoryRegistryCache.call, putArtifact]
    cases hfresh : validateTime freshUntil with
    | error e => exact hd
    | ok fresh =>
      cases hstale : validateTime staleUntil with
      | error e => exact hd
      | ok stale =>
        obtain rfl := validateTime_eq_ok hfresh
        obtain rfl := validateTime_eq_ok hstale
        by_cases hle : freshUntil.toRat ≤ staleUntil.toRat
        · simp only [dif_pos hle, Prod.map_fst, Prod.map_snd, id]
          have hevent : artifactEvent ((.putArtifact key artifact freshUntil staleUntil, .ok .stored) :
              CacheCall.Done κ σ κ' α) = some (.put key ⟨artifact, _, _, hle⟩) := dif_pos hle
          rw [Except.map, List.filterMap_cons_some hevent]
          exact hd.put key ⟨artifact, _, _, hle⟩
        · simp only [dif_neg hle]
          exact hd

variable (bounds)

theorem follows_run_search (calls : List (CacheCall κ σ κ' α)) :
    RecencyMap.Follows bounds.maxSearchEntries searchFate
      ((run bounds calls).1.filterMap searchEvent) (run bounds calls).2.search := by
  induction calls with
  | nil => exact .empty
  | cons call calls ih => exact follows_call_search ih call

theorem follows_run_artifacts (calls : List (CacheCall κ σ κ' α)) :
    RecencyMap.Follows bounds.maxArtifactEntries artifactFate
      ((run bounds calls).1.filterMap artifactEvent) (run bounds calls).2.artifacts := by
  induction calls with
  | nil => exact .empty
  | cons call calls ih => exact follows_call_artifacts ih call

/-- A search result is read at the time of a call. -/
theorem mem_reading_of_search {calls : List (CacheCall κ σ κ' α)} {q : ℚ}
    (h : q ∈ ((run bounds calls).1.filterMap searchEvent).filterMap MapEvent.query) :
    q ∈ calls.filterMap CacheCall.reading := by
  obtain ⟨e, he, hq⟩ := List.mem_filterMap.1 h
  obtain ⟨done, hdone, hevent⟩ := List.mem_filterMap.1 he
  clear h he
  induction calls with
  | nil => cases hdone
  | cons call calls ih =>
    rcases List.mem_cons.1 hdone with rfl | hdone
    · refine List.mem_filterMap.2 ⟨call, List.mem_cons_self, ?_⟩
      cases call with
      | getSearch key now =>
        cases hv : validateTime now with
        | error e =>
          rw [InMemoryRegistryCache.call, getSearch, hv] at hevent
          cases hevent
        | ok t =>
          rw [InMemoryRegistryCache.call, getSearch_of_valid hv] at hevent
          cases hevent
          cases hq
          rw [CacheCall.reading, hv, validateTime_eq_ok hv]
          rfl
      | putSearch key stubs expiresAt =>
        cases hr : (((run bounds calls).2.call bounds (.putSearch key stubs expiresAt)).1) with
        | error e =>
          rw [hr] at hevent
          cases hevent
        | ok r =>
          rw [hr] at hevent
          cases hevent
          cases hq
      | getArtifact key now allowStale => cases hevent
      | putArtifact key artifact freshUntil staleUntil => cases hevent
    · obtain ⟨c, hc, hreading⟩ := List.mem_filterMap.1 (ih hdone)
      exact List.mem_filterMap.2 ⟨c, List.mem_cons_of_mem _ hc, hreading⟩

/-- An artifact is read at the time of a call. -/
theorem mem_reading_of_artifacts {calls : List (CacheCall κ σ κ' α)} {q : ℚ × Bool}
    (h : q ∈ ((run bounds calls).1.filterMap artifactEvent).filterMap MapEvent.query) :
    q.1 ∈ calls.filterMap CacheCall.reading := by
  obtain ⟨e, he, hq⟩ := List.mem_filterMap.1 h
  obtain ⟨done, hdone, hevent⟩ := List.mem_filterMap.1 he
  clear h he
  induction calls with
  | nil => cases hdone
  | cons call calls ih =>
    rcases List.mem_cons.1 hdone with rfl | hdone
    · refine List.mem_filterMap.2 ⟨call, List.mem_cons_self, ?_⟩
      cases call with
      | getSearch key now => cases hevent
      | putSearch key stubs expiresAt => cases hevent
      | getArtifact key now allowStale =>
        cases hv : validateTime now with
        | error e =>
          rw [InMemoryRegistryCache.call, getArtifact, hv] at hevent
          cases hevent
        | ok t =>
          rw [InMemoryRegistryCache.call, getArtifact_of_valid hv] at hevent
          cases hevent
          cases hq
          rw [CacheCall.reading, hv, validateTime_eq_ok hv]
          rfl
      | putArtifact key artifact freshUntil staleUntil =>
        cases hr : ((run bounds calls).2.call bounds
            (.putArtifact key artifact freshUntil staleUntil)).1 with
        | error e =>
          rw [hr] at hevent
          cases hevent
        | ok r =>
          rw [hr, artifactEvent] at hevent
          split_ifs at hevent with hle
          cases hevent
          cases hq
    · obtain ⟨c, hc, hreading⟩ := List.mem_filterMap.1 (ih hdone)
      exact List.mem_filterMap.2 ⟨c, List.mem_cons_of_mem _ hc, hreading⟩

end InMemoryRegistryCache

end

/-! ## What the entries are -/

namespace InMemoryRegistryCache

/-- The entries of the cache satisfy `P` and `Q`. -/
structure Holds (P : κ → SearchCacheEntry σ → Prop) (Q : κ' → ArtifactCacheEntry α → Prop)
    (c : InMemoryRegistryCache κ σ κ' α) : Prop where
  search : ∀ key entry, (key, entry) ∈ c.search.entries → P key entry
  artifacts : ∀ key entry, (key, entry) ∈ c.artifacts.entries → Q key entry

section
variable {bounds : CacheBounds} {c : InMemoryRegistryCache κ σ κ' α}
  {P P' : κ → SearchCacheEntry σ → Prop} {Q Q' : κ' → ArtifactCacheEntry α → Prop}

omit [DecidableEq κ] [DecidableEq κ'] in
theorem Holds.mono (h : c.Holds P Q) (hP : ∀ key entry, P key entry → P' key entry)
    (hQ : ∀ key entry, Q key entry → Q' key entry) : c.Holds P' Q' :=
  ⟨fun key entry hmem => hP key entry (h.search key entry hmem),
    fun key entry hmem => hQ key entry (h.artifacts key entry hmem)⟩

omit [DecidableEq κ'] in
/-- A search that is found is an entry that has not expired. -/
theorem exists_of_getSearch {key : κ} {now : PyFloat} {stubs : List σ}
    (h : (c.getSearch key now).1 = .ok (some stubs)) :
    ∃ entry, (key, entry) ∈ c.search.entries ∧ entry.stubs = stubs ∧
      now.toRat < entry.expiresAt := by
  rw [getSearch] at h
  cases hv : validateTime now with
  | error e =>
    rw [hv] at h
    cases h
  | ok t =>
    obtain rfl := validateTime_eq_ok hv
    cases hget : c.search.get key with
    | none =>
      rw [hv, hget] at h
      cases h
    | some entry =>
      rw [hv, hget] at h
      dsimp only at h
      split_ifs at h with hexpired
      · cases h
      · exact ⟨entry, RecencyMap.get_eq_some.1 hget, Option.some.inj (Except.ok.inj h),
          not_le.1 hexpired⟩

omit [DecidableEq κ] in
/-- An artifact that is found is an entry that is fresh, or that is not stale where this is
    enough. -/
theorem exists_of_getArtifact {key : κ'} {now : PyFloat} {allowStale : Bool} {artifact : α}
    (h : (c.getArtifact key now allowStale).1 = .ok (some artifact)) :
    ∃ entry, (key, entry) ∈ c.artifacts.entries ∧ entry.artifact = artifact ∧
      now.toRat < entry.staleUntil ∧ (allowStale = false → now.toRat < entry.freshUntil) := by
  rw [getArtifact] at h
  cases hv : validateTime now with
  | error e =>
    rw [hv] at h
    cases h
  | ok t =>
    obtain rfl := validateTime_eq_ok hv
    cases hget : c.artifacts.get key with
    | none =>
      rw [hv, hget] at h
      cases h
    | some entry =>
      rw [hv, hget] at h
      dsimp only at h
      split_ifs at h with hstale hhidden
      · cases h
      · cases h
      · refine ⟨entry, RecencyMap.get_eq_some.1 hget, Option.some.inj (Except.ok.inj h),
          not_le.1 hstale, fun hallow => not_le.1 fun hfresh => hhidden ⟨hfresh, ?_⟩⟩
        rw [hallow]
        rfl

omit [DecidableEq κ'] in
theorem Holds.getSearch (h : c.Holds P Q) (key : κ) (now : PyFloat) :
    (c.getSearch key now).2.Holds P Q := by
  rw [InMemoryRegistryCache.getSearch]
  cases validateTime now with
  | error e => exact h
  | ok t =>
    cases hget : c.search.get key with
    | none => exact h
    | some entry =>
      dsimp only
      split_ifs with hexpired
      · exact ⟨fun k e hmem => h.search k e (RecencyMap.mem_others.1 hmem).1, h.artifacts⟩
      · refine ⟨fun k e hmem => ?_, h.artifacts⟩
        rcases List.mem_cons.1 hmem with heq | hmem
        · cases heq
          exact h.search key entry (RecencyMap.get_eq_some.1 hget)
        · exact h.search k e (RecencyMap.mem_others.1 hmem).1

omit [DecidableEq κ'] in
theorem Holds.putSearch (h : c.Holds P Q) {key : κ} {stubs : List σ} {expiresAt : PyFloat}
    (hput : P key ⟨stubs, expiresAt.toRat⟩) : (c.putSearch bounds key stubs expiresAt).2.Holds P Q := by
  rw [InMemoryRegistryCache.putSearch]
  cases hv : validateTime expiresAt with
  | error e => exact h
  | ok t =>
    obtain rfl := validateTime_eq_ok hv
    dsimp only
    split_ifs with hlong
    · exact h
    · refine ⟨fun k e hmem => ?_, h.artifacts⟩
      rcases List.mem_cons.1 (List.mem_of_mem_take hmem) with heq | hmem
      · cases heq
        exact hput
      · exact h.search k e (RecencyMap.mem_others.1 hmem).1

omit [DecidableEq κ] in
theorem Holds.getArtifact (h : c.Holds P Q) (key : κ') (now : PyFloat) (allowStale : Bool) :
    (c.getArtifact key now allowStale).2.Holds P Q := by
  rw [InMemoryRegistryCache.getArtifact]
  cases validateTime now with
  | error e => exact h
  | ok t =>
    cases hget : c.artifacts.get key with
    | none => exact h
    | some entry =>
      dsimp only
      split_ifs with hstale hhidden
      · exact ⟨h.search, fun k e hmem => h.artifacts k e (RecencyMap.mem_others.1 hmem).1⟩
      · exact h
      · refine ⟨h.search, fun k e hmem => ?_⟩
        rcases List.mem_cons.1 hmem with heq | hmem
        · cases heq
          exact h.artifacts key entry (RecencyMap.get_eq_some.1 hget)
        · exact h.artifacts k e (RecencyMap.mem_others.1 hmem).1

omit [DecidableEq κ] in
theorem Holds.putArtifact (h : c.Holds P Q) {key : κ'} {artifact : α} {freshUntil staleUntil : PyFloat}
    (hput : ∀ hle, Q key ⟨artifact, freshUntil.toRat, staleUntil.toRat, hle⟩) :
    (c.putArtifact bounds key artifact freshUntil staleUntil).2.Holds P Q := by
  rw [InMemoryRegistryCache.putArtifact]
  cases hfresh : validateTime freshUntil with
  | error e => exact h
  | ok fresh =>
    cases hstale : validateTime staleUntil with
    | error e => exact h
    | ok stale =>
      obtain rfl := validateTime_eq_ok hfresh
      obtain rfl := validateTime_eq_ok hstale
      dsimp only
      split_ifs with hle
      · refine ⟨h.search, fun k e hmem => ?_⟩
        rcases List.mem_cons.1 (List.mem_of_mem_take hmem) with heq | hmem
        · cases heq
          exact hput hle
        · exact h.artifacts k e (RecencyMap.mem_others.1 hmem).1
      · exact h

end

variable {bounds : CacheBounds} {c : InMemoryRegistryCache κ σ κ' α}

omit [DecidableEq κ'] in
/-- Search results are stored when their expiry is a valid time and they are not too many. -/
theorem putSearch_eq_ok {key : κ} {stubs : List σ} {expiresAt : PyFloat} :
    (c.putSearch bounds key stubs expiresAt).1 = .ok () ↔
      (∃ t, validateTime expiresAt = .ok t) ∧ stubs.length ≤ maxSearchResults := by
  rw [putSearch]
  cases validateTime expiresAt with
  | error e => simp
  | ok t =>
    dsimp only
    split_ifs with hlength
    · exact iff_of_false (fun h => by cases h) fun h => absurd h.2 (not_le.2 hlength)
    · exact iff_of_true rfl ⟨⟨t, rfl⟩, not_lt.1 hlength⟩

omit [DecidableEq κ] in
/-- An artifact is stored when its times are valid, and it is stale no sooner than it is not
    fresh. -/
theorem putArtifact_eq_ok {key : κ'} {artifact : α} {freshUntil staleUntil : PyFloat} :
    (c.putArtifact bounds key artifact freshUntil staleUntil).1 = .ok () ↔
      ∃ fresh stale, validateTime freshUntil = .ok fresh ∧ validateTime staleUntil = .ok stale ∧
        fresh ≤ stale := by
  rw [putArtifact]
  cases validateTime freshUntil with
  | error e => simp
  | ok fresh =>
    cases validateTime staleUntil with
    | error e => simp
    | ok stale =>
      dsimp only
      split_ifs with hle
      · exact iff_of_true rfl ⟨fresh, stale, rfl, rfl, hle⟩
      · refine iff_of_false (fun h => by cases h) ?_
        rintro ⟨_, _, ⟨⟩, ⟨⟩, hle'⟩
        exact hle hle'

/-! ### What a get returns after any calls -/

section

variable {calls : List (CacheCall κ σ κ' α)}

/-- A get of a search returns only what was put last, and has not expired. -/
theorem latest_of_getSearch {key : κ} {now : PyFloat} {stubs : List σ}
    (hget : ((run bounds calls).2.getSearch key now).1 = .ok (some stubs)) :
    ∃ entry, MapEvent.latest key ((run bounds calls).1.filterMap searchEvent) = some entry ∧
      entry.stubs = stubs ∧ now.toRat < entry.expiresAt := by
  cases hv : validateTime now with
  | error e =>
    rw [getSearch, hv] at hget
    cases hget
  | ok t =>
    rw [getSearch_of_valid hv] at hget
    obtain ⟨entry, hread, hstubs⟩ := Option.map_eq_some_iff.1 (Except.ok.inj hget)
    obtain ⟨hlatest, hvisible⟩ := (follows_run_search bounds calls).read_eq_some hread
    rw [validateTime_eq_ok hv]
    exact ⟨entry, hlatest, hstubs, searchFate_eq_visible.1 hvisible⟩

/-- A get of an artifact returns only what was put last, and may be returned still. -/
theorem latest_of_getArtifact {key : κ'} {now : PyFloat} {allowStale : Bool} {artifact : α}
    (hget : ((run bounds calls).2.getArtifact key now allowStale).1 = .ok (some artifact)) :
    ∃ entry, MapEvent.latest key ((run bounds calls).1.filterMap artifactEvent) = some entry ∧
      entry.artifact = artifact ∧
        (now.toRat < entry.freshUntil ∨ allowStale ∧ now.toRat < entry.staleUntil) := by
  cases hv : validateTime now with
  | error e =>
    rw [getArtifact, hv] at hget
    cases hget
  | ok t =>
    rw [getArtifact_of_valid hv] at hget
    obtain ⟨entry, hread, hartifact⟩ := Option.map_eq_some_iff.1 (Except.ok.inj hget)
    obtain ⟨hlatest, hvisible⟩ := (follows_run_artifacts bounds calls).read_eq_some hread
    rw [validateTime_eq_ok hv]
    exact ⟨entry, hlatest, hartifact, artifactFate_eq_visible.1 hvisible⟩

/-- A search that was put last is found, unless it has expired or made room for others. -/
theorem getSearch_of_latest {key : κ} {now : PyFloat} {t : ℚ} {entry : SearchCacheEntry σ}
    (hordered : CacheCall.Ordered (.getSearch key now :: calls)) (hv : validateTime now = .ok t)
    (hlatest : MapEvent.latest key ((run bounds calls).1.filterMap searchEvent) = some entry)
    (hbefore : t < entry.expiresAt)
    (hfew : (MapEvent.since key ((run bounds calls).1.filterMap searchEvent)).toFinset.card <
      bounds.maxSearchEntries) :
    ((run bounds calls).2.getSearch key now).1 = .ok (some entry.stubs) := by
  have hreading : (CacheCall.getSearch key now : CacheCall κ σ κ' α).reading = some t := by
    rw [CacheCall.reading, hv]
    rfl
  rw [CacheCall.Ordered, List.filterMap_cons_some hreading, List.pairwise_cons] at hordered
  -- The clock has not shown a time at which the entry had expired.
  have hread := (follows_run_search bounds calls).read_of_latest hlatest
    (searchFate_eq_visible.2 hbefore) hfew fun earlier hearlier hexpired => not_le.2 hbefore <|
      (searchFate_eq_expired.1 hexpired).trans
        (hordered.1 earlier (mem_reading_of_search bounds hearlier))
  rw [getSearch_of_valid hv, hread]
  rfl

/-- An artifact that was put last is found, unless it is not fresh enough or made room for
    others. -/
theorem getArtifact_of_latest {key : κ'} {now : PyFloat} {allowStale : Bool} {t : ℚ}
    {entry : ArtifactCacheEntry α}
    (hordered : CacheCall.Ordered (.getArtifact key now allowStale :: calls))
    (hv : validateTime now = .ok t)
    (hlatest : MapEvent.latest key ((run bounds calls).1.filterMap artifactEvent) = some entry)
    (hbefore : t < entry.freshUntil ∨ allowStale ∧ t < entry.staleUntil)
    (hfew : (MapEvent.since key ((run bounds calls).1.filterMap artifactEvent)).toFinset.card <
      bounds.maxArtifactEntries) :
    ((run bounds calls).2.getArtifact key now allowStale).1 = .ok (some entry.artifact) := by
  have hreading :
      (CacheCall.getArtifact key now allowStale : CacheCall κ σ κ' α).reading = some t := by
    rw [CacheCall.reading, hv]
    rfl
  rw [CacheCall.Ordered, List.filterMap_cons_some hreading, List.pairwise_cons] at hordered
  -- An entry that is fresh is not stale either, and only a stale one is dropped by a get.
  have hstale : t < entry.staleUntil :=
    hbefore.elim (fun h => h.trans_le entry.ordered) And.right
  have hvisible : artifactFate entry (t, allowStale) = .visible :=
    artifactFate_eq_visible.2 hbefore
  have hread := (follows_run_artifacts bounds calls).read_of_latest hlatest hvisible hfew
    fun earlier hearlier hexpired => not_le.2 hstale <|
      (artifactFate_eq_expired.1 hexpired).trans
        (hordered.1 earlier.1 (mem_reading_of_artifacts bounds hearlier))
  rw [getArtifact_of_valid hv, hread]
  rfl

end

end InMemoryRegistryCache

open InMemoryRegistryCache in
/-- After any calls, the two maps are within their bounds, and a get returns only what was put
    last under its key and is unexpired; at times that do not run backwards it returns that,
    while fewer other keys than the bound were put or hit since. What a put refuses are times
    that are not valid, and too many stubs. -/
theorem run_refines (bounds : CacheBounds) (calls : List (CacheCall κ σ κ' α)) :
    let c := (run bounds calls).2
    let searches := (run bounds calls).1.filterMap searchEvent
    let artifacts := (run bounds calls).1.filterMap artifactEvent
    (c.search.entries.length ≤ bounds.maxSearchEntries ∧
      c.artifacts.entries.length ≤ bounds.maxArtifactEntries) ∧
    (∀ key now stubs, (c.getSearch key now).1 = .ok (some stubs) →
      ∃ entry, MapEvent.latest key searches = some entry ∧ entry.stubs = stubs ∧
        now.toRat < entry.expiresAt) ∧
    (∀ key now allowStale artifact, (c.getArtifact key now allowStale).1 = .ok (some artifact) →
      ∃ entry, MapEvent.latest key artifacts = some entry ∧ entry.artifact = artifact ∧
        (now.toRat < entry.freshUntil ∨ allowStale ∧ now.toRat < entry.staleUntil)) ∧
    (∀ key now t entry, CacheCall.Ordered (.getSearch key now :: calls) →
      validateTime now = .ok t → MapEvent.latest key searches = some entry →
      t < entry.expiresAt →
      (MapEvent.since key searches).toFinset.card < bounds.maxSearchEntries →
        (c.getSearch key now).1 = .ok (some entry.stubs)) ∧
    (∀ key now allowStale t entry, CacheCall.Ordered (.getArtifact key now allowStale :: calls) →
      validateTime now = .ok t → MapEvent.latest key artifacts = some entry →
      (t < entry.freshUntil ∨ allowStale ∧ t < entry.staleUntil) →
      (MapEvent.since key artifacts).toFinset.card < bounds.maxArtifactEntries →
        (c.getArtifact key now allowStale).1 = .ok (some entry.artifact)) ∧
    (∀ key stubs expiresAt, (c.putSearch bounds key stubs expiresAt).1 = .ok () ↔
      (∃ t, validateTime expiresAt = .ok t) ∧ stubs.length ≤ maxSearchResults) ∧
    ∀ key artifact freshUntil staleUntil,
      (c.putArtifact bounds key artifact freshUntil staleUntil).1 = .ok () ↔
        ∃ fresh stale, validateTime freshUntil = .ok fresh ∧ validateTime staleUntil = .ok stale ∧
          fresh ≤ stale := by
  intro c searches artifacts
  exact ⟨⟨(follows_run_search bounds calls).invariant.bounded,
    (follows_run_artifacts bounds calls).invariant.bounded⟩,
    fun _ _ _ => latest_of_getSearch, fun _ _ _ _ => latest_of_getArtifact,
    fun _ _ _ _ => getSearch_of_latest, fun _ _ _ _ _ => getArtifact_of_latest,
    fun _ _ _ => putSearch_eq_ok, fun _ _ _ _ => putArtifact_eq_ok⟩

end McpRuntime.Registry
