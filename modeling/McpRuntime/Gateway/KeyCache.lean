import McpRuntime.Gateway.KeySet
import McpRuntime.Machine

/-!
# The key cache of a gateway

A lookup takes the key of an id from the cached key set while it is *fresh*. For an
id that the set does not have, or once the set is not fresh any more, the lookup
fetches the set again under a lock; for some time after a fetch that was of no use,
it falls back on the cached set instead, until that is *stale*.

* `keyCache` is the cache as a machine: lookups of any ids start, wait for the lock,
  fetch and end in any order, with any key sets, failures and cancellations, at any
  readings of a clock that does not run backwards.
* `keyCache_run`: a lookup returns only a key that the set fetched last publishes
  under its id, within the stale window; at most one fetch runs; and no fetch starts
  within the retry interval of a useless one.

The rounding of the clock arithmetic is a parameter, as for the circuits of the
outbound client: with the identity, the intervals are the exact ones.
-/

namespace McpRuntime.Gateway

/-- `_JWKSCacheEntry`. -/
structure CacheEntry (K : Type*) where
  keys : Dict Text K
  fetchedAt : ℚ

/-- A lookup that has not ended. -/
inductive Lookup (K : Type*)
  /-- It waits for the lock. -/
  | waiting (kid : Text)
  /-- It holds the lock and fetches, with the entry and the reading that it took
      before. -/
  | fetching (kid : Text) (entry : Option (CacheEntry K)) (now : ℚ)

/-- How a fetch has ended. -/
inductive FetchEnd
  /-- The document was accepted. -/
  | accepted (document : List (Text × Json))
  /-- The fetch raised or timed out, or its document was refused. -/
  | failed
  /-- The task of the lookup was cancelled. -/
  | cancelled

/-- A fetch that has ended. -/
structure Fetch where
  kid : Text
  started : ℚ
  ended : FetchEnd

/-- The cache of a gateway with its lookups, by number, the last reading of the clock
    and the fetches that have ended, the last one first. -/
structure KeyCache (K : Type*) where
  cache : Option (CacheEntry K) := none
  retryAfter : PyFloat := .finite 0
  locked : Bool := false
  lookups : Dict ℕ (Lookup K) := ∅
  clock : ℚ
  fetches : List Fetch := []

/-- What a lookup that ends has looked up, its last reading of the clock, and the key
    that it returns; none when it raises `_IdentityRejected`. -/
structure Answer (K : Type*) where
  kid : Text
  now : ℚ
  key : Option K

/-- An event of a cache. -/
inductive KeyEvent
  /-- `_key`, of the lookup `i`. -/
  | lookup (i : ℕ) (kid : Text) (now : ℚ)
  /-- The lookup `i` gets the lock. -/
  | acquire (i : ℕ) (now : ℚ)
  /-- The fetch of the lookup `i` returns a document. -/
  | fetched (i : ℕ) (document : List (Text × Json))
  /-- The fetch of the lookup `i` raises or times out. -/
  | failed (i : ℕ)
  /-- The task of the lookup `i` is cancelled. -/
  | cancel (i : ℕ)

section
variable {K : Type*} (config : GatewayIdentityConfig) (fromDict : List (Text × Json) → Option K)
  (w : JsonWriter) (rnd : Rounding)

/-- The time since a set was fetched, as `_key` takes it. -/
def age (now fetchedAt : ℚ) : PyFloat := PyFloat.sub rnd (.finite now) (.finite fetchedAt)

/-- `now + jwks_retry_seconds`. -/
def retryTime (now : ℚ) : PyFloat := PyFloat.add rnd (.finite now) (.finite config.jwksRetrySeconds)

/-- The key of a fresh entry. -/
def freshKey (entry : Option (CacheEntry K)) (kid : Text) (now : ℚ) : Option K :=
  match entry with
  | none => none
  | some entry =>
    if (age rnd now entry.fetchedAt).lt (.finite config.jwksFreshSeconds) then entry.keys.lookup kid
    else none

/-- `_stale_key`. -/
def staleKey (entry : Option (CacheEntry K)) (kid : Text) (now : ℚ) : Option K :=
  match entry with
  | none => none
  | some entry =>
    if (PyFloat.finite config.jwksStaleSeconds).lt (age rnd now entry.fetchedAt) then none
    else entry.keys.lookup kid

namespace KeyCache

variable (s : KeyCache K)

/-- What `_key` returns or raises at a reading without a fetch, if it does: it checks
    this before the lock and again under it. -/
def withoutFetch (kid : Text) (now : ℚ) : Option (Option K) :=
  match freshKey config rnd s.cache kid now with
  | some key => some (some key)
  | none =>
    if (PyFloat.finite now).lt s.retryAfter then some (staleKey config rnd s.cache kid now) else none

/-- The lookup `i` ends with its fetch, and releases the lock. -/
def endFetch (i : ℕ) (fetch : Fetch) : KeyCache K :=
  { s with locked := false, lookups := s.lookups.erase i, fetches := fetch :: s.fetches }

/-- The handler of an exception of the fetch. -/
def fail (i : ℕ) (kid : Text) (entry : Option (CacheEntry K)) (now : ℚ) : KeyCache K × Answer K :=
  ({ s.endFetch i ⟨kid, now, .failed⟩ with retryAfter := retryTime config rnd now },
    ⟨kid, now, staleKey config rnd entry kid now⟩)

/-- The keys of an accepted document are cached. -/
def accept (i : ℕ) (kid : Text) (now : ℚ) (document : List (Text × Json)) (keys : Dict Text K) :
    KeyCache K × Answer K :=
  ({ s.endFetch i ⟨kid, now, .accepted document⟩ with
      cache := some ⟨keys, now⟩
      retryAfter := if (keys.lookup kid).isSome then .finite 0 else retryTime config rnd now },
    ⟨kid, now, keys.lookup kid⟩)

/-- The state after an event, and what the lookup that ends with it has found. -/
def step (s : KeyCache K) : KeyEvent → Option (KeyCache K × Option (Answer K))
  | .lookup i kid now =>
    if i ∈ s.lookups ∨ now < s.clock then none
    else
      let s' := { s with clock := now }
      match s.withoutFetch config rnd kid now with
      | some key => some (s', some ⟨kid, now, key⟩)
      | none => some ({ s' with lookups := s.lookups.insert i (.waiting kid) }, none)
  | .acquire i now =>
    if s.locked ∨ now < s.clock then none
    else
      match s.lookups.lookup i with
      | some (.waiting kid) =>
        let s' := { s with clock := now }
        match s.withoutFetch config rnd kid now with
        | some key => some ({ s' with lookups := s.lookups.erase i }, some ⟨kid, now, key⟩)
        | none =>
          let lookups := s.lookups.insert i (.fetching kid s.cache now)
          some ({ s' with locked := true, lookups }, none)
      | _ => none
  | .fetched i document =>
    match s.lookups.lookup i with
    | some (.fetching kid entry now) =>
      match validateJwks config fromDict w document with
      | none => some ((s.fail config rnd i kid entry now).map id some)
      | some keys => some ((s.accept config rnd i kid now document keys).map id some)
    | _ => none
  | .failed i =>
    match s.lookups.lookup i with
    | some (.fetching kid entry now) => some ((s.fail config rnd i kid entry now).map id some)
    | _ => none
  | .cancel i =>
    match s.lookups.lookup i with
    | none => none
    | some (.waiting _) => some ({ s with lookups := s.lookups.erase i }, none)
    | some (.fetching kid _ now) => some (s.endFetch i ⟨kid, now, .cancelled⟩, none)

end KeyCache

/-- The cache of a gateway, from no cached set, at any time. -/
def keyCache (start : ℚ) : Machine (KeyCache K) KeyEvent where
  init := { clock := start }
  step s e := (s.step config fromDict w rnd e).map Prod.fst

/-! ## What holds of every run -/

/-- The document of a fetch that was accepted, and when the fetch started. -/
def Fetch.published (f : Fetch) : Option (List (Text × Json) × ℚ) :=
  match f.ended with
  | .accepted document => some (document, f.started)
  | .failed | .cancelled => none

/-- The keys of a document, as an entry of the cache. -/
def entryOf (p : List (Text × Json) × ℚ) : Option (CacheEntry K) :=
  (validateJwks config fromDict w p.1).map fun keys => ⟨keys, p.2⟩

/-- A fetch that failed, or whose document has no key for the requested id. -/
def Fetch.Useless (f : Fetch) : Prop :=
  match f.ended with
  | .accepted document =>
    ∀ keys, validateJwks config fromDict w document = some keys → keys.lookup f.kid = none
  | .failed => True
  | .cancelled => False

/-- The retry interval of a fetch has passed. -/
def Fetch.Over (f : Fetch) (now : ℚ) : Prop :=
  (PyFloat.finite now).lt (retryTime config rnd f.started) = false

/-- A set that was fetched at a reading is not older than the stale window at another:
    it was fetched at that very reading, or the time since does not exceed the window. -/
def Within (now fetchedAt : ℚ) : Prop :=
  now = fetchedAt ∨ (PyFloat.finite config.jwksStaleSeconds).lt (age rnd now fetchedAt) = false

namespace KeyCache

/-- The lookup `i` fetches, since the reading `now`. -/
def Fetches (s : KeyCache K) (i : ℕ) (now : ℚ) : Prop :=
  ∃ kid entry, s.lookups.lookup i = some (.fetching kid entry now)

/-- What holds of a cache in every run. -/
structure Sound (s : KeyCache K) : Prop where
  cache : s.cache = (s.fetches.findSome? Fetch.published).bind (entryOf config fromDict w)
  holder : ∀ i kid entry now, s.lookups.lookup i = some (.fetching kid entry now) →
    s.locked = true ∧ entry = s.cache
  single : ∀ i j now now', s.Fetches i now → s.Fetches j now' → i = j
  /-- The interval of a useless fetch has passed before the next fetch starts. -/
  retry : ∀ f ∈ s.fetches, f.Useless config fromDict w →
    f.Over config rnd s.clock ∨ s.locked = false ∧ s.retryAfter = retryTime config rnd f.started

variable {config fromDict w rnd} {s s' : KeyCache K}

/-- The key of a fresh entry is in it, and the entry is not stale. -/
theorem of_freshKey {entry : Option (CacheEntry K)} {kid : Text} {now : ℚ} {key : K}
    (h : freshKey config rnd entry kid now = some key) :
    ∃ e, entry = some e ∧ e.keys.lookup kid = some key ∧ Within config rnd now e.fetchedAt := by
  unfold freshKey at h
  split at h
  · cases h
  · rename_i e
    split_ifs at h with hage
    exact ⟨e, rfl, h, .inr (PyFloat.finite_lt_of_lt_finite hage config.fresh_le_stale)⟩

/-- The key that is fallen back on is in the entry, which is not stale. -/
theorem of_staleKey {entry : Option (CacheEntry K)} {kid : Text} {now : ℚ} {key : K}
    (h : staleKey config rnd entry kid now = some key) :
    ∃ e, entry = some e ∧ e.keys.lookup kid = some key ∧ Within config rnd now e.fetchedAt := by
  unfold staleKey at h
  split at h
  · cases h
  · rename_i e
    split_ifs at h with hage
    exact ⟨e, rfl, h, .inr (Bool.eq_false_iff.2 hage)⟩

/-- A key that is returned without a fetch is in the cache, which is not stale. -/
theorem of_withoutFetch {kid : Text} {now : ℚ} {key : K}
    (h : s.withoutFetch config rnd kid now = some (some key)) :
    ∃ e, s.cache = some e ∧ e.keys.lookup kid = some key ∧ Within config rnd now e.fetchedAt := by
  unfold withoutFetch at h
  split at h
  · rename_i hfresh
    cases h
    exact of_freshKey hfresh
  · split_ifs at h
    exact of_staleKey (Option.some.inj h)

/-- A lookup that has to fetch is not held back by the retry time. -/
theorem retryAfter_of_withoutFetch {kid : Text} {now : ℚ}
    (h : s.withoutFetch config rnd kid now = none) :
    (PyFloat.finite now).lt s.retryAfter = false := by
  unfold withoutFetch at h
  split at h
  · cases h
  · split_ifs at h with hretry
    exact Bool.eq_false_iff.2 hretry

/-- Where no fetch is held back, the interval of every useless one has passed. -/
theorem Sound.over (hs : Sound config fromDict w rnd s) {now : ℚ} (hnow : s.clock ≤ now)
    (hretry : (PyFloat.finite now).lt s.retryAfter = false) {f : Fetch} (hf : f ∈ s.fetches)
    (hu : f.Useless config fromDict w) : f.Over config rnd now := by
  rcases hs.retry f hf hu with hover | ⟨-, heq⟩
  · exact PyFloat.finite_lt_mono hover hnow
  · rw [Fetch.Over, ← heq]
    exact hretry

/-- What moves the clock, and ends or adds lookups that do not fetch, keeps a cache
    sound. -/
theorem Sound.idle (hs : Sound config fromDict w rnd s) {lookups : Dict ℕ (Lookup K)} {clock : ℚ}
    (hclock : s.clock ≤ clock)
    (hlookups : ∀ i kid entry now, lookups.lookup i = some (.fetching kid entry now) →
      s.lookups.lookup i = some (.fetching kid entry now)) :
    Sound config fromDict w rnd { s with lookups, clock } where
  cache := hs.cache
  holder i kid entry now h := hs.holder i kid entry now (hlookups i kid entry now h)
  single i j now now' hi hj := by
    obtain ⟨kid, entry, hi⟩ := hi
    obtain ⟨kid', entry', hj⟩ := hj
    exact hs.single i j now now' ⟨kid, entry, hlookups _ _ _ _ hi⟩ ⟨kid', entry', hlookups _ _ _ _ hj⟩
  retry f hf hu := (hs.retry f hf hu).imp_left fun h => PyFloat.finite_lt_mono h hclock

/-- A lookup that erases itself leaves the others as they are. -/
theorem fetching_of_erase {i j : ℕ} {kid : Text} {entry : Option (CacheEntry K)} {now : ℚ}
    (h : AList.lookup j (AList.erase i s.lookups) = some (.fetching kid entry now)) :
    j ≠ i ∧ s.lookups.lookup j = some (.fetching kid entry now) := by
  rw [Dict.lookup_erase] at h
  split_ifs at h with hji
  exact ⟨hji, h⟩

/-- A fetch that starts under the free lock keeps a cache sound, when the interval of
    every useless fetch has passed. -/
theorem Sound.start (hs : Sound config fromDict w rnd s) (hlocked : s.locked = false) (i : ℕ)
    (kid : Text) {now : ℚ}
    (hover : ∀ f ∈ s.fetches, f.Useless config fromDict w → f.Over config rnd now) :
    Sound config fromDict w rnd
      { s with
        clock := now
        locked := true
        lookups := s.lookups.insert i (.fetching kid s.cache now) } where
  cache := hs.cache
  holder j kid' entry now' h := by
    rw [Dict.lookup_insert] at h
    split_ifs at h with hji
    · cases h
      exact ⟨rfl, rfl⟩
    · exact ⟨rfl, (hs.holder j kid' entry now' h).2⟩
  single j k now' now'' hj hk := by
    -- while the lock is free, no other lookup fetches
    have honly {j : ℕ} {kid' : Text} {entry : Option (CacheEntry K)} {now' : ℚ}
        (h : AList.lookup j (AList.insert i (.fetching kid s.cache now) s.lookups) =
          some (.fetching kid' entry now')) : j = i := by
      rw [Dict.lookup_insert] at h
      split_ifs at h with hji
      · exact hji
      · rw [(hs.holder j kid' entry now' h).1] at hlocked
        cases hlocked
    obtain ⟨_, _, hj⟩ := hj
    obtain ⟨_, _, hk⟩ := hk
    rw [honly hj, honly hk]
  retry f hf hu := .inl (hover f hf hu)

/-- A fetch that ends keeps a cache sound, when the cache is the last accepted
    document, and a useless fetch sets the retry time. -/
theorem Sound.ended (hs : Sound config fromDict w rnd s) {i : ℕ} {now : ℚ} (hi : s.Fetches i now)
    {f : Fetch} {cache : Option (CacheEntry K)} {retryAfter : PyFloat}
    (hcache : cache = ((f :: s.fetches).findSome? Fetch.published).bind (entryOf config fromDict w))
    (hretry : f.Useless config fromDict w → retryAfter = retryTime config rnd f.started) :
    Sound config fromDict w rnd { s.endFetch i f with cache, retryAfter } where
  cache := hcache
  holder j kid entry now' h := by
    obtain ⟨hji, h⟩ := fetching_of_erase h
    exact absurd (hs.single j i now' now ⟨kid, entry, h⟩ hi) hji
  single j k now' now'' hj hk := by
    obtain ⟨kid, entry, hj⟩ := hj
    obtain ⟨kid', entry', hk⟩ := hk
    exact hs.single j k now' now'' ⟨kid, entry, (fetching_of_erase hj).2⟩
      ⟨kid', entry', (fetching_of_erase hk).2⟩
  retry g hg hu := by
    obtain ⟨kid, entry, hi⟩ := hi
    rcases List.mem_cons.1 hg with rfl | hg
    · exact .inr ⟨rfl, hretry hu⟩
    · -- the lock was held, so the older fetches were over before
      rcases hs.retry g hg hu with hover | ⟨hfree, -⟩
      · exact .inl hover
      · rw [(hs.holder i kid entry now hi).1] at hfree
        cases hfree

/-- A failed fetch keeps a cache sound. -/
theorem Sound.fail (hs : Sound config fromDict w rnd s) {i : ℕ} {kid : Text}
    {entry : Option (CacheEntry K)} {now : ℚ}
    (hi : s.lookups.lookup i = some (.fetching kid entry now)) :
    Sound config fromDict w rnd (s.fail config rnd i kid entry now).1 :=
  hs.ended ⟨kid, entry, hi⟩ hs.cache fun _ => rfl

/-- An accepted document keeps a cache sound. -/
theorem Sound.accept (hs : Sound config fromDict w rnd s) {i : ℕ} {kid : Text}
    {entry : Option (CacheEntry K)} {now : ℚ}
    (hi : s.lookups.lookup i = some (.fetching kid entry now)) {document : List (Text × Json)}
    {keys : Dict Text K} (hkeys : validateJwks config fromDict w document = some keys) :
    Sound config fromDict w rnd (s.accept config rnd i kid now document keys).1 := by
  refine hs.ended ⟨kid, entry, hi⟩ ?_ fun hu => ?_
  · change _ = entryOf config fromDict w (document, now)
    rw [entryOf, hkeys]
    rfl
  · rw [hu keys hkeys]
    rfl

/-- Every event keeps a cache sound. -/
theorem sound_step (hs : Sound config fromDict w rnd s) {e : KeyEvent} {answer : Option (Answer K)}
    (hstep : s.step config fromDict w rnd e = some (s', answer)) : Sound config fromDict w rnd s' := by
  cases e with
  | lookup i kid now =>
    rw [step] at hstep
    split_ifs at hstep with hnew
    rw [not_or, not_lt] at hnew
    split at hstep
    · cases hstep
      exact hs.idle hnew.2 fun _ _ _ _ h => h
    · cases hstep
      refine hs.idle hnew.2 fun j kid' entry now' h => ?_
      rw [Dict.lookup_insert] at h
      split_ifs at h
      · cases h
      · exact h
  | acquire i now =>
    rw [step] at hstep
    split_ifs at hstep with hfree
    rw [not_or, Bool.not_eq_true, not_lt] at hfree
    split at hstep
    · rename_i kid hi
      dsimp only at hstep
      split at hstep
      · cases hstep
        exact hs.idle hfree.2 fun _ _ _ _ h => (fetching_of_erase h).2
      · rename_i hnone
        cases hstep
        exact hs.start hfree.1 i kid fun f hf hu =>
          hs.over hfree.2 (retryAfter_of_withoutFetch hnone) hf hu
    · cases hstep
  | fetched i document =>
    rw [step] at hstep
    split at hstep
    · rename_i kid entry now hi
      split at hstep
      · cases hstep
        exact hs.fail hi
      · rename_i keys hkeys
        cases hstep
        exact hs.accept hi hkeys
    · cases hstep
  | failed i =>
    rw [step] at hstep
    split at hstep
    · rename_i kid entry now hi
      cases hstep
      exact hs.fail hi
    · cases hstep
  | cancel i =>
    rw [step] at hstep
    split at hstep
    · cases hstep
    · cases hstep
      exact hs.idle le_rfl fun _ _ _ _ h => (fetching_of_erase h).2
    · rename_i kid entry now hi
      cases hstep
      exact hs.ended ⟨kid, entry, hi⟩ hs.cache False.elim

/-- A key that a lookup returns is in the cache that it leaves, which is not stale. -/
theorem answer_of_step (hs : Sound config fromDict w rnd s) {e : KeyEvent} {kid : Text} {now : ℚ}
    {key : K} (hstep : s.step config fromDict w rnd e = some (s', some ⟨kid, now, some key⟩)) :
    ∃ entry, s'.cache = some entry ∧ entry.keys.lookup kid = some key ∧
      Within config rnd now entry.fetchedAt := by
  -- after a failure, the entry that was taken before the fetch is still the cache
  have hfail {i : ℕ} {kid' : Text} {entry : Option (CacheEntry K)} {now' : ℚ}
      (hi : s.lookups.lookup i = some (.fetching kid' entry now'))
      (h : (s.fail config rnd i kid' entry now').map id some = (s', some ⟨kid, now, some key⟩)) :
      ∃ entry, s'.cache = some entry ∧ entry.keys.lookup kid = some key ∧
        Within config rnd now entry.fetchedAt := by
    rw [Prod.map, Prod.mk.injEq, Option.some.injEq] at h
    obtain ⟨rfl, hanswer⟩ := h
    rw [KeyCache.fail, Answer.mk.injEq] at hanswer
    obtain ⟨rfl, rfl, hstale⟩ := hanswer
    rw [(hs.holder i kid' entry now' hi).2] at hstale
    exact of_staleKey hstale
  cases e with
  | lookup i kid' now' =>
    rw [step] at hstep
    split_ifs at hstep
    split at hstep
    · rename_i hwithout
      cases hstep
      exact of_withoutFetch hwithout
    · cases hstep
  | acquire i now' =>
    rw [step] at hstep
    split_ifs at hstep
    split at hstep
    · dsimp only at hstep
      split at hstep
      · rename_i hwithout
        cases hstep
        exact of_withoutFetch hwithout
      · cases hstep
    · cases hstep
  | fetched i document =>
    rw [step] at hstep
    split at hstep
    · rename_i kid' entry now' hi
      split at hstep
      · exact hfail hi (Option.some.inj hstep)
      · rename_i keys hkeys
        rw [Option.some.injEq, Prod.map, Prod.mk.injEq, Option.some.injEq] at hstep
        obtain ⟨rfl, hanswer⟩ := hstep
        rw [KeyCache.accept, Answer.mk.injEq] at hanswer
        obtain ⟨rfl, rfl, hkey⟩ := hanswer
        exact ⟨⟨keys, now'⟩, rfl, hkey, .inl rfl⟩
    · cases hstep
  | failed i =>
    rw [step] at hstep
    split at hstep
    · rename_i kid' entry now' hi
      exact hfail hi (Option.some.inj hstep)
    · cases hstep
  | cancel i =>
    rw [step] at hstep
    split at hstep <;> cases hstep

/-- An entry of the cache holds the keys that the document accepted last publishes. -/
theorem Sound.published (hs : Sound config fromDict w rnd s) {entry : CacheEntry K}
    (h : s.cache = some entry) :
    ∃ document, s.fetches.findSome? Fetch.published = some (document, entry.fetchedAt) ∧
      validateJwks config fromDict w document = some entry.keys := by
  rw [hs.cache, Option.bind_eq_some_iff] at h
  obtain ⟨⟨document, fetchedAt⟩, hlast, hentry⟩ := h
  obtain ⟨keys, hkeys, rfl⟩ := Option.map_eq_some_iff.1 hentry
  exact ⟨document, hlast, hkeys⟩

/-- A fetch that starts with an event is not within the retry interval of a useless
    one. -/
theorem over_of_start (hs : Sound config fromDict w rnd s) {e : KeyEvent}
    {answer : Option (Answer K)} (hstep : s.step config fromDict w rnd e = some (s', answer))
    {i : ℕ} {now : ℚ} (hbefore : ¬ s.Fetches i now) (hafter : s'.Fetches i now) {f : Fetch}
    (hf : f ∈ s.fetches) (hu : f.Useless config fromDict w) : f.Over config rnd now := by
  obtain ⟨kid, entry, hafter⟩ := hafter
  -- A fetch starts only where a lookup has the lock and finds no key: in every
  -- other case, what fetches afterwards has been fetching before.
  have hold : s.lookups.lookup i ≠ some (.fetching kid entry now) :=
    fun h => hbefore ⟨kid, entry, h⟩
  cases e with
  | lookup j kid' now' =>
    rw [step] at hstep
    split_ifs at hstep
    split at hstep
    · cases hstep
      exact absurd hafter hold
    · cases hstep
      rw [Dict.lookup_insert] at hafter
      split_ifs at hafter
      · cases hafter
      · exact absurd hafter hold
  | acquire j now' =>
    rw [step] at hstep
    split_ifs at hstep with hfree
    rw [not_or, not_lt] at hfree
    split at hstep
    · dsimp only at hstep
      split at hstep
      · cases hstep
        exact absurd (fetching_of_erase hafter).2 hold
      · rename_i hnone
        cases hstep
        rw [Dict.lookup_insert] at hafter
        split_ifs at hafter
        · cases hafter
          exact hs.over hfree.2 (retryAfter_of_withoutFetch hnone) hf hu
        · exact absurd hafter hold
    · cases hstep
  | fetched j document =>
    rw [step] at hstep
    split at hstep
    · split at hstep
      · cases hstep
        exact absurd (fetching_of_erase hafter).2 hold
      · cases hstep
        exact absurd (fetching_of_erase hafter).2 hold
    · cases hstep
  | failed j =>
    rw [step] at hstep
    split at hstep
    · cases hstep
      exact absurd (fetching_of_erase hafter).2 hold
    · cases hstep
  | cancel j =>
    rw [step] at hstep
    split at hstep
    · cases hstep
    · cases hstep
      exact absurd (fetching_of_erase hafter).2 hold
    · cases hstep
      exact absurd (fetching_of_erase hafter).2 hold

/-- A cache is sound before its first lookup. -/
theorem sound_init (start : ℚ) :
    Sound config fromDict w rnd (keyCache config fromDict w rnd start).init where
  cache := rfl
  holder := by
    rintro i kid entry now ⟨⟩
  single := by
    rintro i j now now' ⟨kid, entry, ⟨⟩⟩
  retry f hf := absurd hf List.not_mem_nil

/-- A cache is sound in every run. -/
theorem sound_of_run {start : ℚ} {h : List KeyEvent}
    (hr : (keyCache config fromDict w rnd start).Run Machine.Free h s) :
    Sound config fromDict w rnd s := by
  refine hr.invariant (sound_init start) fun s e s' hs _ hstep => ?_
  obtain ⟨⟨t, answer⟩, htstep, rfl⟩ := Option.map_eq_some_iff.1 hstep
  exact sound_step hs htstep

end KeyCache

variable {config fromDict w rnd}

open KeyCache in
/-- The key cache, over every run and for every further event: a key that a lookup
    returns is published under the requested id by the set that was fetched last, which
    is within the stale window at the last reading of the lookup; at most one lookup
    fetches; and a fetch that starts is not within the retry interval of one that
    failed or had no key for the requested id. -/
theorem keyCache_run {start : ℚ} {h : List KeyEvent} {s s' : KeyCache K} {e : KeyEvent}
    {answer : Option (Answer K)} (hr : (keyCache config fromDict w rnd start).Run Machine.Free h s)
    (hstep : s.step config fromDict w rnd e = some (s', answer)) :
    (∀ kid now key, answer = some ⟨kid, now, some key⟩ →
      ∃ document fetchedAt, s'.fetches.findSome? Fetch.published = some (document, fetchedAt) ∧
        Publishes config fromDict document kid key ∧ Within config rnd now fetchedAt) ∧
    (∀ i j now now', s'.Fetches i now → s'.Fetches j now' → i = j) ∧
    ∀ i now, ¬ s.Fetches i now → s'.Fetches i now →
      ∀ f ∈ s.fetches, f.Useless config fromDict w → f.Over config rnd now := by
  have hs := sound_of_run hr
  have hs' := sound_step hs hstep
  refine ⟨fun kid now key hanswer => ?_, hs'.single, fun i now hbefore hafter f hf hu =>
    over_of_start hs hstep hbefore hafter hf hu⟩
  subst hanswer
  obtain ⟨entry, hcache, hkey, hwithin⟩ := answer_of_step hs hstep
  obtain ⟨document, hlast, hkeys⟩ := hs'.published hcache
  exact ⟨document, entry.fetchedAt, hlast, publishes_of_validateJwks hkeys hkey, hwithin⟩

end

namespace KeyCache

/-- A gateway that signs with Ed25519. -/
def edwards : GatewayIdentityConfig where
  algorithm := lit "EdDSA"
  jwksFreshSeconds := 900
  jwksStaleSeconds := 3600
  jwksRetrySeconds := 5
  maxJwksBytes := 65536
  maxJwksKeys := 32
  fresh_pos := by norm_num
  fresh_le_stale := by norm_num
  retry_pos := by norm_num
  maxJwksKeys_pos := by norm_num

/-- A key of the gateway, and a set with that key. -/
def edwardsKey : List (Text × Json) :=
  [(lit "kty", .str (lit "OKP")), (lit "crv", .str (lit "Ed25519")), (lit "alg", .str (lit "EdDSA")),
    (lit "kid", .str (lit "a")),
    (lit "x", .str (lit "11qYAYKxCrfVS_7TyWQHOg7hcvPapiMlrwIaaPcHURo"))]

/-- A lookup that has started to fetch the set. -/
def edwardsStarted : KeyCache (List (Text × Json)) where
  clock := 0
  locked := true
  lookups := AList.insert 1 (.fetching (lit "a") none 0) (AList.insert 1 (.waiting (lit "a")) ∅)

end KeyCache

open KeyCache in
theorem keyCache_run_example :
    ∃ s', edwardsStarted.step edwards some JsonWriter.plain PyFloat.finite
        (.fetched 1 [(lit "keys", .arr [.obj edwardsKey])]) =
      some (s', some ⟨lit "a", 0, some edwardsKey⟩) ∧
    ∃ document fetchedAt, s'.fetches.findSome? Fetch.published = some (document, fetchedAt) ∧
      Publishes edwards some document (lit "a") edwardsKey ∧ Within edwards PyFloat.finite 0 fetchedAt := by
  have hexec : (keyCache edwards some JsonWriter.plain PyFloat.finite 0).exec { clock := 0 }
      [.lookup 1 (lit "a") 0, .acquire 1 0] = some edwardsStarted := rfl
  have hr := Machine.run_of_exec hexec (Machine.meets_free _ _)
  have hstep : ∃ s', edwardsStarted.step edwards some JsonWriter.plain PyFloat.finite
        (.fetched 1 [(lit "keys", .arr [.obj edwardsKey])]) =
      some (s', some ⟨lit "a", 0, some edwardsKey⟩) := ⟨_, rfl⟩
  obtain ⟨s', hstep⟩ := hstep
  exact ⟨s', hstep, (keyCache_run hr hstep).1 _ _ _ rfl⟩

end McpRuntime.Gateway
