import Mathlib.Data.Finset.Card
import Mathlib.Data.List.Nodup

/-!
# Bounded maps in the order of use

A map keeps at most so many entries, in the order in which they were put or hit: what is put
beyond the limit drops the entry whose last use is furthest back. Entries expire: a read drops
an entry that is expired, passes over one that is hidden from it, and hits any other.

* `Follows limit fate h d`: the map `d` is what the events `h` (the last one first) have made
  of the empty map, where each read hit as the map told.
* `Follows.invariant`: an entry has the value that was put last under its key, the entries
  before it were used since, and a key without an entry has expired, or at least `limit` other
  keys were used since.
* `read_eq_some` and `read_of_latest`: what a read returns, by the events alone.
-/

namespace McpRuntime

/-- A map in the order of use, the last used entry first. -/
structure RecencyMap (κ ν : Type*) where
  entries : List (κ × ν)
  nodup : (entries.map Prod.fst).Nodup

/-- What becomes of an entry that is read. -/
inductive Fate
  | expired
  | hidden
  | visible
  deriving DecidableEq

namespace RecencyMap

variable {κ ν Q : Type*} [DecidableEq κ]

/-- The map without entries. -/
def empty : RecencyMap κ ν := ⟨[], List.nodup_nil⟩

/-- `d.get(key)`. -/
def get (d : RecencyMap κ ν) (key : κ) : Option ν := d.entries.lookup key

/-- The entries of the other keys. -/
def others (d : RecencyMap κ ν) (key : κ) : List (κ × ν) := d.entries.filter (·.1 ≠ key)

theorem nodup_others (d : RecencyMap κ ν) (key : κ) : ((d.others key).map Prod.fst).Nodup :=
  d.nodup.sublist (List.filter_sublist.map _)

theorem nodup_cons_others (d : RecencyMap κ ν) (key : κ) (value : ν) :
    (((key, value) :: d.others key).map Prod.fst).Nodup := by
  refine List.nodup_cons.2 ⟨fun hmem => ?_, d.nodup_others key⟩
  obtain ⟨e, he, hkey⟩ := List.mem_map.1 hmem
  exact of_decide_eq_true (List.mem_filter.1 he).2 hkey

/-- `del d[key]`. -/
def delete (d : RecencyMap κ ν) (key : κ) : RecencyMap κ ν := ⟨d.others key, d.nodup_others key⟩

/-- `d[key] = value` for a new value or the old one, and `d.move_to_end(key)`. -/
def use (d : RecencyMap κ ν) (key : κ) (value : ν) : RecencyMap κ ν :=
  ⟨(key, value) :: d.others key, d.nodup_cons_others key value⟩

/-- `while len(d) > limit: d.popitem(last=False)`. -/
def trim (d : RecencyMap κ ν) (limit : ℕ) : RecencyMap κ ν :=
  ⟨d.entries.take limit, d.nodup.sublist ((List.take_sublist _ _).map _)⟩

/-- An entry is put under a key, and the oldest are dropped. -/
def put (limit : ℕ) (d : RecencyMap κ ν) (key : κ) (value : ν) : RecencyMap κ ν :=
  (d.use key value).trim limit

/-- What a read of a key returns, and leaves. -/
def read (fate : ν → Q → Fate) (d : RecencyMap κ ν) (key : κ) (query : Q) :
    Option ν × RecencyMap κ ν :=
  match d.get key with
  | none => (none, d)
  | some value =>
    match fate value query with
    | .expired => (none, d.delete key)
    | .hidden => (none, d)
    | .visible => (some value, d.use key value)

/-! ## Entries -/

theorem get_eq_some {d : RecencyMap κ ν} {key : κ} {value : ν} :
    d.get key = some value ↔ (key, value) ∈ d.entries := by
  obtain ⟨entries, hnodup⟩ := d
  change entries.lookup key = some value ↔ (key, value) ∈ entries
  induction entries with
  | nil => exact iff_of_false nofun List.not_mem_nil
  | cons e entries ih =>
    obtain ⟨k, v⟩ := e
    obtain ⟨hk, hnodup⟩ := List.nodup_cons.1 hnodup
    rw [List.lookup_cons, List.mem_cons]
    by_cases h : key = k
    · subst h
      have hnot : (key, value) ∉ entries := fun hmem =>
        hk (List.mem_map.2 ⟨(key, value), hmem, rfl⟩)
      rw [beq_self_eq_true]
      simp only [Option.some.injEq, Prod.mk.injEq, true_and, hnot, or_false]
      exact eq_comm
    · rw [beq_false_of_ne h, ih hnodup]
      simp [h]

theorem get_eq_none {d : RecencyMap κ ν} {key : κ} :
    d.get key = none ↔ ∀ value, (key, value) ∉ d.entries := by
  rw [Option.eq_none_iff_forall_ne_some]
  exact forall_congr' fun value => not_congr get_eq_some

theorem mem_others {d : RecencyMap κ ν} {key : κ} {e : κ × ν} :
    e ∈ d.others key ↔ e ∈ d.entries ∧ e.1 ≠ key := by
  simp [others]

end RecencyMap

/-! ## Events -/

/-- An event of a map: a value was put under a key, or a read hit an entry or not. -/
inductive MapEvent (κ ν Q : Type*)
  | put (key : κ) (value : ν)
  | read (key : κ) (query : Q) (hit : Bool)

namespace MapEvent

variable {κ ν Q : Type*} [DecidableEq κ]

/-- The value that was put last under a key. -/
def latest (key : κ) : List (MapEvent κ ν Q) → Option ν
  | [] => none
  | .put k value :: h => if k = key then some value else latest key h
  | .read _ _ _ :: h => latest key h

/-- The key that an event put or hit. -/
def used : MapEvent κ ν Q → Option κ
  | .put key _ => some key
  | .read key _ hit => if hit then some key else none

/-- The keys that were put or hit since a key was last put or hit. -/
def since (key : κ) (h : List (MapEvent κ ν Q)) : List κ := (h.filterMap used).takeWhile (· ≠ key)

/-- The query of a read. -/
def query : MapEvent κ ν Q → Option Q
  | .put _ _ => none
  | .read _ q _ => some q

theorem since_cons_used {key k : κ} {e : MapEvent κ ν Q} {h : List (MapEvent κ ν Q)}
    (he : e.used = some k) : since key (e :: h) = if k = key then [] else k :: since key h := by
  rw [since, List.filterMap_cons_some he, List.takeWhile_cons]
  by_cases hk : k = key <;> simp [hk, since]

theorem since_cons_unused {key : κ} {e : MapEvent κ ν Q} {h : List (MapEvent κ ν Q)}
    (he : e.used = none) : since key (e :: h) = since key h := by
  rw [since, List.filterMap_cons_none he]
  rfl

end MapEvent

namespace RecencyMap

variable {κ ν Q : Type*} [DecidableEq κ] {limit : ℕ} {fate : ν → Q → Fate}

/-- What events have made of the empty map, the last event first. -/
inductive Follows (limit : ℕ) (fate : ν → Q → Fate) : List (MapEvent κ ν Q) → RecencyMap κ ν → Prop
  | empty : Follows limit fate [] empty
  | put {h : List (MapEvent κ ν Q)} {d : RecencyMap κ ν} (key : κ) (value : ν) :
      Follows limit fate h d → Follows limit fate (.put key value :: h) (d.put limit key value)
  | read {h : List (MapEvent κ ν Q)} {d : RecencyMap κ ν} (key : κ) (query : Q) :
      Follows limit fate h d →
        Follows limit fate (.read key query (d.read fate key query).1.isSome :: h)
          (d.read fate key query).2

/-- What the events tell of a map. -/
structure Invariant (limit : ℕ) (fate : ν → Q → Fate) (h : List (MapEvent κ ν Q))
    (d : RecencyMap κ ν) : Prop where
  current : ∀ e ∈ d.entries, MapEvent.latest e.1 h = some e.2
  recent : d.entries.Pairwise fun newer older => newer.1 ∈ MapEvent.since older.1 h
  gone : ∀ key value, MapEvent.latest key h = some value → d.get key = none →
    limit ≤ (MapEvent.since key h).toFinset.card ∨
      ∃ query ∈ h.filterMap MapEvent.query, fate value query = .expired
  bounded : d.entries.length ≤ limit

theorem Invariant.latest_of_get {h : List (MapEvent κ ν Q)} {d : RecencyMap κ ν}
    (hd : Invariant limit fate h d) {key : κ} {value : ν} (hget : d.get key = some value) :
    MapEvent.latest key h = some value :=
  hd.current (key, value) (get_eq_some.1 hget)

/-- The entries of a map in which a key is used, each after the keys that were used since. -/
theorem Invariant.recent_use {h : List (MapEvent κ ν Q)} {d : RecencyMap κ ν}
    (hd : Invariant limit fate h d) {key : κ} {e : MapEvent κ ν Q} (he : e.used = some key)
    (value : ν) :
    (d.use key value).entries.Pairwise fun newer older =>
      newer.1 ∈ MapEvent.since older.1 (e :: h) := by
  have hsince {k : κ} (hk : k ≠ key) : MapEvent.since k (e :: h) = key :: MapEvent.since k h := by
    rw [MapEvent.since_cons_used he, if_neg (Ne.symm hk)]
  refine List.pairwise_cons.2 ⟨fun older holder => ?_, ?_⟩
  · rw [hsince (mem_others.1 holder).2]
    exact List.mem_cons_self
  · refine (hd.recent.filter _).imp_of_mem fun {newer older} _ holder hnewer => ?_
    rw [hsince (mem_others.1 holder).2]
    exact List.mem_cons_of_mem _ hnewer

/-- What the use of another key leaves of the keys that are gone. -/
theorem Invariant.gone_use {h : List (MapEvent κ ν Q)} {d : RecencyMap κ ν}
    (hd : Invariant limit fate h d) {key k : κ} {e : MapEvent κ ν Q} (he : e.used = some key)
    (hk : k ≠ key) {value : ν} (hlatest : MapEvent.latest k h = some value)
    (hget : d.get k = none) :
    limit ≤ (MapEvent.since k (e :: h)).toFinset.card ∨
      ∃ query ∈ (e :: h).filterMap MapEvent.query, fate value query = .expired := by
  refine (hd.gone k value hlatest hget).imp (fun hle => ?_) fun ⟨query, hquery, hfate⟩ => ?_
  · rw [MapEvent.since_cons_used he, if_neg (Ne.symm hk), List.toFinset_cons]
    exact hle.trans (Finset.card_le_card (Finset.subset_insert _ _))
  · refine ⟨query, ?_, hfate⟩
    cases hq : e.query with
    | none => rwa [List.filterMap_cons_none hq]
    | some q =>
      rw [List.filterMap_cons_some hq]
      exact List.mem_cons_of_mem _ hquery

/-- The entries before one that is dropped are `limit` others. -/
theorem limit_le_of_dropped {entries : List (κ × ν)} (hnodup : (entries.map Prod.fst).Nodup)
    (used : κ → List κ) (hrecent : entries.Pairwise fun newer older => newer.1 ∈ used older.1)
    {e : κ × ν} (hmem : e ∈ entries) (hdropped : e ∉ entries.take limit) :
    limit ≤ (used e.1).toFinset.card := by
  rw [← List.take_append_drop limit entries] at hrecent hmem
  have hdrop := (List.mem_append.1 hmem).resolve_left hdropped
  have hlength : (entries.take limit).length = limit := by
    have hpos := List.length_pos_of_mem hdrop
    rw [List.length_drop] at hpos
    exact List.length_take_of_le (by omega)
  have hused : ∀ newer ∈ entries.take limit, newer.1 ∈ used e.1 := fun newer hnewer =>
    (List.pairwise_append.1 hrecent).2.2 newer hnewer e hdrop
  have hkeys : ((entries.take limit).map Prod.fst).Nodup :=
    hnodup.sublist ((List.take_sublist _ _).map _)
  calc limit = ((entries.take limit).map Prod.fst).toFinset.card := by
        rw [List.toFinset_card_of_nodup hkeys, List.length_map, hlength]
    _ ≤ (used e.1).toFinset.card := by
        refine Finset.card_le_card fun k hk => ?_
        obtain ⟨newer, hnewer, rfl⟩ := List.mem_map.1 (List.mem_toFinset.1 hk)
        exact List.mem_toFinset.2 (hused newer hnewer)

/-- A put keeps what the events tell. -/
theorem Invariant.put {h : List (MapEvent κ ν Q)} {d : RecencyMap κ ν}
    (hd : Invariant limit fate h d) (key : κ) (value : ν) :
    Invariant limit fate (.put key value :: h) (d.put limit key value) := by
  have hlatest {k : κ} (hk : k ≠ key) :
      MapEvent.latest k (.put key value :: h) = MapEvent.latest k h := if_neg (Ne.symm hk)
  have hrecent := hd.recent_use (e := .put key value) rfl value
  refine ⟨fun e he => ?_, hrecent.sublist (List.take_sublist _ _), fun k v hv hget => ?_,
    List.length_take_le _ _⟩
  · rcases List.mem_cons.1 (List.mem_of_mem_take he) with rfl | he
    · exact if_pos rfl
    · obtain ⟨hmem, hne⟩ := mem_others.1 he
      rw [hlatest hne]
      exact hd.current e hmem
  · by_cases hk : k = key
    · subst hk
      refine .inl (limit_le_of_dropped (d.nodup_cons_others k value)
        (MapEvent.since · (.put k value :: h)) hrecent List.mem_cons_self ?_)
      exact get_eq_none.1 hget value
    · rw [hlatest hk] at hv
      cases hold : d.get k with
      | none => exact hd.gone_use rfl hk hv hold
      | some w =>
        have hmem : (k, w) ∈ (d.use key value).entries :=
          List.mem_cons_of_mem _ (mem_others.2 ⟨get_eq_some.1 hold, hk⟩)
        exact .inl (limit_le_of_dropped (d.nodup_cons_others key value)
          (MapEvent.since · (.put key value :: h)) hrecent hmem (get_eq_none.1 hget w))

/-- A read keeps what the events tell. -/
theorem Invariant.read {h : List (MapEvent κ ν Q)} {d : RecencyMap κ ν}
    (hd : Invariant limit fate h d) (key : κ) (query : Q) :
    Invariant limit fate (.read key query (d.read fate key query).1.isSome :: h)
      (d.read fate key query).2 := by
  -- a read without a result, of a map that keeps some of its entries
  have hpassed {d' : RecencyMap κ ν} (hsub : d'.entries.Sublist d.entries)
      (hgone : ∀ k v, (k, v) ∈ d.entries → (k, v) ∉ d'.entries → fate v query = .expired) :
      Invariant limit fate (MapEvent.read key query false :: h) d' := by
    have hsince (k : κ) :
        MapEvent.since k (MapEvent.read key query false :: h) = MapEvent.since k h :=
      MapEvent.since_cons_unused rfl
    refine ⟨fun e he => hd.current e (hsub.subset he), ?_, fun k v hv hget => ?_,
      hsub.length_le.trans hd.bounded⟩
    · simp only [hsince]
      exact hd.recent.sublist hsub
    · have hquery : (MapEvent.read key query false :: h).filterMap MapEvent.query =
          query :: h.filterMap MapEvent.query := rfl
      rw [hsince, hquery]
      cases hold : d.get k with
      | none =>
        exact (hd.gone k v hv hold).imp_right fun ⟨q, hq, hfate⟩ =>
          ⟨q, List.mem_cons_of_mem _ hq, hfate⟩
      | some w =>
        obtain rfl := Option.some.inj (hv.symm.trans (hd.latest_of_get hold))
        exact .inr ⟨query, List.mem_cons_self,
          hgone k v (get_eq_some.1 hold) (get_eq_none.1 hget v)⟩
  rw [RecencyMap.read]
  cases hget : d.get key with
  | none => exact hpassed (.refl _) fun k v hmem hnot => absurd hmem hnot
  | some value =>
    dsimp only
    cases hfate : fate value query with
    | expired =>
      refine hpassed List.filter_sublist fun k v hmem hnot => ?_
      have hk : k = key := by
        by_contra hne
        exact hnot (mem_others.2 ⟨hmem, hne⟩)
      subst hk
      rw [get_eq_some.2 hmem] at hget
      rwa [Option.some.inj hget]
    | hidden => exact hpassed (.refl _) fun k v hmem hnot => absurd hmem hnot
    | visible =>
      have hmemkey := get_eq_some.1 hget
      refine ⟨fun e he => ?_, hd.recent_use rfl value, fun k v hv hnone => ?_, ?_⟩
      · rcases List.mem_cons.1 he with rfl | he
        · exact hd.current _ hmemkey
        · exact hd.current e (mem_others.1 he).1
      · have hk : k ≠ key := by
          rintro rfl
          exact get_eq_none.1 hnone value List.mem_cons_self
        refine hd.gone_use rfl hk hv (get_eq_none.2 fun w hmem => ?_)
        exact get_eq_none.1 hnone w (List.mem_cons_of_mem _ (mem_others.2 ⟨hmem, hk⟩))
      · have hlt : (d.others key).length < d.entries.length :=
          List.length_filter_lt_length_iff_exists.2 ⟨_, hmemkey, by simp⟩
        exact (Nat.succ_le_of_lt hlt).trans hd.bounded

/-- What events have made of the empty map is what they tell. -/
theorem Follows.invariant {h : List (MapEvent κ ν Q)} {d : RecencyMap κ ν}
    (hd : Follows limit fate h d) : Invariant limit fate h d := by
  induction hd with
  | empty => exact ⟨nofun, .nil, nofun, Nat.zero_le _⟩
  | put key value _ ih => exact ih.put key value
  | read key query _ ih => exact ih.read key query

/-- A read returns only the value that was put last, where it is visible. -/
theorem Follows.read_eq_some {h : List (MapEvent κ ν Q)} {d : RecencyMap κ ν}
    (hd : Follows limit fate h d) {key : κ} {query : Q} {value : ν}
    (hread : (d.read fate key query).1 = some value) :
    MapEvent.latest key h = some value ∧ fate value query = .visible := by
  rw [RecencyMap.read] at hread
  cases hget : d.get key with
  | none =>
    rw [hget] at hread
    cases hread
  | some w =>
    rw [hget] at hread
    dsimp only at hread
    cases hfate : fate w query with
    | visible =>
      rw [hfate] at hread
      cases hread
      exact ⟨hd.invariant.latest_of_get hget, hfate⟩
    | expired | hidden =>
      rw [hfate] at hread
      cases hread

/-- A read does not miss a visible value that was put last, while fewer than `limit` other keys
    were used since, if no earlier read could have found it expired. -/
theorem Follows.read_of_latest {h : List (MapEvent κ ν Q)} {d : RecencyMap κ ν}
    (hd : Follows limit fate h d) {key : κ} {query : Q} {value : ν}
    (hlatest : MapEvent.latest key h = some value) (hvisible : fate value query = .visible)
    (hfew : (MapEvent.since key h).toFinset.card < limit)
    (hunexpired : ∀ earlier ∈ h.filterMap MapEvent.query, fate value earlier ≠ .expired) :
    (d.read fate key query).1 = some value := by
  cases hget : d.get key with
  | none =>
    rcases hd.invariant.gone key value hlatest hget with hle | ⟨earlier, hearlier, hfate⟩
    · exact absurd hfew (not_lt.2 hle)
    · exact absurd hfate (hunexpired earlier hearlier)
  | some w =>
    obtain rfl := Option.some.inj (hlatest.symm.trans (hd.invariant.latest_of_get hget))
    simp only [RecencyMap.read, hget, hvisible]

end RecencyMap

end McpRuntime
