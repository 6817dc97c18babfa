import Mathlib.Data.List.AList

/-!
# Dictionaries

A Python `dict` used as a table: what a key is bound to, and how many keys
there are. The order of the keys is not kept; where the code iterates over a
dictionary, a list of pairs models it.
-/

namespace McpRuntime

/-- A table from `κ` to `ν`. -/
abbrev Dict (κ ν : Type*) := AList fun _ : κ => ν

namespace Dict

variable {κ ν : Type*} [DecidableEq κ]

/-- `len(d)`. -/
def len (d : Dict κ ν) : ℕ := d.keys.length

/-- What a key is bound to after `d[k] = v`. -/
theorem lookup_insert (d : Dict κ ν) (k k' : κ) (v : ν) :
    AList.lookup k' (AList.insert k v d) = if k' = k then some v else AList.lookup k' d := by
  split_ifs with h
  · rw [h, AList.lookup_insert]
  · exact AList.lookup_insert_ne h

/-- What a key is bound to after `d.pop(k, None)`. -/
theorem lookup_erase (d : Dict κ ν) (k k' : κ) :
    AList.lookup k' (AList.erase k d) = if k' = k then none else AList.lookup k' d := by
  split_ifs with h
  · rw [h, AList.lookup_erase]
  · exact AList.lookup_erase_ne h

/-- A key bound to a value is a key. -/
theorem mem_keys_of_lookup {d : Dict κ ν} {k : κ} {v : ν} (h : AList.lookup k d = some v) :
    k ∈ d.keys :=
  AList.mem_keys.1 (AList.lookup_isSome.1 (Option.isSome_of_eq_some h))

/-- A key is bound to a value. -/
theorem exists_lookup {d : Dict κ ν} {k : κ} (h : k ∈ d.keys) : ∃ v, AList.lookup k d = some v :=
  Option.isSome_iff_exists.1 (AList.lookup_isSome.2 (AList.mem_keys.2 h))

/-- A key that is not bound is not a key. -/
theorem notMem_keys {d : Dict κ ν} {k : κ} (h : AList.lookup k d = none) : k ∉ d.keys :=
  fun hk => by
    obtain ⟨v, hv⟩ := exists_lookup hk
    rw [hv] at h
    cases h

/-- What keys are bound to after the items of a list are entered, each under a
    key of its own. -/
theorem lookup_foldl_insert {α : Type*} {key : α → κ} (value : α → ν) {l : List α}
    (hnodup : (l.map key).Nodup) (d : Dict κ ν) :
    (∀ a ∈ l, (l.foldl (fun d a => AList.insert (key a) (value a) d) d).lookup (key a) =
      some (value a)) ∧
    ∀ k ∉ l.map key,
      (l.foldl (fun d a => AList.insert (key a) (value a) d) d).lookup k = d.lookup k := by
  induction l generalizing d with
  | nil => exact ⟨nofun, fun _ _ => rfl⟩
  | cons a l ih =>
    obtain ⟨hfresh, hnodup⟩ := List.nodup_cons.1 hnodup
    obtain ⟨hitems, hothers⟩ := ih hnodup (AList.insert (key a) (value a) d)
    refine ⟨fun b hb => ?_, fun k hk => ?_⟩
    · rcases List.mem_cons.1 hb with rfl | hb
      · exact (hothers _ hfresh).trans (AList.lookup_insert d)
      · exact hitems b hb
    · rw [List.map_cons, List.mem_cons, not_or] at hk
      exact (hothers k hk.2).trans (AList.lookup_insert_ne hk.1)

end Dict

end McpRuntime
