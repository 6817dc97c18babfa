import McpRuntime.Python.Dict
import Mathlib.Algebra.BigOperators.Group.List.Lemmas
import Mathlib.Algebra.Ring.Nat
import Mathlib.Data.List.Dedup

/-!
# Tables of counts

A table counts a list of keys when it binds each key of the list to the number
of its occurrences, and no other key. Keys come and go with the list: the counts
that a table keeps are never zero.

* `Counts.insert_succ`, `Counts.erase`, `Counts.insert_pred`: what counts the list
  with one more key, and with one less.
* `Counts.sum_eq_length`: the counts add up to the length of the list.
-/

namespace McpRuntime

variable {κ : Type*} [DecidableEq κ]

/-- The number of occurrences of a key. -/
def occurrences (k : κ) (l : List κ) : ℕ := l.countP fun k' => k' = k

/-- The occurrences of a key in a list with one more key. -/
theorem occurrences_cons (k k' : κ) (l : List κ) :
    occurrences k (k' :: l) = occurrences k l + if k = k' then 1 else 0 := by
  rw [occurrences, occurrences, List.countP_cons]
  simp only [decide_eq_true_eq, eq_comm (a := k)]

/-- A key occurs when it is in the list. -/
theorem occurrences_pos {k : κ} {l : List κ} : 0 < occurrences k l ↔ k ∈ l := by
  simp [occurrences, List.countP_pos_iff]

/-- The occurrences do not depend on the order. -/
theorem occurrences_perm {l l' : List κ} (h : l.Perm l') (k : κ) :
    occurrences k l = occurrences k l' := h.countP_eq _

/-- The table counts the keys of the list. -/
def Counts (d : Dict κ ℕ) (l : List κ) : Prop :=
  ∀ k, d.lookup k = if occurrences k l = 0 then none else some (occurrences k l)

namespace Counts

variable {d : Dict κ ℕ} {l l' : List κ} {k : κ}

/-- The empty table counts the empty list. -/
theorem nil : Counts (∅ : Dict κ ℕ) [] := fun _ => rfl

/-- A table counts the keys of a list in any order. -/
theorem perm (h : Counts d l) (hperm : l.Perm l') : Counts d l' := fun k => by
  rw [h k, occurrences_perm hperm]

/-- The count of a key in a table. -/
theorem getD_lookup (h : Counts d l) (k : κ) : (d.lookup k).getD 0 = occurrences k l := by
  rw [h k]
  split_ifs with hzero
  · exact hzero.symm
  · rfl

/-- A key that is bound has a positive count, which is the number of its
    occurrences. -/
theorem lookup_eq_some (h : Counts d l) {n : ℕ} :
    d.lookup k = some n ↔ 0 < n ∧ n = occurrences k l := by
  rw [h k]
  split_ifs with hzero
  · exact ⟨nofun, fun hn => absurd (hn.2.trans hzero) hn.1.ne'⟩
  · refine ⟨fun hn => ?_, fun hn => congrArg some hn.2.symm⟩
    obtain rfl := Option.some.inj hn
    exact ⟨Nat.pos_of_ne_zero hzero, rfl⟩

/-- The keys that are bound are those of the list. -/
theorem mem (h : Counts d l) : k ∈ d ↔ k ∈ l := by
  rw [← AList.lookup_isSome, h k, ← occurrences_pos]
  split_ifs with hzero
  · exact ⟨nofun, fun hpos => absurd hzero hpos.ne'⟩
  · exact ⟨fun _ => Nat.pos_of_ne_zero hzero, fun _ => rfl⟩

/-- The count of one more key. -/
theorem insert_succ (h : Counts d l) : Counts (d.insert k (occurrences k l + 1)) (k :: l) := by
  intro k'
  rw [Dict.lookup_insert, occurrences_cons, h k']
  by_cases hk : k' = k
  · rw [if_pos hk, if_pos hk, hk, if_neg (Nat.succ_ne_zero _)]
  · rw [if_neg hk, if_neg hk, Nat.add_zero]

/-- The last occurrence of a key is gone. -/
theorem erase (h : Counts d l) (hperm : l.Perm (k :: l')) (hlast : occurrences k l' = 0) :
    Counts (d.erase k) l' := by
  intro k'
  rw [Dict.lookup_erase, h k', occurrences_perm hperm, occurrences_cons]
  by_cases hk : k' = k
  · rw [if_pos hk, hk, if_pos hlast]
  · rw [if_neg hk, if_neg hk, Nat.add_zero]

/-- An occurrence of a key is gone, and another is left. -/
theorem insert_pred (h : Counts d l) (hperm : l.Perm (k :: l')) (hleft : occurrences k l' ≠ 0) :
    Counts (d.insert k (occurrences k l')) l' := by
  intro k'
  rw [Dict.lookup_insert, h k', occurrences_perm hperm, occurrences_cons]
  by_cases hk : k' = k
  · rw [if_pos hk, hk, if_neg hleft]
  · rw [if_neg hk, if_neg hk, Nat.add_zero]

/-- The keys of a table are the keys of the list, without repetition. -/
theorem keys_perm (h : Counts d l) : d.keys.Perm l.dedup :=
  (List.perm_ext_iff_of_nodup d.keys_nodup l.nodup_dedup).2 fun k => by
    rw [← AList.mem_keys, h.mem, List.mem_dedup]

/-- The counts add up to the length of the list. -/
theorem sum_eq_length (h : Counts d l) : (d.entries.map Sigma.snd).sum = l.length := by
  have hcount : d.entries.map Sigma.snd = d.keys.map fun k => l.count k := by
    rw [AList.keys, List.keys, List.map_map]
    refine List.map_congr_left fun entry hentry => ?_
    have hlookup : d.lookup entry.1 = some entry.2 := AList.mem_lookup_iff.2 hentry
    rw [(h.lookup_eq_some.1 hlookup).2, occurrences, Function.comp_apply, List.count_eq_countP]
    rfl
  rw [hcount, (h.keys_perm.map _).sum_eq, List.sum_map_count_dedup_eq_length]

end Counts

end McpRuntime
