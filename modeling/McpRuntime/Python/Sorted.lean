import Mathlib.Data.List.Sort

/-!
# Sorting by a key

`sorted(items, key=key)`, which is stable: items with one key stay in the order that they
have. What the sorted list shows of its items depends on the order of the items only where
two of them have one key, and show something else.
-/

namespace McpRuntime

variable {α β κ : Type*} [LinearOrder κ] (key : α → κ)

/-- `sorted(items, key=key)`. -/
abbrev sortedBy (items : List α) : List α := items.insertionSort fun a b => key a ≤ key b

variable {key}

theorem sortedBy_perm (items : List α) : (sortedBy key items).Perm items :=
  List.perm_insertionSort _ items

/-- The keys are compared by a total preorder. -/
theorem sortedBy_total : Std.Total fun a b : α => key a ≤ key b :=
  ⟨fun a b => le_total (key a) (key b)⟩

theorem sortedBy_trans : IsTrans α fun a b => key a ≤ key b := ⟨fun _ _ _ => le_trans⟩

/-- The keys in order. -/
theorem pairwise_keys (items : List α) : ((sortedBy key items).map key).Pairwise (· ≤ ·) :=
  have := @sortedBy_total _ _ _ key
  have := @sortedBy_trans _ _ _ key
  List.pairwise_map.2 (List.pairwise_insertionSort _ items)

/-- Items with one key stay in their order. -/
theorem filter_sortedBy [DecidableEq κ] (items : List α) (k : κ) :
    (sortedBy key items).filter (key · = k) = items.filter (key · = k) := by
  have := @sortedBy_total _ _ _ key
  have := @sortedBy_trans _ _ _ key
  have hpairwise : (items.filter (key · = k)).Pairwise fun a b => key a ≤ key b := by
    refine List.pairwise_of_forall_mem_list fun a ha b hb => ?_
    have hka : key a = k := by simpa using (List.mem_filter.1 ha).2
    have hkb : key b = k := by simpa using (List.mem_filter.1 hb).2
    exact (hka.trans hkb.symm).le
  have hsub := (List.sublist_insertionSort hpairwise List.filter_sublist).filter (key · = k)
  rw [List.filter_filter] at hsub
  simp only [Bool.and_self] at hsub
  exact (hsub.eq_of_length ((sortedBy_perm items).filter _).length_eq.symm).symm

/-- The keys of the sorted list depend only on which keys there are, and how often. -/
theorem map_key_sortedBy {items items' : List α} (h : (items.map key).Perm (items'.map key)) :
    (sortedBy key items).map key = (sortedBy key items').map key :=
  List.Perm.eq_of_pairwise (fun _ _ _ _ => le_antisymm) (pairwise_keys items) (pairwise_keys items')
    (((sortedBy_perm items).map key).trans (h.trans ((sortedBy_perm items').map key).symm))

/-- What the sorted list shows depends only on what there is to show, where items with one key
    show the same. -/
theorem map_sortedBy {items items' : List α} {shown : α → β}
    (h : (items.map fun a => (key a, shown a)).Perm (items'.map fun a => (key a, shown a)))
    (hshown : ∀ a ∈ items, ∀ b ∈ items, key a = key b → shown a = shown b) :
    (sortedBy key items).map shown = (sortedBy key items').map shown := by
  have hkeys : (sortedBy key items).map key = (sortedBy key items').map key := by
    have hfst := h.map Prod.fst
    rw [List.map_map, List.map_map] at hfst
    exact map_key_sortedBy hfst
  -- the items at one place have one key, and each key shows one thing
  refine List.ext_getElem (by simpa using congrArg List.length hkeys) fun n hn hn' => ?_
  rw [List.length_map] at hn hn'
  have hkey : key (sortedBy key items)[n] = key (sortedBy key items')[n] := by
    have := List.getElem_of_eq hkeys (by rwa [List.length_map])
    rwa [List.getElem_map, List.getElem_map] at this
  have hmem := (sortedBy_perm items).mem_iff.1 (List.getElem_mem hn)
  have hmem' := (sortedBy_perm items').mem_iff.1 (List.getElem_mem hn')
  obtain ⟨b, hb, he⟩ := List.mem_map.1 (h.mem_iff.2 (List.mem_map_of_mem hmem'))
  rw [Prod.mk.injEq] at he
  rw [List.getElem_map, List.getElem_map, ← he.2]
  exact hshown _ hmem b hb (hkey.trans he.1.symm)

/-- Two items with one key show the same, where the sorted list does not tell which of them was
    first. -/
theorem shown_eq_of_swap [DecidableEq κ] {a b : α} {items : List α} {shown : α → β}
    (hkey : key a = key b)
    (h : (sortedBy key (a :: b :: items)).map shown = (sortedBy key (b :: a :: items)).map shown) :
    shown a = shown b := by
  have hkeys := map_key_sortedBy ((List.Perm.swap b a items).map key)
  have hboth : (sortedBy key (a :: b :: items)).map (fun c => (key c, shown c)) =
      (sortedBy key (b :: a :: items)).map fun c => (key c, shown c) := by
    rw [← List.zip_map', ← List.zip_map', h, hkeys]
  have hfilter := congrArg (List.filter (·.1 = key a)) hboth
  rw [List.filter_map, List.filter_map] at hfilter
  simp only [Function.comp_def] at hfilter
  rw [filter_sortedBy, filter_sortedBy] at hfilter
  simp only [List.filter_cons, hkey, decide_true, if_true, List.map_cons] at hfilter
  exact congrArg Prod.snd (List.cons.inj hfilter).1

end McpRuntime
