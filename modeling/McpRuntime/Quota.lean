import McpRuntime.Python.Counter
import Mathlib.Order.Lattice

/-!
# Quotas

Items that belong to groups are admitted in turn, as long as the group of the
item and the whole have room. What has been taken so far is the list of the
groups of what was admitted, of which only the counts matter.

* `admissions_pairwise`: once an item was refused because its group was full, no item
  of the group is admitted; once one was refused because the whole was full, no
  item is admitted at all.
* `takenAfter_bounded`: where an item is admitted, neither its group nor the
  whole ends above its limit.
* `admissions_perm`: the verdicts do not depend on the order of what was taken before.
* `verdict_takenAfter`: an item that was refused is refused for the same reason
  once all others are taken.
-/

namespace McpRuntime

namespace Quota

/-- What becomes of an item. -/
inductive Verdict
  | admitted
  | groupFull
  | totalFull
  deriving DecidableEq

/-- How many items a group may have, and how many there may be. -/
structure Limits where
  group : ℕ
  total : ℕ

variable {α κ : Type*} [DecidableEq κ] (limits : Limits) (group : α → κ)

/-- The verdict on an item of the group `k`. -/
def verdict (taken : List κ) (k : κ) : Verdict :=
  if limits.group ≤ occurrences k taken then .groupFull
  else if limits.total ≤ taken.length then .totalFull
  else .admitted

/-- What is taken after an item of the group `k`. -/
def take (taken : List κ) (k : κ) : List κ :=
  if verdict limits taken k = .admitted then k :: taken else taken

/-- The verdicts on the items in turn. -/
def admissions (taken : List κ) : List α → List (α × Verdict)
  | [] => []
  | a :: l => (a, verdict limits taken (group a)) :: admissions (take limits taken (group a)) l

/-- What is taken after the items in turn. -/
def takenAfter (taken : List κ) : List α → List κ
  | [] => taken
  | a :: l => takenAfter (take limits taken (group a)) l

variable {limits group}

/-- A group is refused when it is full. -/
theorem group_le_of_verdict {taken : List κ} {k : κ} (h : verdict limits taken k = .groupFull) :
    limits.group ≤ occurrences k taken := by
  rw [verdict] at h
  split_ifs at h with hgroup
  exact hgroup

/-- The whole is refused when it is full. -/
theorem total_le_of_verdict {taken : List κ} {k : κ} (h : verdict limits taken k = .totalFull) :
    limits.total ≤ taken.length := by
  rw [verdict] at h
  split_ifs at h with _ htotal
  exact htotal

/-- Every item gets a verdict. -/
theorem admissions_fst (taken : List κ) (l : List α) : (admissions limits group taken l).map Prod.fst = l := by
  induction l generalizing taken with
  | nil => rfl
  | cons a l ih => rw [admissions, List.map_cons, ih]

/-- An item with a verdict is one of the items. -/
theorem mem_of_mem_admit {taken : List κ} {l : List α} {x : α × Verdict}
    (hx : x ∈ admissions limits group taken l) : x.1 ∈ l := by
  rw [← @admissions_fst _ _ _ limits group taken l]
  exact List.mem_map_of_mem hx

/-- What an item takes is added to what was taken. -/
theorem suffix_take (taken : List κ) (k : κ) : taken <:+ take limits taken k := by
  rw [take]
  split_ifs
  · exact List.suffix_cons k taken
  · exact List.suffix_refl taken

/-- What the items take is added to what was taken. -/
theorem suffix_takenAfter (taken : List κ) (l : List α) :
    taken <:+ takenAfter limits group taken l := by
  induction l generalizing taken with
  | nil => exact List.suffix_refl taken
  | cons a l ih => exact (suffix_take taken _).trans (ih _)

/-- The occurrences of a group grow with what is taken. -/
theorem occurrences_le_of_suffix {taken taken' : List κ} (h : taken <:+ taken') (k : κ) :
    occurrences k taken ≤ occurrences k taken' :=
  h.sublist.countP_le

/-- Where the whole is full, no item is admitted any more. -/
theorem not_admitted_of_total {taken : List κ} {l : List α} {x : α × Verdict}
    (hfull : limits.total ≤ taken.length) (hx : x ∈ admissions limits group taken l) :
    x.2 ≠ .admitted := by
  induction l generalizing taken with
  | nil => cases hx
  | cons a l ih =>
    rcases List.mem_cons.1 hx with rfl | hx
    · intro hadmitted
      change verdict limits taken (group a) = .admitted at hadmitted
      rw [verdict] at hadmitted
      split_ifs at hadmitted with hgroup
    · exact ih (hfull.trans (suffix_take taken _).length_le) hx

/-- Where a group is full, no item of the group is admitted any more. -/
theorem not_admitted_of_group {taken : List κ} {l : List α} {x : α × Verdict}
    (hfull : limits.group ≤ occurrences (group x.1) taken)
    (hx : x ∈ admissions limits group taken l) : x.2 ≠ .admitted := by
  induction l generalizing taken with
  | nil => cases hx
  | cons a l ih =>
    rcases List.mem_cons.1 hx with rfl | hx
    · intro hadmitted
      change verdict limits taken (group a) = .admitted at hadmitted
      rw [verdict, if_pos hfull] at hadmitted
      cases hadmitted
    · exact ih (hfull.trans (occurrences_le_of_suffix (suffix_take taken _) _)) hx

/-- Of two items, the later is not admitted when the earlier found the whole
    full, or found the group of both full. -/
theorem admissions_pairwise (taken : List κ) (l : List α) :
    (admissions limits group taken l).Pairwise fun x y =>
      (x.2 = .totalFull → y.2 ≠ .admitted) ∧
        (x.2 = .groupFull → group y.1 = group x.1 → y.2 ≠ .admitted) := by
  induction l generalizing taken with
  | nil => exact List.Pairwise.nil
  | cons a l ih =>
    refine List.pairwise_cons.2 ⟨fun y hy => ?_, ih _⟩
    have hsuffix := @suffix_take _ _ limits taken (group a)
    refine ⟨fun hfull => ?_, fun hfull hgroup => ?_⟩
    · have htotal := total_le_of_verdict hfull
      exact not_admitted_of_total (htotal.trans hsuffix.length_le) hy
    · have hcount := hgroup.symm ▸ group_le_of_verdict hfull
      exact not_admitted_of_group (hcount.trans (occurrences_le_of_suffix hsuffix _)) hy

/-- What holds of each item and the later ones holds of two items of which the
    first has the smaller key, in a list that is sorted by the key. -/
theorem rel_of_key_lt {β : Type*} [LinearOrder β] {key : α → β} {R : α → α → Prop} {l : List α}
    (hsorted : l.Pairwise fun a b => key a ≤ key b) (h : l.Pairwise R) {a b : α} (ha : a ∈ l)
    (hb : b ∈ l) (hlt : key a < key b) : R a b := by
  induction l with
  | nil => cases ha
  | cons c l ih =>
    obtain ⟨hle, hsorted⟩ := List.pairwise_cons.1 hsorted
    obtain ⟨hR, h⟩ := List.pairwise_cons.1 h
    rcases List.mem_cons.1 ha with rfl | ha'
    · rcases List.mem_cons.1 hb with rfl | hb'
      · exact absurd hlt (lt_irrefl _)
      · exact hR b hb'
    · rcases List.mem_cons.1 hb with rfl | hb'
      · exact absurd (hle a ha') (not_le_of_gt hlt)
      · exact ih hsorted h ha' hb'

/-- A group within its limit stays within it. -/
theorem occurrences_take_le {taken : List κ} {k : κ} (k' : κ)
    (h : occurrences k taken ≤ limits.group) :
    occurrences k (take limits taken k') ≤ limits.group := by
  rw [take]
  split_ifs with hadmitted
  · rw [occurrences_cons]
    split_ifs with hk
    · rw [verdict] at hadmitted
      split_ifs at hadmitted with hgroup
      rw [← hk] at hgroup
      omega
    · exact h
  · exact h

/-- A whole within its limit stays within it. -/
theorem length_take_le {taken : List κ} (k : κ) (h : taken.length ≤ limits.total) :
    (take limits taken k).length ≤ limits.total := by
  rw [take]
  split_ifs with hadmitted
  · rw [verdict] at hadmitted
    split_ifs at hadmitted with hgroup htotal
    rw [List.length_cons]
    omega
  · exact h

/-- A group within its limit is so at the end. -/
theorem occurrences_takenAfter_le {taken : List κ} {k : κ} (l : List α)
    (h : occurrences k taken ≤ limits.group) :
    occurrences k (takenAfter limits group taken l) ≤ limits.group := by
  induction l generalizing taken with
  | nil => exact h
  | cons a l ih => exact ih (occurrences_take_le _ h)

/-- A whole within its limit is so at the end. -/
theorem length_takenAfter_le {taken : List κ} (l : List α) (h : taken.length ≤ limits.total) :
    (takenAfter limits group taken l).length ≤ limits.total := by
  induction l generalizing taken with
  | nil => exact h
  | cons a l ih => exact ih (length_take_le _ h)

/-- A full whole stays as it is. -/
theorem takenAfter_of_total {taken : List κ} (l : List α) (hfull : limits.total ≤ taken.length) :
    takenAfter limits group taken l = taken := by
  induction l with
  | nil => rfl
  | cons a l ih =>
    have hverdict : verdict limits taken (group a) ≠ .admitted := by
      rw [verdict, if_pos hfull]
      split_ifs <;> simp
    rw [takenAfter, take, if_neg hverdict, ih]

/-- A whole ends within its limit, or as large as it was. -/
theorem length_takenAfter_le_max (taken : List κ) (l : List α) :
    (takenAfter limits group taken l).length ≤ max taken.length limits.total := by
  rcases Nat.le_total taken.length limits.total with h | h
  · exact (length_takenAfter_le l h).trans (le_max_right _ _)
  · exact (congrArg List.length (takenAfter_of_total l h)).le.trans (le_max_left _ _)

/-- Where an item is admitted, its group and the whole end within their
    limits. -/
theorem takenAfter_bounded {taken : List κ} {l : List α} {a : α}
    (h : (a, Verdict.admitted) ∈ admissions limits group taken l) :
    occurrences (group a) (takenAfter limits group taken l) ≤ limits.group ∧
      (takenAfter limits group taken l).length ≤ limits.total := by
  induction l generalizing taken with
  | nil => cases h
  | cons b l ih =>
    rcases List.mem_cons.1 h with he | h
    · obtain ⟨rfl, hadmitted⟩ := Prod.mk.inj he
      -- there was room for the item, so there is none too many after it
      have hroom := hadmitted.symm
      rw [verdict] at hroom
      split_ifs at hroom with hgroup htotal
      refine ⟨occurrences_takenAfter_le l ?_, length_takenAfter_le l ?_⟩
      · exact occurrences_take_le _ (Nat.le_of_not_le hgroup)
      · exact length_take_le _ (Nat.le_of_not_le htotal)
    · exact ih h

/-- What is taken at the end are the groups of the admitted items, besides what
    was taken before. -/
theorem takenAfter_perm (taken : List κ) (l : List α) :
    (takenAfter limits group taken l).Perm
      (((admissions limits group taken l).filter fun x => x.2 = .admitted).map (fun x => group x.1) ++
        taken) := by
  induction l generalizing taken with
  | nil => exact List.Perm.refl _
  | cons a l ih =>
    refine (ih _).trans ?_
    rw [admissions, take]
    by_cases h : verdict limits taken (group a) = .admitted
    · rw [if_pos h, List.filter_cons_of_pos (by simpa using h), List.map_cons]
      exact List.perm_middle
    · rw [if_neg h, List.filter_cons_of_neg (by simpa using h)]

/-- The verdict depends only on how much was taken. -/
theorem verdict_perm {taken taken' : List κ} (h : taken.Perm taken') (k : κ) :
    verdict limits taken k = verdict limits taken' k := by
  rw [verdict, verdict, occurrences_perm h, h.length_eq]

/-- What is taken after an item does not depend on the order. -/
theorem take_perm {taken taken' : List κ} (h : taken.Perm taken') (k : κ) :
    (take limits taken k).Perm (take limits taken' k) := by
  rw [take, take, verdict_perm h]
  split_ifs
  · exact h.cons k
  · exact h

/-- The verdicts do not depend on the order of what was taken before. -/
theorem admissions_perm {taken taken' : List κ} (h : taken.Perm taken') (l : List α) :
    admissions limits group taken l = admissions limits group taken' l := by
  induction l generalizing taken taken' with
  | nil => rfl
  | cons a l ih => rw [admissions, admissions, verdict_perm h, ih (take_perm h _)]

/-! ## A second time -/

/-- The verdict on a refused item is the same when all others have been admitted. -/
theorem verdict_takenAfter {taken : List κ} {l : List α} {x : α × Verdict}
    (hx : x ∈ admissions limits group taken l) (hrefused : x.2 ≠ .admitted) :
    verdict limits (takenAfter limits group taken l) (group x.1) = x.2 := by
  induction l generalizing taken with
  | nil => cases hx
  | cons a l ih =>
    rcases List.mem_cons.1 hx with rfl | hx
    · have htake : take limits taken (group a) = taken := if_neg hrefused
      rw [takenAfter, htake]
      change verdict limits taken (group a) ≠ .admitted at hrefused
      change verdict limits _ (group a) = verdict limits taken (group a)
      by_cases hgroup : limits.group ≤ occurrences (group a) taken
      · -- a group that is full stays full
        have hafter := hgroup.trans
          (occurrences_le_of_suffix (@suffix_takenAfter _ _ _ limits group taken l) (group a))
        rw [verdict, verdict, if_pos hgroup, if_pos hafter]
      · -- a whole that is full stays as it is
        rw [verdict, if_neg hgroup] at hrefused
        have htotal : limits.total ≤ taken.length := by
          by_contra hroom
          exact hrefused (if_neg hroom)
        rw [takenAfter_of_total l htotal]
    · exact ih hx

/-- Items that are all refused at once get the verdicts that they get at once. -/
theorem admissions_of_refused {taken : List κ} {l : List α}
    (h : ∀ a ∈ l, verdict limits taken (group a) ≠ .admitted) :
    admissions limits group taken l = l.map fun a => (a, verdict limits taken (group a)) := by
  induction l with
  | nil => rfl
  | cons a l ih =>
    rw [List.forall_mem_cons] at h
    have htake : take limits taken (group a) = taken := if_neg h.1
    rw [admissions, htake, ih h.2, List.map_cons]

end Quota

end McpRuntime
