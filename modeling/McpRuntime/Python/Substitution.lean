import McpRuntime.Python.Text
import Mathlib.Data.List.Infix
import Mathlib.Logic.Relation

/-!
# Substitution

What a text is after parts of it have been replaced, and which texts cannot
appear in it. A replacement puts a *marker* between parts of the text
(`Patched`), so that a text which does not share characters with the marker
(`Overlaps`) occurs afterwards only where it has occurred before.

* `Patched.not_occurs`: a text that does not overlap the marker, and does not
  occur, does not occur after a replacement.
* `not_infix_replaceAll`: no occurrence of the replaced text is left, where it
  does not overlap the marker; `not_infix_foldl_replaceAll`, of several in turn.
* `Overlaps.exists_patch`: a text that overlaps the marker occurs around it,
  between parts of its own.
* `Cursor` and `sub`: `re.sub`, of what is found at each place of a text.
-/

namespace McpRuntime

variable {α : Type*}

/-- `part in text`. -/
theorem Text.hasPart_iff {t part : Text} : t.hasPart part = true ↔ part <:+: t := by
  rw [Text.hasPart, List.any_eq_true, List.infix_iff_prefix_suffix]
  simp only [List.mem_tails, List.isPrefixOf_iff_prefix, and_comm]

/-- A text would have characters in common with an occurrence of the marker: it
    begins before the marker or with it, and goes on into it, or it begins
    inside the marker. -/
def Overlaps (marker s : List α) : Prop :=
  (∃ w, w ≠ [] ∧ w <:+ s ∧ (w <+: marker ∨ marker <+: w)) ∨
    ∃ v, v ≠ [] ∧ v <:+ marker ∧ (s <+: v ∨ v <+: s)

instance Overlaps.decidable [DecidableEq α] (marker s : List α) : Decidable (Overlaps marker s) :=
  decidable_of_iff
    ((∃ w ∈ s.tails, w ≠ [] ∧ (w <+: marker ∨ marker <+: w)) ∨
      ∃ v ∈ marker.tails, v ≠ [] ∧ (s <+: v ∨ v <+: s))
    (by simp only [Overlaps, List.mem_tails, and_left_comm])

/-- The text `u` is made of parts of `t` with the marker between them. The parts
    may have characters in common. -/
def Patched (marker t u : List α) : Prop :=
  ∃ parts : List (List α), u = marker.intercalate parts ∧ ∀ p ∈ parts, p <:+: t

/-- A text that does not overlap the marker does not occur between parts in
    which it does not occur. -/
theorem not_infix_intercalate {marker s : List α} {parts : List (List α)} (hs : s ≠ [])
    (hm : ¬ Overlaps marker s) (h : ∀ p ∈ parts, ¬ s <:+: p) :
    ¬ s <:+: marker.intercalate parts := by
  induction parts with
  | nil => rwa [List.intercalate_nil, List.infix_nil]
  | cons p parts ih =>
    cases parts with
    | nil => rw [List.intercalate_singleton]; exact h p List.mem_cons_self
    | cons q parts =>
      have hrest : ¬ s <:+: marker.intercalate (q :: parts) :=
        ih fun r hr => h r (List.mem_cons_of_mem p hr)
      rw [List.intercalate_cons_cons, List.append_assoc]
      intro hin
      rcases List.infix_append_iff_ne_nil.1 hin with hin | hin | ⟨x, y, -, hy, rfl, -, hpre⟩
      · exact h p List.mem_cons_self hin
      · -- the occurrence begins in the marker or after it
        rcases List.infix_append_iff_ne_nil.1 hin with hin | hin | ⟨x, y, hx, -, rfl, hsuf, -⟩
        · obtain ⟨v, hsv, hv⟩ := List.infix_iff_prefix_suffix.1 hin
          refine hm (.inr ⟨v, ?_, hv, .inl hsv⟩)
          rintro rfl
          exact hs (List.prefix_nil.1 hsv)
        · exact hrest hin
        · exact hm (.inr ⟨x, hx, hsuf, .inr (List.prefix_append x y)⟩)
      · -- the occurrence begins before the marker, and ends in it or after it
        exact hm (.inl ⟨y, hy, List.suffix_append x y,
          List.prefix_or_prefix_of_prefix hpre (List.prefix_append marker _)⟩)

/-- A replacement lets no text occur that has not occurred before, and does not
    overlap the marker. -/
theorem Patched.not_occurs {marker s t u : List α} (h : Patched marker t u) (hs : s ≠ [])
    (hm : ¬ Overlaps marker s) (ht : ¬ s <:+: t) : ¬ s <:+: u := by
  obtain ⟨parts, rfl, hparts⟩ := h
  exact not_infix_intercalate hs hm fun p hp hsp => ht (hsp.trans (hparts p hp))

/-- The text `u` is made of `t` by replacements, one after the other. -/
def Patches (marker t u : List α) : Prop := Relation.ReflTransGen (Patched marker) t u

/-- Replacements let no text occur that has not occurred before, and does not overlap the
    marker. -/
theorem Patches.not_occurs {marker s t u : List α} (h : Patches marker t u) (hs : s ≠ [])
    (hm : ¬ Overlaps marker s) (ht : ¬ s <:+: t) : ¬ s <:+: u := by
  induction h with
  | refl => exact ht
  | tail _ hstep ih => exact hstep.not_occurs hs hm ih

/-- A text and a marker still overlap when their characters are mapped. -/
theorem Overlaps.map {β : Type*} (f : α → β) {marker s : List α} (h : Overlaps marker s) :
    Overlaps (marker.map f) (s.map f) := by
  have hnil : ∀ {w : List α}, w ≠ [] → w.map f ≠ [] := fun hw => by rwa [Ne, List.map_eq_nil_iff]
  rcases h with ⟨w, hw, hsuf, hpre⟩ | ⟨v, hv, hsuf, hpre⟩
  · exact .inl ⟨w.map f, hnil hw, hsuf.map f, hpre.imp (·.map f) (·.map f)⟩
  · exact .inr ⟨v.map f, hnil hv, hsuf.map f, hpre.imp (·.map f) (·.map f)⟩

/-- A part of the marker overlaps it. -/
theorem overlaps_of_part {marker s : List α} (hs : s ≠ []) (h : s <:+: marker) :
    Overlaps marker s := by
  obtain ⟨v, hsv, hv⟩ := List.infix_iff_prefix_suffix.1 h
  refine .inr ⟨v, ?_, hv, .inl hsv⟩
  rintro rfl
  exact hs (List.prefix_nil.1 hsv)

/-- A text has nothing in common with the marker, if it has neither the first nor the last
    character of the marker in it, and has others. -/
theorem not_overlaps_of_notMem {marker s : List α} (hmarker : marker ≠ [])
    (hfirst : ∀ a, marker.head? = some a → a ∉ s) (hlast : ∀ a, marker.getLast? = some a → a ∉ s)
    (hs : ∃ a ∈ s, a ∉ marker) : ¬ Overlaps marker s := by
  obtain ⟨a, m, rfl⟩ := List.exists_cons_of_ne_nil hmarker
  rintro (⟨w, hw, hsuf, hpre⟩ | ⟨v, hv, hsuf, hpre⟩)
  · refine hfirst a rfl (hsuf.mem ?_)
    rcases hpre with hpre | hpre
    · obtain ⟨b, w, rfl⟩ := List.exists_cons_of_ne_nil hw
      rw [(List.cons_prefix_cons.1 hpre).1]
      exact List.mem_cons_self
    · exact hpre.mem List.mem_cons_self
  · rcases hpre with hpre | hpre
    · obtain ⟨b, hb, hb'⟩ := hs
      exact hb' (hsuf.mem (hpre.mem hb))
    · have hv' : (a :: m).getLast? = v.getLast? := by
        obtain ⟨l, hl⟩ := hsuf
        rw [← hl, List.getLast?_append, List.getLast?_eq_getLast_of_ne_nil hv, Option.some_or]
      rw [List.getLast?_eq_getLast_of_ne_nil hv] at hv'
      exact hlast _ hv' (hpre.mem (List.getLast_mem hv))

/-- A text that overlaps the marker occurs around it, between proper parts of the text. -/
theorem Overlaps.exists_patch {marker s : List α} (hmarker : marker ≠ []) (hs : s ≠ [])
    (h : Overlaps marker s) : ∃ x y, s <:+: x ++ marker ++ y ∧
      (x <:+: s ∧ x.length < s.length) ∧ y <:+: s ∧ y.length < s.length := by
  have hnil : [] <:+: s ∧ ([] : List α).length < s.length :=
    ⟨List.nil_infix, List.length_pos_iff.2 hs⟩
  rcases h with ⟨w, hw, ⟨x, rfl⟩, hpre | hpre⟩ | ⟨v, hv, hsuf, hpre | hpre⟩
  · -- it ends in the marker
    obtain ⟨rest, rfl⟩ := hpre
    refine ⟨x, [], ⟨[], rest, by simp⟩, ⟨(List.prefix_append x w).isInfix, ?_⟩, hnil⟩
    have := List.length_pos_iff.2 hw
    rw [List.length_append]
    omega
  · -- it goes on after the marker
    obtain ⟨y, rfl⟩ := hpre
    have := List.length_pos_iff.2 hmarker
    refine ⟨x, y, ⟨[], [], by simp⟩, ⟨(List.prefix_append x _).isInfix, ?_⟩, ?_, ?_⟩
    · simp only [List.length_append]
      omega
    · exact ((List.suffix_append marker y).trans (List.suffix_append x _)).isInfix
    · simp only [List.length_append]
      omega
  · -- it is a part of the marker
    exact ⟨[], [], by simpa using (hpre.isInfix.trans hsuf.isInfix), hnil, hnil⟩
  · -- it begins in the marker
    obtain ⟨y, rfl⟩ := hpre
    obtain ⟨first, rfl⟩ := hsuf
    refine ⟨[], y, ⟨first, [], by simp⟩, hnil, (List.suffix_append v y).isInfix, ?_⟩
    have := List.length_pos_iff.2 hv
    rw [List.length_append]
    omega

/-! ## `replace` -/

section Replace

variable [DecidableEq α] {old new : List α}

variable (new) in
/-- The parts between the replaced occurrences, in which `old` does not occur.
    The first part begins after the rest of an occurrence. -/
theorem replaceAll_parts (ho : old ≠ []) (skip : ℕ) (l : List α) :
    ∃ p ps, replaceAll old new skip l = new.intercalate (p :: ps) ∧ p <+: l.drop skip ∧
      (∀ q ∈ ps, q <:+: l) ∧ ∀ q ∈ p :: ps, ¬ old <:+: q := by
  have hnil : ¬ old <:+: [] := fun h => ho (List.infix_nil.1 h)
  induction l generalizing skip with
  | nil =>
    refine ⟨[], [], by rw [replaceAll, List.intercalate_singleton], List.nil_prefix, nofun, ?_⟩
    rintro q hq
    rwa [List.mem_singleton.1 hq]
  | cons a l ih =>
    have hcons : l <:+: a :: l := (List.suffix_cons a l).isInfix
    cases skip with
    | succ skip =>
      obtain ⟨p, ps, he, hp, hps, hold⟩ := ih skip
      exact ⟨p, ps, by rw [replaceAll, he], by rwa [List.drop_succ_cons],
        fun q hq => (hps q hq).trans hcons, hold⟩
    | zero =>
      rw [replaceAll]
      split_ifs with hpre
      · obtain ⟨p, ps, he, hp, hps, hold⟩ := ih (old.length - 1)
        refine ⟨[], p :: ps, ?_, List.nil_prefix, ?_, ?_⟩
        · rw [he, List.intercalate_cons_cons, List.nil_append]
        · intro q hq
          rcases List.mem_cons.1 hq with rfl | hq
          · exact (hp.isInfix.trans (List.drop_suffix _ l).isInfix).trans hcons
          · exact (hps q hq).trans hcons
        · intro q hq
          rcases List.mem_cons.1 hq with rfl | hq
          · exact hnil
          · exact hold q hq
      · obtain ⟨p, ps, he, hp, hps, hold⟩ := ih 0
        rw [List.drop_zero] at hp
        have hap : a :: p <+: a :: l := (List.cons_prefix_cons).2 ⟨rfl, hp⟩
        refine ⟨a :: p, ps, by rw [he, List.intercalate_cons_cons_left], hap,
          fun q hq => (hps q hq).trans hcons, ?_⟩
        intro q hq
        rcases List.mem_cons.1 hq with rfl | hq
        · -- an occurrence at the first place would have been replaced
          rw [List.infix_cons_iff]
          rintro (hoa | hop)
          · exact hpre (List.isPrefixOf_iff_prefix.2 (hoa.trans hap))
          · exact hold p List.mem_cons_self hop
        · exact hold q (List.mem_cons_of_mem p hq)

/-- What `replace` makes of a text. -/
theorem patched_replaceAll (ho : old ≠ []) (t : List α) :
    Patched new t (replaceAll old new 0 t) := by
  obtain ⟨p, ps, he, hp, hps, -⟩ := replaceAll_parts new ho 0 t
  exact ⟨p :: ps, he, List.forall_mem_cons.2 ⟨hp.isInfix, hps⟩⟩

/-- No occurrence of `old` is left, where it does not overlap what replaces it. -/
theorem not_infix_replaceAll (ho : old ≠ []) (hm : ¬ Overlaps new old) (t : List α) :
    ¬ old <:+: replaceAll old new 0 t := by
  obtain ⟨p, ps, he, -, -, hold⟩ := replaceAll_parts new ho 0 t
  rw [he]
  exact not_infix_intercalate ho hm hold

/-- Where `old` does not occur, nothing is replaced. -/
theorem replaceAll_eq_self {t : List α} (h : ¬ old <:+: t) : replaceAll old new 0 t = t := by
  induction t with
  | nil => rfl
  | cons a t ih =>
    have hpre : ¬ old.isPrefixOf (a :: t) = true :=
      fun hp => h (List.isPrefixOf_iff_prefix.1 hp).isInfix
    rw [replaceAll, if_neg hpre, ih fun ht => h (ht.trans (List.suffix_cons a t).isInfix)]

/-- Where `old` occurs, what replaces it occurs afterwards. -/
theorem infix_replaceAll (ho : old ≠ []) {t : List α} (h : old <:+: t) :
    new <:+: replaceAll old new 0 t := by
  induction t with
  | nil => exact absurd (List.infix_nil.1 h) ho
  | cons a t ih =>
    rw [replaceAll]
    split_ifs with hpre
    · exact (List.prefix_append new _).isInfix
    · rcases List.infix_cons_iff.1 h with hoa | hot
      · exact absurd (List.isPrefixOf_iff_prefix.2 hoa) hpre
      · exact (ih hot).trans (List.suffix_cons a _).isInfix

/-- What replaces `old` is not lost by a further replacement. -/
theorem infix_replaceAll_of_occurs (ho : old ≠ []) {t : List α} (h : new <:+: t) :
    new <:+: replaceAll old new 0 t := by
  by_cases hot : old <:+: t
  · exact infix_replaceAll ho hot
  · rwa [replaceAll_eq_self hot]

/-! ### Replacements in turn -/

variable {olds : List (List α)} {s t : List α}

/-- Replacing texts in turn removes each of them that does not overlap what replaces it. -/
theorem not_infix_foldl_replaceAll (hne : ∀ old ∈ olds, old ≠ []) (hs : s ≠ [])
    (hm : ¬ Overlaps new s) (h : s ∈ olds ∨ ¬ s <:+: t) :
    ¬ s <:+: olds.foldl (fun t old => replaceAll old new 0 t) t := by
  induction olds generalizing t with
  | nil => exact h.resolve_left List.not_mem_nil
  | cons first olds ih =>
    refine ih (fun old hold => hne old (List.mem_cons_of_mem _ hold)) ?_
    rcases h with hmem | hnot
    · rcases List.mem_cons.1 hmem with rfl | hmem
      · exact .inr (not_infix_replaceAll hs hm t)
      · exact .inl hmem
    · exact .inr ((patched_replaceAll (hne first List.mem_cons_self) t).not_occurs hs hm hnot)

/-- What replacing texts in turn makes of a text. -/
theorem patches_foldl_replaceAll (hne : ∀ old ∈ olds, old ≠ []) (t : List α) :
    Patches new t (olds.foldl (fun t old => replaceAll old new 0 t) t) := by
  induction olds generalizing t with
  | nil => exact Relation.ReflTransGen.refl
  | cons first olds ih =>
    refine Relation.ReflTransGen.head ?_ (ih (fun old hold => hne old (List.mem_cons_of_mem _ hold)) _)
    exact patched_replaceAll (hne first List.mem_cons_self) t

/-- Where none of the texts occurs, none is replaced. -/
theorem foldl_replaceAll_eq_self (h : ∀ old ∈ olds, ¬ old <:+: t) :
    olds.foldl (fun t old => replaceAll old new 0 t) t = t := by
  induction olds with
  | nil => rfl
  | cons old olds ih =>
    rw [List.foldl_cons, replaceAll_eq_self (h old List.mem_cons_self)]
    exact ih fun old' hold' => h old' (List.mem_cons_of_mem _ hold')

/-- Replacing texts in turn leaves what replaces them where one of them occurs, or where it has
    been before. -/
theorem infix_foldl_replaceAll (hne : ∀ old ∈ olds, old ≠ [])
    (h : (∃ old ∈ olds, old <:+: t) ∨ new <:+: t) :
    new <:+: olds.foldl (fun t old => replaceAll old new 0 t) t := by
  induction olds generalizing t with
  | nil => exact h.resolve_left fun ⟨_, hold, _⟩ => absurd hold List.not_mem_nil
  | cons first olds ih =>
    have hfirst := hne first List.mem_cons_self
    refine ih (fun old hold => hne old (List.mem_cons_of_mem _ hold)) ?_
    change (∃ old ∈ olds, old <:+: replaceAll first new 0 t) ∨ new <:+: replaceAll first new 0 t
    rcases h with ⟨old, hold, hin⟩ | hin
    · by_cases hoccurs : first <:+: t
      · exact .inr (infix_replaceAll hfirst hoccurs)
      · rcases List.mem_cons.1 hold with rfl | hold
        · exact absurd hin hoccurs
        · rw [replaceAll_eq_self hoccurs]
          exact .inl ⟨old, hold, hin⟩
    · exact .inr (infix_replaceAll_of_occurs hfirst hin)

end Replace

/-! ## `re.sub` -/

/-- A place in a text: the characters before it, the nearest first, and those
    after it. -/
structure Cursor (α : Type*) where
  before : List α
  after : List α

/-- What is found at a place: the number of characters that are replaced, and
    what replaces them. -/
abbrev Finder (α : Type*) := Cursor α → Option (ℕ × List α)

/-- `pattern.sub(replacement, text)`, for a pattern that does not match the empty
    text: what is found is replaced from the left, and does not overlap. The
    first `skip` characters are the rest of a match. -/
def sub (find : Finder α) (before : List α) (skip : ℕ) : List α → List α
  | [] => []
  | a :: l =>
    match skip with
    | skip + 1 => sub find (a :: before) skip l
    | 0 =>
      match find ⟨before, a :: l⟩ with
      | some (n, new) => new ++ sub find (a :: before) (n - 1) l
      | none => a :: sub find (a :: before) 0 l

/-- `pattern.search(text)` finds a match. -/
def search (find : Finder α) (before : List α) : List α → Bool
  | [] => false
  | a :: l => (find ⟨before, a :: l⟩).isSome || search find (a :: before) l

/-- A match is replaced by the marker, with a beginning of the match before it
    and an end of the match after it. -/
def Marks (marker : List α) (find : Finder α) : Prop :=
  ∀ c n new, find c = some (n, new) →
    ∃ x y, new = x ++ marker ++ y ∧ x <+: c.after.take n ∧ y <:+ c.after.take n

variable {find : Finder α} {marker : List α}

/-- The parts between the markers. The first part begins after the rest of a
    match. -/
theorem sub_parts (hf : Marks marker find) (before : List α) (skip : ℕ) (l : List α) :
    ∃ p ps, sub find before skip l = marker.intercalate (p :: ps) ∧ p <+: l.drop skip ∧
      ∀ q ∈ ps, q <:+: l := by
  induction l generalizing before skip with
  | nil => exact ⟨[], [], by rw [sub, List.intercalate_singleton], List.nil_prefix, nofun⟩
  | cons a l ih =>
    have hcons : l <:+: a :: l := (List.suffix_cons a l).isInfix
    cases skip with
    | succ skip =>
      obtain ⟨p, ps, he, hp, hps⟩ := ih (a :: before) skip
      exact ⟨p, ps, by rw [sub, he], by rwa [List.drop_succ_cons],
        fun q hq => (hps q hq).trans hcons⟩
    | zero =>
      rw [sub]
      cases hfound : find ⟨before, a :: l⟩ with
      | none =>
        obtain ⟨p, ps, he, hp, hps⟩ := ih (a :: before) 0
        rw [List.drop_zero] at hp
        exact ⟨a :: p, ps, by rw [List.intercalate_cons_cons_left, ← he],
          (List.cons_prefix_cons).2 ⟨rfl, hp⟩, fun q hq => (hps q hq).trans hcons⟩
      | some found =>
        -- The search goes on inside what was matched, which is skipped.
        obtain ⟨n, new⟩ := found
        obtain ⟨x, y, rfl, hx, hy⟩ := hf _ _ _ hfound
        obtain ⟨p, ps, he, hp, hps⟩ := ih (a :: before) (n - 1)
        refine ⟨x, (y ++ p) :: ps, ?_, hx.trans (List.take_prefix n _), ?_⟩
        · change x ++ marker ++ y ++ sub find (a :: before) (n - 1) l = _
          rw [he, List.intercalate_cons_cons]
          cases ps with
          | nil => simp only [List.intercalate_singleton, List.append_assoc]
          | cons q ps => simp only [List.intercalate_cons_cons, List.append_assoc]
        · -- the end of the match goes on with the text after the match
          have hyp : y ++ p <:+: a :: l := by
            cases n with
            | zero =>
              rw [List.take_zero, List.suffix_nil] at hy
              rw [hy, List.nil_append]
              exact hp.isInfix.trans hcons
            | succ n =>
              obtain ⟨x', hx'⟩ := hy
              obtain ⟨p', hp'⟩ := hp
              refine ⟨x', p', ?_⟩
              rw [Nat.add_sub_cancel] at hp'
              rw [← List.append_assoc, hx', List.append_assoc, hp',
                ← List.drop_succ_cons (a := a), List.take_append_drop]
          exact List.forall_mem_cons.2 ⟨hyp, fun q hq => (hps q hq).trans hcons⟩

/-- What `re.sub` makes of a text. -/
theorem patched_sub (hf : Marks marker find) (t : List α) : Patched marker t (sub find [] 0 t) := by
  obtain ⟨p, ps, he, hp, hps⟩ := sub_parts hf [] 0 t
  exact ⟨p :: ps, he, List.forall_mem_cons.2 ⟨hp.isInfix, hps⟩⟩

/-- Where nothing is found, nothing is replaced. -/
theorem sub_eq_self {before t : List α} (h : search find before t = false) :
    sub find before 0 t = t := by
  induction t generalizing before with
  | nil => rfl
  | cons a t ih =>
    rw [search, Bool.or_eq_false_iff, Option.isSome_eq_false_iff, Option.isNone_iff_eq_none] at h
    rw [sub, h.1, ih h.2]

/-- Where something is found, the marker occurs afterwards. -/
theorem infix_sub (hf : Marks marker find) {before t : List α} (h : search find before t = true) :
    marker <:+: sub find before 0 t := by
  induction t generalizing before with
  | nil => exact absurd h Bool.false_ne_true
  | cons a t ih =>
    rw [sub]
    rw [search, Bool.or_eq_true] at h
    cases hfound : find ⟨before, a :: t⟩ with
    | none =>
      rw [hfound] at h
      exact (ih (h.resolve_left Bool.false_ne_true)).trans (List.suffix_cons a _).isInfix
    | some found =>
      obtain ⟨n, new⟩ := found
      obtain ⟨x, y, rfl, -, -⟩ := hf _ _ _ hfound
      exact ⟨x, y ++ sub find (a :: before) (n - 1) t, (List.append_assoc _ _ _).symm⟩

/-- The marker is not lost by a further replacement. -/
theorem infix_sub_of_occurs (hf : Marks marker find) {before t : List α} (h : marker <:+: t) :
    marker <:+: sub find before 0 t := by
  cases hfound : search find before t with
  | true => exact infix_sub hf hfound
  | false => rwa [sub_eq_self hfound]

end McpRuntime
