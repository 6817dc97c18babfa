import McpRuntime.Python.Substitution

/-!
# The matches that are replaced

`re.sub` replaces the matches that `re.finditer` gives, one after the other. What
it makes of a text is told match by match (`Rewrites`): a gap in which nothing is
found, a match, and the rest of the text after it.

* `rewrites_sub`: this is what `sub` does, where no match is empty.
* `Rewrites.occurs_of_occurs`, `Rewrites.follows_of_follows`: texts that do not overlap
  what is inserted occur in the output only where, and in the order in which, they
  have occurred before.
-/

namespace McpRuntime

variable {α : Type*} {find : Finder α} {before before' t u : List α}

/-- `pattern.finditer(text)`: the places of the matches. The first `skip` characters are the rest
    of a match. -/
def finditer (find : Finder α) (before : List α) (skip : ℕ) : List α → List (Cursor α)
  | [] => []
  | a :: l =>
    match skip with
    | skip + 1 => finditer find (a :: before) skip l
    | 0 =>
      match find ⟨before, a :: l⟩ with
      | some (n, _) => ⟨before, a :: l⟩ :: finditer find (a :: before) (n - 1) l
      | none => finditer find (a :: before) 0 l

/-- Nothing is found in the gap before a rest. -/
def FindsNone (find : Finder α) (before gap rest : List α) : Prop :=
  ∀ x y, gap = x ++ y → y ≠ [] → find ⟨x.reverse ++ before, y ++ rest⟩ = none

/-- A gap in which nothing is found, from its first character on. -/
theorem findsNone_cons {a : α} {gap rest : List α} :
    FindsNone find before (a :: gap) rest ↔
      find ⟨before, a :: gap ++ rest⟩ = none ∧ FindsNone find (a :: before) gap rest := by
  constructor
  · intro h
    refine ⟨h [] (a :: gap) rfl (List.cons_ne_nil _ _), fun x y hxy hy => ?_⟩
    have := h (a :: x) y (by rw [hxy, List.cons_append]) hy
    rwa [List.reverse_cons, List.append_assoc] at this
  · rintro ⟨hfirst, hrest⟩ x y hxy hy
    cases x with
    | nil => rw [List.nil_append] at hxy; rwa [← hxy]
    | cons b x =>
      rw [List.cons_append, List.cons.injEq] at hxy
      obtain ⟨rfl, hxy⟩ := hxy
      rw [List.reverse_cons, List.append_assoc]
      exact hrest x y hxy hy

/-- Two gaps beside each other. -/
theorem findsNone_append {gap gap' rest : List α} :
    FindsNone find before (gap ++ gap') rest ↔
      FindsNone find before gap (gap' ++ rest) ∧
        FindsNone find (gap.reverse ++ before) gap' rest := by
  induction gap generalizing before with
  | nil => exact ⟨fun h => ⟨fun x y hxy hy => absurd (List.append_eq_nil_iff.1 hxy.symm).2 hy, h⟩,
      fun h => h.2⟩
  | cons a gap ih =>
    rw [List.cons_append, findsNone_cons, ih, findsNone_cons, and_assoc, ← List.cons_append,
      List.append_assoc, List.reverse_cons, List.append_assoc]
    rfl

/-- A search finds nothing in a text that is a gap as a whole. -/
theorem findsNone_iff_search : FindsNone find before t [] ↔ search find before t = false := by
  induction t generalizing before with
  | nil => exact iff_of_true (fun x y hxy hy => absurd (List.append_eq_nil_iff.1 hxy.symm).2 hy) rfl
  | cons a t ih =>
    rw [findsNone_cons, ih, search, Bool.or_eq_false_iff, Option.isSome_eq_false_iff,
      Option.isNone_iff_eq_none, List.append_nil]

/-- A search finds nothing in a gap, and nothing behind it. -/
theorem search_append {gap rest : List α} : search find before (gap ++ rest) = false ↔
    FindsNone find before gap rest ∧ search find (gap.reverse ++ before) rest = false := by
  rw [← findsNone_iff_search, ← findsNone_iff_search, findsNone_append, List.append_nil]

/-- What is found does not tell two places apart: the characters before them are the same, or the
    first character of the text behind them is none that a match begins with. -/
def SameEdge (q : α → Bool) (before before' t : List α) : Prop :=
  before.head? = before'.head? ∨ t.head?.any q = false

/-- A gap at the beginning of a text has the edge of the text. -/
theorem SameEdge.gap {q : α → Bool} {gap rest : List α}
    (hedge : SameEdge q before before' (gap ++ rest)) : SameEdge q before before' gap := by
  refine hedge.imp_right fun hhead => ?_
  cases gap with
  | nil => rfl
  | cons a gap => exact hhead

/-- Nothing is found in a gap, if nothing is found in it between other texts, where what is found
    within the gap depends on them only by the character before it. -/
theorem FindsNone.transfer {q : α → Bool} {gap rest rest' : List α}
    (h : FindsNone find before gap rest)
    (hstart : ∀ c : Cursor α, c.after.head?.any q = false → find c = none)
    (hedge : SameEdge q before before' gap)
    (hplace : ∀ x y b b', gap = x ++ y → y ≠ [] → b.head? = b'.head? →
      find ⟨b, y ++ rest⟩ = none → find ⟨b', y ++ rest'⟩ = none) :
    FindsNone find before' gap rest' := by
  intro x y hxy hy
  have hnone := h x y hxy hy
  cases x with
  | nil =>
    rw [List.nil_append] at hxy
    subst hxy
    rcases hedge with hedge | hedge
    · exact hplace [] gap _ _ rfl hy hedge hnone
    · refine hstart _ ?_
      rwa [List.head?_append_of_ne_nil _ hy]
  | cons a x =>
    refine hplace (a :: x) y _ _ hxy hy ?_ hnone
    have hne : (a :: x).reverse ≠ [] := by rw [Ne, List.reverse_eq_nil_iff]; exact List.cons_ne_nil _ _
    rw [List.head?_append_of_ne_nil _ hne, List.head?_append_of_ne_nil _ hne]

/-- A gap is kept. -/
theorem sub_append {gap rest : List α} (h : FindsNone find before gap rest) :
    sub find before 0 (gap ++ rest) = gap ++ sub find (gap.reverse ++ before) 0 rest := by
  induction gap generalizing before with
  | nil => rfl
  | cons a gap ih =>
    rw [findsNone_cons] at h
    rw [List.cons_append, sub, ← List.cons_append, h.1, ih h.2, List.reverse_cons,
      List.append_assoc]
    rfl

/-- The rest of a match is passed over. -/
theorem sub_skip (skip : ℕ) (l : List α) :
    sub find before skip l = sub find ((l.take skip).reverse ++ before) 0 (l.drop skip) := by
  induction l generalizing before skip with
  | nil => rw [List.drop_nil, sub, sub]
  | cons a l ih =>
    cases skip with
    | zero => rfl
    | succ skip =>
      rw [sub, ih, List.take_succ_cons, List.drop_succ_cons, List.reverse_cons, List.append_assoc]
      rfl

/-- The rest of a match has no other match in it. -/
theorem finditer_skip (skip : ℕ) (l : List α) :
    finditer find before skip l =
      finditer find ((l.take skip).reverse ++ before) 0 (l.drop skip) := by
  induction l generalizing before skip with
  | nil => rw [List.drop_nil, finditer, finditer]
  | cons a l ih =>
    cases skip with
    | zero => rfl
    | succ skip =>
      rw [finditer, ih, List.take_succ_cons, List.drop_succ_cons, List.reverse_cons,
        List.append_assoc]
      rfl

/-- A match is replaced. -/
theorem sub_of_find {matched rest new : List α} (hmatched : matched ≠ [])
    (h : find ⟨before, matched ++ rest⟩ = some (matched.length, new)) :
    sub find before 0 (matched ++ rest) = new ++ sub find (matched.reverse ++ before) 0 rest := by
  obtain ⟨a, l, rfl⟩ := List.exists_cons_of_ne_nil hmatched
  rw [List.cons_append] at h ⊢
  rw [sub, h]
  change new ++ sub find (a :: before) ((a :: l).length - 1) (l ++ rest) = _
  rw [sub_skip, List.length_cons, Nat.add_sub_cancel, List.take_left, List.drop_left,
    List.reverse_cons, List.append_assoc]
  rfl

/-- What `sub` makes of the text `t` that stands after `before`, match by match: the text `u`. The
    matches are at `places`. -/
inductive Rewrites (find : Finder α) : List α → List α → List α → List (Cursor α) → Prop
  /-- Nothing is found any more. -/
  | done {b t : List α} (h : search find b t = false) : Rewrites find b t t []
  /-- A match, behind a gap in which nothing is found. -/
  | next {b gap matched rest new out : List α} {places : List (Cursor α)}
      (hgap : FindsNone find b gap (matched ++ rest)) (hmatched : matched ≠ [])
      (hfind : find ⟨gap.reverse ++ b, matched ++ rest⟩ = some (matched.length, new))
      (hrest : Rewrites find (matched.reverse ++ (gap.reverse ++ b)) rest out places) :
      Rewrites find b (gap ++ (matched ++ rest)) (gap ++ (new ++ out))
        (⟨gap.reverse ++ b, matched ++ rest⟩ :: places)

/-- A character at which nothing is found is kept. -/
theorem Rewrites.cons {a : α} {places : List (Cursor α)} (ha : find ⟨before, a :: t⟩ = none)
    (h : Rewrites find (a :: before) t u places) : Rewrites find before (a :: t) (a :: u) places := by
  cases h with
  | done h =>
    refine .done ?_
    rw [search, ha, h]
    rfl
  | @next _ gap matched rest new out places hgap hmatched hfind hrest =>
    have hreverse : (a :: gap).reverse ++ before = gap.reverse ++ a :: before := by
      rw [List.reverse_cons, List.append_assoc]
      rfl
    rw [← hreverse] at hfind hrest ⊢
    exact .next (findsNone_cons.2 ⟨ha, hgap⟩) hmatched hfind hrest

/-- What a finder finds is not empty, and within the text. -/
def Finds (find : Finder α) : Prop :=
  ∀ c n new, find c = some (n, new) → 0 < n ∧ n ≤ c.after.length

/-- What `sub` does, match by match. -/
theorem rewrites_sub (hfind : Finds find) (before t : List α) :
    Rewrites find before t (sub find before 0 t) (finditer find before 0 t) := by
  induction hlength : t.length using Nat.strong_induction_on generalizing before t with
  | _ k ih =>
    cases t with
    | nil => exact .done rfl
    | cons a l =>
      rw [List.length_cons] at hlength
      rw [sub, finditer]
      cases hfound : find ⟨before, a :: l⟩ with
      | none => exact (ih l.length (by omega) (a :: before) l rfl).cons hfound
      | some found =>
        obtain ⟨n, new⟩ := found
        obtain ⟨hpos, hn⟩ := hfind _ _ _ hfound
        rw [List.length_cons] at hn
        -- the match is the character and `n - 1` more of them
        have hrest := ih (l.drop (n - 1)).length (by rw [List.length_drop]; omega)
          ((l.take (n - 1)).reverse ++ a :: before) (l.drop (n - 1)) rfl
        rw [← sub_skip, ← finditer_skip] at hrest
        have hlen : (a :: l.take (n - 1)).length = n := by
          rw [List.length_cons, List.length_take, Nat.min_eq_left (by omega)]
          omega
        have hl : a :: l = (a :: l.take (n - 1)) ++ l.drop (n - 1) := by
          rw [List.cons_append, List.take_append_drop]
        have hgap : FindsNone find before [] ((a :: l.take (n - 1)) ++ l.drop (n - 1)) :=
          fun x y hxy hy => absurd (List.append_eq_nil_iff.1 hxy.symm).2 hy
        have hnext : Rewrites find before ([] ++ ((a :: l.take (n - 1)) ++ l.drop (n - 1)))
            ([] ++ (new ++ sub find (a :: before) (n - 1) l))
            (⟨before, (a :: l.take (n - 1)) ++ l.drop (n - 1)⟩ ::
              finditer find (a :: before) (n - 1) l) := by
          refine .next hgap (List.cons_ne_nil _ _) ?_ ?_
          · rw [hlen, ← hl]
            exact hfound
          · rw [List.reverse_cons, List.append_assoc]
            exact hrest
        rwa [← hl] at hnext

/-! ## Texts that come apart from what is inserted -/

/-- A text that does not overlap the marker occurs before the marker, or after it. -/
theorem split_of_not_overlaps {marker s x w g o : List α} (hs : s ≠ []) (hm : ¬ Overlaps marker s)
    (h : x ++ (s ++ w) = g ++ (marker ++ o)) :
    (∃ g', g = x ++ (s ++ g') ∧ w = g' ++ (marker ++ o)) ∨ ∃ o', o = o' ++ (s ++ w) := by
  rcases List.append_eq_append_iff.1 h with ⟨g', rfl, hw⟩ | ⟨x', rfl, hw⟩
  · -- the occurrence begins before the marker, or with it
    rcases List.append_eq_append_iff.1 hw with ⟨g'', rfl, hw'⟩ | ⟨s', rfl, hw'⟩
    · exact .inl ⟨g'', rfl, hw'⟩
    · cases s' with
      | nil => exact .inl ⟨[], by rw [List.append_nil, List.append_nil], hw'.symm⟩
      | cons a s' =>
        refine absurd (.inl ⟨a :: s', List.cons_ne_nil _ _, List.suffix_append g' _, ?_⟩) hm
        exact List.prefix_or_prefix_of_prefix ⟨w, hw'.symm⟩ (List.prefix_append marker o)
  · rcases List.append_eq_append_iff.1 hw with ⟨x'', rfl, hw'⟩ | ⟨m', rfl, hw'⟩
    · exact .inr ⟨x'', hw'⟩
    · cases m' with
      | nil => exact .inr ⟨[], hw'.symm⟩
      | cons a m' =>
        -- it begins inside the marker
        refine absurd (.inr ⟨a :: m', List.cons_ne_nil _ _, List.suffix_append x' _, ?_⟩) hm
        exact List.prefix_or_prefix_of_prefix (List.prefix_append s w) ⟨o, hw'.symm⟩

/-- A text that does not overlap the marker does not occur because of it. -/
theorem occurs_or_occurs {marker s g o : List α} (hs : s ≠ []) (hm : ¬ Overlaps marker s)
    (h : s <:+: g ++ (marker ++ o)) : s <:+: g ∨ s <:+: o := by
  obtain ⟨x, w, hxw⟩ := h
  rw [List.append_assoc] at hxw
  rcases split_of_not_overlaps hs hm hxw with ⟨g', rfl, -⟩ | ⟨o', rfl⟩
  · exact .inl ⟨x, g', List.append_assoc _ _ _⟩
  · exact .inr ⟨o', w, List.append_assoc _ _ _⟩

/-- A match keeps its first characters, and has one of the texts `Q` in the place of the others. -/
def Inserts (Q : List α → Prop) (find : Finder α) : Prop :=
  ∀ c n new, find c = some (n, new) →
    ∃ kept dropped inserted, c.after.take n = kept ++ dropped ∧ new = kept ++ inserted ∧ Q inserted

/-- The text `s` occurs, and `s'` occurs behind it. -/
def Follows (s s' t : List α) : Prop := ∃ x y z, t = x ++ (s ++ (y ++ (s' ++ z)))

variable {Q : List α → Prop} {places : List (Cursor α)} {s s' : List α}

/-- A text that does not overlap what is inserted occurs only where it has occurred before. -/
theorem Rewrites.occurs_of_occurs (hfind : Inserts Q find) (hs : s ≠ [])
    (hm : ∀ inserted, Q inserted → ¬ Overlaps inserted s) (h : Rewrites find before t u places)
    (hu : s <:+: u) : s <:+: t := by
  induction h with
  | done => exact hu
  | @next b gap matched rest new out places hgap hmatched hfound hrest ih =>
    obtain ⟨kept, dropped, inserted, htake, rfl, hQ⟩ := hfind _ _ _ hfound
    rw [List.take_left] at htake
    subst htake
    rw [← List.append_assoc, ← List.append_assoc, List.append_assoc _ inserted] at hu
    rw [List.append_assoc, ← List.append_assoc]
    rcases occurs_or_occurs hs (hm _ hQ) hu with hu | hu
    · exact hu.trans (List.prefix_append _ _).isInfix
    · exact (ih hu).trans ((List.suffix_append dropped rest).trans (List.suffix_append _ _)).isInfix

/-- Texts that do not overlap what is inserted follow each other only where they have done so
    before. -/
theorem Rewrites.follows_of_follows (hfind : Inserts Q find) (hs : s ≠ []) (hs' : s' ≠ [])
    (hm : ∀ inserted, Q inserted → ¬ Overlaps inserted s ∧ ¬ Overlaps inserted s')
    (h : Rewrites find before t u places) (hu : Follows s s' u) : Follows s s' t := by
  induction h with
  | done => exact hu
  | @next b gap matched rest new out places hgap hmatched hfound hrest ih =>
    obtain ⟨x, y, z, hxyz⟩ := hu
    obtain ⟨kept, dropped, inserted, htake, rfl, hQ⟩ := hfind _ _ _ hfound
    rw [List.take_left] at htake
    subst htake
    rw [← List.append_assoc, ← List.append_assoc, List.append_assoc _ inserted] at hxyz
    rw [List.append_assoc kept, ← List.append_assoc gap]
    rcases split_of_not_overlaps hs (hm _ hQ).1 hxyz.symm with ⟨g, hg, hw⟩ | ⟨o, ho⟩
    · rw [hg]
      rcases split_of_not_overlaps hs' (hm _ hQ).2 hw with ⟨g', rfl, -⟩ | ⟨o, ho⟩
      · exact ⟨x, y, g' ++ (dropped ++ rest), by simp only [List.append_assoc]⟩
      · -- the second text is behind the match, in what has become of the rest
        have hout : s' <:+: out := ⟨o, z, by rw [ho, List.append_assoc]⟩
        obtain ⟨p, q, hpq⟩ :=
          hrest.occurs_of_occurs hfind hs' (fun inserted hQ => (hm inserted hQ).2) hout
        exact ⟨x, g ++ (dropped ++ p), q, by rw [← hpq]; simp only [List.append_assoc]⟩
    · obtain ⟨x', y', z', hrest'⟩ := ih ⟨o, y, z, ho⟩
      exact ⟨gap ++ kept ++ (dropped ++ x'), y', z', by rw [hrest']; simp only [List.append_assoc]⟩

/-- Texts that are found where they follow each other, and do not overlap what is inserted, do not
    follow each other afterwards. -/
theorem Rewrites.not_follows {marker : List α} (hs : s ≠ []) (hs' : s' ≠ [])
    (hfind : ∀ c n new, find c = some (n, new) → new = marker)
    (hm : ¬ Overlaps marker s ∧ ¬ Overlaps marker s')
    (hfound : ∀ b y z, find ⟨b, s ++ (y ++ (s' ++ z))⟩ ≠ none)
    (h : Rewrites find before t u places) : ¬ Follows s s' u := by
  have hinserts : Inserts (· = marker) find := fun c n new h =>
    ⟨[], c.after.take n, new, rfl, rfl, hfind c n new h⟩
  induction h with
  | done hsearch =>
    rintro ⟨x, y, z, rfl⟩
    rw [← findsNone_iff_search] at hsearch
    have hnone := hsearch x _ rfl fun hnil => hs (List.append_eq_nil_iff.1 hnil).1
    rw [List.append_nil] at hnone
    exact hfound _ _ _ hnone
  | @next b gap matched rest new out places hgap hmatched hfind' hrest ih =>
    rintro ⟨x, y, z, hxyz⟩
    obtain rfl := hfind _ _ _ hfind'
    rcases split_of_not_overlaps hs hm.1 hxyz.symm with ⟨g, rfl, hw⟩ | ⟨o, ho⟩
    · -- the first text is in the gap, and the second behind it, so that both would be a match
      have hnone := hgap x (s ++ g) rfl fun hnil => hs (List.append_eq_nil_iff.1 hnil).1
      rcases split_of_not_overlaps hs' hm.2 hw with ⟨g', rfl, -⟩ | ⟨o, ho⟩
      · simp only [List.append_assoc] at hnone
        exact hfound _ _ _ hnone
      · have hout : s' <:+: out := ⟨o, z, by rw [ho, List.append_assoc]⟩
        obtain ⟨p, q, hpq⟩ := hrest.occurs_of_occurs hinserts hs'
          (fun inserted hQ => hQ ▸ hm.2) hout
        have happ : s ++ g ++ (matched ++ rest) = s ++ ((g ++ (matched ++ p)) ++ (s' ++ q)) := by
          rw [← hpq]
          simp only [List.append_assoc]
        rw [happ] at hnone
        exact hfound _ _ _ hnone
    · exact ih ⟨o, y, z, ho⟩

end McpRuntime
