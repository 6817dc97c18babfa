import McpRuntime.Redaction.Patterns
import McpRuntime.Redaction.Secrecy

/-!
# Redaction of redacted texts

A redacted text has no credentials left for the first passes of the redactor: no
private key, and no token. The last pass finds every assignment again, with the
marker as the assigned text. The marker in quotes it replaces by itself. Without
quotes it replaces the marker up to its `]`, which ends an unquoted text, by the
whole marker, so that each redaction adds another `]`.

* `SecretRedactor.search_privateKey_redactPlain`, `SecretRedactor.search_jwt_redactPlain`:
  the first passes leave a redacted text as it is.
* `Rewrites.sub_sub`: the last pass does so just where all it has found are quoted
  texts.
* `SecretRedactor.redactText_idempotent_iff`: when a redacted text is redacted to
  itself.
-/

namespace McpRuntime

open Pattern

variable {word : CodePoint → Bool}

/-! ## What the passes insert -/

/-- The marker, or the marker in quotes. -/
def IsInserted (inserted : Text) : Prop :=
  inserted = redactedText ∨ ∃ quote : CodePoint, (quote.val = 34 ∨ quote.val = 39) ∧
    inserted = quote :: redactedText ++ [quote]

/-- An assigned text is replaced by the marker, or by the marker in quotes. -/
theorem isInserted_redactAssigned (assigned : Text) : IsInserted (redactAssigned assigned) := by
  by_cases h : IsQuoted assigned
  · obtain ⟨quote, hquote, -, -, he⟩ := h.redactAssigned
    exact .inr ⟨quote, hquote, he⟩
  · exact .inl (redactAssigned_of_not h)

/-- The passes over private keys and tokens insert the marker. -/
theorem inserts_replacedBy (r : Regex CodePoint) :
    Inserts IsInserted (r.replacedBy redactedText) := by
  intro c n new h
  rw [Regex.replacedBy, Option.map_eq_some_iff] at h
  obtain ⟨m, -, he⟩ := h
  cases he
  exact ⟨[], c.after.take n, redactedText, rfl, rfl, .inl rfl⟩

/-- The pass over assignments keeps what comes before an assigned text. -/
theorem inserts_findAssignment : Inserts IsInserted (findAssignment word) := by
  intro c n new h
  obtain ⟨i, hi, m, hm, rfl, rfl⟩ := findAssignment_eq_some_iff.1 h
  exact ⟨_, _, _, List.take_add, rfl, isInserted_redactAssigned _⟩

/-- What is inserted has nothing in common with a line of a private key. -/
theorem not_overlaps_keyLine {key : String} {inserted line : Text}
    (honly : (lit ("-----" ++ key ++ " ")).all isKeyLineChar = true)
    (hstarts : (lit ("-----" ++ key ++ " ")).head? = some 45) (h : IsInserted inserted)
    (hline : (keyLine key).Accepts line) : ¬ Overlaps inserted line := by
  have hmem : ∀ a ∈ line, isKeyLineChar a = true := by
    have hall := (only_keyLine honly).forall_mem hline
    rwa [List.take_length] at hall
  obtain ⟨-, a, ha, rfl⟩ := starts_keyLine key hstarts _ _ hline
  have hhyphen : 45 ∈ line := List.mem_of_head? ha
  have hnotMem : ∀ a, isKeyLineChar a = false → a ∉ line := fun a ha hline => by
    rw [hmem a hline] at ha
    cases ha
  rcases h with rfl | ⟨quote, hquote, rfl⟩
  · refine not_overlaps_of_notMem (by decide) ?_ ?_ ⟨45, hhyphen, by decide⟩
    · intro a ha
      rw [show redactedText.head? = some 91 by decide, Option.some.injEq] at ha
      exact ha ▸ hnotMem 91 (by decide)
    · intro a ha
      rw [show redactedText.getLast? = some 93 by decide, Option.some.injEq] at ha
      exact ha ▸ hnotMem 93 (by decide)
  · have hquote' : quote ∉ line := by
      rcases hquote with hquote | hquote
      · obtain rfl : quote = 34 := Fin.ext hquote
        exact hnotMem 34 (by decide)
      · obtain rfl : quote = 39 := Fin.ext hquote
        exact hnotMem 39 (by decide)
    refine not_overlaps_of_notMem (List.cons_ne_nil _ _) ?_ ?_ ⟨45, hhyphen, ?_⟩
    · intro a ha
      rw [List.cons_append, List.head?_cons, Option.some.injEq] at ha
      exact ha ▸ hquote'
    · intro a ha
      rw [List.getLast?_concat, Option.some.injEq] at ha
      exact ha ▸ hquote'
    · have hmarker : (45 : CodePoint) ∉ redactedText := by decide
      have hne : (45 : CodePoint) ≠ quote := by
        rintro rfl
        exact hquote' hhyphen
      simp only [List.cons_append, List.mem_cons, List.mem_append, List.not_mem_nil, or_false,
        not_or]
      exact ⟨hne, hmarker, hne⟩

/-! ## Private keys -/

/-- The lines of a private key. -/
def IsKeyLines (first last : Text) : Prop :=
  (keyLine "BEGIN").Accepts first ∧ (keyLine "END").Accepts last

/-- What is inserted has nothing in common with the lines of a private key. -/
theorem IsKeyLines.not_overlaps {first last inserted : Text} (h : IsKeyLines first last)
    (hinserted : IsInserted inserted) :
    ¬ Overlaps inserted first ∧ ¬ Overlaps inserted last :=
  ⟨not_overlaps_keyLine (by decide) (by decide) hinserted h.1,
    not_overlaps_keyLine (by decide) (by decide) hinserted h.2⟩

/-- The lines of a private key are not empty. -/
theorem IsKeyLines.ne_nil {first last : Text} (h : IsKeyLines first last) :
    first ≠ [] ∧ last ≠ [] := by
  constructor
  · obtain ⟨-, a, ha, -⟩ := starts_keyLine "BEGIN" (by decide) _ _ h.1
    rintro rfl
    cases ha
  · obtain ⟨-, a, ha, -⟩ := starts_keyLine "END" (by decide) _ _ h.2
    rintro rfl
    cases ha

/-- A private key is found where its lines follow each other. -/
theorem search_privateKey_eq_false_iff {before t : Text} :
    search (privateKey.replacedBy redactedText) before t = false ↔
      ∀ first last, IsKeyLines first last → ¬ Follows first last t := by
  rw [← findsNone_iff_search]
  constructor
  · rintro h first last hlines ⟨x, y, z, rfl⟩
    have hnone := h x _ rfl fun hnil => hlines.ne_nil.1 (List.append_eq_nil_iff.1 hnil).1
    rw [Regex.replacedBy_eq_none_iff, List.append_nil] at hnone
    exact List.ne_nil_of_mem (mem_run_privateKey hlines.1 hlines.2) hnone
  · intro h x y hxy hy
    rw [Regex.replacedBy_eq_none_iff, List.eq_nil_iff_forall_not_mem]
    intro n hn
    obtain ⟨first, between, last, htake, hfirst, hlast⟩ := privateKey_shape hn
    rw [List.append_nil] at htake
    have hsplit : y = first ++ (between ++ (last ++ y.drop n)) :=
      (List.take_append_drop n y).symm.trans (by rw [htake]; simp only [List.append_assoc])
    exact h first last ⟨hfirst, hlast⟩ ⟨x, between, y.drop n, hxy.trans (congrArg (x ++ ·) hsplit)⟩

/-- The match of a pattern that takes a character is not empty, and within the text. -/
theorem finds_replacedBy {r : Regex CodePoint} {q : CodePoint → Prop} (h : r.Starts q) :
    Finds (r.replacedBy redactedText) := by
  intro c n new hfind
  rw [Regex.replacedBy, Option.map_eq_some_iff] at hfind
  obtain ⟨m, hm, he⟩ := hfind
  cases he
  have hmem := List.mem_of_head? hm
  exact ⟨(h c n hmem).1, Regex.le_length_of_mem_run hmem⟩

/-- The match of an assignment is not empty, and within the text. -/
theorem finds_findAssignment : Finds (findAssignment word) := by
  intro c n new hfind
  obtain ⟨i, hi, m, hm, rfl, -⟩ := findAssignment_eq_some_iff.1 hfind
  have hle := Regex.le_length_of_mem_run (List.mem_of_head? hm)
  rw [Cursor.after_advance, List.length_drop] at hle
  have hle' := Regex.le_length_of_mem_run hi
  have hpos := (starts_assignmentPrefix c i hi).1
  omega

/-- A private key begins with a hyphen. -/
theorem starts_privateKey : privateKey.Starts (· = 45) :=
  (starts_keyLine "BEGIN" (by decide)).seq

/-- The first of the passes leaves no private key. -/
theorem search_privateKey_sub (t : Text) :
    search (privateKey.replacedBy redactedText) [] (sub (privateKey.replacedBy redactedText) [] 0 t) =
      false := by
  rw [search_privateKey_eq_false_iff]
  intro first last hlines
  have hmarker : ∀ c n new, privateKey.replacedBy redactedText c = some (n, new) →
      new = redactedText := by
    intro c n new hfind
    rw [Regex.replacedBy, Option.map_eq_some_iff] at hfind
    obtain ⟨m, -, he⟩ := hfind
    cases he
    rfl
  refine (rewrites_sub (finds_replacedBy starts_privateKey) [] t).not_follows hlines.ne_nil.1
    hlines.ne_nil.2 hmarker (hlines.not_overlaps (.inl rfl)) ?_
  · intro b y z hnone
    rw [Regex.replacedBy_eq_none_iff] at hnone
    exact List.ne_nil_of_mem (mem_run_privateKey hlines.1 hlines.2) hnone

/-- The other passes make no private key. -/
theorem Rewrites.search_privateKey {find : Finder CodePoint} (hfind : Inserts IsInserted find)
    {before t u : Text} {places : List (Cursor CodePoint)} (h : Rewrites find before t u places)
    (ht : search (privateKey.replacedBy redactedText) [] t = false) :
    search (privateKey.replacedBy redactedText) [] u = false := by
  rw [search_privateKey_eq_false_iff] at ht ⊢
  intro first last hlines hu
  exact ht first last hlines (h.follows_of_follows hfind hlines.ne_nil.1 hlines.ne_nil.2
    (fun _ hinserted => hlines.not_overlaps hinserted) hu)

/-! ## Tokens -/

/-- A token begins with a character of its parts. -/
theorem starts_jwt : jwt.Starts (isJwtChar · = true) := by
  intro c n hn
  obtain ⟨-, -, x, y, z, htake, hparts, hx, -⟩ := jwt_shape hn
  obtain ⟨a, x, rfl⟩ := List.exists_cons_of_ne_nil hx
  have hhead := congrArg List.head? htake
  rw [List.head?_take, List.cons_append, List.head?_cons] at hhead
  split_ifs at hhead with hzero
  exact ⟨Nat.pos_of_ne_zero hzero, a, hhead, hparts a (List.mem_append_left _ List.mem_cons_self)⟩

/-- A token does not go beyond a character that it cannot have. -/
theorem le_length_of_mem_run_jwt {b s rest : Text} {a : CodePoint} {n : ℕ}
    (ha : isJwtChar a = false) (ha' : a ≠ 46) (h : n ∈ jwt.run ⟨b, s ++ a :: rest⟩) :
    n ≤ s.length := by
  by_contra hn
  have hmem : a ∈ (s ++ a :: rest).take n := by
    obtain ⟨k, rfl⟩ : ∃ k, n = s.length + (k + 1) := ⟨n - s.length - 1, by omega⟩
    rw [List.take_length_add_append, List.take_succ_cons]
    exact List.mem_append_right _ List.mem_cons_self
  rcases isJwtChar_or_dot h a hmem with h' | h'
  · rw [ha] at h'
    cases h'
  · exact ha' h'

/-- Nothing of a token begins where no character of its parts is. -/
theorem find_jwt_of_head {c : Cursor CodePoint} (h : c.after.head?.any isJwtChar = false) :
    jwt.replacedBy redactedText c = none := by
  rw [Regex.replacedBy_eq_none_iff]
  refine starts_jwt.run_eq_nil fun a ha hjwt => ?_
  rw [ha, Option.any_some, hjwt] at h
  cases h

/-- There is no token in the marker, nor in front of it. -/
theorem findsNone_jwt_marker (before rest : Text) :
    FindsNone (jwt.replacedBy redactedText) before redactedText rest := by
  intro x y hxy hy
  rw [Regex.replacedBy_eq_none_iff, List.eq_nil_iff_forall_not_mem]
  intro n hn
  -- the rest of the marker ends the token, and has no dot in it
  have hlast : y.getLast? = some 93 := by
    have hmarker : redactedText.getLast? = some 93 := by decide
    rwa [hxy, List.getLast?_append_of_ne_nil _ hy] at hmarker
  obtain ⟨s, rfl⟩ := List.getLast?_eq_some_iff.1 hlast
  rw [List.append_assoc, List.singleton_append] at hn
  have hle := le_length_of_mem_run_jwt (by decide) (by decide) hn
  obtain ⟨-, -, p, q, q', htake, -⟩ := jwt_shape hn
  have hdot : (46 : CodePoint) ∈ redactedText := by
    have hmem : (46 : CodePoint) ∈ (s ++ 93 :: rest).take n := by
      rw [htake]
      exact List.mem_append_right _ List.mem_cons_self
    rw [List.take_append_of_le_length hle] at hmem
    rw [hxy]
    exact List.mem_append_right _ (List.mem_append_left _ (List.mem_of_mem_take hmem))
  exact absurd hdot (by decide)

/-- There is no token in what is inserted. -/
theorem findsNone_jwt_inserted {inserted : Text} (h : IsInserted inserted) (before rest : Text) :
    FindsNone (jwt.replacedBy redactedText) before inserted rest := by
  rcases h with rfl | ⟨quote, hquote, rfl⟩
  · exact findsNone_jwt_marker before rest
  · have hjwt : isJwtChar quote = false := by
      rcases hquote with hquote | hquote
      · obtain rfl : quote = 34 := Fin.ext hquote
        decide
      · obtain rfl : quote = 39 := Fin.ext hquote
        decide
    rw [List.cons_append, findsNone_cons, findsNone_append]
    refine ⟨find_jwt_of_head hjwt, findsNone_jwt_marker _ _, ?_⟩
    rw [findsNone_cons]
    exact ⟨find_jwt_of_head hjwt, fun x y hxy hy =>
      absurd (List.append_eq_nil_iff.1 hxy.symm).2 hy⟩

/-- Texts are told apart by a token only in front of which it could end. -/
theorem find_jwt_transfer {y rest rest' b b' : Text} (hhead : b.head? = b'.head?)
    (hlt : ∀ n ∈ jwt.run ⟨b', y ++ rest'⟩, n < y.length)
    (h : jwt.replacedBy redactedText ⟨b, y ++ rest⟩ = none) :
    jwt.replacedBy redactedText ⟨b', y ++ rest'⟩ = none := by
  rw [Regex.replacedBy_eq_none_iff] at h ⊢
  refine Regex.run_eq_nil_of_take hlt ?_ hhead.symm h
  rw [List.take_left, List.take_left]

/-- The pass over tokens leaves none. -/
theorem Rewrites.search_jwt {before before' t u : Text} {places : List (Cursor CodePoint)}
    (h : Rewrites (jwt.replacedBy redactedText) before t u places)
    (hedge : SameEdge isJwtChar before before' t) :
    search (jwt.replacedBy redactedText) before' u = false := by
  induction h generalizing before' with
  | @done b t hsearch =>
    rw [← findsNone_iff_search] at hsearch ⊢
    refine hsearch.transfer (fun c => find_jwt_of_head) hedge fun x y b b' _ _ hhead hnone => ?_
    rw [Regex.replacedBy_eq_none_iff] at hnone ⊢
    exact Regex.run_eq_nil_of_head hhead.symm hnone
  | @next b gap matched rest new out places hgap hmatched hfind hrest ih =>
    rw [Regex.replacedBy, Option.map_eq_some_iff] at hfind
    obtain ⟨m, hm, he⟩ := hfind
    cases he
    obtain ⟨hbehind, hahead, -⟩ := jwt_shape (List.mem_of_head? hm)
    rw [List.drop_left] at hahead
    rw [search_append, search_append]
    refine ⟨hgap.transfer (fun c => find_jwt_of_head) ?_ ?_, findsNone_jwt_marker _ _,
      ih (.inr hahead)⟩
    · exact hedge.gap
    · intro x y c c' hxy hy hhead
      refine find_jwt_transfer hhead fun n hn => ?_
      have hmarker : redactedText = 91 :: lit "REDACTED]" := by decide
      have hle : n ≤ y.length := by
        have hmem : n ∈ jwt.run ⟨c', y ++ 91 :: (lit "REDACTED]" ++ out)⟩ := by
          rwa [← List.cons_append, ← hmarker]
        exact le_length_of_mem_run_jwt (by decide) (by decide) hmem
      refine Nat.lt_of_le_of_ne hle ?_
      rintro rfl
      -- the last character of the gap is none of a token: the match begins behind it
      obtain ⟨l, a, htake, hjwt⟩ := exists_last_of_jwt hn
      rw [List.take_left] at htake
      rw [hxy, htake, ← List.append_assoc, List.reverse_concat, List.cons_append, List.head?_cons,
        Option.any_some, hjwt] at hbehind
      cases hbehind

/-! ## Assignments -/

/-- What the pass over assignments has found in a match: what comes before the assigned text, and
    the assigned text. -/
theorem exists_assigned {b matched rest new : Text}
    (h : findAssignment word ⟨b, matched ++ rest⟩ = some (matched.length, new)) :
    ∃ kept assigned, matched = kept ++ assigned ∧ new = kept ++ redactAssigned assigned ∧
      assignedText word ⟨b, matched ++ rest⟩ = some assigned ∧
      kept.length ∈ (assignmentPrefix word).run ⟨b, kept ++ (assigned ++ rest)⟩ ∧
      assigned.head?.any isUnquoted = true ∧
        (IsQuoted assigned ∨ rest.head?.any isUnquoted = false) := by
  obtain ⟨i, hi, m, hm, hlength, rfl⟩ := findAssignment_eq_some_iff.1 h
  obtain ⟨kept, assigned, rfl, rfl, rfl⟩ :
      ∃ kept assigned, matched = kept ++ assigned ∧ kept.length = i ∧ assigned.length = m := by
    refine ⟨matched.take i, matched.drop i, (List.take_append_drop i matched).symm, ?_, ?_⟩
    · rw [List.length_take, hlength]
      exact Nat.min_eq_left (Nat.le_add_right i m)
    · rw [List.length_drop, hlength, Nat.add_sub_cancel_left]
  rw [List.append_assoc] at hi hm ⊢
  have hassigned : (Cursor.advance ⟨b, kept ++ (assigned ++ rest)⟩ kept.length).after =
      assigned ++ rest := List.drop_left
  obtain ⟨hpos, a, ha, hunquoted⟩ := starts_assignmentValue _ _ (List.mem_of_head? hm)
  refine ⟨kept, assigned, rfl, ?_, ?_, hi, ?_, ?_⟩
  · rw [List.take_left, List.drop_left, List.take_left]
  · rw [assignedText, lengths_eq_some_iff.2 ⟨hi, hm⟩]
    change some (((kept ++ (assigned ++ rest)).drop kept.length).take assigned.length) = _
    rw [List.drop_left, List.take_left]
  · rw [hassigned, List.head?_append_of_ne_nil _ (List.length_pos_iff.1 hpos)] at ha
    rw [ha]
    exact hunquoted
  · have hfirst := firstMatch_assignmentValue _ _ hm
    dsimp only at hfirst
    rwa [hassigned, List.take_left, List.drop_left] at hfirst

/-- The character behind an assigned text, and the one behind what replaces it, are told apart by
    nothing that is found behind them. -/
theorem sameEdge_redactAssigned {q : CodePoint → Bool} {kept assigned before before' rest : Text}
    (hq : ∀ {t : Text}, t.head?.any isUnquoted = false → t.head?.any q = false)
    (h : IsQuoted assigned ∨ rest.head?.any isUnquoted = false) :
    SameEdge q ((kept ++ assigned).reverse ++ before)
      ((kept ++ redactAssigned assigned).reverse ++ before') rest := by
  rcases h with h | h
  · obtain ⟨quote, -, -, hlast, he⟩ := h.redactAssigned
    obtain ⟨l, hl⟩ := List.getLast?_eq_some_iff.1 hlast
    refine .inl ?_
    rw [he, hl, ← List.append_assoc, ← List.append_assoc, List.reverse_concat, List.reverse_concat]
    rfl
  · exact .inr (hq h)

/-- The pass over assignments makes no token. -/
theorem Rewrites.search_jwt_of_findAssignment {before before' t u : Text}
    {places : List (Cursor CodePoint)} (h : Rewrites (findAssignment word) before t u places)
    (hedge : SameEdge isJwtChar before before' t)
    (ht : search (jwt.replacedBy redactedText) before t = false) :
    search (jwt.replacedBy redactedText) before' u = false := by
  induction h generalizing before' with
  | @done b t hsearch =>
    rw [← findsNone_iff_search] at ht ⊢
    refine ht.transfer (fun c => find_jwt_of_head) hedge fun x y b b' _ _ hhead hnone => ?_
    rw [Regex.replacedBy_eq_none_iff] at hnone ⊢
    exact Regex.run_eq_nil_of_head hhead.symm hnone
  | @next b gap matched rest new out places hgap hmatched hfind hrest ih =>
    obtain ⟨kept, assigned, rfl, rfl, -, hkept, -, hend⟩ := exists_assigned hfind
    have hprefix : IsPrefixText kept := by
      have := isPrefixText_of_mem_run hkept
      rwa [List.take_left] at this
    rw [List.append_assoc kept, ← List.append_assoc gap, search_append, search_append] at ht
    rw [List.append_assoc kept, ← List.append_assoc gap, search_append, search_append]
    obtain ⟨l, a, hl, hjwt, hdot⟩ := hprefix.exists_last
    refine ⟨ht.1.transfer (fun c => find_jwt_of_head) ?_ ?_,
      findsNone_jwt_inserted (isInserted_redactAssigned assigned) _ _, ?_⟩
    · rw [List.append_assoc kept, ← List.append_assoc gap] at hedge
      exact hedge.gap
    · -- a token ends before the `:` or `=`, or the spaces behind it
      intro x y c c' hxy hy hhead
      refine find_jwt_transfer hhead fun n hn => ?_
      obtain ⟨y', hy'⟩ : ∃ y', y = y' ++ [a] := by
        have hlast : (gap ++ kept).getLast? = some a := by
          rw [hl, ← List.append_assoc, List.getLast?_concat]
        rw [hxy, List.getLast?_append_of_ne_nil _ hy] at hlast
        exact List.getLast?_eq_some_iff.1 hlast
      subst hy'
      rw [List.append_assoc, List.singleton_append] at hn
      have := le_length_of_mem_run_jwt hjwt hdot hn
      rw [List.length_append, List.length_singleton]
      omega
    · have hedge' : SameEdge isJwtChar ((kept ++ assigned).reverse ++ (gap.reverse ++ b))
          ((kept ++ redactAssigned assigned).reverse ++ (gap.reverse ++ before')) rest :=
        sameEdge_redactAssigned head?_isJwtChar hend
      have hih := ih hedge'
      simp only [List.reverse_append, List.append_assoc] at hih ht ⊢
      exact hih ht.2.2

/-- What comes before an assigned text does so before other texts as well. -/
theorem mem_run_assignmentPrefix_kept {b b' kept rest rest' : Text} (hhead : b.head? = b'.head?)
    (h : kept.length ∈ (assignmentPrefix word).run ⟨b, kept ++ rest⟩) :
    kept.length ∈ (assignmentPrefix word).run ⟨b', kept ++ rest'⟩ := by
  refine mem_run_assignmentPrefix_of_take (d := ⟨b', kept ++ rest'⟩) le_rfl ?_ hhead h
  rw [List.take_left, List.take_left]

/-- The marker in quotes is found again, and replaced by itself. -/
theorem findAssignment_quoted {b kept out : Text} {quote : CodePoint}
    (hquote : quote.val = 34 ∨ quote.val = 39)
    (hkept : kept.length ∈ (assignmentPrefix word).run
      ⟨b, kept ++ ((quote :: redactedText ++ [quote]) ++ out)⟩) :
    findAssignment word ⟨b, (kept ++ (quote :: redactedText ++ [quote])) ++ out⟩ =
      some ((kept ++ (quote :: redactedText ++ [quote])).length,
        kept ++ (quote :: redactedText ++ [quote])) := by
  have hlength : (quote :: redactedText ++ [quote]).length = 12 := by
    rw [List.length_append, List.length_cons, List.length_singleton,
      show redactedText.length = 10 by decide]
  have hquoted : IsQuoted (quote :: redactedText ++ [quote]) :=
    ⟨quote, hquote, rfl, List.getLast?_concat⟩
  obtain ⟨quote', -, hhead, -, he⟩ := hquoted.redactAssigned
  rw [List.cons_append, List.head?_cons, Option.some.injEq] at hhead
  subst hhead
  rw [List.append_assoc, findAssignment_eq_some_iff]
  refine ⟨kept.length, hkept, 12, ?_, ?_, ?_⟩
  · have hafter : (Cursor.advance ⟨b, kept ++ ((quote :: redactedText ++ [quote]) ++ out)⟩
        kept.length).after = quote :: redactedText ++ quote :: out := by
      rw [Cursor.after_advance, List.drop_left, List.append_assoc, List.singleton_append]
    exact head?_run_assignmentValue_quoted hquote hafter
  · rw [List.length_append, hlength]
  · rw [List.take_left, List.drop_left, ← hlength, List.take_left, he]

/-- The marker without quotes is found again, up to its last character. -/
theorem findAssignment_marker {b kept out : Text}
    (hkept : kept.length ∈ (assignmentPrefix word).run ⟨b, kept ++ (redactedText ++ out)⟩) :
    findAssignment word ⟨b, (kept ++ lit "[REDACTED") ++ 93 :: out⟩ =
      some ((kept ++ lit "[REDACTED").length, kept ++ redactedText) := by
  have hmarker : redactedText ++ out = lit "[REDACTED" ++ 93 :: out := by
    rw [show redactedText = lit "[REDACTED" ++ [93] by decide, List.append_assoc,
      List.singleton_append]
  have hlength : (lit "[REDACTED").length = 9 := by decide
  have hnot : ¬ IsQuoted (lit "[REDACTED") := by
    rintro ⟨quote, hquote, hhead, -⟩
    rw [show (lit "[REDACTED").head? = some 91 by decide, Option.some.injEq] at hhead
    subst hhead
    exact absurd hquote (by decide)
  rw [List.append_assoc, findAssignment_eq_some_iff]
  rw [hmarker] at hkept
  refine ⟨kept.length, hkept, 9, ?_, ?_, ?_⟩
  · have hafter : (Cursor.advance ⟨b, kept ++ (lit "[REDACTED" ++ 93 :: out)⟩
        kept.length).after = redactedText ++ out := by
      rw [Cursor.after_advance, List.drop_left, hmarker]
    exact head?_run_assignmentValue_marker hafter
  · rw [List.length_append, hlength]
  · rw [List.take_left, List.drop_left, ← hlength, List.take_left, redactAssigned_of_not hnot]

/-- Nothing is found where no name can begin. -/
theorem findAssignment_of_head {c : Cursor CodePoint} (h : c.after.head?.any isUnquoted = false) :
    findAssignment word c = none := by
  rw [findAssignment_eq_none_iff]
  intro i hi
  obtain ⟨-, a, ha, hletter⟩ := starts_assignmentPrefix c i hi
  rw [ha, Option.any_some, hletter.isUnquoted] at h
  cases h

/-- Where no assignment has been found before a match, none is found after the match has been
    replaced. -/
theorem findAssignment_transfer {b b' y kept assigned rest inserted out : Text}
    (hhead : b.head? = b'.head?) (hkept : IsPrefixText kept)
    (hassigned : assigned.head?.any isUnquoted = true)
    (hinserted : ∃ a l, inserted = a :: l ∧ a.isSpace = false)
    (h : findAssignment word ⟨b, y ++ ((kept ++ assigned) ++ rest)⟩ = none) :
    findAssignment word ⟨b', y ++ ((kept ++ inserted) ++ out)⟩ = none := by
  obtain ⟨a, l, rfl, hspace⟩ := hinserted
  rw [findAssignment_eq_none_iff] at h ⊢
  rw [List.append_assoc kept, ← List.append_assoc y] at h ⊢
  intro i hi
  -- what comes before an assigned text has no more than one `:` or `=`
  have hle : i ≤ (y ++ kept).length := by
    by_contra hlt
    obtain ⟨k, rfl⟩ : ∃ k, i = (y ++ kept).length + (k + 1) := ⟨i - (y ++ kept).length - 1, by omega⟩
    obtain ⟨x, colon, spaces, rfl, -, hcolon, -⟩ := hkept
    have hprefix := isPrefixText_of_mem_run hi
    rw [List.take_length_add_append, List.cons_append, List.take_succ_cons, ← List.append_assoc y,
      List.append_assoc (y ++ x), List.cons_append] at hprefix
    have := hprefix.forall_isSpace hcolon a (List.mem_append_right _ List.mem_cons_self)
    rw [hspace] at this
    cases this
  have hi' : i ∈ (assignmentPrefix word).run ⟨b, (y ++ kept) ++ (assigned ++ rest)⟩ := by
    refine mem_run_assignmentPrefix_of_take (d := ⟨b, (y ++ kept) ++ (assigned ++ rest)⟩) hle ?_
      hhead.symm hi
    rw [List.take_left, List.take_left]
  have hnone := h i hi'
  rw [List.drop_append_of_le_length hle] at hnone ⊢
  cases hdrop : (y ++ kept).drop i with
  | nil =>
    rw [hdrop, List.nil_append] at hnone
    cases hassigned' : assigned with
    | nil => rw [hassigned'] at hassigned; exact absurd hassigned Bool.false_ne_true
    | cons d assigned =>
      rw [hassigned'] at hnone hassigned
      rw [List.cons_append, List.head?_cons, ← List.head?_cons (l := assigned), hassigned] at hnone
      cases hnone
  | cons d l' =>
    rw [hdrop] at hnone
    exact hnone

/-- What is inserted begins with a character that is no space. -/
theorem IsInserted.exists_cons {inserted : Text} (h : IsInserted inserted) :
    ∃ a l, inserted = a :: l ∧ a.isSpace = false := by
  rcases h with rfl | ⟨quote, hquote, rfl⟩
  · exact ⟨91, lit "REDACTED]", by decide, by decide⟩
  · refine ⟨quote, redactedText ++ [quote], rfl, ?_⟩
    rcases hquote with hquote | hquote
    · obtain rfl : quote = 34 := Fin.ext hquote
      decide
    · obtain rfl : quote = 39 := Fin.ext hquote
      decide

/-- The second pass replaces the marker in quotes by itself. -/
theorem sub_findAssignment_quoted {b kept assigned out : Text} (h : IsQuoted assigned)
    (hkept : kept.length ∈ (assignmentPrefix word).run
      ⟨b, kept ++ (redactAssigned assigned ++ out)⟩) :
    sub (findAssignment word) b 0 ((kept ++ redactAssigned assigned) ++ out) =
      (kept ++ redactAssigned assigned) ++
        sub (findAssignment word) ((kept ++ redactAssigned assigned).reverse ++ b) 0 out := by
  obtain ⟨quote, hquote, -, -, he⟩ := h.redactAssigned
  rw [he] at hkept ⊢
  refine sub_of_find ?_ (findAssignment_quoted hquote hkept)
  exact List.append_ne_nil_of_right_ne_nil _ (List.append_ne_nil_of_left_ne_nil
    (List.cons_ne_nil _ _) _)

/-- The second pass replaces the marker without quotes by the marker, and leaves the last character
    of the first marker over. -/
theorem sub_findAssignment_marker {b kept out : Text}
    (hkept : kept.length ∈ (assignmentPrefix word).run ⟨b, kept ++ (redactedText ++ out)⟩) :
    sub (findAssignment word) b 0 ((kept ++ redactedText) ++ out) =
      (kept ++ redactedText) ++ ([93] ++ sub (findAssignment word)
        ([93].reverse ++ ((kept ++ lit "[REDACTED").reverse ++ b)) 0 out) := by
  have happend : (kept ++ redactedText) ++ out = (kept ++ lit "[REDACTED") ++ 93 :: out := by
    rw [show redactedText = lit "[REDACTED" ++ [93] by decide]
    simp only [List.append_assoc, List.singleton_append]
  have hne : kept ++ lit "[REDACTED" ≠ [] :=
    List.append_ne_nil_of_right_ne_nil _ (by decide)
  have hbracket : FindsNone (findAssignment word)
      ((kept ++ lit "[REDACTED").reverse ++ b) [93] out := by
    rw [findsNone_cons]
    refine ⟨findAssignment_of_head ?_, fun x y hxy hy =>
      absurd (List.append_eq_nil_iff.1 hxy.symm).2 hy⟩
    rw [List.cons_append, List.head?_cons, Option.any_some]
    decide
  rw [happend, sub_of_find hne (findAssignment_marker hkept), ← sub_append hbracket,
    List.singleton_append]

/-- The character before what comes before an assigned text, or the text itself, is the same for
    the second pass. -/
theorem SameEdge.head?_eq {before before' gap kept rest : Text}
    (hedge : SameEdge isUnquoted before before' (gap ++ (kept ++ rest)))
    (hkept : kept.length ∈ (assignmentPrefix word).run ⟨gap.reverse ++ before, kept ++ rest⟩) :
    (gap.reverse ++ before).head? = (gap.reverse ++ before').head? := by
  cases gap with
  | nil =>
    refine hedge.resolve_right fun hnone => ?_
    obtain ⟨-, a, ha, hletter⟩ := starts_assignmentPrefix _ _ hkept
    rw [List.nil_append, ha, Option.any_some, hletter.isUnquoted] at hnone
    cases hnone
  | cons a gap =>
    have hne : (a :: gap).reverse ≠ [] := by
      rw [Ne, List.reverse_eq_nil_iff]
      exact List.cons_ne_nil _ _
    rw [List.head?_append_of_ne_nil _ hne, List.head?_append_of_ne_nil _ hne]

/-- A second pass over assignments makes a text no shorter, and leaves it as it is just where the
    first one has found only quoted texts. -/
theorem Rewrites.sub_sub {before before' t u : Text} {places : List (Cursor CodePoint)}
    (h : Rewrites (findAssignment word) before t u places)
    (hedge : SameEdge isUnquoted before before' t) :
    u.length ≤ (sub (findAssignment word) before' 0 u).length ∧
      (sub (findAssignment word) before' 0 u = u ↔
        ∀ assigned ∈ places.filterMap (assignedText word), IsQuoted assigned) := by
  induction h generalizing before' with
  | @done b t hsearch =>
    have hself : sub (findAssignment word) before' 0 t = t := by
      refine sub_eq_self ?_
      rw [← findsNone_iff_search] at hsearch ⊢
      refine hsearch.transfer (fun c => findAssignment_of_head) hedge fun x y c c' _ _ hhead h => ?_
      rw [findAssignment_eq_none_iff] at h ⊢
      exact fun i hi => h i (mem_run_assignmentPrefix_of_take (c := ⟨c', y ++ []⟩)
        (d := ⟨c, y ++ []⟩) (k := i) le_rfl rfl hhead.symm hi)
    rw [hself, List.filterMap_nil]
    exact ⟨le_rfl, iff_of_true rfl fun _ h => absurd h List.not_mem_nil⟩
  | @next b gap matched rest new out places hgap hmatched hfind hrest ih =>
    obtain ⟨kept, assigned, rfl, rfl, htext, hkept, hassigned, hend⟩ := exists_assigned hfind
    have hprefix : IsPrefixText kept := by
      have := isPrefixText_of_mem_run hkept
      rwa [List.take_left] at this
    have hgap' : FindsNone (findAssignment word) before' gap
        ((kept ++ redactAssigned assigned) ++ out) :=
      hgap.transfer (fun c => findAssignment_of_head) hedge.gap fun x y c c' _ _ hhead hnone =>
        findAssignment_transfer hhead hprefix hassigned
          (isInserted_redactAssigned assigned).exists_cons hnone
    rw [List.append_assoc kept] at hedge
    have hkept' : ∀ rest', kept.length ∈ (assignmentPrefix word).run
        ⟨gap.reverse ++ before', kept ++ rest'⟩ := fun rest' =>
      mem_run_assignmentPrefix_kept (hedge.head?_eq hkept) hkept
    rw [sub_append hgap', List.filterMap_cons_some htext, List.forall_mem_cons]
    by_cases hquoted : IsQuoted assigned
    · have hedge' : SameEdge isUnquoted ((kept ++ assigned).reverse ++ (gap.reverse ++ b))
          ((kept ++ redactAssigned assigned).reverse ++ (gap.reverse ++ before')) rest :=
        sameEdge_redactAssigned id hend
      obtain ⟨hle, hiff⟩ := ih hedge'
      rw [sub_findAssignment_quoted hquoted (hkept' _)]
      refine ⟨?_, ?_⟩
      · simp only [List.length_append]
        omega
      · rw [List.append_cancel_left_eq, List.append_cancel_left_eq, hiff, and_iff_right hquoted]
    · -- the text has grown by a character
      have hedge' : SameEdge isUnquoted ((kept ++ assigned).reverse ++ (gap.reverse ++ b))
          ([93].reverse ++ ((kept ++ lit "[REDACTED").reverse ++ (gap.reverse ++ before'))) rest :=
        .inr (hend.resolve_left hquoted)
      obtain ⟨hle, -⟩ := ih hedge'
      rw [redactAssigned_of_not hquoted, sub_findAssignment_marker (hkept' _)]
      generalize sub (findAssignment word) _ 0 out = out' at hle
      have hlt : (gap ++ ((kept ++ redactedText) ++ out)).length <
          (gap ++ ((kept ++ redactedText) ++ ([93] ++ out'))).length := by
        simp only [List.length_append, List.length_singleton]
        omega
      refine ⟨hlt.le, iff_of_false (fun heq => ?_) fun h => hquoted h.1⟩
      rw [heq] at hlt
      exact lt_irrefl _ hlt

/-! ## The results -/

namespace SecretRedactor

variable {r : SecretRedactor} {t u : Text}

variable (r) in
/-- The text without known secrets, private keys and tokens, in which assignments are looked for. -/
def removeCredentials (value : Text) : Text :=
  let value := r.replaceSecrets value
  let value := sub (privateKey.replacedBy redactedText) [] 0 value
  sub (jwt.replacedBy redactedText) [] 0 value

/-- The last pass of the redactor. -/
theorem redactPlain_eq :
    r.redactPlain word t = sub (findAssignment word) [] 0 (r.removeCredentials t) := rfl

/-- The last pass, match by match. -/
theorem rewrites_redactPlain : Rewrites (findAssignment word) [] (r.removeCredentials t)
    (r.redactPlain word t) (finditer (findAssignment word) [] 0 (r.removeCredentials t)) :=
  rewrites_sub finds_findAssignment [] (r.removeCredentials t)

/-- There is no private key in a redacted text. -/
theorem search_privateKey_redactPlain :
    search (privateKey.replacedBy redactedText) [] (r.redactPlain word t) = false := by
  refine rewrites_redactPlain.search_privateKey inserts_findAssignment ?_
  refine (rewrites_sub (finds_replacedBy starts_jwt) [] _).search_privateKey
    (inserts_replacedBy jwt) ?_
  exact search_privateKey_sub (r.replaceSecrets t)

/-- There is no token in a redacted text. -/
theorem search_jwt_redactPlain :
    search (jwt.replacedBy redactedText) [] (r.redactPlain word t) = false := by
  refine rewrites_redactPlain.search_jwt_of_findAssignment (.inl rfl) ?_
  exact (rewrites_sub (finds_replacedBy starts_jwt) [] _).search_jwt (.inl rfl)

/-- A redacted text in which no known secret is left is redacted to itself just where the assigned
    texts have been in quotes. -/
theorem redactPlain_redactPlain_iff
    (hsecrets : ∀ s ∈ r.knownSecrets, ¬ s <:+: r.redactPlain word t) :
    r.redactPlain word (r.redactPlain word t) = r.redactPlain word t ↔
      ∀ assigned ∈ assignedTexts word (r.removeCredentials t), IsQuoted assigned := by
  have hself : r.removeCredentials (r.redactPlain word t) = r.redactPlain word t := by
    have hsecrets' : r.replaceSecrets (r.redactPlain word t) = r.redactPlain word t :=
      foldl_replaceAll_eq_self hsecrets
    simp only [removeCredentials, hsecrets', sub_eq_self search_privateKey_redactPlain,
      sub_eq_self search_jwt_redactPlain]
  rw [redactPlain_eq (t := r.redactPlain word t), hself]
  exact (rewrites_redactPlain.sub_sub (.inl rfl)).2

/-- A text that redaction gives is given again where the passes leave it as it is. -/
theorem redactText_eq_ok_self_iff (h : r.redactText word t = .ok u) :
    r.redactText word u = .ok u ↔ r.redactPlain word u = u := by
  constructor
  · intro h'
    exact (redactText_eq_ok word h').symm
  · intro hself
    have hcheck : r.checkText u = .ok () := by
      rw [redactText, bind_eq_ok] at h
      obtain ⟨-, -, h⟩ := h
      obtain ⟨_, hcheck, h⟩ := bind_eq_ok.1 h
      rwa [pure_eq_ok.1 h] at hcheck
    have hok : ∀ (next : Unit → Except PyException Text), r.checkText u >>= next = next () :=
      fun next => by rw [hcheck]; rfl
    rw [redactText, hok]
    change (r.checkText (r.redactPlain word u) >>= fun _ => pure (r.redactPlain word u)) = _
    rw [hself, hok]
    rfl

variable (word) in
/-- A redacted text from which every known secret has been removed is redacted to itself if and only
    if every assigned text in it was in quotes; and known secrets that have nothing in common with
    the marker are removed, as all are where nothing is redacted. -/
theorem redactText_idempotent_iff (known : List SecretValue) (limits : RedactionLimits)
    (h : (create known limits).redactText word t = .ok u) :
    ((∀ v ∈ known, (create known limits).SafeText word v.reveal t) →
      ∀ v ∈ known, ¬ v.reveal <:+: u) ∧
    ((∀ v ∈ known, ¬ v.reveal <:+: u) → ((create known limits).redactText word u = .ok u ↔
      ∀ assigned ∈ assignedTexts word ((create known limits).removeCredentials t),
        IsQuoted assigned)) := by
  have hu := redactText_eq_ok word h
  constructor
  · intro hsafe v hv
    rw [hu]
    exact (hsafe v hv).not_occurs word ne_nil_of_mem_create (mem_create.2 ⟨v, hv, rfl⟩)
  · intro hsecrets
    rw [redactText_eq_ok_self_iff h, hu]
    refine redactPlain_redactPlain_iff fun s hs => ?_
    obtain ⟨v, hv, rfl⟩ := mem_create.1 hs
    exact hu ▸ hsecrets v hv

/-- A quoted password. -/
theorem redactText_idempotent_iff_example :
    (create [hunter] {}).redactText (fun _ => false) (lit "password: \"[REDACTED]\"") =
      .ok (lit "password: \"[REDACTED]\"") := by
  have happart : ¬ Overlaps redactedText hunter.reveal := by decide
  have hiff := redactText_idempotent_iff (fun _ => false) [hunter] {}
    (t := lit "password: \"hunter22\"") (u := lit "password: \"[REDACTED]\"") rfl
  have hsecretless := hiff.1 (List.forall_mem_singleton.2 (.inl happart))
  refine (hiff.2 hsecretless).2 ?_
  have htexts : assignedTexts (fun _ => false)
      ((create [hunter] {}).removeCredentials (lit "password: \"hunter22\"")) =
        [lit "\"[REDACTED]\""] := rfl
  rw [htexts, List.forall_mem_singleton]
  exact ⟨34, .inl rfl, rfl, rfl⟩

/-- A token without quotes, of which each redaction leaves another bracket. -/
theorem redactText_grows :
    ¬ ∀ (word : CodePoint → Bool) (known : List SecretValue) (limits : RedactionLimits) (t u : Text),
      (create known limits).redactText word t = .ok u →
        (create known limits).redactText word u = .ok u := by
  intro h
  have hself := h (fun _ => false) [] {} (lit "token=abc") (lit "token=[REDACTED]") rfl
  have hgrown : (create [] {}).redactText (fun _ => false) (lit "token=[REDACTED]") =
      .ok (lit "token=[REDACTED]]") := rfl
  rw [hgrown, Except.ok.injEq] at hself
  exact absurd hself (by decide)

end SecretRedactor

end McpRuntime
