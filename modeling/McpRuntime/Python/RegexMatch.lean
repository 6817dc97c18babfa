import McpRuntime.Python.Regex

/-!
# What a pattern matches

Where the matches of a pattern can end, whatever the order of backtracking, and
how far the first of them goes.

* `Regex.mem_run_of_take`: a match depends on the characters that it takes, and on
  the ones beside it.
* `Regex.Only.forall_mem`: the characters of a match are those that the pattern is
  made of.
* `Regex.head?_repeated_char`: the first match of a repeated character goes on as
  far as the character does.
-/

namespace McpRuntime

variable {α : Type*}

namespace Cursor

@[simp] theorem after_advance (c : Cursor α) (n : ℕ) : (c.advance n).after = c.after.drop n := rfl

@[simp] theorem advance_zero (c : Cursor α) : c.advance 0 = c := rfl

/-- The places further on, in two steps. -/
theorem advance_advance (c : Cursor α) (m n : ℕ) :
    (c.advance m).advance n = c.advance (m + n) := by
  rw [advance, advance, advance, Cursor.mk.injEq, List.drop_drop, List.take_add,
    List.reverse_append, List.append_assoc]
  exact ⟨rfl, rfl⟩

/-- The character before a place further on is the last one passed. -/
theorem head?_before_advance {c d : Cursor α} {k n : ℕ} (hn : n ≤ k)
    (htake : c.after.take k = d.after.take k) (hhead : c.before.head? = d.before.head?) :
    (c.advance n).before.head? = (d.advance n).before.head? := by
  have htake' : c.after.take n = d.after.take n := by
    rw [← Nat.min_eq_left hn, ← List.take_take, htake, List.take_take]
  rw [advance, advance, htake', List.head?_append, List.head?_append, hhead]

end Cursor

namespace Regex

variable {r s : Regex α} {c d : Cursor α} {n k : ℕ} {p : α → Bool}

/-! ## The ends of the matches -/

/-- A match of one pattern after the other. -/
theorem mem_run_seq :
    n ∈ (seq r s).run c ↔ ∃ i ∈ r.run c, ∃ j ∈ s.run (c.advance i), i + j = n := by
  refine List.mem_flatMap.trans ?_
  simp only [List.mem_map]

/-- A match of one of two patterns. -/
theorem mem_run_alt : n ∈ (alt r s).run c ↔ n ∈ r.run c ∨ n ∈ s.run c := List.mem_append

/-- A match of one character. -/
theorem mem_run_char : n ∈ (char p).run c ↔ n = 1 ∧ c.after.head?.any p = true := by
  rw [run]
  split_ifs with h
  · rw [List.mem_singleton, and_iff_left h]
  · exact iff_of_false List.not_mem_nil fun h' => h h'.2

/-- Nothing more to match. -/
theorem run_seq_empty (r : Regex α) (c : Cursor α) : (seq r empty).run c = r.run c := by
  simp only [run, List.map_cons, List.map_nil, Nat.add_zero, List.flatMap_singleton']

/-- A match of repeated matches: of no characters, or another match first. -/
theorem mem_repeated_succ {greedy : Bool} {once : Cursor α → List ℕ} {fuel : ℕ} :
    n ∈ repeated greedy once (fuel + 1) c ↔
      n = 0 ∨ ∃ i ∈ once c, 0 < i ∧ ∃ j ∈ repeated greedy once fuel (c.advance i), i + j = n := by
  have hmore : n ∈ ((once c).filter (0 < ·)).flatMap (fun i =>
      (repeated greedy once fuel (c.advance i)).map (i + ·)) ↔
        ∃ i ∈ once c, 0 < i ∧ ∃ j ∈ repeated greedy once fuel (c.advance i), i + j = n := by
    simp only [List.mem_flatMap, List.mem_filter, decide_eq_true_eq, List.mem_map, and_assoc]
  rw [repeated]
  cases greedy with
  | true => rw [if_pos rfl, List.mem_append, List.mem_singleton, hmore, or_comm]
  | false => rw [if_neg Bool.false_ne_true, List.mem_cons, hmore]

/-- No match goes beyond the text, where none of those repeated does. -/
theorem le_length_of_mem_repeated {greedy : Bool} {once : Cursor α → List ℕ}
    (honce : ∀ c n, n ∈ once c → n ≤ c.after.length) {fuel : ℕ}
    (h : n ∈ repeated greedy once fuel c) : n ≤ c.after.length := by
  induction fuel generalizing c n with
  | zero => rw [repeated, List.mem_singleton] at h; omega
  | succ fuel ih =>
    rcases mem_repeated_succ.1 h with rfl | ⟨i, hi, -, j, hj, rfl⟩
    · exact Nat.zero_le _
    · have hi' := honce c i hi
      have hj' := ih hj
      rw [Cursor.after_advance, List.length_drop] at hj'
      omega

/-- No match goes beyond the text. -/
theorem le_length_of_mem_run (h : n ∈ r.run c) : n ≤ c.after.length := by
  induction r generalizing c n with
  | empty => rw [run, List.mem_singleton] at h; omega
  | char p =>
    obtain ⟨rfl, hhead⟩ := mem_run_char.1 h
    cases hafter : c.after with
    | nil => rw [hafter] at hhead; exact absurd hhead Bool.false_ne_true
    | cons a l => exact Nat.succ_pos _
  | seq r s ihr ihs =>
    obtain ⟨i, hi, j, hj, rfl⟩ := mem_run_seq.1 h
    have hi' := ihr hi
    have hj' := ihs hj
    rw [Cursor.after_advance, List.length_drop] at hj'
    omega
  | alt r s ihr ihs => exact (mem_run_alt.1 h).elim ihr ihs
  | star r ih => exact le_length_of_mem_repeated (fun _ _ => ih) h
  | lazy r ih => exact le_length_of_mem_repeated (fun _ _ => ih) h
  | boundary word =>
    rw [run] at h
    split_ifs at h
    · rw [List.mem_singleton] at h; omega
    · exact absurd h List.not_mem_nil
  | notBehind p =>
    rw [run] at h
    split_ifs at h
    · exact absurd h List.not_mem_nil
    · rw [List.mem_singleton] at h; omega
  | notAhead p =>
    rw [run] at h
    split_ifs at h
    · exact absurd h List.not_mem_nil
    · rw [List.mem_singleton] at h; omega

/-! ## What a match depends on -/

/-- The pattern does not look at the characters beside the match. -/
def Plain : Regex α → Prop
  | empty => True
  | char _ => True
  | seq r s => r.Plain ∧ s.Plain
  | alt r s => r.Plain ∧ s.Plain
  | star r => r.Plain
  | lazy r => r.Plain
  | boundary _ => False
  | notBehind _ => False
  | notAhead _ => False

/-- The pattern cannot tell two places apart by a match of `n` characters, of which the first `k`
    agree: it looks at nothing else, or the characters before and after the match agree as well. -/
def Alike (r : Regex α) (n k : ℕ) (c d : Cursor α) : Prop :=
  r.Plain ∨ n < k ∧ c.before.head? = d.before.head?

/-- Repeated matches depend on the characters that they take. -/
theorem mem_repeated_of_take {greedy : Bool} {r : Regex α}
    (ih : ∀ {k n c d}, n ≤ k → c.after.take k = d.after.take k → r.Alike n k c d →
      n ∈ r.run c → n ∈ r.run d)
    {fuel fuel' : ℕ} (hn : n ≤ k) (htake : c.after.take k = d.after.take k)
    (hlook : r.Alike n k c d) (hfuel : n ≤ fuel') (h : n ∈ repeated greedy r.run fuel c) :
    n ∈ repeated greedy r.run fuel' d := by
  have hzero : ∀ fuel' d, 0 ∈ repeated greedy r.run fuel' d := fun fuel' d => by
    cases fuel' with
    | zero => exact List.mem_singleton_self 0
    | succ fuel' => exact mem_repeated_succ.2 (.inl rfl)
  induction fuel generalizing fuel' n k c d with
  | zero =>
    rw [repeated, List.mem_singleton] at h
    exact h ▸ hzero fuel' d
  | succ fuel ihfuel =>
    rcases mem_repeated_succ.1 h with rfl | ⟨i, hi, hpos, j, hj, rfl⟩
    · exact hzero fuel' d
    · obtain ⟨fuel', rfl⟩ : ∃ m, fuel' = m + 1 := ⟨fuel' - 1, by omega⟩
      have hid : i ∈ r.run d :=
        ih (by omega) htake (hlook.imp_right fun h => ⟨by omega, h.2⟩) hi
      refine mem_repeated_succ.2 (.inr ⟨i, hid, hpos, j, ?_, rfl⟩)
      refine ihfuel (k := k - i) (by omega) ?_ ?_ (by omega) hj
      · rw [Cursor.after_advance, Cursor.after_advance, ← List.drop_take, ← List.drop_take, htake]
      · exact hlook.imp_right fun h =>
          ⟨by omega, Cursor.head?_before_advance (by omega) htake h.2⟩

/-- Texts that agree up to a place begin alike. -/
theorem head?_eq_of_take {l l' : List α} (hk : 0 < k) (h : l.take k = l'.take k) :
    l.head? = l'.head? := by
  have hhead := congrArg List.head? h
  rwa [List.head?_take, List.head?_take, if_neg hk.ne', if_neg hk.ne'] at hhead

/-- As long as the match can be, the rest of the other text is. -/
theorem le_length_of_take {l l' : List α} (hn : n ≤ k) (h : l.take k = l'.take k)
    (hl : n ≤ l.length) : n ≤ l'.length := by
  have hlength := congrArg List.length h
  rw [List.length_take, List.length_take] at hlength
  omega

/-- A match depends on the characters that it takes, and on the ones beside it. -/
theorem mem_run_of_take (hn : n ≤ k) (htake : c.after.take k = d.after.take k)
    (hlook : r.Alike n k c d) (h : n ∈ r.run c) : n ∈ r.run d := by
  induction r generalizing c d n k with
  | empty => exact h
  | char p =>
    rw [mem_run_char] at h ⊢
    rwa [← head?_eq_of_take (by omega) htake]
  | seq r s ihr ihs =>
    obtain ⟨i, hi, j, hj, rfl⟩ := mem_run_seq.1 h
    refine mem_run_seq.2 ⟨i, ?_, j, ?_, rfl⟩
    · exact ihr (by omega) htake (hlook.imp (·.1) fun h => ⟨by omega, h.2⟩) hi
    · refine ihs (k := k - i) (by omega) ?_ ?_ hj
      · rw [Cursor.after_advance, Cursor.after_advance, ← List.drop_take, ← List.drop_take, htake]
      · exact hlook.imp (·.2) fun h =>
          ⟨by omega, Cursor.head?_before_advance (by omega) htake h.2⟩
  | alt r s ihr ihs =>
    rw [mem_run_alt] at h ⊢
    exact h.imp (ihr hn htake (hlook.imp_left (·.1))) (ihs hn htake (hlook.imp_left (·.2)))
  | star r ih =>
    exact mem_repeated_of_take ih hn htake hlook
      (le_length_of_take hn htake (le_length_of_mem_run (r := star r) h)) h
  | lazy r ih =>
    exact mem_repeated_of_take ih hn htake hlook
      (le_length_of_take hn htake (le_length_of_mem_run (r := lazy r) h)) h
  | boundary word =>
    obtain ⟨hk, hbefore⟩ := hlook.resolve_left id
    rw [run, Cursor.atBoundary] at h ⊢
    rwa [← hbefore, ← head?_eq_of_take (by omega) htake]
  | notBehind p =>
    obtain ⟨hk, hbefore⟩ := hlook.resolve_left id
    rw [run] at h ⊢
    rwa [← hbefore]
  | notAhead p =>
    obtain ⟨hk, -⟩ := hlook.resolve_left id
    rw [run] at h ⊢
    rwa [← head?_eq_of_take (by omega) htake]

/-- The pattern matches the text as a whole. -/
def Accepts (r : Regex α) (w : List α) : Prop := w.length ∈ r.run ⟨[], w⟩

/-- A match of a plain pattern is a text that it accepts. -/
theorem accepts_of_mem_run (hr : r.Plain) (h : n ∈ r.run c) : r.Accepts (c.after.take n) := by
  have hn := le_length_of_mem_run h
  rw [Accepts, List.length_take, Nat.min_eq_left hn]
  refine mem_run_of_take le_rfl ?_ (.inl hr) h
  rw [List.take_take, min_self]

/-- A text that a plain pattern accepts is a match wherever it stands. -/
theorem mem_run_of_accepts (hr : r.Plain) {before w rest : List α} (h : r.Accepts w) :
    w.length ∈ r.run ⟨before, w ++ rest⟩ := by
  refine mem_run_of_take (d := ⟨before, w ++ rest⟩) le_rfl ?_ (.inl hr) h
  rw [List.take_length, List.take_left]

/-- Where a pattern does not match, it does not match in front of another text either, unless its
    match reaches the other text. -/
theorem run_eq_nil_of_take (hlt : ∀ n ∈ r.run d, n < k) (htake : d.after.take k = c.after.take k)
    (hhead : d.before.head? = c.before.head?) (h : r.run c = []) : r.run d = [] := by
  rw [List.eq_nil_iff_forall_not_mem] at h ⊢
  intro n hn
  exact h n (mem_run_of_take (hlt n hn).le htake (.inr ⟨hlt n hn, hhead⟩) hn)

/-- Of the text before a place, the last character is all that a match depends on. -/
theorem run_eq_nil_of_head {before before' after : List α} (hhead : before'.head? = before.head?)
    (h : r.run ⟨before, after⟩ = []) : r.run ⟨before', after⟩ = [] :=
  run_eq_nil_of_take (c := ⟨before, after⟩) (k := after.length + 1)
    (fun _ hn => Nat.lt_succ_of_le (le_length_of_mem_run hn)) rfl hhead h

/-- Nothing is replaced where the pattern does not match. -/
theorem replacedBy_eq_none_iff {marker : List α} : r.replacedBy marker c = none ↔ r.run c = [] := by
  rw [replacedBy, Option.map_eq_none_iff, length, List.head?_eq_none_iff]

/-! ## The characters of a match -/

/-- The pattern is made of characters with the property. -/
def Only (q : α → Prop) : Regex α → Prop
  | char p => ∀ a, p a = true → q a
  | seq r s => r.Only q ∧ s.Only q
  | alt r s => r.Only q ∧ s.Only q
  | star r => r.Only q
  | lazy r => r.Only q
  | _ => True

/-- The characters of repeated matches are those of the matches. -/
theorem forall_mem_of_mem_repeated {q : α → Prop} {greedy : Bool} {once : Cursor α → List ℕ}
    (honce : ∀ {c n}, n ∈ once c → ∀ a ∈ c.after.take n, q a) {fuel : ℕ}
    (h : n ∈ repeated greedy once fuel c) : ∀ a ∈ c.after.take n, q a := by
  induction fuel generalizing c n with
  | zero =>
    rw [repeated, List.mem_singleton] at h
    rw [h, List.take_zero]
    exact fun a ha => absurd ha List.not_mem_nil
  | succ fuel ih =>
    rcases mem_repeated_succ.1 h with rfl | ⟨i, hi, -, j, hj, rfl⟩
    · exact fun a ha => absurd ha List.not_mem_nil
    · intro a ha
      rw [List.take_add, List.mem_append] at ha
      exact ha.elim (honce hi a) (ih hj a)

/-- The characters of a match are those that the pattern is made of. -/
theorem Only.forall_mem {q : α → Prop} (hr : r.Only q) (h : n ∈ r.run c) :
    ∀ a ∈ c.after.take n, q a := by
  -- a match of no characters has none
  have hzero : n = 0 → ∀ a ∈ c.after.take n, q a := fun hn a ha => by
    rw [hn, List.take_zero] at ha
    exact absurd ha List.not_mem_nil
  induction r generalizing c n with
  | empty => exact hzero (List.mem_singleton.1 h)
  | char p =>
    obtain ⟨rfl, hhead⟩ := mem_run_char.1 h
    intro a ha
    cases hafter : c.after with
    | nil => rw [hafter] at ha; exact absurd ha List.not_mem_nil
    | cons b l =>
      rw [hafter] at ha hhead
      rw [List.mem_singleton.1 ha]
      exact hr b hhead
  | seq r s ihr ihs =>
    obtain ⟨i, hi, j, hj, rfl⟩ := mem_run_seq.1 h
    intro a ha
    rw [List.take_add, List.mem_append] at ha
    rcases ha with ha | ha
    · exact ihr hr.1 hi (by rintro rfl a ha; exact absurd ha List.not_mem_nil) a ha
    · exact ihs hr.2 hj (by rintro rfl a ha; exact absurd ha List.not_mem_nil) a ha
  | alt r s ihr ihs =>
    exact (mem_run_alt.1 h).elim (ihr hr.1 · hzero) (ihs hr.2 · hzero)
  | star r ih =>
    refine forall_mem_of_mem_repeated (fun {c n} h => ih hr h ?_) h
    rintro rfl a ha
    exact absurd ha List.not_mem_nil
  | lazy r ih =>
    refine forall_mem_of_mem_repeated (fun {c n} h => ih hr h ?_) h
    rintro rfl a ha
    exact absurd ha List.not_mem_nil
  | boundary word =>
    rw [run] at h
    split_ifs at h
    · exact hzero (List.mem_singleton.1 h)
    · exact absurd h List.not_mem_nil
  | notBehind p =>
    rw [run] at h
    split_ifs at h
    · exact absurd h List.not_mem_nil
    · exact hzero (List.mem_singleton.1 h)
  | notAhead p =>
    rw [run] at h
    split_ifs at h
    · exact absurd h List.not_mem_nil
    · exact hzero (List.mem_singleton.1 h)

/-- A match is not empty, and begins with a character with the property. -/
def Starts (q : α → Prop) (r : Regex α) : Prop :=
  ∀ c n, n ∈ r.run c → 0 < n ∧ ∃ a, c.after.head? = some a ∧ q a

/-- A character matches itself. -/
theorem starts_char {q : α → Prop} (h : ∀ a, p a = true → q a) : (char p).Starts q := by
  intro c n hn
  obtain ⟨rfl, hhead⟩ := mem_run_char.1 hn
  cases hafter : c.after.head? with
  | none =>
    rw [hafter] at hhead
    exact absurd hhead Bool.false_ne_true
  | some a =>
    rw [hafter] at hhead
    exact ⟨Nat.one_pos, a, rfl, h a hhead⟩

/-- Patterns in turn begin as the first of them. -/
theorem Starts.seq {q : α → Prop} (h : r.Starts q) : (seq r s).Starts q := by
  intro c n hn
  obtain ⟨i, hi, j, -, rfl⟩ := mem_run_seq.1 hn
  obtain ⟨hpos, hhead⟩ := h c i hi
  exact ⟨Nat.add_pos_left hpos j, hhead⟩

/-- Two patterns begin as each of them. -/
theorem Starts.alt {q : α → Prop} (hr : r.Starts q) (hs : s.Starts q) : (alt r s).Starts q :=
  fun c n hn => (mem_run_alt.1 hn).elim (hr c n) (hs c n)

/-- A boundary matches no character. -/
theorem Starts.boundary {q : α → Prop} {word : α → Bool} (h : r.Starts q) :
    (Regex.seq (Regex.boundary word) r).Starts q := by
  intro c n hn
  obtain ⟨i, hi, j, hj, rfl⟩ := mem_run_seq.1 hn
  obtain rfl : i = 0 := by
    rw [run] at hi
    split_ifs at hi
    · exact List.mem_singleton.1 hi
    · cases hi
  rw [Nat.zero_add]
  exact h c j hj

/-- The property of the first character may be a weaker one. -/
theorem Starts.mono {q q' : α → Prop} (h : r.Starts q) (hq : ∀ a, q a → q' a) : r.Starts q' := by
  intro c n hn
  obtain ⟨hpos, a, ha, hqa⟩ := h c n hn
  exact ⟨hpos, a, ha, hq a hqa⟩

/-- A pattern does not match where the character that it begins with is missing. -/
theorem Starts.run_eq_nil {q : α → Prop} (h : r.Starts q)
    (hhead : ∀ a, c.after.head? = some a → ¬ q a) : r.run c = [] := by
  rw [List.eq_nil_iff_forall_not_mem]
  intro n hn
  obtain ⟨-, a, ha, hq⟩ := h c n hn
  exact hhead a ha hq

/-! ## The first match -/

/-- What holds of the first match of a pattern. -/
def FirstMatch (P : Cursor α → ℕ → Prop) (r : Regex α) : Prop :=
  ∀ c n, (r.run c).head? = some n → P c n

/-- The first match of two patterns is that of one of them. -/
theorem FirstMatch.alt {P : Cursor α → ℕ → Prop} (hr : r.FirstMatch P) (hs : s.FirstMatch P) :
    (alt r s).FirstMatch P := by
  intro c n h
  rw [run, List.head?_append] at h
  cases hrun : (r.run c).head? with
  | none =>
    rw [hrun, Option.none_or] at h
    exact hs c n h
  | some m =>
    rw [hrun, Option.some_or] at h
    cases h
    exact hr c _ hrun

/-- The first match of a sequence, where the first match of each part leads to one. -/
theorem head?_run_seq {i j : ℕ} (hr : (r.run c).head? = some i)
    (hs : (s.run (c.advance i)).head? = some j) : ((seq r s).run c).head? = some (i + j) := by
  obtain ⟨l, hl⟩ := List.head?_eq_some_iff.1 hr
  obtain ⟨l', hl'⟩ := List.head?_eq_some_iff.1 hs
  rw [run, hl, List.flatMap_cons, hl']
  rfl

/-- The first match of two patterns, where the first does not match. -/
theorem head?_run_alt (hr : r.run c = []) : ((alt r s).run c).head? = (s.run c).head? := by
  rw [run, hr, List.nil_append]

/-- Two groups, of which the second can follow only one match of the first. -/
theorem lengths_eq_some_iff {i : ℕ} (h : ∀ j ∈ r.run c, s.run (c.advance j) ≠ [] → j = i) {m n : ℕ} :
    r.lengths s c = some (n, m) ↔
      n = i ∧ i ∈ r.run c ∧ (s.run (c.advance i)).head? = some m := by
  rw [lengths]
  generalize r.run c = ends at h
  induction ends with
  | nil => simp
  | cons j ends ih =>
    rw [List.forall_mem_cons] at h
    rw [List.flatMap_cons, List.head?_append]
    by_cases hnil : s.run (c.advance j) = []
    · -- the group does not follow here
      rw [hnil, List.map_nil, List.head?_nil, Option.none_or, ih h.2, List.mem_cons]
      refine and_congr_right fun _ => and_congr_left fun hhead => ⟨.inr, ?_⟩
      rintro (rfl | hmem)
      · rw [hnil] at hhead
        cases hhead
      · exact hmem
    · obtain rfl := h.1 hnil
      obtain ⟨m', l, hl⟩ := List.exists_cons_of_ne_nil hnil
      rw [hl, List.map_cons, List.head?_cons, Option.some_or, Option.some.injEq, Prod.mk.injEq,
        List.head?_cons, Option.some.injEq]
      constructor
      · rintro ⟨rfl, rfl⟩
        exact ⟨rfl, List.mem_cons_self, rfl⟩
      · rintro ⟨rfl, -, rfl⟩
        exact ⟨rfl, rfl⟩

/-- The pattern goes on as far as the characters do. -/
def Exhausts (p : α → Bool) (r : Regex α) : Prop :=
  r.FirstMatch fun c n => (c.after.drop n).head?.any p = false

/-- Patterns in turn go on as far as the last of them. -/
theorem Exhausts.seq (h : s.Exhausts p) : (seq r s).Exhausts p := by
  intro c n hn
  rw [run, List.head?_flatMap] at hn
  obtain ⟨i, -, hi⟩ := List.exists_of_findSome?_eq_some hn
  rw [List.head?_map, Option.map_eq_some_iff] at hi
  obtain ⟨j, hj, rfl⟩ := hi
  rw [← List.drop_drop]
  exact h (c.advance i) j hj

/-- The matches of a repeated character. -/
theorem mem_repeated_char {greedy : Bool} {fuel : ℕ} (hfuel : c.after.length ≤ fuel) :
    n ∈ repeated greedy (char p).run fuel c ↔ n ≤ (c.after.takeWhile p).length := by
  induction fuel generalizing c n with
  | zero =>
    rw [List.length_eq_zero_iff.1 (Nat.le_zero.1 hfuel), repeated, List.mem_singleton]
    exact Nat.le_zero.symm
  | succ fuel ih =>
    rw [mem_repeated_succ]
    cases hafter : c.after with
    | nil =>
      simp only [mem_run_char, hafter, List.takeWhile_nil, List.length_nil, Nat.le_zero]
      simp
    | cons a l =>
      have hrest : (c.advance 1).after = l := by rw [Cursor.after_advance, hafter, List.drop_one,
        List.tail_cons]
      rw [hafter, List.length_cons] at hfuel
      have ih' : ∀ j, j ∈ repeated greedy (char p).run fuel (c.advance 1) ↔
          j ≤ (l.takeWhile p).length := fun j => by
        rw [ih (by rw [hrest]; omega), hrest]
      rw [List.takeWhile_cons]
      split_ifs with hpa
      · rw [List.length_cons]
        constructor
        · rintro (rfl | ⟨i, hi, -, j, hj, rfl⟩)
          · exact Nat.zero_le _
          · obtain ⟨rfl, -⟩ := mem_run_char.1 hi
            rw [ih'] at hj
            omega
        · intro hn
          rcases Nat.eq_zero_or_pos n with rfl | hpos
          · exact .inl rfl
          · refine .inr ⟨1, mem_run_char.2 ⟨rfl, ?_⟩, Nat.one_pos, n - 1, (ih' _).2 (by omega), by omega⟩
            rw [hafter]
            exact hpa
      · rw [List.length_nil, Nat.le_zero]
        refine or_iff_left ?_
        rintro ⟨i, hi, -⟩
        have hhead := (mem_run_char.1 hi).2
        rw [hafter] at hhead
        exact hpa hhead

/-- The first match of a repeated character goes on as far as the character does. -/
theorem head?_repeated_char {fuel : ℕ} (hfuel : c.after.length ≤ fuel) :
    (repeated true (char p).run fuel c).head? = some (c.after.takeWhile p).length := by
  induction fuel generalizing c with
  | zero => rw [List.length_eq_zero_iff.1 (Nat.le_zero.1 hfuel)]; rfl
  | succ fuel ih =>
    rw [repeated, if_pos rfl, run]
    cases hafter : c.after with
    | nil => rfl
    | cons a l =>
      have hrest : (c.advance 1).after = l := by rw [Cursor.after_advance, hafter, List.drop_one,
        List.tail_cons]
      rw [hafter, List.length_cons] at hfuel
      have ih' := ih (c := c.advance 1) (by rw [hrest]; omega)
      rw [hrest] at ih'
      rw [List.takeWhile_cons, List.head?_cons, Option.any_some]
      split_ifs with hpa
      · simp [ih', Nat.add_comm]
      · rfl

/-- Behind the characters with a property, there is one without it, or none. -/
theorem head?_drop_takeWhile (p : α → Bool) (l : List α) :
    (l.drop (l.takeWhile p).length).head?.any p = false := by
  induction l with
  | nil => rfl
  | cons a l ih =>
    rw [List.takeWhile_cons]
    split_ifs with hpa
    · rwa [List.length_cons, List.drop_succ_cons]
    · rw [List.length_nil, List.drop_zero, List.head?_cons, Option.any_some, Bool.eq_false_iff]
      exact hpa

/-- A repeated character goes on as far as it can. -/
theorem exhausts_star_char : (star (char p)).Exhausts p := by
  intro c n hn
  rw [run, head?_repeated_char le_rfl, Option.some.injEq] at hn
  subst hn
  exact head?_drop_takeWhile p c.after

/-! ## Derived patterns -/

/-- The characters of a text, one by one, look at nothing else. -/
theorem plain_text (same : α → α → Bool) (t : List α) : (text same t).Plain := by
  induction t with
  | nil => trivial
  | cons a t ih => exact ⟨trivial, ih⟩

/-- A pattern of a text is made of the characters that match those of the text. -/
theorem only_text {same : α → α → Bool} {q : α → Prop} {t : List α}
    (h : ∀ a ∈ t, ∀ b, same a b = true → q b) : (text same t).Only q := by
  induction t with
  | nil => trivial
  | cons a t ih =>
    exact ⟨h a List.mem_cons_self, ih fun b hb => h b (List.mem_cons_of_mem a hb)⟩

/-- A pattern of a text begins as the text. -/
theorem starts_text {same : α → α → Bool} {q : α → Prop} {a : α} {t : List α}
    (h : ∀ b, same a b = true → q b) : (text same (a :: t)).Starts q := (starts_char h).seq

/-- The first match of one or more characters. -/
theorem head?_run_plus_char (h : c.after.head?.any p = true) :
    ((char p).plus.run c).head? = some (c.after.takeWhile p).length := by
  cases hafter : c.after with
  | nil => rw [hafter] at h; exact absurd h Bool.false_ne_true
  | cons a l =>
    have hstar : ((star (char p)).run (c.advance 1)).head? = some (l.takeWhile p).length := by
      rw [run, head?_repeated_char le_rfl, Cursor.after_advance, hafter, List.drop_one,
        List.tail_cons]
    have hpa : p a = true := by rwa [hafter, List.head?_cons, Option.any_some] at h
    have hchar : (char p).run c = [1] := by rw [run, if_pos h]
    rw [plus, atLeast, atLeast, run, hchar, List.flatMap_singleton, List.head?_map, hstar,
      List.takeWhile_cons_of_pos hpa, List.length_cons, Option.map_some, Nat.add_comm]

/-- One or more characters go on as far as they can. -/
theorem exhausts_plus_char : (char p).plus.Exhausts p := exhausts_star_char.seq

end Regex

end McpRuntime
