import McpRuntime.Python.Finditer
import McpRuntime.Python.RegexMatch
import McpRuntime.Redaction.Redactor

/-!
# What looks like a credential

The shape of what the three patterns of the redactor match, and what their matches
depend on.

* `mem_run_assignmentPrefix`, `eq_prefixLength`: what comes before an assigned text
  ends with the spaces behind the first `:` or `=`.
* `findAssignment_eq_some_iff`: what is found of an assignment.
* `jwt_shape`, `privateKey_shape`: the parts of a token, and of a private key.
-/

namespace McpRuntime

namespace Pattern

/-! ## Characters -/

/-- `[^\s,;}\]]` -/
def isUnquoted (c : CodePoint) : Bool := !c.isSpace && !(lit ",;\x7d]").contains c

/-- `[:=]` -/
def isColon (c : CodePoint) : Bool := (lit ":=").contains c

/-- The characters `:` and `=`. -/
theorem isColon_iff {c : CodePoint} : isColon c = true ↔ c.val = 58 ∨ c.val = 61 := by
  have hlit : lit ":=" = [58, 61] := by decide
  rw [isColon, hlit, List.contains_iff_mem, List.mem_cons, List.mem_singleton, Fin.ext_iff,
    Fin.ext_iff]
  rfl

/-- The characters that end an assigned text that is not in quotes. -/
theorem isUnquoted_iff {c : CodePoint} : isUnquoted c = true ↔
    c.isSpace = false ∧ c.val ≠ 44 ∧ c.val ≠ 59 ∧ c.val ≠ 125 ∧ c.val ≠ 93 := by
  have hlit : lit ",;\x7d]" = [44, 59, 125, 93] := by decide
  rw [isUnquoted, hlit, Bool.and_eq_true, Bool.not_eq_true', Bool.not_eq_true',
    and_congr_right_iff]
  intro _
  rw [Bool.eq_false_iff, Ne, List.contains_iff_mem]
  simp only [List.mem_cons, List.not_mem_nil, or_false, Fin.ext_iff, not_or]
  rfl

/-- A character that a letter in a pattern matches. -/
def IsLetter (c : CodePoint) : Prop :=
  65 ≤ c.val ∧ c.val ≤ 90 ∨ 97 ≤ c.val ∧ c.val ≤ 122 ∨
    c.val = 0x130 ∨ c.val = 0x131 ∨ c.val = 0x17F ∨ c.val = 0x212A

instance IsLetter.decidable (c : CodePoint) : Decidable (IsLetter c) :=
  inferInstanceAs (Decidable (65 ≤ c.val ∧ c.val ≤ 90 ∨ 97 ≤ c.val ∧ c.val ≤ 122 ∨
    c.val = 0x130 ∨ c.val = 0x131 ∨ c.val = 0x17F ∨ c.val = 0x212A))

/-- A lower case letter matches letters. -/
theorem isLetter_of_sameLetter {a c : CodePoint} (ha : a.isLower = true)
    (h : sameLetter a c = true) : IsLetter c := by
  rw [CodePoint.isLower, Bool.and_eq_true, decide_eq_true_eq, decide_eq_true_eq] at ha
  simp only [sameLetter, Bool.or_eq_true, Bool.and_eq_true, beq_iff_eq] at h
  rw [IsLetter]
  rcases h with ((h | h) | h) | h
  · rw [CodePoint.asciiLower] at h
    split_ifs at h with hc
    · simp only [Bool.and_eq_true, decide_eq_true_eq] at hc
      exact .inl hc
    · rw [h]
      exact .inr (.inl ha)
  · omega
  · omega
  · omega

/-- A letter is not `:` or `=`. -/
theorem IsLetter.not_isColon {c : CodePoint} (h : IsLetter c) : isColon c = false := by
  rw [Bool.eq_false_iff, Ne, isColon_iff]
  rw [IsLetter] at h
  omega

/-- A letter can begin an assigned text that is not in quotes. -/
theorem IsLetter.isUnquoted {c : CodePoint} (h : IsLetter c) : isUnquoted c = true := by
  rw [isUnquoted_iff]
  rw [IsLetter] at h
  refine ⟨?_, by omega, by omega, by omega, by omega⟩
  rw [Bool.eq_false_iff]
  intro hspace
  simp only [CodePoint.isSpace, Bool.or_eq_true, Bool.and_eq_true, decide_eq_true_eq,
    beq_iff_eq] at hspace
  omega

/-! ## The names -/

/-- A pattern of a name: of letters and separators. -/
structure IsName (r : Regex CodePoint) : Prop where
  plain : r.Plain
  only : r.Only fun c => isColon c = false

/-- A word is a name. -/
theorem isName_letters {word : String} (h : (lit word).all CodePoint.isLower = true) :
    IsName (letters word) where
  plain := Regex.plain_text _ _
  only := Regex.only_text fun a ha _ hb =>
    (isLetter_of_sameLetter (List.all_eq_true.1 h a ha) hb).not_isColon

/-- Names one after the other. -/
theorem IsName.seq {r s : Regex CodePoint} (hr : IsName r) (hs : IsName s) : IsName (r.seq s) :=
  ⟨⟨hr.plain, hs.plain⟩, hr.only, hs.only⟩

/-- One of two names. -/
theorem IsName.alt {r s : Regex CodePoint} (hr : IsName r) (hs : IsName s) : IsName (r.alt s) :=
  ⟨⟨hr.plain, hs.plain⟩, hr.only, hs.only⟩

/-- No name. -/
theorem isName_empty : IsName .empty := ⟨trivial, trivial⟩

/-- A separator may stand in a name. -/
theorem isName_separator : IsName separator := by
  refine ⟨⟨trivial, trivial⟩, fun c hc => ?_, trivial⟩
  have hlit : lit "-_ " = [45, 95, 32] := by decide
  rw [hlit, List.contains_iff_mem] at hc
  simp only [List.mem_cons, List.not_mem_nil, or_false] at hc
  rcases hc with rfl | rfl | rfl
  · exact by decide
  · exact by decide
  · exact by decide

/-- A name and a word. -/
theorem IsName.pair {first : Regex CodePoint} {second : String} (h : IsName first)
    (hsecond : (lit second).all CodePoint.isLower = true) : IsName (pair first second) :=
  h.seq (isName_separator.seq ((isName_letters hsecond).seq isName_empty))

/-- The names in `_SECRET_ASSIGNMENT`. -/
theorem isName_assignedName : IsName assignedName := by
  have hkey : (lit "key").all CodePoint.isLower = true := by decide
  have htoken : (lit "token").all CodePoint.isLower = true := by decide
  have haccess : IsName (letters "access") := isName_letters (by decide)
  have haccessor : IsName ((letters "access").first [letters "refresh", letters "auth",
      letters "id"]) :=
    haccess.alt ((isName_letters (by decide)).alt ((isName_letters (by decide)).alt
      (isName_letters (by decide))))
  have hkeys : IsName ((pair (letters "secret") "access").first
      [letters "access", letters "signing", letters "encryption"]) :=
    ((isName_letters (by decide)).pair (by decide)).alt (haccess.alt
      ((isName_letters (by decide)).alt (isName_letters (by decide))))
  have hid : IsName (Regex.seq separator (letters "id")).optional :=
    (isName_separator.seq (isName_letters (by decide))).alt isName_empty
  refine (isName_letters (by decide)).alt (.alt ((isName_letters (by decide)).pair (by decide)) ?_)
  refine (isName_letters htoken).alt (.alt (haccessor.pair htoken) ?_)
  refine ((isName_letters (by decide)).pair hkey).alt (.alt (isName_letters (by decide)) ?_)
  refine (isName_letters (by decide)).alt (.alt ((isName_letters (by decide)).pair (by decide)) ?_)
  exact ((isName_letters (by decide)).pair hkey).alt ((hkeys.pair hkey).seq hid)

/-- A word begins with a letter. -/
theorem starts_letters {word : String} (h : (lit word).head?.any CodePoint.isLower = true) :
    (letters word).Starts IsLetter := by
  rw [letters]
  cases hword : lit word with
  | nil => rw [hword] at h; exact absurd h Bool.false_ne_true
  | cons a t =>
    rw [hword] at h
    exact Regex.starts_text fun b hb => isLetter_of_sameLetter h hb

/-- A name begins with a letter. -/
theorem starts_assignedName : assignedName.Starts IsLetter := by
  have haccess : (letters "access").Starts IsLetter := starts_letters (by decide)
  have haccessor : ((letters "access").first [letters "refresh", letters "auth",
      letters "id"]).Starts IsLetter :=
    haccess.alt ((starts_letters (by decide)).alt
      ((starts_letters (by decide)).alt (starts_letters (by decide))))
  have hkeys : ((pair (letters "secret") "access").first
      [letters "access", letters "signing", letters "encryption"]).Starts IsLetter :=
    (starts_letters (by decide)).seq.alt (haccess.alt
      ((starts_letters (by decide)).alt (starts_letters (by decide))))
  refine (starts_letters (by decide)).alt
    (.alt (starts_letters (by decide)).seq ?_)
  refine (starts_letters (by decide)).alt (.alt haccessor.seq ?_)
  refine (starts_letters (by decide)).seq.alt
    (.alt (starts_letters (by decide)) ?_)
  refine (starts_letters (by decide)).alt
    (.alt (starts_letters (by decide)).seq ?_)
  exact (starts_letters (by decide)).seq.alt hkeys.seq.seq

/-! ## What comes before an assigned text -/

/-- What follows the name: a quote, and `:` or `=` between spaces. -/
def afterName : Regex CodePoint :=
  .all [(oneOf (lit "\"'")).optional, .star space, oneOf (lit ":="), .star space]

/-- What follows the name does not depend on what is beside it. -/
theorem plain_afterName : afterName.Plain :=
  ⟨⟨trivial, trivial⟩, trivial, trivial, trivial, trivial⟩

/-- A text that ends with the spaces behind its only `:` or `=`. -/
def IsPrefixText (t : Text) : Prop :=
  ∃ x colon spaces, t = x ++ colon :: spaces ∧ (∀ a ∈ x, isColon a = false) ∧
    isColon colon = true ∧ ∀ a ∈ spaces, a.isSpace = true

/-- A space is not `:` or `=`. -/
theorem not_isColon_of_isSpace {c : CodePoint} (h : c.isSpace = true) : isColon c = false := by
  rw [Bool.eq_false_iff, Ne, isColon_iff]
  simp only [CodePoint.isSpace, Bool.or_eq_true, Bool.and_eq_true, decide_eq_true_eq,
    beq_iff_eq] at h
  omega

/-- What follows the name has one `:` or `=`. -/
theorem isPrefixText_afterName {c : Cursor CodePoint} {n : ℕ} (h : n ∈ afterName.run c) :
    IsPrefixText (c.after.take n) := by
  obtain ⟨i, hi, _, hspaced, rfl⟩ := Regex.mem_run_seq.1 h
  obtain ⟨j, hj, _, hcoloned, rfl⟩ := Regex.mem_run_seq.1 hspaced
  obtain ⟨_, hone, _, hrest, rfl⟩ := Regex.mem_run_seq.1 hcoloned
  obtain ⟨l, hl, _, hend, rfl⟩ := Regex.mem_run_seq.1 hrest
  obtain rfl := List.mem_singleton.1 hend
  obtain ⟨rfl, hcolon⟩ := Regex.mem_run_char.1 hone
  -- Neither the quote nor the spaces have a colon.
  have hquote : (oneOf (lit "\"'")).optional.Only fun c => isColon c = false := by
    refine ⟨fun a ha => ?_, trivial⟩
    have hlit : lit "\"'" = [34, 39] := by decide
    rw [hlit, List.contains_iff_mem] at ha
    simp only [List.mem_cons, List.not_mem_nil, or_false] at ha
    rcases ha with rfl | rfl
    · exact by decide
    · exact by decide
  have hspaces : ∀ (c : Cursor CodePoint) (n : ℕ), n ∈ (Regex.star space).run c →
      ∀ a ∈ c.after.take n, a.isSpace = true := fun c n hn =>
    Regex.Only.forall_mem (r := .star space) (fun a ha => ha) hn
  cases hafter : ((c.advance i).advance j).after with
  | nil => rw [hafter] at hcolon; exact absurd hcolon Bool.false_ne_true
  | cons colon rest =>
    rw [hafter] at hcolon
    refine ⟨c.after.take i ++ (c.after.drop i).take j, colon, rest.take l, ?_, ?_, hcolon, ?_⟩
    · rw [Cursor.after_advance, Cursor.after_advance] at hafter
      rw [Nat.add_zero, List.take_add, List.take_add, hafter, Nat.add_comm 1 l,
        List.take_succ_cons, List.append_assoc]
    · intro a ha
      rcases List.mem_append.1 ha with ha | ha
      · exact hquote.forall_mem hi a ha
      · exact not_isColon_of_isSpace (hspaces _ _ hj a ha)
    · have := hspaces _ _ hl
      rwa [Cursor.after_advance, hafter, List.drop_one, List.tail_cons] at this

variable {word : CodePoint → Bool} {c d : Cursor CodePoint} {n k : ℕ}

/-- What comes before an assigned text: a name with no other characters of words beside it, and
    what follows the name. -/
theorem mem_run_assignmentPrefix : n ∈ (assignmentPrefix word).run c ↔
    c.atBoundary (isWord word) = true ∧ ∃ i ∈ assignedName.run c,
      (c.advance i).atBoundary (isWord word) = true ∧
        ∃ j ∈ afterName.run (c.advance i), i + j = n := by
  have hboundary : ∀ (c : Cursor CodePoint) (n : ℕ),
      n ∈ (Regex.boundary (isWord word)).run c ↔ c.atBoundary (isWord word) = true ∧ n = 0 := by
    intro c n
    rw [Regex.run]
    split_ifs with h
    · rw [List.mem_singleton, and_iff_right h]
    · exact iff_of_false List.not_mem_nil fun h' => h h'.1
  change n ∈ (Regex.seq (.boundary (isWord word)) (.seq assignedName
    (.seq (.boundary (isWord word)) afterName))).run c ↔ _
  simp only [Regex.mem_run_seq, hboundary]
  constructor
  · rintro ⟨_, ⟨hc, rfl⟩, _, ⟨i, hi, _, ⟨_, ⟨hi', rfl⟩, j, hj, rfl⟩, rfl⟩, rfl⟩
    exact ⟨hc, i, hi, hi', j, hj, by omega⟩
  · rintro ⟨hc, i, hi, hi', j, hj, rfl⟩
    exact ⟨0, ⟨hc, rfl⟩, i + (0 + j), ⟨i, hi, 0 + j, ⟨0, ⟨hi', rfl⟩, j, hj, rfl⟩, rfl⟩, by omega⟩

/-- What comes before an assigned text has one `:` or `=`. -/
theorem isPrefixText_of_mem_run (h : n ∈ (assignmentPrefix word).run c) :
    IsPrefixText (c.after.take n) := by
  obtain ⟨-, i, hi, -, j, hj, rfl⟩ := mem_run_assignmentPrefix.1 h
  obtain ⟨x, colon, spaces, hx, hcolons, hcolon, hspaces⟩ := isPrefixText_afterName hj
  refine ⟨c.after.take i ++ x, colon, spaces, ?_, ?_, hcolon, hspaces⟩
  · rw [List.take_add, ← Cursor.after_advance, hx, List.append_assoc]
  · intro a ha
    exact (List.mem_append.1 ha).elim (isName_assignedName.only.forall_mem hi a) (hcolons a)

/-- What comes before an assigned text depends on itself, and the character before it. -/
theorem mem_run_assignmentPrefix_of_take (hn : n ≤ k) (htake : c.after.take k = d.after.take k)
    (hhead : c.before.head? = d.before.head?) (h : n ∈ (assignmentPrefix word).run c) :
    n ∈ (assignmentPrefix word).run d := by
  obtain ⟨hc, i, hi, hi', j, hj, rfl⟩ := mem_run_assignmentPrefix.1 h
  have hpos : 0 < j := by
    obtain ⟨x, colon, spaces, hx, -⟩ := isPrefixText_afterName hj
    rcases Nat.eq_zero_or_pos j with rfl | hpos
    · exact absurd hx.symm (List.append_ne_nil_of_right_ne_nil x (List.cons_ne_nil _ _))
    · exact hpos
  have htake' : (c.advance i).after.take (k - i) = (d.advance i).after.take (k - i) := by
    rw [Cursor.after_advance, Cursor.after_advance, ← List.drop_take, ← List.drop_take, htake]
  refine mem_run_assignmentPrefix.2 ⟨?_, i, ?_, ?_, j, ?_, rfl⟩
  · rw [Cursor.atBoundary] at hc ⊢
    rwa [← hhead, ← Regex.head?_eq_of_take (by omega) htake]
  · exact Regex.mem_run_of_take (by omega) htake (.inl isName_assignedName.plain) hi
  · rw [Cursor.atBoundary] at hi' ⊢
    rwa [← Cursor.head?_before_advance (by omega) htake hhead,
      ← Regex.head?_eq_of_take (by omega) htake']
  · exact Regex.mem_run_of_take (by omega) htake' (.inl plain_afterName) hj

/-- Where a text is cut at the first character with a property, it is cut in one way. -/
theorem eq_of_cut {α : Type*} {q : α → Bool} {x x' w w' : List α} {b b' : α}
    (hx : ∀ a ∈ x, q a = false) (hb : q b = true) (hx' : ∀ a ∈ x', q a = false)
    (hb' : q b' = true) (h : x ++ b :: w = x' ++ b' :: w') : x = x' ∧ b :: w = b' :: w' := by
  induction x generalizing x' with
  | nil =>
    cases x' with
    | nil => exact ⟨rfl, h⟩
    | cons a x' =>
      rw [List.nil_append, List.cons_append, List.cons.injEq] at h
      rw [h.1, hx' a List.mem_cons_self] at hb
      exact absurd hb Bool.false_ne_true
  | cons a x ih =>
    cases x' with
    | nil =>
      rw [List.nil_append, List.cons_append, List.cons.injEq] at h
      rw [← h.1, hx a List.mem_cons_self] at hb'
      exact absurd hb' Bool.false_ne_true
    | cons a' x' =>
      rw [List.cons_append, List.cons_append, List.cons.injEq] at h
      obtain ⟨rfl, h⟩ := h
      obtain ⟨rfl, hw⟩ := ih (fun a ha => hx a (List.mem_cons_of_mem _ ha))
        (fun a ha => hx' a (List.mem_cons_of_mem _ ha)) h
      exact ⟨rfl, hw⟩

/-- What comes before an assigned text is given by the text. -/
theorem IsPrefixText.unique {p p' y y' : Text} {a a' : CodePoint} (hp : IsPrefixText p)
    (hp' : IsPrefixText p') (ha : a.isSpace = false) (ha' : a'.isSpace = false)
    (h : p ++ a :: y = p' ++ a' :: y') : p = p' := by
  obtain ⟨x, colon, spaces, rfl, hx, hcolon, hspaces⟩ := hp
  obtain ⟨x', colon', spaces', rfl, hx', hcolon', hspaces'⟩ := hp'
  rw [List.append_assoc, List.append_assoc, List.cons_append, List.cons_append] at h
  obtain ⟨rfl, hcut⟩ := eq_of_cut hx hcolon hx' hcolon' h
  rw [List.cons.injEq] at hcut
  obtain ⟨rfl, hcut⟩ := hcut
  obtain ⟨rfl, -⟩ := eq_of_cut (q := fun a => !a.isSpace)
    (fun b hb => by rw [hspaces b hb, Bool.not_true]) (by rw [ha, Bool.not_false])
    (fun b hb => by rw [hspaces' b hb, Bool.not_true]) (by rw [ha', Bool.not_false]) hcut
  rfl

/-! ## Assigned texts -/

/-- The assigned text is in quotes, as `replace_assignment` tells it. -/
def IsQuoted (assigned : Text) : Prop :=
  ∃ quote : CodePoint, (quote.val = 34 ∨ quote.val = 39) ∧ assigned.head? = some quote ∧
    assigned.getLast? = some quote

/-- A text in quotes is replaced by the marker in the same quotes. -/
theorem IsQuoted.redactAssigned {assigned : Text} (h : IsQuoted assigned) :
    ∃ quote : CodePoint, (quote.val = 34 ∨ quote.val = 39) ∧ assigned.head? = some quote ∧
      assigned.getLast? = some quote ∧
        redactAssigned assigned = quote :: redactedText ++ [quote] := by
  obtain ⟨quote, hquote, hhead, hlast⟩ := h
  obtain ⟨rest, rfl⟩ := List.head?_eq_some_iff.1 hhead
  exact ⟨quote, hquote, hhead, hlast, by rw [McpRuntime.redactAssigned, if_pos ⟨hquote, hlast⟩]⟩

/-- A text without quotes is replaced by the marker. -/
theorem redactAssigned_of_not {assigned : Text} (h : ¬ IsQuoted assigned) :
    redactAssigned assigned = redactedText := by
  cases assigned with
  | nil => rfl
  | cons quote rest =>
    rw [redactAssigned, if_neg]
    rintro ⟨hquote, hlast⟩
    exact h ⟨quote, hquote, rfl, hlast⟩

/-- `[^\s,;}\]]+` goes on as far as it can. -/
theorem exhausts_unquoted : unquoted.Exhausts isUnquoted := Regex.exhausts_plus_char

/-- A scheme, which may come before an unquoted text, begins with a letter. -/
theorem starts_scheme : ((letters "bearer").first [letters "basic"]).Starts IsLetter :=
  (starts_letters (by decide)).alt (starts_letters (by decide))

/-- A quoted text begins with its quote. -/
theorem starts_inQuotes {quote : String} {a : CodePoint} (h : lit quote = [a]) :
    (inQuotes quote).Starts (· = a) := by
  rw [inQuotes, exactly, h]
  refine Regex.Starts.seq (Regex.starts_text fun b hb => ?_)
  exact (eq_of_beq hb).symm

/-- The first character of an assigned text can begin an unquoted one. -/
theorem starts_assignmentValue : assignmentValue.Starts (isUnquoted · = true) := by
  have hquote : ∀ {quote : CodePoint}, isUnquoted quote = true → ∀ a, a = quote →
      isUnquoted a = true := fun h a ha => ha ▸ h
  refine (starts_scheme.mono fun _ => IsLetter.isUnquoted).seq.alt (.alt ?_ (.alt ?_ ?_))
  · exact (starts_inQuotes (a := 34) (by decide)).mono (hquote (by decide))
  · exact (starts_inQuotes (a := 39) (by decide)).mono (hquote (by decide))
  · exact (Regex.starts_char fun a ha => ha).seq

/-- Such a character begins an assigned text. -/
theorem run_assignmentValue_ne_nil (h : c.after.head?.any isUnquoted = true) :
    assignmentValue.run c ≠ [] := by
  have hmem : (c.after.takeWhile isUnquoted).length ∈ unquoted.run c :=
    List.mem_of_head? (Regex.head?_run_plus_char h)
  exact List.ne_nil_of_mem (Regex.mem_run_alt.2 (.inr (Regex.mem_run_alt.2 (.inr
    (Regex.mem_run_alt.2 (.inr hmem))))))

/-- A match of a quoted text is in quotes. -/
theorem isQuoted_of_mem_run {quote : String} {a : CodePoint} (h : lit quote = [a])
    (ha : a.val = 34 ∨ a.val = 39) (hn : n ∈ (inQuotes quote).run c) :
    IsQuoted (c.after.take n) := by
  have hchar : ∀ (c : Cursor CodePoint) (n : ℕ), n ∈ (exactly quote).run c →
      n = 1 ∧ c.after.head? = some a := by
    intro c n hn
    rw [exactly, h] at hn
    obtain ⟨i, hi, j, hj, rfl⟩ := Regex.mem_run_seq.1 hn
    obtain rfl := List.mem_singleton.1 hj
    obtain ⟨rfl, hhead⟩ := Regex.mem_run_char.1 hi
    cases hafter : c.after.head? with
    | none => rw [hafter] at hhead; exact absurd hhead Bool.false_ne_true
    | some b =>
      rw [hafter] at hhead
      exact ⟨rfl, congrArg some (eq_of_beq hhead).symm⟩
  obtain ⟨i, hi, _, hrest, rfl⟩ := Regex.mem_run_seq.1 hn
  obtain ⟨j, hj, _, hclose, rfl⟩ := Regex.mem_run_seq.1 hrest
  rw [Regex.all, Regex.all, Regex.run_seq_empty] at hclose
  obtain ⟨rfl, hfirst⟩ := hchar _ _ hi
  obtain ⟨rfl, hlast⟩ := hchar _ _ hclose
  obtain ⟨rest, hrest⟩ := List.head?_eq_some_iff.1 hfirst
  obtain ⟨rest', hrest'⟩ := List.head?_eq_some_iff.1 hlast
  rw [Cursor.advance_advance, Cursor.after_advance] at hrest'
  refine ⟨a, ha, ?_, ?_⟩
  · rw [hrest, Nat.add_comm 1, List.take_succ_cons, List.head?_cons]
  · rw [← Nat.add_assoc, List.take_add, hrest', List.take_succ_cons, List.take_zero,
      List.getLast?_concat]

/-- An assigned text is in quotes, or goes on as far as it can. -/
theorem firstMatch_assignmentValue : assignmentValue.FirstMatch fun c n =>
    IsQuoted (c.after.take n) ∨ (c.after.drop n).head?.any isUnquoted = false := by
  have hexhausts : ∀ {r : Regex CodePoint}, r.Exhausts isUnquoted → r.FirstMatch fun c n =>
      IsQuoted (c.after.take n) ∨ (c.after.drop n).head?.any isUnquoted = false :=
    fun h c n hn => .inr (h c n hn)
  refine (hexhausts ?_).alt (.alt ?_ (.alt ?_ (hexhausts exhausts_unquoted)))
  · refine (Regex.Exhausts.seq ?_).seq
    intro c n hn
    rw [Regex.all, Regex.all, Regex.run_seq_empty] at hn
    exact exhausts_unquoted c n hn
  · exact fun c n hn => .inl (isQuoted_of_mem_run (a := 34) (by decide) (by decide)
      (List.mem_of_head? hn))
  · exact fun c n hn => .inl (isQuoted_of_mem_run (a := 39) (by decide) (by decide)
      (List.mem_of_head? hn))

/-- Where a text cannot begin with a quote or a letter, the value is not in quotes, nor has it a
    scheme. -/
theorem head?_run_assignmentValue {a : CodePoint} {rest : Text} (hafter : c.after = a :: rest)
    (hletter : ¬ IsLetter a) (hquote : a ≠ 34) (hquote' : a ≠ 39) :
    (assignmentValue.run c).head? = (unquoted.run c).head? := by
  have hhead : ∀ {q : CodePoint → Prop}, ¬ q a → ∀ b, c.after.head? = some b → ¬ q b := by
    intro q hq b hb
    rw [hafter, List.head?_cons, Option.some.injEq] at hb
    exact hb ▸ hq
  refine (Regex.head?_run_alt (starts_scheme.seq.run_eq_nil (hhead hletter))).trans ?_
  refine (Regex.head?_run_alt
    ((starts_inQuotes (a := 34) (by decide)).run_eq_nil (hhead hquote))).trans ?_
  exact Regex.head?_run_alt ((starts_inQuotes (a := 39) (by decide)).run_eq_nil (hhead hquote'))

/-- The marker, without its last character, is an unquoted text. -/
theorem head?_run_assignmentValue_marker {rest : Text} (hafter : c.after = redactedText ++ rest) :
    (assignmentValue.run c).head? = some 9 := by
  have hmarker : redactedText = 91 :: lit "REDACTED]" := by decide
  have hcons : c.after = 91 :: (lit "REDACTED]" ++ rest) := by
    rw [hafter, hmarker, List.cons_append]
  rw [head?_run_assignmentValue hcons (by decide) (by decide) (by decide)]
  have htake : c.after.takeWhile isUnquoted = lit "[REDACTED" := by
    have hsplit : redactedText ++ rest = lit "[REDACTED" ++ 93 :: rest := by
      rw [show redactedText = lit "[REDACTED" ++ [93] by decide, List.append_assoc,
        List.singleton_append]
    rw [hafter, hsplit, List.takeWhile_append_of_pos, List.takeWhile_cons_of_neg (by decide),
      List.append_nil]
    exact List.all_eq_true.1 (by decide)
  refine (Regex.head?_run_plus_char (p := isUnquoted) ?_).trans (by rw [htake]; decide)
  rw [hafter, hmarker, List.cons_append, List.head?_cons, Option.any_some]
  decide

/-- The marker in quotes is a quoted text. -/
theorem head?_run_inQuotes (quote : String) {a : CodePoint} {rest : Text} (h : lit quote = [a])
    (hstop : (redactedText.all fun b => !(lit (quote ++ "\r\n")).contains b) = true)
    (hquote : (lit (quote ++ "\r\n")).contains a = true)
    (hafter : c.after = a :: redactedText ++ a :: rest) :
    ((inQuotes quote).run c).head? = some 12 := by
  have hchar : ∀ {c : Cursor CodePoint} {l : Text}, c.after = a :: l →
      ((exactly quote).run c).head? = some 1 := by
    intro c l hl
    rw [exactly, h, Regex.text, List.map_cons, List.map_nil, Regex.all, Regex.all,
      Regex.run_seq_empty, Regex.run, hl, List.head?_cons, Option.any_some, beq_self_eq_true,
      if_pos rfl, List.head?_cons]
  have hinner : (c.advance 1).after = redactedText ++ a :: rest := by
    rw [Cursor.after_advance, hafter, List.cons_append, List.drop_one, List.tail_cons]
  have htake : (c.advance 1).after.takeWhile
      (fun b => !(lit (quote ++ "\r\n")).contains b) = redactedText := by
    rw [hinner, List.takeWhile_append_of_pos, List.takeWhile_cons_of_neg, List.append_nil]
    · rw [hquote]
      decide
    · exact List.all_eq_true.1 hstop
  have hstar : ((Regex.star (noneOf (lit (quote ++ "\r\n")))).run (c.advance 1)).head? =
      some 10 := by
    have hhead := Regex.head?_repeated_char (c := c.advance 1)
      (p := fun b => !(lit (quote ++ "\r\n")).contains b) le_rfl
    rw [htake] at hhead
    exact hhead
  have hclose : ((Regex.all [exactly quote]).run ((c.advance 1).advance 10)).head? = some 1 := by
    rw [Regex.all, Regex.all, Regex.run_seq_empty]
    refine hchar (l := rest) ?_
    rw [Cursor.after_advance, hinner]
    exact List.drop_left' (by decide)
  exact Regex.head?_run_seq (hchar hafter) (Regex.head?_run_seq hstar hclose)

/-- The marker in quotes is an assigned text as a whole. -/
theorem head?_run_assignmentValue_quoted {a : CodePoint} {rest : Text}
    (ha : a.val = 34 ∨ a.val = 39) (hafter : c.after = a :: redactedText ++ a :: rest) :
    (assignmentValue.run c).head? = some 12 := by
  have hhead : ∀ {q : CodePoint → Prop}, ¬ q a → ∀ b, c.after.head? = some b → ¬ q b := by
    intro q hq b hb
    rw [hafter, List.cons_append, List.head?_cons, Option.some.injEq] at hb
    exact hb ▸ hq
  have hletter : ¬ IsLetter a := by
    rw [IsLetter]
    omega
  refine (Regex.head?_run_alt (starts_scheme.seq.run_eq_nil (hhead hletter))).trans ?_
  rcases ha with ha | ha
  · obtain rfl : a = 34 := Fin.ext ha
    have hhead := head?_run_inQuotes "\"" (by decide) (by decide) (by decide) hafter
    rw [Regex.first, Regex.run, List.head?_append, hhead, Option.some_or]
  · obtain rfl : a = 39 := Fin.ext ha
    refine (Regex.head?_run_alt ((starts_inQuotes (a := 34) (by decide)).run_eq_nil
      (hhead (by decide)))).trans ?_
    have hhead := head?_run_inQuotes "'" (by decide) (by decide) (by decide) hafter
    rw [Regex.first, Regex.run, List.head?_append, hhead, Option.some_or]

/-- Behind a `:` or `=` there are only spaces. -/
theorem IsPrefixText.forall_isSpace {x y : Text} {colon : CodePoint}
    (h : IsPrefixText (x ++ colon :: y)) (hcolon : isColon colon = true) :
    ∀ a ∈ y, a.isSpace = true := by
  obtain ⟨x', colon', spaces, hsplit, hx', -, hspaces⟩ := h
  rcases List.append_eq_append_iff.1 hsplit with ⟨z, rfl, hz⟩ | ⟨z, rfl, hz⟩
  · cases z with
    | nil =>
      rw [List.nil_append, List.cons.injEq] at hz
      rwa [hz.2]
    | cons a z =>
      -- it would be before the only one
      rw [List.cons_append, List.cons.injEq] at hz
      rw [hx' colon (List.mem_append_right _ (hz.1 ▸ List.mem_cons_self))] at hcolon
      exact absurd hcolon Bool.false_ne_true
  · intro a ha
    cases z with
    | nil =>
      rw [List.nil_append, List.cons.injEq] at hz
      exact hspaces a (hz.2 ▸ ha)
    | cons b z =>
      rw [List.cons_append, List.cons.injEq] at hz
      exact hspaces a (hz.2 ▸ List.mem_append_right _ (List.mem_cons_of_mem _ ha))

/-- What comes before an assigned text begins with a letter. -/
theorem starts_assignmentPrefix : (assignmentPrefix word).Starts IsLetter := by
  intro c n hn
  obtain ⟨-, i, hi, -, j, -, rfl⟩ := mem_run_assignmentPrefix.1 hn
  obtain ⟨hpos, hhead⟩ := starts_assignedName c i hi
  exact ⟨Nat.add_pos_left hpos j, hhead⟩

end Pattern

open Pattern

variable {word : CodePoint → Bool} {c d : Cursor CodePoint} {n : ℕ} {new : Text}

/-- An assigned text can follow only one of the matches of what comes before it. -/
theorem eq_of_mem_run_assignmentPrefix {i j : ℕ} (hi : i ∈ (assignmentPrefix word).run c)
    (hi' : (c.after.drop i).head?.any isUnquoted = true)
    (hj : j ∈ (assignmentPrefix word).run c)
    (hj' : (c.after.drop j).head?.any isUnquoted = true) : i = j := by
  have hcons : ∀ k, (c.after.drop k).head?.any isUnquoted = true →
      ∃ a l, c.after.drop k = a :: l ∧ a.isSpace = false := by
    intro k hk
    cases hdrop : c.after.drop k with
    | nil => rw [hdrop] at hk; exact absurd hk Bool.false_ne_true
    | cons a l =>
      rw [hdrop] at hk
      exact ⟨a, l, rfl, (isUnquoted_iff.1 hk).1⟩
  obtain ⟨a, l, ha, hspace⟩ := hcons i hi'
  obtain ⟨b, m, hb, hspace'⟩ := hcons j hj'
  have hsplit : c.after.take i ++ a :: l = c.after.take j ++ b :: m := by
    rw [← ha, ← hb, List.take_append_drop, List.take_append_drop]
  have htake : c.after.take i = c.after.take j :=
    (isPrefixText_of_mem_run hi).unique (isPrefixText_of_mem_run hj) hspace hspace' hsplit
  have hlength := congrArg List.length htake
  rw [List.length_take, List.length_take,
    Nat.min_eq_left (Regex.le_length_of_mem_run hi),
    Nat.min_eq_left (Regex.le_length_of_mem_run hj)] at hlength
  exact hlength

/-- The groups of an assignment: what comes before the assigned text, and the first match of
    that. -/
theorem lengths_eq_some_iff {i m : ℕ} :
    (assignmentPrefix word).lengths assignmentValue c = some (i, m) ↔
      i ∈ (assignmentPrefix word).run c ∧ (assignmentValue.run (c.advance i)).head? = some m := by
  have hvalue : ∀ {i m : ℕ}, m ∈ assignmentValue.run (c.advance i) →
      (c.after.drop i).head?.any isUnquoted = true := by
    intro i m hm
    obtain ⟨-, a, ha, hunquoted⟩ := starts_assignmentValue _ m hm
    rw [Cursor.after_advance] at ha
    rw [ha]
    exact hunquoted
  constructor
  · intro hlengths
    rw [Regex.lengths, List.head?_flatMap] at hlengths
    obtain ⟨j, hj, hjm⟩ := List.exists_of_findSome?_eq_some hlengths
    rw [List.head?_map, Option.map_eq_some_iff] at hjm
    obtain ⟨m', hm', he⟩ := hjm
    cases he
    exact ⟨hj, hm'⟩
  · rintro ⟨hi, hm⟩
    refine (Regex.lengths_eq_some_iff (i := i) fun j hj hnil => ?_).2 ⟨rfl, hi, hm⟩
    obtain ⟨k, hk⟩ := List.exists_mem_of_ne_nil _ hnil
    exact eq_of_mem_run_assignmentPrefix hj (hvalue hk) hi (hvalue (List.mem_of_head? hm))

/-- What is found of an assignment. -/
theorem findAssignment_eq_some_iff : findAssignment word c = some (n, new) ↔
    ∃ i ∈ (assignmentPrefix word).run c, ∃ m, (assignmentValue.run (c.advance i)).head? = some m ∧
      n = i + m ∧ new = c.after.take i ++ redactAssigned ((c.after.drop i).take m) := by
  rw [findAssignment, Option.map_eq_some_iff]
  constructor
  · rintro ⟨⟨i, m⟩, hlengths, he⟩
    cases he
    obtain ⟨hi, hm⟩ := lengths_eq_some_iff.1 hlengths
    exact ⟨i, hi, m, hm, rfl, rfl⟩
  · rintro ⟨i, hi, m, hm, rfl, rfl⟩
    exact ⟨(i, m), lengths_eq_some_iff.2 ⟨hi, hm⟩, rfl⟩

/-- The group `value` of a match of `_SECRET_ASSIGNMENT`. -/
def assignedText (word : CodePoint → Bool) (c : Cursor CodePoint) : Option Text :=
  ((assignmentPrefix word).lengths assignmentValue c).map fun (n, m) => (c.after.drop n).take m

/-- What `_SECRET_ASSIGNMENT` finds assigned in a text. -/
def assignedTexts (word : CodePoint → Bool) (t : Text) : List Text :=
  (finditer (findAssignment word) [] 0 t).filterMap (assignedText word)

/-- Nothing is found where no text is assigned. -/
theorem findAssignment_eq_none_iff : findAssignment word c = none ↔
    ∀ i ∈ (assignmentPrefix word).run c, (c.after.drop i).head?.any isUnquoted = false := by
  constructor
  · intro h i hi
    rw [Bool.eq_false_iff]
    intro hunquoted
    have hne := run_assignmentValue_ne_nil (c := c.advance i) hunquoted
    obtain ⟨m, l, hl⟩ := List.exists_cons_of_ne_nil hne
    have hfound := findAssignment_eq_some_iff.2
      ⟨i, hi, m, by rw [hl, List.head?_cons], rfl, rfl⟩
    rw [h] at hfound
    cases hfound
  · intro h
    rw [Option.eq_none_iff_forall_ne_some]
    rintro ⟨n, new⟩ hfound
    obtain ⟨i, hi, m, hm, -, -⟩ := findAssignment_eq_some_iff.1 hfound
    obtain ⟨-, a, ha, hunquoted⟩ := starts_assignmentValue _ m (List.mem_of_head? hm)
    have hnone := h i hi
    rw [Cursor.after_advance] at ha
    rw [ha, Option.any_some, hunquoted] at hnone
    cases hnone

/-! ## Tokens and private keys -/

namespace Pattern

/-- `[A-Za-z0-9_-]{8,}` -/
theorem jwtPart_shape (h : n ∈ ((Regex.char isJwtChar).atLeast 8).run c) :
    (∀ a ∈ c.after.take n, isJwtChar a = true) ∧ c.after.take n ≠ [] := by
  constructor
  · have honly : ((Regex.char isJwtChar).atLeast 8).Only (isJwtChar · = true) := by
      simp [Regex.atLeast, Regex.Only]
    exact honly.forall_mem h
  · obtain ⟨i, hi, j, hj, rfl⟩ := Regex.mem_run_seq.1 h
    obtain ⟨rfl, hhead⟩ := Regex.mem_run_char.1 hi
    cases hafter : c.after with
    | nil => rw [hafter] at hhead; exact absurd hhead Bool.false_ne_true
    | cons a l =>
      rw [Nat.add_comm, List.take_succ_cons]
      exact List.cons_ne_nil _ _

/-- The three parts of a token, and what is beside them. -/
theorem jwt_shape (h : n ∈ jwt.run c) :
    c.before.head?.any isJwtChar = false ∧ (c.after.drop n).head?.any isJwtChar = false ∧
      ∃ x y z : Text, c.after.take n = x ++ 46 :: (y ++ 46 :: z) ∧
        (∀ a ∈ x ++ (y ++ z), isJwtChar a = true) ∧ x ≠ [] ∧ z ≠ [] := by
  -- A dot is matched by itself alone.
  have hdot : ∀ {c : Cursor CodePoint} {n : ℕ}, n ∈ (exactly ".").run c →
      n = 1 ∧ ∃ l, c.after = 46 :: l := by
    intro c n hn
    rw [exactly, show lit "." = [46] by decide, Regex.text, List.map_cons, List.map_nil,
      Regex.all, Regex.all, Regex.run_seq_empty] at hn
    obtain ⟨rfl, hhead⟩ := Regex.mem_run_char.1 hn
    cases hafter : c.after with
    | nil => rw [hafter] at hhead; exact absurd hhead Bool.false_ne_true
    | cons a l =>
      rw [hafter] at hhead
      exact ⟨rfl, l, by rw [← eq_of_beq hhead]⟩
  change n ∈ (Regex.all [.notBehind isJwtChar, (Regex.char isJwtChar).atLeast 8, exactly ".",
    (Regex.char isJwtChar).atLeast 8, exactly ".", (Regex.char isJwtChar).atLeast 8,
    .notAhead isJwtChar]).run c at h
  obtain ⟨_, hbehind, _, hfirst, rfl⟩ := Regex.mem_run_seq.1 h
  -- What is matched is taken apart: three runs of characters, and a dot between them.
  obtain ⟨i, hi, _, hdotted, rfl⟩ := Regex.mem_run_seq.1 hfirst
  obtain ⟨_, hdot₁, _, hsecond, rfl⟩ := Regex.mem_run_seq.1 hdotted
  obtain ⟨j, hj, _, hdotted', rfl⟩ := Regex.mem_run_seq.1 hsecond
  obtain ⟨_, hdot₂, _, hthird, rfl⟩ := Regex.mem_run_seq.1 hdotted'
  obtain ⟨k, hk, _, hend, rfl⟩ := Regex.mem_run_seq.1 hthird
  rw [Regex.all, Regex.all, Regex.run_seq_empty, Regex.run] at hend
  rw [Regex.run] at hbehind
  split_ifs at hbehind with hbefore
  · exact absurd hbehind List.not_mem_nil
  split_ifs at hend with hafter
  · exact absurd hend List.not_mem_nil
  obtain rfl := List.mem_singleton.1 hbehind
  obtain rfl := List.mem_singleton.1 hend
  obtain ⟨rfl, l, hl⟩ := hdot hdot₁
  obtain ⟨rfl, m, hm⟩ := hdot hdot₂
  rw [Cursor.advance_zero] at hi hj hk hl hm hafter
  simp only [Cursor.advance_advance, Cursor.after_advance] at hl hm hj hk hafter
  obtain ⟨hx, hx'⟩ := jwtPart_shape hi
  obtain ⟨hy, -⟩ := jwtPart_shape hj
  obtain ⟨hz, hz'⟩ := jwtPart_shape hk
  have hlength : 0 + (i + (1 + (j + (1 + (k + 0))))) = i + 1 + j + 1 + k := by omega
  rw [hlength]
  refine ⟨Bool.eq_false_iff.2 hbefore, Bool.eq_false_iff.2 hafter, _,
    (c.advance (i + 1)).after.take j, _, ?_, ?_, hx', hz'⟩
  · rw [List.take_add, List.take_add, List.take_add, List.take_add, hl, hm, List.take_succ_cons,
      List.take_zero, List.take_succ_cons, List.take_zero]
    simp only [List.append_assoc, List.cons_append, List.nil_append, Cursor.after_advance]
  · intro a ha
    rcases List.mem_append.1 ha with ha | ha
    · exact hx a ha
    · exact (List.mem_append.1 ha).elim (hy a) (hz a)

/-- A token is made of the characters of its parts, and dots. -/
theorem isJwtChar_or_dot (h : n ∈ jwt.run c) :
    ∀ a ∈ c.after.take n, isJwtChar a = true ∨ a = 46 := by
  obtain ⟨-, -, x, y, z, htake, hparts, -⟩ := jwt_shape h
  rw [htake]
  intro a ha
  simp only [List.mem_append, List.mem_cons] at ha hparts
  rcases ha with ha | rfl | ha | rfl | ha
  · exact .inl (hparts a (.inl ha))
  · exact .inr rfl
  · exact .inl (hparts a (.inr (.inl ha)))
  · exact .inr rfl
  · exact .inl (hparts a (.inr (.inr ha)))

/-- A token ends with a character of its parts. -/
theorem exists_last_of_jwt (h : n ∈ jwt.run c) :
    ∃ l a, c.after.take n = l ++ [a] ∧ isJwtChar a = true := by
  obtain ⟨-, -, x, y, z, htake, hparts, -, hz⟩ := jwt_shape h
  obtain ⟨z, a, rfl⟩ := (List.eq_nil_or_concat' z).resolve_left hz
  refine ⟨x ++ 46 :: (y ++ 46 :: z), a, ?_, ?_⟩
  · rw [htake]
    simp only [List.append_assoc, List.cons_append]
  · exact hparts a (List.mem_append_right _ (List.mem_append_right _
      (List.mem_append_right _ (List.mem_singleton_self a))))

/-- A character that ends an unquoted text is none of a token. -/
theorem head?_isJwtChar {t : Text} (h : t.head?.any isUnquoted = false) :
    t.head?.any isJwtChar = false := by
  cases t with
  | nil => rfl
  | cons a t =>
    rw [List.head?_cons, Option.any_some, Bool.eq_false_iff] at h ⊢
    rw [Ne, isUnquoted_iff] at h
    intro hjwt
    refine h ?_
    simp only [isJwtChar, CodePoint.isAlphanumeric, Bool.or_eq_true, Bool.and_eq_true,
      decide_eq_true_eq, beq_iff_eq] at hjwt
    refine ⟨?_, by omega, by omega, by omega, by omega⟩
    rw [Bool.eq_false_iff]
    intro hspace
    simp only [CodePoint.isSpace, Bool.or_eq_true, Bool.and_eq_true, decide_eq_true_eq,
      beq_iff_eq] at hspace
    omega

/-- What comes before an assigned text does not end with a character of a token. -/
theorem IsPrefixText.exists_last {t : Text} (h : IsPrefixText t) :
    ∃ l a, t = l ++ [a] ∧ isJwtChar a = false ∧ a ≠ 46 := by
  obtain ⟨x, colon, spaces, rfl, -, hcolon, hspaces⟩ := h
  rcases List.eq_nil_or_concat' spaces with rfl | ⟨spaces, a, rfl⟩
  · refine ⟨x, colon, rfl, ?_⟩
    rw [isColon_iff] at hcolon
    rcases hcolon with hcolon | hcolon
    · obtain rfl : colon = 58 := Fin.ext hcolon
      decide
    · obtain rfl : colon = 61 := Fin.ext hcolon
      decide
  · refine ⟨x ++ colon :: spaces, a, by rw [List.append_assoc, List.cons_append], ?_⟩
    have hspace := hspaces a (List.mem_append_right _ (List.mem_singleton_self a))
    have hunquoted : [a].head?.any isUnquoted = false := by
      rw [List.head?_cons, Option.any_some, Bool.eq_false_iff, Ne, isUnquoted_iff, hspace]
      exact fun h => Bool.noConfusion h.1
    refine ⟨head?_isJwtChar hunquoted, ?_⟩
    rintro rfl
    exact absurd hspace (by decide)

/-- A line of a private key looks at nothing beside it. -/
theorem plain_keyLine (word : String) : (keyLine word).Plain := by
  refine ⟨Regex.plain_text _ _, ⟨⟨⟨trivial, trivial⟩, ?_⟩, trivial⟩, ?_, trivial⟩
  · exact Regex.plain_text _ _
  · exact Regex.plain_text _ _

/-- The characters of a line of a private key. -/
def isKeyLineChar (a : CodePoint) : Bool :=
  a = 45 || a = 32 || (65 ≤ a.val && a.val ≤ 90) || a.isDigit

/-- A line of a private key is made of hyphens, spaces, capitals and digits. -/
theorem only_keyLine {word : String}
    (h : (lit ("-----" ++ word ++ " ")).all isKeyLineChar = true) :
    (keyLine word).Only (isKeyLineChar · = true) := by
  have hexactly : ∀ {t : String}, (lit t).all isKeyLineChar = true →
      (exactly t).Only (isKeyLineChar · = true) := fun ht =>
    Regex.only_text fun a ha b hb => eq_of_beq hb ▸ List.all_eq_true.1 ht a ha
  have hkind : ∀ a : CodePoint, ((65 ≤ a.val && a.val ≤ 90) || a.isDigit) = true →
      isKeyLineChar a = true := by
    intro a ha
    rw [isKeyLineChar, Bool.or_assoc, ha, Bool.or_true]
  refine ⟨hexactly h, ⟨⟨⟨hkind, hkind⟩, ?_⟩, trivial⟩, ?_, trivial⟩
  · exact hexactly (t := " ") (by decide)
  · exact hexactly (t := "PRIVATE KEY-----") (by decide)

/-- A line of a private key begins with a hyphen. -/
theorem starts_keyLine (word : String) (h : (lit ("-----" ++ word ++ " ")).head? = some 45) :
    (keyLine word).Starts (· = 45) := by
  refine Regex.Starts.seq ?_
  obtain ⟨t, ht⟩ := List.head?_eq_some_iff.1 h
  rw [exactly, ht]
  exact Regex.starts_text fun b hb => (eq_of_beq hb).symm

/-- The first line of a private key, the last one, and what is between them. -/
theorem privateKey_shape (h : n ∈ privateKey.run c) :
    ∃ first between last : Text, c.after.take n = first ++ (between ++ last) ∧
      (keyLine "BEGIN").Accepts first ∧ (keyLine "END").Accepts last := by
  obtain ⟨i, hi, _, hrest, rfl⟩ := Regex.mem_run_seq.1 h
  obtain ⟨j, hj, _, hlast, rfl⟩ := Regex.mem_run_seq.1 hrest
  rw [Regex.all, Regex.all, Regex.run_seq_empty] at hlast
  refine ⟨c.after.take i, (c.after.drop i).take j, _, ?_,
    Regex.accepts_of_mem_run (plain_keyLine _) hi,
    Regex.accepts_of_mem_run (plain_keyLine _) hlast⟩
  rw [List.take_add, List.take_add, Cursor.advance_advance, Cursor.after_advance, List.drop_drop]

/-- A private key is found where its first line is, if its last line follows. -/
theorem mem_run_privateKey {before first between last rest : Text}
    (hfirst : (keyLine "BEGIN").Accepts first) (hlast : (keyLine "END").Accepts last) :
    first.length + (between.length + last.length) ∈
      privateKey.run ⟨before, first ++ (between ++ (last ++ rest))⟩ := by
  refine Regex.mem_run_seq.2 ⟨_, Regex.mem_run_of_accepts (plain_keyLine _) hfirst, _, ?_, rfl⟩
  refine Regex.mem_run_seq.2 ⟨between.length, ?_, _, ?_, rfl⟩
  · refine (Regex.mem_repeated_char le_rfl).2 ?_
    rw [List.takeWhile_eq_self_iff.2 fun _ _ => rfl, Cursor.after_advance, List.drop_left,
      List.length_append]
    exact Nat.le_add_right _ _
  · rw [Regex.all, Regex.all, Regex.run_seq_empty, Cursor.advance_advance, Cursor.advance]
    have hdrop : (first ++ (between ++ (last ++ rest))).drop (first.length + between.length) =
        last ++ rest := by
      rw [← List.append_assoc, ← List.length_append, List.drop_left]
    rw [hdrop]
    exact Regex.mem_run_of_accepts (plain_keyLine _) hlast

end Pattern

end McpRuntime
