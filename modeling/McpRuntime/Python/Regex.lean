import McpRuntime.Python.Substitution

/-!
# Patterns

The patterns of the `re` module, as far as they match by backtracking: a pattern
is run at a place of a text and gives the ends of its matches, in the order in
which backtracking tries them, each as the number of characters matched. The
match of `re` is the first of them.
-/

namespace McpRuntime

namespace Cursor

variable {α : Type*}

/-- The place `n` characters further on. -/
def advance (c : Cursor α) (n : ℕ) : Cursor α :=
  ⟨(c.after.take n).reverse ++ c.before, c.after.drop n⟩

/-- `\b`: one of the characters beside the place belongs to a word. -/
def atBoundary (word : α → Bool) (c : Cursor α) : Bool :=
  c.before.head?.any word != c.after.head?.any word

end Cursor

/-- A pattern over the characters `α`. -/
inductive Regex (α : Type*)
  | empty
  /-- One character. -/
  | char (p : α → Bool)
  | seq (r s : Regex α)
  /-- `r|s`, of which `r` is tried first. -/
  | alt (r s : Regex α)
  /-- `r*`. -/
  | star (r : Regex α)
  /-- `r*?`. -/
  | lazy (r : Regex α)
  /-- `\b`, for the characters of a word. -/
  | boundary (word : α → Bool)
  /-- `(?<!p)`, of one character. -/
  | notBehind (p : α → Bool)
  /-- `(?!p)`, of one character. -/
  | notAhead (p : α → Bool)

namespace Regex

variable {α : Type*}

/-- The ends of the repeated matches of what `once` matches, `fuel` matches at
    most. A match of no characters is not repeated, so that the rest of the text
    bounds the matches. -/
def repeated (greedy : Bool) (once : Cursor α → List ℕ) (fuel : ℕ) (c : Cursor α) : List ℕ :=
  match fuel with
  | 0 => [0]
  | fuel + 1 =>
    let more := ((once c).filter (0 < ·)).flatMap fun n =>
      (repeated greedy once fuel (c.advance n)).map (n + ·)
    if greedy then more ++ [0] else 0 :: more

/-- The ends of the matches of a pattern, in the order of backtracking. -/
def run : Regex α → Cursor α → List ℕ
  | empty, _ => [0]
  | char p, c => if c.after.head?.any p then [1] else []
  | seq r s, c => (r.run c).flatMap fun n => (s.run (c.advance n)).map (n + ·)
  | alt r s, c => r.run c ++ s.run c
  | star r, c => repeated true r.run c.after.length c
  | lazy r, c => repeated false r.run c.after.length c
  | boundary word, c => if c.atBoundary word then [0] else []
  | notBehind p, c => if c.before.head?.any p then [] else [0]
  | notAhead p, c => if c.after.head?.any p then [] else [0]

/-- The number of characters of the match at a place. -/
def length (r : Regex α) (c : Cursor α) : Option ℕ := (r.run c).head?

/-- The numbers of characters of two groups that follow each other and make up
    the match. -/
def lengths (r s : Regex α) (c : Cursor α) : Option (ℕ × ℕ) :=
  ((r.run c).flatMap fun n => (s.run (c.advance n)).map fun m => (n, m)).head?

/-- What `r.sub(marker, text)` finds. -/
def replacedBy (r : Regex α) (marker : List α) : Finder α := fun c =>
  (r.length c).map fun n => (n, marker)

/-- A pattern that is replaced by the marker leaves only the marker. -/
theorem marks_replacedBy (r : Regex α) (marker : List α) : Marks marker (r.replacedBy marker) := by
  intro c n new h
  rw [replacedBy, Option.map_eq_some_iff] at h
  obtain ⟨n', -, he⟩ := h
  cases he
  exact ⟨[], [], by rw [List.nil_append, List.append_nil], List.nil_prefix, List.nil_suffix⟩

/-! ## Derived patterns -/

/-- `r?`. -/
def optional (r : Regex α) : Regex α := alt r empty

/-- `r{n,}`. -/
def atLeast (r : Regex α) : ℕ → Regex α
  | 0 => star r
  | n + 1 => seq r (atLeast r n)

/-- `r+`. -/
def plus (r : Regex α) : Regex α := r.atLeast 1

/-- The patterns in turn. -/
def all : List (Regex α) → Regex α
  | [] => empty
  | r :: rs => seq r (all rs)

/-- The first of the patterns that leads to a match. -/
def first (r : Regex α) : List (Regex α) → Regex α
  | [] => r
  | s :: rs => alt r (first s rs)

/-- The characters of a text, compared by `same`. -/
def text (same : α → α → Bool) (t : List α) : Regex α := all (t.map fun a => char (same a))

end Regex

end McpRuntime
