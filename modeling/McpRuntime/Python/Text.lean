import Mathlib.Algebra.BigOperators.Group.List.Basic
import Mathlib.Algebra.Ring.Nat
import Mathlib.Data.Fin.Basic
import Mathlib.Data.List.DropRight

/-!
# Python text

A Python `str` is a list of code points, the surrogates included: a lone
surrogate is a character like any other, until the text is encoded.

* `Text.strip`: the text without the white space at its ends, which
  `Text.strip_eq_self_iff` characterises by the ends.
* `Text.Encodable`: the texts that `str.encode("utf-8")` accepts.
* `Text.casefold` and `Text.upper`: the case mappings, which map each character
  on its own; beyond ASCII they are the tables of a `UnicodeTable`.
* `replaceAll`: `str.replace` and `bytes.replace`.
-/

namespace McpRuntime

/-- A code point of a Python `str`. -/
abbrev CodePoint := Fin 0x110000

instance codePointNeZero : NeZero 0x110000 := ⟨by decide⟩

/-- A Python `str`. -/
abbrev Text := List CodePoint

/-- The text of a string literal. -/
def lit (s : String) : Text := s.toList.map fun c => Fin.ofNat 0x110000 c.toNat

/-- The text of a literal whose characters are known, which the kernel does not read from the
    bytes of the string. -/
theorem lit_ofList (l : List Char) :
    lit (String.ofList l) = l.map fun c => Fin.ofNat 0x110000 c.toNat :=
  congrArg _ String.toList_ofList

namespace CodePoint

/-- `str.isspace`, of a single character. -/
def isSpace (c : CodePoint) : Bool :=
  (9 ≤ c.val && c.val ≤ 13) || (28 ≤ c.val && c.val ≤ 32) || c.val == 0x85 || c.val == 0xA0 ||
    c.val == 0x1680 || (0x2000 ≤ c.val && c.val ≤ 0x200A) || c.val == 0x2028 ||
    c.val == 0x2029 || c.val == 0x202F || c.val == 0x205F || c.val == 0x3000

/-- A surrogate, which UTF-8 cannot encode. -/
def isSurrogate (c : CodePoint) : Bool := 0xD800 ≤ c.val && c.val ≤ 0xDFFF

/-- The number of bytes of the character in UTF-8. -/
def utf8Size (c : CodePoint) : ℕ :=
  if c.val < 0x80 then 1 else if c.val < 0x800 then 2 else if c.val < 0x10000 then 3 else 4

/-- The bytes of the character in UTF-8. -/
def utf8 (c : CodePoint) : List UInt8 :=
  let part (shift : ℕ) : UInt8 := UInt8.ofNat (0x80 + c.val / 2 ^ shift % 64)
  if c.val < 0x80 then [UInt8.ofNat c.val]
  else if c.val < 0x800 then [UInt8.ofNat (0xC0 + c.val / 2 ^ 6), part 0]
  else if c.val < 0x10000 then [UInt8.ofNat (0xE0 + c.val / 2 ^ 12), part 6, part 0]
  else [UInt8.ofNat (0xF0 + c.val / 2 ^ 18), part 12, part 6, part 0]

/-- The lower case of an ASCII letter. -/
def asciiLower (c : CodePoint) : CodePoint :=
  if 65 ≤ c.val && c.val ≤ 90 then Fin.ofNat 0x110000 (c.val + 32) else c

/-- The upper case of an ASCII letter. -/
def asciiUpper (c : CodePoint) : CodePoint :=
  if 97 ≤ c.val && c.val ≤ 122 then Fin.ofNat 0x110000 (c.val - 32) else c

/-- `[0-9]`. -/
def isDigit (c : CodePoint) : Bool := 48 ≤ c.val && c.val ≤ 57

/-- `[a-z]`. -/
def isLower (c : CodePoint) : Bool := 97 ≤ c.val && c.val ≤ 122

/-- An ASCII letter or a digit. -/
def isAlphanumeric (c : CodePoint) : Bool :=
  (48 ≤ c.val && c.val ≤ 57) || (65 ≤ c.val && c.val ≤ 90) || (97 ≤ c.val && c.val ≤ 122)

end CodePoint

/-- Texts are compared character by character. -/
instance lawfulBEqText : LawfulBEq Text := inferInstanceAs (LawfulBEq (List CodePoint))

/-- `replace(old, new)`, of a text or of bytes, for `old` that is not empty:
    the occurrences of `old` from the left, which do not overlap, are replaced
    by `new`. The first `skip` elements are the rest of an occurrence. -/
def replaceAll {α : Type*} [DecidableEq α] (old new : List α) (skip : ℕ) : List α → List α
  | [] => []
  | a :: l =>
    match skip with
    | skip + 1 => replaceAll old new skip l
    | 0 =>
      if old.isPrefixOf (a :: l) then new ++ replaceAll old new (old.length - 1) l
      else a :: replaceAll old new 0 l

/-- The case mappings of the characters beyond ASCII. -/
structure UnicodeTable where
  fold : CodePoint → Text
  upper : CodePoint → Text

namespace Text

/-- `str.replace(old, new)`. -/
def replace (t old new : Text) : Text := replaceAll old new 0 t

/-- `part in text`. -/
def hasPart (t part : Text) : Bool := t.tails.any fun u => part.isPrefixOf u

/-- `str.strip()`. -/
def strip (t : Text) : Text :=
  ((t.dropWhile CodePoint.isSpace).reverse.dropWhile CodePoint.isSpace).reverse

/-- `str.rstrip(c)`. -/
def rstripChar (c : CodePoint) (t : Text) : Text := t.rdropWhile (· = c)

/-- Whether `str.encode("utf-8")` accepts the text. -/
def Encodable (t : Text) : Prop := ∀ c ∈ t, c.isSurrogate = false

instance (t : Text) : Decidable t.Encodable :=
  decidable_of_iff (t.all fun c => !c.isSurrogate)
    (by simp only [Encodable, List.all_eq_true, Bool.not_eq_true'])

/-- The number of bytes of the text in UTF-8. -/
def utf8Length (t : Text) : ℕ := (t.map CodePoint.utf8Size).sum

/-- The bytes of the text in UTF-8. -/
def utf8 (t : Text) : List UInt8 := t.flatMap CodePoint.utf8

/-- The text has only ASCII characters. -/
def isAscii (t : Text) : Bool := t.all fun c => c.val < 0x80

/-- `str.casefold()`. -/
def casefold (unicode : UnicodeTable) (t : Text) : Text :=
  t.flatMap fun c => if c.val < 0x80 then [c.asciiLower] else unicode.fold c

/-- `str.upper()`. -/
def upper (unicode : UnicodeTable) (t : Text) : Text :=
  t.flatMap fun c => if c.val < 0x80 then [c.asciiUpper] else unicode.upper c

/-- `str.split(separator)`, of one character. -/
def split (separator : CodePoint) : Text → List Text
  | [] => [[]]
  | c :: t =>
    match split separator t with
    | [] => [[c]]
    | part :: parts => if c = separator then [] :: part :: parts else (c :: part) :: parts

/-- `str.split()`: the parts between runs of white space. -/
def words (t : Text) : List Text :=
  (split 32 (t.map fun c => if c.isSpace then 32 else c)).filter (· ≠ [])

/-- `str.partition(separator)`, of one character: what is before the first separator, and
    what is after it, if there is one. -/
def partition (separator : CodePoint) (t : Text) : Text × Option Text :=
  match t.dropWhile (· ≠ separator) with
  | [] => (t, none)
  | _ :: rest => (t.takeWhile (· ≠ separator), some rest)

/-- `str.split(separator, maxsplit=n)`, of one character. -/
def splitMost (separator : CodePoint) : ℕ → Text → List Text
  | 0, t => [t]
  | n + 1, t =>
    match t.partition separator with
    | (_, none) => [t]
    | (part, some rest) => part :: splitMost separator n rest

/-- The first separator is after a text without one. -/
theorem partition_append {separator : CodePoint} {t : Text} (h : separator ∉ t) (rest : Text) :
    (t ++ separator :: rest).partition separator = (t, some rest) := by
  have ht : ∀ c ∈ t, decide (c ≠ separator) = true := fun c hc =>
    decide_eq_true fun he => h (he ▸ hc)
  rw [partition, List.dropWhile_append_of_pos ht, List.takeWhile_append_of_pos ht]
  simp

/-- Each occurrence of a character is replaced on its own. -/
theorem replace_singleton (t : Text) (c : CodePoint) (new : Text) :
    t.replace [c] new = t.flatMap fun d => if d = c then new else [d] := by
  rw [replace]
  induction t with
  | nil => rfl
  | cons d t ih =>
    rw [replaceAll, List.flatMap_cons, ← ih]
    by_cases h : d = c
    · subst h
      simp
    · have hne : ¬ ([c].isPrefixOf (d :: t) = true) := by simp [Ne.symm h]
      rw [if_neg hne, if_neg h]
      rfl

/-- What a text ends in is stripped after the last other character. -/
theorem rstripChar_append {c d : CodePoint} (h : d ≠ c) (u t : Text) :
    rstripChar c (u ++ d :: t) = u ++ d :: rstripChar c t := by
  rw [rstripChar, rstripChar, List.rdropWhile, List.rdropWhile, List.reverse_append,
    List.reverse_cons, List.append_assoc, List.dropWhile_append]
  split_ifs with hempty
  · rw [List.isEmpty_iff.1 hempty, List.singleton_append,
      List.dropWhile_cons_of_neg (by simpa using h)]
    simp
  · simp

/-- What is stripped of a text. -/
theorem exists_rstripChar (c : CodePoint) (t : Text) :
    ∃ k, t = rstripChar c t ++ List.replicate k c := by
  refine ⟨(t.rtakeWhile (· = c)).length, ?_⟩
  have hstripped : t.rtakeWhile (· = c) = List.replicate (t.rtakeWhile (· = c)).length c :=
    List.eq_replicate_iff.2 ⟨rfl, fun d hd => by simpa using List.mem_rtakeWhile_imp hd⟩
  exact List.rdropWhile_append_rtakeWhile.symm.trans (congrArg _ hstripped)

/-- A text without white space at its ends is not changed by `strip`. -/
theorem strip_eq_self {t : Text} (hh : ∀ c ∈ t.head?, c.isSpace = false)
    (hl : ∀ c ∈ t.getLast?, c.isSpace = false) : t.strip = t := by
  have hd : t.dropWhile CodePoint.isSpace = t := by
    cases t with
    | nil => rfl
    | cons c t => rw [List.dropWhile_cons_of_neg]; simp [hh c (by simp)]
  have hr : t.reverse.dropWhile CodePoint.isSpace = t.reverse := by
    rw [← List.head?_reverse] at hl
    cases htr : t.reverse with
    | nil => rfl
    | cons c u => rw [List.dropWhile_cons_of_neg]; simp [hl c (by simp [htr])]
  rw [strip, hd, hr, List.reverse_reverse]

theorem split_ne_nil (separator : CodePoint) (t : Text) : t.split separator ≠ [] := by
  cases t with
  | nil => exact List.cons_ne_nil _ _
  | cons c t =>
    rw [split]
    split
    · exact List.cons_ne_nil _ _
    · split_ifs <;> exact List.cons_ne_nil _ _

/-- A text without the separator is its only part. -/
theorem split_of_notMem {separator : CodePoint} {t : Text} (h : separator ∉ t) :
    t.split separator = [t] := by
  induction t with
  | nil => rfl
  | cons c t ih =>
    rw [List.mem_cons, not_or] at h
    rw [split, ih h.2]
    exact if_neg (Ne.symm h.1)

/-- The parts on both sides of a separator. -/
theorem split_append (separator : CodePoint) (u v : Text) :
    (u ++ separator :: v).split separator = u.split separator ++ v.split separator := by
  induction u with
  | nil =>
    obtain ⟨part, parts, hparts⟩ := List.exists_cons_of_ne_nil (split_ne_nil separator v)
    have hnil : split separator [] = [[]] := rfl
    rw [List.nil_append, hnil, split, hparts]
    exact if_pos rfl
  | cons c u ih =>
    obtain ⟨part, parts, hparts⟩ := List.exists_cons_of_ne_nil (split_ne_nil separator u)
    rw [List.cons_append, split, split, ih, hparts, List.cons_append]
    dsimp only
    split_ifs <;> rfl

/-- A text is split at its first separator. -/
theorem splitMost_append {separator : CodePoint} {t : Text} (h : separator ∉ t) (n : ℕ)
    (rest : Text) :
    splitMost separator (n + 1) (t ++ separator :: rest) = t :: splitMost separator n rest := by
  rw [splitMost, partition_append h]

end Text

end McpRuntime
