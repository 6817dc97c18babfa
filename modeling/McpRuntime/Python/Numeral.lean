import McpRuntime.Python.JsonEquality
import Mathlib.Algebra.Field.Rat
import Mathlib.Tactic.FieldSimp
import Mathlib.Tactic.Ring

/-!
# Numerals

The numbers of JSON: an optional sign, digits without a leading zero, and
optionally a fraction and an exponent.

* `natValue`: the number that digits stand for; `natValue_natText`.
* `NumberParts`: a number taken apart, its text and the rational that it denotes.
* `parseNumber`: reads a number at the beginning of a text; `parseNumber_text`
  reads back the parts of a number that a delimiter follows.
-/

namespace McpRuntime

/-! ## Digits -/

/-- The number written with decimal digits. -/
def natValue (t : Text) : ℕ := t.foldl (fun n c => 10 * n + (c.val - 48)) 0

/-- The digits after a number shift it. -/
theorem foldl_digits (t : Text) (n : ℕ) :
    t.foldl (fun n c => 10 * n + (c.val - 48)) n = n * 10 ^ t.length + natValue t := by
  induction t generalizing n with
  | nil => simp [natValue]
  | cons c t ih =>
    rw [natValue, List.foldl_cons, List.foldl_cons, ih, ih (10 * 0 + _), List.length_cons, pow_succ]
    ring

/-- The number of digits in two parts. -/
theorem natValue_append (t u : Text) :
    natValue (t ++ u) = natValue t * 10 ^ u.length + natValue u := by
  rw [natValue, List.foldl_append, foldl_digits]
  rfl

/-- Zeros stand for nothing. -/
theorem natValue_zeros (n : ℕ) : natValue (List.replicate n 48) = 0 := by
  induction n with
  | zero => rfl
  | succ n ih =>
    rw [List.replicate_succ, ← List.singleton_append, natValue_append, ih]
    exact Nat.zero_mul _

/-- The text of a natural number stands for it. -/
theorem natValue_natText (n : ℕ) : natValue (natText n) = n := by
  have hdigits := Nat.ofDigitChars_ten_toDigits (n := n)
  rw [natValue, natText, List.foldl_map]
  refine Eq.trans (congrArg (fun f => List.foldl f 0 (Nat.toDigits 10 n)) ?_) hdigits
  funext k c
  rw [Fin.val_ofNat, Nat.mod_eq_of_lt (toNat_lt c)]
  rfl

/-- Digits, of which there is at least one. -/
def IsDigits (t : Text) : Prop := t ≠ [] ∧ ∀ c ∈ t, c.isDigit = true

/-- Digits without a leading zero. -/
def IsNumeral (t : Text) : Prop := IsDigits t ∧ (t.head? = some 48 → t = [48])

/-- The text of a natural number begins with that of its tenth. -/
theorem natText_of_ten_le {n : ℕ} (h : 10 ≤ n) : natText (n / 10) <+: natText n := by
  rw [natText, natText, Nat.toDigits_of_base_le (by decide) h, List.map_append]
  exact List.prefix_append _ _

/-- The text of a natural number has no leading zero. -/
theorem isNumeral_natText (n : ℕ) : IsNumeral (natText n) := by
  have hne (n : ℕ) : natText n ≠ [] := JsonWriter.intText_ne_nil (.ofNat n)
  refine ⟨⟨hne n, fun c hc => ?_⟩, ?_⟩
  · obtain ⟨hlow, hhigh⟩ := natText_digit hc
    simp [CodePoint.isDigit, hlow, hhigh]
  · induction n using Nat.strong_induction_on with
    | _ n ih =>
      intro hhead
      rcases Nat.lt_or_ge n 10 with hlt | hge
      · rw [natText, Nat.toDigits_of_lt_base hlt, List.map_singleton] at hhead ⊢
        exact congrArg (fun c => [c]) (Option.some.inj hhead)
      · -- the tenth would begin with a zero, and be zero
        obtain ⟨u, hu⟩ := natText_of_ten_le hge
        rw [← hu, List.head?_append_of_ne_nil _ (hne _)] at hhead
        have htenth : natText (n / 10) = natText 0 :=
          (ih _ (Nat.div_lt_self (by omega) (by decide)) hhead).trans rfl
        have := natText_inj htenth
        omega

/-! ## Numbers -/

/-- A number of JSON, taken apart. The sign of an exponent is optional. -/
structure NumberParts where
  negative : Bool
  whole : Text
  fraction : Option Text
  exponent : Option (Option Bool × Text)

namespace NumberParts

/-- The text of the sign of an exponent, which may be negative. -/
def signText : Option Bool → Text
  | none => []
  | some false => [43]
  | some true => [45]

/-- The text of the fraction and of what separates it. -/
def fractionText : Option Text → Text
  | none => []
  | some digits => 46 :: digits

/-- The text of the exponent and of what separates it. -/
def exponentText : Option (Option Bool × Text) → Text
  | none => []
  | some (sign, digits) => 101 :: (signText sign ++ digits)

variable (p : NumberParts)

/-- The text of a number. -/
def text : Text :=
  (if p.negative then [45] else []) ++
    (p.whole ++ (fractionText p.fraction ++ exponentText p.exponent))

/-- The number that an exponent stands for. -/
def exponentValue : Option (Option Bool × Text) → ℤ
  | none => 0
  | some (some true, digits) => -natValue digits
  | some (_, digits) => natValue digits

/-- The number that a text denotes. -/
def value : ℚ :=
  (if p.negative then -1 else 1) * natValue (p.whole ++ p.fraction.getD []) *
    (10 : ℚ) ^ (exponentValue p.exponent - (p.fraction.getD []).length)

/-- The grammar of JSON. -/
structure Valid : Prop where
  whole : IsNumeral p.whole
  fraction : ∀ digits ∈ p.fraction, IsDigits digits
  exponent : ∀ e ∈ p.exponent, IsDigits e.2

/-- The value that a number is read as: an integer, unless it has a fraction or an
    exponent. -/
def toJson : Json :=
  if p.fraction.isNone && p.exponent.isNone then
    .int (if p.negative then -natValue p.whole else natValue p.whole)
  else .float (.finite p.value)

/-- The number that is read is the number that the text denotes. -/
theorem number_toJson : p.toJson.number = some p.value := by
  rw [toJson]
  by_cases h : (p.fraction.isNone && p.exponent.isNone) = true
  · rw [if_pos h]
    rw [Bool.and_eq_true, Option.isNone_iff_eq_none, Option.isNone_iff_eq_none] at h
    rw [value, h.1, h.2]
    cases p.negative <;> simp [Json.number, exponentValue]
  · rw [if_neg h]
    rfl

end NumberParts

/-! ## Reading numbers -/

/-- The digits of a fraction, if there is one, and the rest of the text. -/
def readFraction (t : Text) : Option (Option Text × Text) :=
  if t.head? = some 46 then
    let digits := t.tail.takeWhile CodePoint.isDigit
    if digits.isEmpty then none else some (some digits, t.tail.dropWhile CodePoint.isDigit)
  else some (none, t)

/-- The sign of an exponent, if there is one, and the rest of the text. -/
def readSign (t : Text) : Option Bool × Text :=
  if t.head? = some 43 then (some false, t.tail)
  else if t.head? = some 45 then (some true, t.tail)
  else (none, t)

/-- The exponent, if there is one, and the rest of the text. -/
def readExponent (t : Text) : Option (Option (Option Bool × Text) × Text) :=
  if t.head? = some 101 || t.head? = some 69 then
    let (sign, rest) := readSign t.tail
    let digits := rest.takeWhile CodePoint.isDigit
    if digits.isEmpty then none else some (some (sign, digits), rest.dropWhile CodePoint.isDigit)
  else some (none, t)

/-- The number at the beginning of a text without its sign, and the rest of the
    text. -/
def parseUnsigned (negative : Bool) (t : Text) : Option (NumberParts × Text) :=
  let whole := t.takeWhile CodePoint.isDigit
  if whole.isEmpty || (whole.head? = some 48 && whole ≠ [48]) then none
  else do
    let (fraction, rest) ← readFraction (t.dropWhile CodePoint.isDigit)
    let (exponent, rest) ← readExponent rest
    some (⟨negative, whole, fraction, exponent⟩, rest)

/-- The number at the beginning of a text, and the rest of the text. -/
def parseNumber (t : Text) : Option (NumberParts × Text) :=
  if t.head? = some 45 then parseUnsigned true t.tail else parseUnsigned false t

/-- A text that ends a value in a document: it is empty or begins with a comma or
    a closing bracket. -/
def Ends (t : Text) : Prop := ∀ c ∈ t.head?, c = 44 ∨ c = 93 ∨ c = 125

/-- A text that does not begin with a digit. -/
def NoDigit (t : Text) : Prop := ∀ c ∈ t.head?, c.isDigit = false

theorem Ends.noDigit {t : Text} (h : Ends t) : NoDigit t := by
  intro c hc
  rcases h c hc with rfl | rfl | rfl <;> rfl

/-- What ends a value does not begin with another character. -/
theorem Ends.head_ne {t : Text} (h : Ends t) {c : CodePoint} (hc : c ≠ 44 ∧ c ≠ 93 ∧ c ≠ 125) :
    t.head? ≠ some c := by
  intro hhead
  rcases h c hhead with rfl | rfl | rfl
  · exact hc.1 rfl
  · exact hc.2.1 rfl
  · exact hc.2.2 rfl

/-- Digits are read up to what follows them. -/
theorem takeWhile_digits {digits rest : Text} (h : ∀ c ∈ digits, c.isDigit = true)
    (hrest : NoDigit rest) : (digits ++ rest).takeWhile CodePoint.isDigit = digits ∧
      (digits ++ rest).dropWhile CodePoint.isDigit = rest := by
  have hstop : rest.takeWhile CodePoint.isDigit = [] ∧ rest.dropWhile CodePoint.isDigit = rest := by
    cases rest with
    | nil => exact ⟨rfl, rfl⟩
    | cons c rest =>
      have hc := hrest c rfl
      exact ⟨List.takeWhile_cons_of_neg (by simp [hc]), List.dropWhile_cons_of_neg (by simp [hc])⟩
  rw [List.takeWhile_append_of_pos h, List.dropWhile_append_of_pos h, hstop.1, hstop.2,
    List.append_nil]
  exact ⟨rfl, rfl⟩

/-- A digit is no sign, no point and no exponent. -/
theorem head_ne_of_digits {digits : Text} (h : IsDigits digits) (rest : Text) {c : CodePoint}
    (hc : c.isDigit = false) : (digits ++ rest).head? ≠ some c := by
  obtain ⟨d, ds, rfl⟩ := List.exists_cons_of_ne_nil h.1
  intro hhead
  have hd := h.2 d List.mem_cons_self
  rw [Option.some.inj hhead, hc] at hd
  cases hd

/-- The sign of an exponent is read back. -/
theorem readSign_text (sign : Option Bool) {digits : Text} (h : IsDigits digits) (rest : Text) :
    readSign (NumberParts.signText sign ++ (digits ++ rest)) = (sign, digits ++ rest) := by
  rw [readSign]
  cases sign with
  | none =>
    rw [NumberParts.signText, List.nil_append, if_neg (head_ne_of_digits h rest rfl),
      if_neg (head_ne_of_digits h rest rfl)]
  | some negative => cases negative <;> rfl

/-- An exponent is read back. -/
theorem readExponent_text {exponent : Option (Option Bool × Text)}
    (h : ∀ e ∈ exponent, IsDigits e.2) {rest : Text} (hrest : Ends rest) :
    readExponent (NumberParts.exponentText exponent ++ rest) = some (exponent, rest) := by
  rw [readExponent]
  cases exponent with
  | none =>
    -- What ends the number does not begin an exponent.
    have hne : ¬ ((rest.head? = some 101 || rest.head? = some 69) = true) := by
      rw [Bool.or_eq_true, decide_eq_true_iff, decide_eq_true_iff, not_or]
      exact ⟨hrest.head_ne (by decide), hrest.head_ne (by decide)⟩
    exact if_neg hne
  | some e =>
    obtain ⟨sign, digits⟩ := e
    have hdigits := h _ rfl
    obtain ⟨htake, hdrop⟩ := takeWhile_digits hdigits.2 hrest.noDigit
    rw [NumberParts.exponentText, List.cons_append, List.append_assoc]
    refine (if_pos rfl).trans ?_
    rw [List.tail_cons, readSign_text sign hdigits rest]
    dsimp only
    rw [htake, hdrop]
    exact if_neg (by simpa using hdigits.1)

/-- What follows the digits of a number does not begin with a digit. -/
theorem noDigit_exponentText (exponent : Option (Option Bool × Text)) {rest : Text}
    (hrest : Ends rest) : NoDigit (NumberParts.exponentText exponent ++ rest) := by
  cases exponent with
  | none => exact hrest.noDigit
  | some e =>
    rintro c ⟨⟩
    rfl

/-- A fraction is read back. -/
theorem readFraction_text {fraction : Option Text} (h : ∀ digits ∈ fraction, IsDigits digits)
    (exponent : Option (Option Bool × Text)) {rest : Text} (hrest : Ends rest) :
    readFraction (NumberParts.fractionText fraction ++ (NumberParts.exponentText exponent ++ rest)) =
      some (fraction, NumberParts.exponentText exponent ++ rest) := by
  rw [readFraction]
  cases fraction with
  | none =>
    refine if_neg ?_
    cases exponent with
    | none => exact hrest.head_ne (by decide)
    | some e => exact fun hhead => absurd (Option.some.inj hhead) (by decide)
  | some digits =>
    have hdigits := h _ rfl
    obtain ⟨htake, hdrop⟩ := takeWhile_digits hdigits.2 (noDigit_exponentText exponent hrest)
    rw [NumberParts.fractionText, List.cons_append]
    refine (if_pos rfl).trans ?_
    rw [List.tail_cons, htake, hdrop]
    exact if_neg (by simpa using hdigits.1)

/-- A number that something ends is read back, after its sign. -/
theorem parseUnsigned_text {p : NumberParts} (h : p.Valid) {rest : Text} (hrest : Ends rest) :
    parseUnsigned p.negative (p.whole ++ (NumberParts.fractionText p.fraction ++
      (NumberParts.exponentText p.exponent ++ rest))) = some (p, rest) := by
  -- The whole part ends where the fraction, the exponent or the end of the number begins.
  have hfollow : NoDigit (NumberParts.fractionText p.fraction ++
      (NumberParts.exponentText p.exponent ++ rest)) := by
    cases p.fraction with
    | none => exact noDigit_exponentText p.exponent hrest
    | some digits =>
      rintro c ⟨⟩
      rfl
  obtain ⟨htake, hdrop⟩ := takeWhile_digits h.whole.1.2 hfollow
  -- A numeral has no leading zero.
  have haccept : ¬ ((p.whole.isEmpty || (p.whole.head? = some 48 && p.whole ≠ [48])) = true) := by
    rw [Bool.or_eq_true, Bool.and_eq_true, List.isEmpty_iff, decide_eq_true_iff, decide_eq_true_iff]
    rintro (hempty | ⟨hhead, hne⟩)
    · exact h.whole.1.1 hempty
    · exact hne (h.whole.2 hhead)
  rw [parseUnsigned, htake, hdrop, readFraction_text h.fraction p.exponent hrest]
  refine (if_neg haccept).trans ?_
  simp only [Option.bind_eq_bind, Option.bind_some, readExponent_text h.exponent hrest]

/-- A number that something ends is read back. -/
theorem parseNumber_text {p : NumberParts} (h : p.Valid) {rest : Text} (hrest : Ends rest) :
    parseNumber (p.text ++ rest) = some (p, rest) := by
  have hunsigned := parseUnsigned_text h hrest
  rw [parseNumber, NumberParts.text, List.append_assoc, List.append_assoc, List.append_assoc]
  cases hnegative : p.negative with
  | true =>
    rw [hnegative] at hunsigned
    exact hunsigned
  | false =>
    rw [hnegative] at hunsigned
    exact (if_neg (head_ne_of_digits h.whole.1 _ rfl)).trans hunsigned

end McpRuntime
