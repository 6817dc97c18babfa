import McpRuntime.Python.JsonLoads
import Mathlib.Algebra.Order.Round
import Mathlib.Data.Rat.Floor

/-!
# Arithmetic of floats and integers

What Python computes with a `float` beside comparing it: products, sums of many floats,
the conversions to an `int`, which raise for an infinity and for `nan`, the rounding to a
number of decimals, and the reading of a text.

* `Arithmetic`: a rounding that is monotone and keeps integers.
* `PyFloat.toInt`, `PyFloat.ceil`, `PyFloat.round`: `int(x)`, `math.ceil(x)` and
  `round(x, digits)`.
* `PyFloat.ofText`: `float(text)`.
* `Arithmetic.rank_le`: the rank of a percentile is within the samples.
* `Arithmetic.mul_upTo`, `Arithmetic.round_upTo`: bounded floats are multiplied, and rounded
  to decimals.
-/

namespace McpRuntime

/-- What converting a float to an integer raises. -/
inductive ConversionError
  /-- `OverflowError`, of an infinity. -/
  | overflow
  /-- `ValueError`, of `nan`. -/
  | value
  deriving DecidableEq

/-- The integer nearest to a number, of two the even one. -/
def roundHalfEven (q : ℚ) : ℤ :=
  if Int.fract q < 1 / 2 ∨ Int.fract q = 1 / 2 ∧ Even ⌊q⌋ then ⌊q⌋ else ⌊q⌋ + 1

/-- A number between two integers is rounded to one between them. -/
theorem roundHalfEven_between {q : ℚ} {a b : ℤ} (ha : a ≤ q) (hb : q ≤ b) :
    a ≤ roundHalfEven q ∧ roundHalfEven q ≤ b := by
  have hfloor : a ≤ ⌊q⌋ := Int.le_floor.2 ha
  rw [roundHalfEven]
  split_ifs with h
  · exact ⟨hfloor, Int.cast_le.1 ((Int.floor_le q).trans hb)⟩
  · refine ⟨hfloor.trans (Int.le_add_one le_rfl), Int.add_one_le_iff.2 ?_⟩
    -- the number has a fraction, so that it is above its floor
    have hfract : 1 / 2 ≤ Int.fract q := not_lt.1 fun hlt => h (.inl hlt)
    have habove : (⌊q⌋ : ℚ) < q := by
      rw [Int.fract] at hfract
      linarith
    exact Int.cast_lt.1 (habove.trans_le hb)

namespace PyFloat

/-- `abs(x)`. -/
def abs : PyFloat → PyFloat
  | finite q => finite |q|
  | negZero => finite 0
  | negInf => posInf
  | x => x

/-- The loop of `sum`: the total so far, and what its roundings have lost. -/
def sumFrom (rnd : Rounding) (total lost : PyFloat) : List PyFloat → PyFloat
  | [] => if lost.isFinite && !lost.eq (finite 0) then add rnd total lost else total
  | x :: xs =>
    let next := add rnd total x
    let part := if x.abs.le total.abs then add rnd (sub rnd total next) x
      else add rnd (sub rnd x next) total
    sumFrom rnd next (add rnd lost part) xs

/-- `sum(xs)`, which starts with the integer zero. -/
def sum (rnd : Rounding) : List PyFloat → PyFloat
  | [] => finite 0
  | x :: xs => sumFrom rnd (add rnd (finite 0) x) (finite 0) xs

/-- The first greatest of the values, as `max(xs)` finds it. -/
def maximum : List PyFloat → Option PyFloat
  | [] => none
  | x :: xs => some (xs.foldl max x)

/-- `x.is_integer()`. -/
def isInteger : PyFloat → Bool
  | finite q => q.den = 1
  | negZero => true
  | _ => false

/-- `int(x)`, which cuts off the fraction. -/
def toInt : PyFloat → Except ConversionError ℤ
  | finite q => .ok (if q < 0 then ⌈q⌉ else ⌊q⌋)
  | negZero => .ok 0
  | posInf | negInf => .error .overflow
  | nan => .error .value

/-- `math.ceil(x)`. -/
def ceil : PyFloat → Except ConversionError ℤ
  | finite q => .ok ⌈q⌉
  | negZero => .ok 0
  | posInf | negInf => .error .overflow
  | nan => .error .value

/-- A value below zero, or the negative zero. -/
def isNegative : PyFloat → Bool
  | finite q => q < 0
  | negZero | negInf => true
  | posInf | nan => false

/-- `x * y`. -/
def mul (rnd : Rounding) (x y : PyFloat) : PyFloat :=
  if x = nan ∨ y = nan then nan
  else if x.isFinite ∧ y.isFinite then
    if x.toRat * y.toRat = 0 then (if x.isNegative = y.isNegative then finite 0 else negZero)
    else rnd (x.toRat * y.toRat)
  else if x.eq (finite 0) ∨ y.eq (finite 0) then nan
  else if x.isNegative = y.isNegative then posInf
  else negInf

/-- `round(x, digits)`, to the nearest decimal, of two the even one. -/
def round (rnd : Rounding) (digits : ℕ) : PyFloat → Except ConversionError PyFloat
  | finite q =>
    let y : ℚ := roundHalfEven (q * 10 ^ digits) / 10 ^ digits
    if q < 0 ∧ y = 0 then .ok negZero
    else if (rnd y).isFinite then .ok (rnd y)
    else .error .overflow
  | x => .ok x

/-- A value between finite ones is finite. -/
theorem isFinite_of_le {x : PyFloat} {a b : ℚ} (ha : (finite a).le x = true)
    (hb : x.le (finite b) = true) : x.isFinite = true := by
  cases x with
  | finite | negZero => rfl
  | posInf => cases hb
  | negInf | nan => cases ha

theorem le_of_finite_lt {x : PyFloat} {q : ℚ} (h : (finite q).lt x = true) :
    (finite q).le x = true := by
  cases x with
  | finite => exact decide_eq_true (of_decide_eq_true h : q < _).le
  | negZero => exact decide_eq_true (of_decide_eq_true h : q < 0).le
  | posInf => rfl
  | negInf | nan => cases h

/-- A float from zero to an integer. -/
structure UpTo (b : ℤ) (x : PyFloat) : Prop where
  low : (finite 0).le x = true
  high : x.le (finite b) = true

theorem UpTo.isFinite {x : PyFloat} {b : ℤ} (h : x.UpTo b) : x.isFinite = true :=
  isFinite_of_le h.low h.high

/-- A finite value compares as the number that it stands for. -/
theorem upTo_iff {x : PyFloat} (hx : x.isFinite = true) {b : ℤ} :
    x.UpTo b ↔ 0 ≤ x.toRat ∧ x.toRat ≤ b := by
  cases x with
  | finite | negZero =>
    exact ⟨fun h => ⟨of_decide_eq_true h.low, of_decide_eq_true h.high⟩,
      fun h => ⟨decide_eq_true h.1, decide_eq_true h.2⟩⟩
  | posInf | negInf | nan => cases hx

/-- The greatest of the values is one of them. -/
theorem mem_of_maximum {xs : List PyFloat} {x : PyFloat} (h : maximum xs = some x) : x ∈ xs := by
  cases xs with
  | nil => cases h
  | cons y ys =>
    cases h
    induction ys generalizing y with
    | nil => exact List.mem_cons_self
    | cons z zs ih =>
      rw [List.foldl_cons]
      rcases List.mem_cons.1 (ih (max y z)) with h | h
      · rw [h, max]
        split_ifs
        · exact List.mem_cons_of_mem _ List.mem_cons_self
        · exact List.mem_cons_self
      · exact List.mem_cons_of_mem _ (List.mem_cons_of_mem _ h)

/-- Only a value that is not finite cannot be converted. -/
theorem toInt_of_isFinite {x : PyFloat} (hx : x.isFinite = true) : ∃ n, x.toInt = .ok n := by
  cases x with
  | finite | negZero => exact ⟨_, rfl⟩
  | posInf | negInf | nan => cases hx

/-- An integer that a value is converted to is below the bounds of the value. -/
theorem toInt_le {x : PyFloat} {n b : ℤ} (h : x.le (finite b) = true) (hn : x.toInt = .ok n) :
    n ≤ b := by
  cases x with
  | finite q =>
    have hq : q ≤ b := of_decide_eq_true h
    cases hn
    split_ifs
    · exact Int.ceil_le.2 hq
    · exact Int.cast_le.1 ((Int.floor_le q).trans hq)
  | negZero =>
    cases hn
    have hb : (0 : ℚ) ≤ b := of_decide_eq_true h
    exact_mod_cast hb
  | posInf | negInf | nan => cases hn

theorem isFinite_of_isInteger {x : PyFloat} (h : x.isInteger = true) : x.isFinite = true := by
  cases x with
  | finite | negZero => rfl
  | posInf | negInf | nan => cases h

theorem ceil_of_isFinite {x : PyFloat} (hx : x.isFinite = true) : x.ceil = .ok ⌈x.toRat⌉ := by
  cases x with
  | finite => rfl
  | negZero => exact congrArg Except.ok Int.ceil_zero.symm
  | posInf | negInf | nan => cases hx

end PyFloat

/-- A rounding to doubles: it is monotone, and keeps the integers that are doubles for
    sure. -/
structure Arithmetic where
  rounding : Rounding
  mono : ∀ p q, p ≤ q → (rounding p).le (rounding q) = true
  exact : ∀ n : ℤ, |n| ≤ 2 ^ 53 → rounding n = .finite n

namespace Arithmetic

variable (arithmetic : Arithmetic)

/-- A number up to an integer is rounded to a float up to it. -/
theorem rounding_upTo {q : ℚ} {b : ℤ} (hb : |b| ≤ 2 ^ 53) (hlow : 0 ≤ q) (hhigh : q ≤ b) :
    (arithmetic.rounding q).UpTo b := by
  have hzero := arithmetic.mono (0 : ℤ) q (by exact_mod_cast hlow)
  have hmost := arithmetic.mono q b hhigh
  rw [arithmetic.exact 0 (by norm_num), Int.cast_zero] at hzero
  rw [arithmetic.exact b hb] at hmost
  exact ⟨hzero, hmost⟩

/-- The product of floats up to two integers is up to their product. -/
theorem mul_upTo {x y : PyFloat} {a b : ℤ} (hab : |a * b| ≤ 2 ^ 53) (hx : x.UpTo a)
    (hy : y.UpTo b) : (x.mul arithmetic.rounding y).UpTo (a * b) := by
  obtain ⟨hx0, hxa⟩ := (PyFloat.upTo_iff hx.isFinite).1 hx
  obtain ⟨hy0, hyb⟩ := (PyFloat.upTo_iff hy.isFinite).1 hy
  have hnonneg : (0 : ℚ) ≤ (a * b : ℤ) := by
    push_cast
    exact mul_nonneg (hx0.trans hxa) (hy0.trans hyb)
  have hnan {z : PyFloat} (hz : z.isFinite = true) : z ≠ .nan := fun h => by
    rw [h] at hz
    cases hz
  rw [PyFloat.mul, if_neg (not_or.2 ⟨hnan hx.isFinite, hnan hy.isFinite⟩),
    if_pos ⟨hx.isFinite, hy.isFinite⟩]
  split_ifs
  · exact (PyFloat.upTo_iff rfl).2 ⟨le_rfl, hnonneg⟩
  · exact (PyFloat.upTo_iff rfl).2 ⟨le_rfl, hnonneg⟩
  · refine arithmetic.rounding_upTo hab (mul_nonneg hx0 hy0) ?_
    push_cast
    exact mul_le_mul hxa hyb hy0 (hx0.trans hxa)

/-- `math.ceil(n * 0.99)`. -/
def rank (n : ℕ) : Except ConversionError ℤ :=
  ((PyFloat.finite n).mul arithmetic.rounding (arithmetic.rounding (99 / 100))).ceil

/-- The rank in a bounded number of samples is a number of them. -/
theorem rank_le {n : ℕ} (hn : n ≤ 2 ^ 53) : ∃ k : ℤ, arithmetic.rank n = .ok k ∧ 0 ≤ k ∧ k ≤ n := by
  have hpart := arithmetic.rounding_upTo (q := 99 / 100) (b := 1) (by norm_num) (by norm_num)
    (by norm_num)
  have hall : (PyFloat.finite n).UpTo n :=
    (PyFloat.upTo_iff rfl).2 ⟨Nat.cast_nonneg n, le_of_eq (Int.cast_natCast n).symm⟩
  have hbound : |(n : ℤ) * 1| ≤ 2 ^ 53 := by
    rw [mul_one, abs_of_nonneg (Int.natCast_nonneg n)]
    exact_mod_cast hn
  have hproduct := arithmetic.mul_upTo hbound hall hpart
  obtain ⟨hlow, hhigh⟩ := (PyFloat.upTo_iff hproduct.isFinite).1 hproduct
  rw [mul_one] at hhigh
  exact ⟨_, PyFloat.ceil_of_isFinite hproduct.isFinite, Int.ceil_nonneg hlow, Int.ceil_le.2 hhigh⟩

/-- A float up to an integer is rounded to decimals. -/
theorem round_upTo {x : PyFloat} {b : ℤ} (hb : |b| ≤ 2 ^ 53) (hx : x.UpTo b) (digits : ℕ) :
    ∃ y, x.round arithmetic.rounding digits = .ok y := by
  cases x with
  | finite q =>
    obtain ⟨hq, hqb⟩ := (PyFloat.upTo_iff rfl).1 hx
    have hpos : (0 : ℚ) < 10 ^ digits := by positivity
    obtain ⟨hlow, hhigh⟩ := roundHalfEven_between (q := q * 10 ^ digits) (a := 0)
      (b := b * 10 ^ digits) (by push_cast; exact mul_nonneg hq hpos.le)
      (by push_cast; exact mul_le_mul_of_nonneg_right hqb hpos.le)
    have hfinite := (arithmetic.rounding_upTo (q := roundHalfEven (q * 10 ^ digits) / 10 ^ digits) hb
      (div_nonneg (by exact_mod_cast hlow) hpos.le)
      ((div_le_iff₀ hpos).2 (by exact_mod_cast hhigh))).isFinite
    rw [PyFloat.round]
    rw [if_neg fun h => hq.not_gt h.1, if_pos hfinite]
    exact ⟨_, rfl⟩
  | negZero | posInf | nan | negInf => exact ⟨_, rfl⟩

end Arithmetic

/-! ## Texts -/

/-- `[+-]?(?:[0-9]+(?:\.[0-9]*)?|\.[0-9]+)(?:[eE][+-]?[0-9]+)?`, which is what `float` reads
    of a decimal number too. -/
def decimalParts (t : Text) : Option NumberParts :=
  let (sign, rest) := readSign t
  let whole := rest.takeWhile CodePoint.isDigit
  let rest := rest.dropWhile CodePoint.isDigit
  let hasPoint : Bool := rest.head? = some 46
  let fraction := if hasPoint then rest.tail.takeWhile CodePoint.isDigit else []
  let rest := if hasPoint then rest.tail.dropWhile CodePoint.isDigit else rest
  let (exponent, rest) := Loader.takeExponent rest
  if whole ++ fraction ≠ [] ∧ rest = [] then
    some ⟨sign = some true, whole, if hasPoint then some fraction else none, exponent⟩
  else none

namespace PyFloat

/-- The white space that is stripped of ASCII. -/
def isAsciiSpace (c : CodePoint) : Bool := (9 ≤ c.val && c.val ≤ 13) || c = 32

/-- The ASCII that stands for a character: a digit for a decimal, a blank for white space, and
    otherwise a question mark. -/
def toAscii (decimal : CodePoint → Option ℕ) (c : CodePoint) : CodePoint :=
  if c.val < 128 then c
  else if c.isSpace then 32
  else
    match decimal c with
    | some d => Fin.ofNat 0x110000 (48 + d)
    | none => 63

/-- The text without its underscores, which may stand only between digits. -/
def dropUnderscores (previous : CodePoint) : Text → Option Text
  | [] => if previous = 95 then none else some []
  | c :: t =>
    if c = 95 then if previous.isDigit then dropUnderscores c t else none
    else if previous = 95 ∧ c.isDigit = false then none
    else (dropUnderscores c t).map (c :: ·)

/-- `inf`, `infinity` or `nan`, with a sign. -/
def special (t : Text) : Option PyFloat :=
  let (sign, rest) := readSign t
  let name := rest.map CodePoint.asciiLower
  if name = lit "inf" ∨ name = lit "infinity" then
    some (if sign = some true then negInf else posInf)
  else if name = lit "nan" then some nan
  else none

/-- `float(text)`, which raises `ValueError` for what is no number. -/
def ofText (rnd : Rounding) (decimal : CodePoint → Option ℕ) (t : Text) : Option PyFloat := do
  let stripped := ((t.map (toAscii decimal)).dropWhile isAsciiSpace).rdropWhile isAsciiSpace
  let t ← dropUnderscores 0 stripped
  match decimalParts t with
  | some parts => some (parts.toFloat rnd)
  | none => special t

example : ofText .finite (fun _ => none) (lit " -1_0.25e1 ") = some (finite (-205 / 2)) := by
  decide +kernel

end PyFloat

end McpRuntime
