import Mathlib.Algebra.Order.Ring.Rat
import Mathlib.Tactic.Linarith

/-!
# Python floats

The values of a Python `float` (and of an `int` where the code takes either):
a finite value, which is a rational, an infinity or `nan`. The rounding of the
arithmetic is a parameter, the double nearest to an exact result; what is
proved here holds for every rounding.
-/

namespace McpRuntime

/-- A value of a Python `float`. The negative zero equals the other zero, but
    has a text of its own. -/
inductive PyFloat
  | finite (q : ℚ)
  | negZero
  | posInf
  | negInf
  | nan
  deriving DecidableEq

/-- The double an exact result is rounded to. -/
abbrev Rounding := ℚ → PyFloat

namespace PyFloat

/-- The number a finite value stands for. -/
def toRat : PyFloat → ℚ
  | finite q => q
  | _ => 0

/-- `math.isfinite`. -/
def isFinite : PyFloat → Bool
  | finite _ | negZero => true
  | _ => false

/-- An `int` that `float` cannot convert: it would round to a power of two that is no
    double. -/
def overflows : PyFloat → Bool
  | finite q => 2 ^ 1024 - 2 ^ 970 ≤ |q|
  | _ => false

/-- `x < y`, which does not hold of `nan`. -/
def lt : PyFloat → PyFloat → Bool
  | nan, _ | _, nan => false
  | negInf, y => y != negInf
  | _, negInf | posInf, _ => false
  | _, posInf => true
  | x, y => x.toRat < y.toRat

/-- `x <= y`, which does not hold of `nan`. -/
def le : PyFloat → PyFloat → Bool
  | nan, _ | _, nan => false
  | negInf, _ | _, posInf => true
  | _, negInf | posInf, _ => false
  | x, y => x.toRat ≤ y.toRat

/-- `x == y`, which does not hold of `nan`. -/
def eq (x y : PyFloat) : Bool := x.le y && y.le x

/-- `x + y`. -/
def add (rnd : Rounding) : PyFloat → PyFloat → PyFloat
  | nan, _ | _, nan | posInf, negInf | negInf, posInf => nan
  | posInf, _ | _, posInf => posInf
  | negInf, _ | _, negInf => negInf
  | negZero, negZero => negZero
  | x, y => rnd (x.toRat + y.toRat)

/-- `-x`. -/
def neg : PyFloat → PyFloat
  | finite a => if a = 0 then negZero else finite (-a)
  | negZero => finite 0
  | posInf => negInf
  | negInf => posInf
  | nan => nan

/-- `x - y`. -/
def sub (rnd : Rounding) (x y : PyFloat) : PyFloat := add rnd x y.neg

/-- `max(x, y)`, which keeps the first argument unless the second is greater. -/
def max (x y : PyFloat) : PyFloat := if x.lt y then y else x

/-- `min(x, y)`, which keeps the first argument unless the second is smaller. -/
def min (x y : PyFloat) : PyFloat := if y.lt x then y else x

@[simp] theorem lt_finite (a b : ℚ) : (finite a).lt (finite b) = decide (a < b) := rfl

@[simp] theorem le_finite (a b : ℚ) : (finite a).le (finite b) = decide (a ≤ b) := rfl

theorem le_trans {x y z : PyFloat} (h : x.le y = true) (h' : y.le z = true) : x.le z = true := by
  cases x <;> cases y <;> cases z <;>
    first
    | exact absurd h Bool.false_ne_true
    | exact absurd h' Bool.false_ne_true
    | rfl
    | exact h
    | exact h'
    | exact decide_eq_true ((of_decide_eq_true h : (_ : ℚ) ≤ _).trans (of_decide_eq_true h'))

/-- Of two numbers, one is at most the other. -/
theorem le_of_lt_eq_false {x y : PyFloat} (hx : x ≠ nan) (hy : y ≠ nan) (h : x.lt y = false) :
    y.le x = true := by
  cases x <;> cases y <;>
    first
    | exact absurd rfl hx
    | exact absurd rfl hy
    | exact absurd h Bool.true_eq_false_eq_False
    | rfl
    | exact decide_eq_true (not_lt.1 (of_decide_eq_false h : ¬ (_ : ℚ) < _))

/-- A bound that is above a value is not below it, nor is a greater one. -/
theorem finite_lt_of_lt_finite {x : PyFloat} {a b : ℚ} (h : x.lt (finite a) = true) (hab : a ≤ b) :
    (finite b).lt x = false := by
  cases x with
  | finite q =>
    rw [lt_finite, decide_eq_true_iff] at h
    exact (lt_finite b q).trans (decide_eq_false (h.trans_le hab).not_gt)
  | negZero => exact decide_eq_false ((of_decide_eq_true h : (0 : ℚ) < a).trans_le hab).not_gt
  | posInf => cases h
  | negInf => rfl
  | nan => rfl

/-- A number that is not below a value stays so as it grows. -/
theorem finite_lt_mono {x : PyFloat} {a b : ℚ} (h : (finite a).lt x = false) (hab : a ≤ b) :
    (finite b).lt x = false := by
  cases x with
  | finite q =>
    rw [lt_finite, decide_eq_false_iff_not, not_lt] at h
    exact (lt_finite b q).trans (decide_eq_false (h.trans hab).not_gt)
  | negZero => exact decide_eq_false ((not_lt.1 (of_decide_eq_false h) : (0 : ℚ) ≤ a).trans hab).not_gt
  | posInf => cases h
  | negInf => rfl
  | nan => rfl

end PyFloat

end McpRuntime
