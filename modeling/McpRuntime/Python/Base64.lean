import McpRuntime.Python.Text

/-!
# Base64

`base64.b64encode`, and `base64.b64decode` with `validate=True`: the characters
of the alphabet in groups of four, of which the last may end with padding.
-/

namespace McpRuntime

namespace Base64

/-- The character of six bits. -/
def digit (n : ℕ) : CodePoint :=
  Fin.ofNat 0x110000 (if n < 26 then 65 + n else if n < 52 then 71 + n else if n < 62 then n - 4
    else if n = 62 then 43 else 47)

/-- The six bits of a character of the alphabet. -/
def digitValue (c : CodePoint) : Option ℕ :=
  if 65 ≤ c.val ∧ c.val ≤ 90 then some (c.val - 65)
  else if c.isLower then some (c.val - 71)
  else if c.isDigit then some (c.val + 4)
  else if c.val = 43 then some 62
  else if c.val = 47 then some 63
  else none

/-- `b64encode`. -/
def encode : List UInt8 → Text
  | [] => []
  | [a] => [digit (a.toNat / 4), digit (a.toNat % 4 * 16), 61, 61]
  | [a, b] => [digit (a.toNat / 4), digit (a.toNat % 4 * 16 + b.toNat / 16),
      digit (b.toNat % 16 * 4), 61]
  | a :: b :: c :: bytes => digit (a.toNat / 4) :: digit (a.toNat % 4 * 16 + b.toNat / 16) ::
      digit (b.toNat % 16 * 4 + c.toNat / 64) :: digit (c.toNat % 64) :: encode bytes

/-- `b64decode`; the bits that are left of the last character are not looked at. -/
def decode : Text → Option (List UInt8)
  | [] => some []
  | a :: b :: c :: d :: t => do
    let a ← digitValue a
    let b ← digitValue b
    let first := UInt8.ofNat (a * 4 + b / 16)
    if c = 61 ∧ d = 61 ∧ t = [] then return [first]
    let c ← digitValue c
    let second := UInt8.ofNat (b % 16 * 16 + c / 4)
    if d = 61 ∧ t = [] then return [first, second]
    let d ← digitValue d
    return first :: second :: UInt8.ofNat (c % 4 * 64 + d) :: (← decode t)
  | _ => none

/-- The bits of a digit, which is no padding. -/
theorem digitValue_digit : ∀ n < 64, digitValue (digit n) = some n ∧ digit n ≠ 61 := by decide

/-- Bytes are read back from their digits. -/
theorem decode_encode (bytes : List UInt8) : decode (encode bytes) = some bytes := by
  have hbyte (a : UInt8) {n : ℕ} (h : n = a.toNat) : UInt8.ofNat n = a := by
    rw [h, UInt8.ofNat_toNat]
  induction bytes using encode.induct with
  | case1 => rfl
  | case2 a =>
    -- A single byte: two digits, and the low bits of the second are zero.
    have ha := a.toNat_lt
    rw [encode, decode, (digitValue_digit _ (by omega)).1, (digitValue_digit _ (by omega)).1]
    simp only [Option.bind_eq_bind, Option.bind_some, and_self, if_true]
    exact congrArg (fun b => some [b]) (hbyte a (by omega))
  | case3 a b =>
    have ha := a.toNat_lt
    have hb := b.toNat_lt
    have hc := digitValue_digit (b.toNat % 16 * 4) (by omega)
    rw [encode, decode, (digitValue_digit _ (by omega)).1, (digitValue_digit _ (by omega)).1, hc.1]
    simp only [Option.bind_eq_bind, Option.bind_some, hc.2, false_and, if_false, and_self, if_true]
    rw [hbyte a (by omega), hbyte b (by omega)]
    rfl
  | case4 a b c bytes ih =>
    -- Three bytes: the last digit may be no padding, as digits are no `=`.
    have ha := a.toNat_lt
    have hb := b.toNat_lt
    have hc := c.toNat_lt
    have hthird := digitValue_digit (b.toNat % 16 * 4 + c.toNat / 64) (by omega)
    have hfourth := digitValue_digit (c.toNat % 64) (by omega)
    rw [encode, decode, (digitValue_digit _ (by omega)).1, (digitValue_digit _ (by omega)).1,
      hthird.1, hfourth.1, ih]
    simp only [Option.bind_eq_bind, Option.bind_some, hthird.2, hfourth.2, false_and, if_false]
    rw [hbyte a (by omega), hbyte b (by omega), hbyte c (by omega)]
    rfl

/-- The number of characters. -/
theorem length_encode (bytes : List UInt8) :
    (encode bytes).length = 4 * ((bytes.length + 2) / 3) := by
  induction bytes using encode.induct with
  | case1 | case2 | case3 => simp [encode]
  | case4 a b c bytes ih =>
    rw [encode]
    simp only [List.length_cons, ih]
    omega

end Base64

end McpRuntime
