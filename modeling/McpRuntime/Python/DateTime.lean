import McpRuntime.Python.Numeral
import Mathlib.Data.Prod.Lex

/-!
# Timestamps

The aware `datetime` values in UTC, compared field by field, and the canonical
texts of them: those that `isoformat` writes, with `Z` in place of the offset.
-/

namespace McpRuntime

/-- `f"{n:0{width}}"`. -/
def padded (width n : ℕ) : Text := List.replicate (width - (natText n).length) 48 ++ natText n

theorem length_natText_le {n width : ℕ} (hwidth : 0 < width) (h : n < 10 ^ width) :
    (natText n).length ≤ width := by
  rw [natText, List.length_map]
  exact (Nat.length_toDigits_le_iff (by decide) hwidth).2 h

theorem length_padded {n width : ℕ} (hwidth : 0 < width) (h : n < 10 ^ width) :
    (padded width n).length = width := by
  have := length_natText_le hwidth h
  rw [padded, List.length_append, List.length_replicate]
  omega

theorem natValue_padded (width n : ℕ) : natValue (padded width n) = n := by
  rw [padded, natValue_append, natValue_zeros, natValue_natText, Nat.zero_mul, Nat.zero_add]

/-- A `datetime` in UTC. -/
structure DateTime where
  year : ℕ
  month : ℕ
  day : ℕ
  hour : ℕ
  minute : ℕ
  second : ℕ
  microsecond : ℕ

namespace DateTime

/-- `calendar.isleap`. -/
def isLeap (year : ℕ) : Bool := year % 4 = 0 && (year % 100 ≠ 0 || year % 400 = 0)

/-- The number of days of a month. -/
def daysInMonth (year month : ℕ) : ℕ :=
  if month = 2 then if isLeap year then 29 else 28
  else if month = 4 ∨ month = 6 ∨ month = 9 ∨ month = 11 then 30 else 31

/-- What the constructor of `datetime` accepts. -/
def isValid (d : DateTime) : Bool :=
  1 ≤ d.year && d.year ≤ 9999 && 1 ≤ d.month && d.month ≤ 12 && 1 ≤ d.day &&
    d.day ≤ daysInMonth d.year d.month && d.hour < 24 && d.minute < 60 && d.second < 60 &&
    d.microsecond < 1000000

/-- `isoformat()`, without the offset. -/
def isoformat (d : DateTime) : Text :=
  padded 4 d.year ++ 45 :: padded 2 d.month ++ 45 :: padded 2 d.day ++ 84 :: padded 2 d.hour ++
    58 :: padded 2 d.minute ++ 58 :: padded 2 d.second ++
    if d.microsecond = 0 then [] else 46 :: padded 6 d.microsecond

/-- What two values are compared by. -/
def key (d : DateTime) : List ℕ :=
  [d.year, d.month, d.day, d.hour, d.minute, d.second, d.microsecond]

/-- The fields at their places in a text that `isoformat` writes. -/
def ofFields (t : Text) : DateTime where
  year := natValue (t.take 4)
  month := natValue ((t.drop 5).take 2)
  day := natValue ((t.drop 8).take 2)
  hour := natValue ((t.drop 11).take 2)
  minute := natValue ((t.drop 14).take 2)
  second := natValue ((t.drop 17).take 2)
  microsecond := natValue ((t.drop 20).take 6)

/-- `_canonical_timestamp`, with the value that was parsed: `fromisoformat` reads
    other texts too, which `isoformat` does not give back. -/
def canonicalTimestamp (t : Text) : Option DateTime :=
  let parsed := ofFields t.dropLast
  if parsed.isValid && parsed.isoformat ++ [90] = t then some parsed else none

/-- The fields are read back from their text. -/
theorem ofFields_isoformat {d : DateTime} (h : d.isValid = true) (hmicrosecond : d.microsecond = 0) :
    ofFields d.isoformat = d := by
  simp only [isValid, Bool.and_eq_true, decide_eq_true_eq] at h
  obtain ⟨⟨⟨⟨⟨⟨⟨⟨⟨-, hyear⟩, -⟩, hmonth⟩, -⟩, hday⟩, hhour⟩, hminute⟩, hsecond⟩, -⟩ := h
  have hdays : daysInMonth d.year d.month ≤ 31 := by
    rw [daysInMonth]
    split_ifs <;> decide
  -- Each field is padded to its own width, which the ranges of a valid time fit.
  have h4 := @length_padded d.year 4 (by decide) (by omega)
  have h2 {n : ℕ} (hn : n < 100) : (padded 2 n).length = 2 := length_padded (by decide) hn
  have hmonth := h2 (show d.month < 100 by omega)
  have hday := h2 (show d.day < 100 by omega)
  have hhour := h2 (show d.hour < 100 by omega)
  have hminute := h2 (show d.minute < 100 by omega)
  have hsecond := h2 (show d.second < 100 by omega)
  have hnil : natValue [] = 0 := rfl
  cases d
  simp only at *
  simp [ofFields, isoformat, List.drop_append, List.take_of_length_le,
    List.drop_of_length_le, natValue_padded, *]

end DateTime

end McpRuntime
