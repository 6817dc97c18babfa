import McpRuntime.Python.Text

/-!
# Decoding UTF-8

A decoder of UTF-8 reads one byte at a time. Within a character it owes the number of bytes
that are still to come, and the next of them is in a range, which keeps out overlong forms,
surrogates and what is beyond the last code point. A byte that cannot come next ends what was
read as one error, and starts anew.

* `decodeStrict`: `bytes.decode("utf-8")`, which raises at an error.
* `decodeReplace`: `bytes.decode("utf-8", "replace")`, where each error is U+FFFD.
* `decodeReplace_append_ascii`: the bytes on both sides of an ASCII character are decoded on their own.
-/

namespace McpRuntime

/-- What was read of a character: how many bytes are to come, at least one, the range of the
    next one, and the bits so far. -/
structure Utf8State where
  owed : ℕ
  low : ℕ
  high : ℕ
  bits : ℕ

/-- The state after the first byte of a character of several bytes. -/
def Utf8State.first (b : UInt8) : Option Utf8State :=
  let n := b.toNat
  if 0xC2 ≤ n ∧ n ≤ 0xDF then some ⟨0, 0x80, 0xBF, n - 0xC0⟩
  else if n = 0xE0 then some ⟨1, 0xA0, 0xBF, 0⟩
  else if n = 0xED then some ⟨1, 0x80, 0x9F, 0xD⟩
  else if 0xE1 ≤ n ∧ n ≤ 0xEF then some ⟨1, 0x80, 0xBF, n - 0xE0⟩
  else if n = 0xF0 then some ⟨2, 0x90, 0xBF, 0⟩
  else if 0xF1 ≤ n ∧ n ≤ 0xF3 then some ⟨2, 0x80, 0xBF, n - 0xF0⟩
  else if n = 0xF4 then some ⟨2, 0x80, 0x8F, 4⟩
  else none

/-- The byte may come next. -/
def Utf8State.accepts (state : Utf8State) (b : UInt8) : Bool :=
  0x80 ≤ b.toNat && state.low ≤ b.toNat && b.toNat ≤ state.high

/-- A byte after no character, or after a whole one: the characters that it ends, of which
    `none` is an error, and what was read of the next one. -/
def utf8Start (b : UInt8) : List (Option CodePoint) × Option Utf8State :=
  if b.toNat < 0x80 then ([some (Fin.ofNat 0x110000 b.toNat)], none)
  else
    match Utf8State.first b with
    | some state => ([], some state)
    | none => ([none], none)

/-- One byte, after what was read of a character. -/
def utf8Step : Option Utf8State → UInt8 → List (Option CodePoint) × Option Utf8State
  | none, b => utf8Start b
  | some state, b =>
    if state.accepts b then
      let bits := 64 * state.bits + (b.toNat - 0x80)
      match state.owed with
      | 0 => ([some (Fin.ofNat 0x110000 bits)], none)
      | owed + 1 => ([], some ⟨owed, 0x80, 0xBF, bits⟩)
    else (none :: (utf8Start b).1, (utf8Start b).2)

/-- The characters of the bytes, after what was read of a character. -/
def decodeFrom : Option Utf8State → List UInt8 → List (Option CodePoint)
  | none, [] => []
  | some _, [] => [none]
  | state, b :: bytes => (utf8Step state b).1 ++ decodeFrom (utf8Step state b).2 bytes

/-- `bytes.decode("utf-8")`, which raises `UnicodeDecodeError`. -/
def decodeStrict (bytes : List UInt8) : Option Text := (decodeFrom none bytes).mapM id

/-- `bytes.decode("utf-8", "replace")`. -/
def decodeReplace (bytes : List UInt8) : Text := (decodeFrom none bytes).map (·.getD 0xFFFD)

/-! ## Errors and ASCII characters -/

theorem decodeFrom_cons (state : Option Utf8State) (b : UInt8) (bytes : List UInt8) :
    decodeFrom state (b :: bytes) = (utf8Step state b).1 ++ decodeFrom (utf8Step state b).2 bytes := by
  cases state <;> rfl

/-- A byte ends no more characters than there are, with the one that was read of before. -/
theorem length_utf8Step (state : Option Utf8State) (b : UInt8) :
    (utf8Step state b).1.length + (utf8Step state b).2.toList.length ≤
      state.toList.length + 1 := by
  have hstart : (utf8Start b).1.length + (utf8Start b).2.toList.length ≤ 1 := by
    rw [utf8Start]
    split_ifs
    · exact le_rfl
    · cases Utf8State.first b <;> exact le_rfl
  match state with
  | none => exact hstart.trans (Nat.le_add_left _ _)
  | some state =>
    rw [utf8Step.eq_def]
    dsimp only
    split_ifs
    · cases state.owed <;> exact Nat.le_succ 1
    · simp only [List.length_cons, Option.toList_some, List.length_nil]
      omega

/-- There are no more characters than bytes. -/
theorem length_decodeFrom (state : Option Utf8State) (bytes : List UInt8) :
    (decodeFrom state bytes).length ≤ state.toList.length + bytes.length := by
  induction bytes generalizing state with
  | nil => cases state <;> simp [decodeFrom]
  | cons b bytes ih =>
    have hstep := length_utf8Step state b
    have hrest := ih (utf8Step state b).2
    rw [decodeFrom_cons, List.length_append, List.length_cons]
    omega

/-- An ASCII character is never a part of another one: it ends what was read as an error. -/
theorem decodeFrom_append_ascii {c : UInt8} (hc : c.toNat < 0x80) (state : Option Utf8State)
    (bytes bytes' : List UInt8) :
    decodeFrom state (bytes ++ c :: bytes') =
      decodeFrom state bytes ++ some (Fin.ofNat 0x110000 c.toNat) :: decodeFrom none bytes' := by
  induction bytes generalizing state with
  | nil =>
    have hstart : utf8Start c = ([some (Fin.ofNat 0x110000 c.toNat)], none) := by
      rw [utf8Start, if_pos hc]
    cases state with
    | none =>
      have hstep : utf8Step none c = ([some (Fin.ofNat 0x110000 c.toNat)], none) := hstart
      rw [List.nil_append, decodeFrom_cons, hstep]
      rfl
    | some state =>
      -- No byte of several accepts an ASCII character, so the one that was begun is an error.
      have hout : state.accepts c = false := by
        rw [Utf8State.accepts, decide_eq_false (by omega), Bool.false_and, Bool.false_and]
      have hstep : utf8Step (some state) c =
          ([none, some (Fin.ofNat 0x110000 c.toNat)], none) := by
        rw [utf8Step.eq_def]
        simp only [hout, hstart, Bool.false_eq_true, if_false]
      rw [List.nil_append, decodeFrom_cons, hstep]
      rfl
  | cons b bytes ih =>
    rw [List.cons_append, decodeFrom_cons, decodeFrom_cons, ih, List.append_assoc]

/-- The bytes on both sides of an ASCII character are decoded on their own. -/
theorem decodeReplace_append_ascii {c : UInt8} (hc : c.toNat < 0x80) (bytes bytes' : List UInt8) :
    decodeReplace (bytes ++ c :: bytes') =
      decodeReplace bytes ++ Fin.ofNat 0x110000 c.toNat :: decodeReplace bytes' := by
  rw [decodeReplace, decodeFrom_append_ascii hc, List.map_append, List.map_cons]
  rfl

theorem length_decodeReplace (bytes : List UInt8) : (decodeReplace bytes).length ≤ bytes.length := by
  have h := length_decodeFrom none bytes
  rw [decodeReplace, List.length_map]
  simpa using h

example : decodeReplace [0xE2, 0x82, 0xAC, 0xE2, 0x82, 0x41, 0xED, 0xA0, 0x80] =
    [0x20AC, 0xFFFD, 0x41, 0xFFFD, 0xFFFD, 0xFFFD] := by
  decide

end McpRuntime
