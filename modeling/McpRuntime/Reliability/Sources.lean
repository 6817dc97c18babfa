import McpRuntime.Python.Except
import McpRuntime.Reliability.Evidence

/-!
# Sources of a correlation

What the correlation of a reliability window runs with and raises, and how a source is
taken apart: into the lines of a text, or into the members of a JSON object.

* `CorrelationRaised.isRefusal`: the exceptions that are a `ValueError` or a `TypeError`.
* `Closed`: a computation that raises nothing else.
* `boundedText_closed`, `jsonObject_closed`: the readers of sources are closed.
-/

namespace McpRuntime

namespace Reliability

/-- What correlating raises. -/
inductive CorrelationRaised
  | typeError (message : Text)
  | valueError (message : Text)
  /-- `ValidationError`, a `ValueError`. -/
  | validationError
  /-- `UnicodeEncodeError`, a `ValueError`. -/
  | encodeError
  | indexError
  | overflowError
  | recursionError
  deriving DecidableEq

/-- A `ValueError` or a `TypeError`. -/
def CorrelationRaised.isRefusal : CorrelationRaised → Bool
  | .typeError _ | .valueError _ | .validationError | .encodeError => true
  | .indexError | .overflowError | .recursionError => false

/-- What the correlation runs with. -/
structure Correlator where
  /-- How deeply `json.loads` recurses. -/
  maxDepth : ℕ
  /-- How many digits `int` reads. -/
  maxDigits : ℕ
  arithmetic : Arithmetic
  /-- The value of a character that `float` reads as a digit. -/
  decimal : CodePoint → Option ℕ
  /-- The values that are nested too deeply for `json.dumps`. -/
  tooDeep : Json → Bool
  /-- The fields that the library of models reads from the text of a load, or `none` where it
      refuses one. -/
  fields : Json → Option ReliabilityLoadEvidence
  hashing : Hashing

/-- The computation raises nothing but `ValueError` and `TypeError`. -/
abbrev Closed {α : Type} (x : Except CorrelationRaised α) : Prop :=
  RaisesOnly (fun e => e.isRefusal = true) x

/-- A check that refuses raises no other exception. -/
theorem closed_check {α : Type} {c : Prop} [Decidable c] {e : CorrelationRaised}
    {x : Except CorrelationRaised α} (he : e.isRefusal = true) (hx : ¬ c → Closed x) :
    Closed (if c then .error e else x) := by
  split_ifs with h
  · exact raisesOnly_error.2 he
  · exact hx h

/-- What a conversion raises. -/
def converted {α : Type} : Except ConversionError α → Except CorrelationRaised α
  | .ok a => .ok a
  | .error .overflow => .error .overflowError
  | .error .value => .error (.valueError (lit "cannot convert float NaN to integer"))

theorem converted_eq_ok {α : Type} {x : Except ConversionError α} {a : α} :
    converted x = .ok a ↔ x = .ok a := by
  cases x with
  | ok b => exact ⟨fun h => by cases h; rfl, fun h => by cases h; rfl⟩
  | error e =>
    refine iff_of_false (fun h => ?_) fun h => by cases h
    cases e <;> cases h

/-! ## Lines -/

/-- A character that ends a line. -/
def isLineBreak (c : CodePoint) : Bool :=
  (10 ≤ c.val && c.val ≤ 13) || (28 ≤ c.val && c.val ≤ 30) || c.val == 0x85 || c.val == 0x2028 ||
    c.val == 0x2029

/-- The loop of `splitlines`, with the line so far, its last character first. A line feed after
    a carriage return ends no other line. -/
def splitFrom (line : Text) (afterReturn : Bool) : Text → List Text
  | [] => if line = [] then [] else [line.reverse]
  | c :: t =>
    if afterReturn ∧ c = 10 then splitFrom [] false t
    else if isLineBreak c then line.reverse :: splitFrom [] (c = 13) t
    else splitFrom (c :: line) false t

/-- `str.splitlines()`. -/
def splitlines (t : Text) : List Text := splitFrom [] false t

example : splitlines [65, 13, 10, 10, 66, 11, 67] = [[65], [], [66], [67]] := by decide

/-- `_bounded_text`, of a text. -/
def boundedText (value : Text) : Except CorrelationRaised Text :=
  if ¬ value.Encodable then .error .encodeError
  else if ¬ (1 ≤ value.utf8Length ∧ value.utf8Length ≤ 8 * 1024 * 1024) then
    .error (.valueError (lit "reliability correlation source must be bounded UTF-8 text"))
  else if 100000 < value.count 10 + 1 then
    .error (.valueError (lit "reliability correlation source has too many lines"))
  else .ok value

theorem boundedText_closed (value : Text) : Closed (boundedText value) := by
  rw [boundedText]
  refine closed_check rfl fun _ => closed_check rfl fun _ => closed_check rfl fun _ => ?_
  exact raisesOnly_ok

theorem boundedText_eq_ok {value text : Text} (h : boundedText value = .ok text) : text = value := by
  rw [boundedText] at h
  split_ifs at h
  cases h
  rfl

/-! ## Objects -/

/-- `value == text`, of a JSON value. -/
def isStr (text : Text) : Json → Bool
  | .str t => t = text
  | _ => false

/-- An integer, and no boolean, that equals a number. -/
def isInt (n : ℤ) : Json → Bool
  | .int m => m = n
  | _ => false

/-- `set(document) == names` -/
def hasKeys (names : List Text) (members : List (Text × Json)) : Bool :=
  names.all (members.map Prod.fst).contains && (members.map Prod.fst).all names.contains

namespace Correlator

variable (correlator : Correlator)

/-- What `json.loads` runs with. -/
def loader : Loader where
  maxDepth := correlator.maxDepth
  maxDigits := correlator.maxDigits
  rounding := correlator.arithmetic.rounding
  constants := true

/-- `float(text)`. -/
def float (text : Text) : Except CorrelationRaised PyFloat :=
  match PyFloat.ofText correlator.arithmetic.rounding correlator.decimal text with
  | some x => .ok x
  | none => .error (.valueError (lit "could not convert string to float"))

/-- `_json_object`. -/
def jsonObject (value : Text) : Except CorrelationRaised (List (Text × Json)) :=
  match correlator.loader.loads value with
  | .error _ => .error (.valueError (lit "reliability correlation JSON is invalid"))
  | .ok (.obj members) => .ok members
  | .ok _ => .error (.valueError (lit "reliability correlation JSON must be an object"))

variable {correlator}

theorem float_closed (text : Text) : Closed (correlator.float text) := by
  rw [float]
  split
  · exact raisesOnly_ok
  · exact raisesOnly_error.2 rfl

theorem jsonObject_closed (value : Text) : Closed (correlator.jsonObject value) := by
  rw [jsonObject]
  split
  · exact raisesOnly_error.2 rfl
  · exact raisesOnly_ok
  · exact raisesOnly_error.2 rfl

end Correlator

end Reliability

end McpRuntime
