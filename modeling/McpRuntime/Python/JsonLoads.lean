import McpRuntime.Python.JsonParser

/-!
# `json.loads`

`json.loads` with a hook that refuses an object whose keys are not unique. What it
raises is what it meets first in the text: what is no JSON, what a hook refuses, an
integer of more digits than `int` reads, or a bracket that is nested more deeply than
the interpreter recurses.

* `Loader.loads`: the value of a document, or what is raised.
* `loads_brackets`, `loads_digits`: documents for which it raises neither
  `JSONDecodeError` nor what the hooks do.
-/

namespace McpRuntime

/-- What `json.loads` raises. -/
inductive LoadError
  /-- `JSONDecodeError`. -/
  | decode
  /-- What a hook raises. -/
  | refused
  /-- The `ValueError` of `int`, which reads no more digits than a limit. -/
  | digits
  /-- `RecursionError`. -/
  | recursion
  deriving DecidableEq

/-- What `json.loads` runs with. -/
structure Loader where
  /-- How deeply the interpreter recurses into brackets. -/
  maxDepth : ℕ
  /-- How many digits `int` reads. -/
  maxDigits : ℕ
  /-- The rounding of a decimal number to a double. -/
  rounding : Rounding
  /-- Whether `NaN` and the infinities are read; if not, `parse_constant` raises. -/
  constants : Bool

/-- The double nearest to a decimal number. -/
def NumberParts.toFloat (rnd : Rounding) (p : NumberParts) : PyFloat :=
  if p.negative ∧ p.value = 0 then .negZero else rnd p.value

namespace Loader

/-! ## Scalars -/

/-- `(\.\d+)?` -/
def takeFraction (t : Text) : Option Text × Text :=
  let digits := t.tail.takeWhile CodePoint.isDigit
  if t.head? = some 46 ∧ digits ≠ [] then (some digits, t.tail.dropWhile CodePoint.isDigit)
  else (none, t)

/-- `([eE][-+]?\d+)?` -/
def takeExponent (t : Text) : Option (Option Bool × Text) × Text :=
  let (sign, rest) := readSign t.tail
  let digits := rest.takeWhile CodePoint.isDigit
  if (t.head? = some 101 ∨ t.head? = some 69) ∧ digits ≠ [] then
    (some (sign, digits), rest.dropWhile CodePoint.isDigit)
  else (none, t)

/-- `0|[1-9]\d*` -/
def takeWhole (t : Text) : Text × Text :=
  if t.head? = some 48 then ([48], t.tail)
  else (t.takeWhile CodePoint.isDigit, t.dropWhile CodePoint.isDigit)

/-- The number at the beginning of a text, taken apart, and the rest of the text. -/
def takeNumber (t : Text) : NumberParts × Text :=
  let negative : Bool := t.head? = some 45
  let (whole, rest) := takeWhole (if negative then t.tail else t)
  let (fraction, rest) := takeFraction rest
  let (exponent, rest) := takeExponent rest
  (⟨negative, whole, fraction, exponent⟩, rest)

variable (loader : Loader)

/-- The double that a decimal number is read as. -/
def float (p : NumberParts) : PyFloat := p.toFloat loader.rounding

/-- `int` or `float` of a number. -/
def number (p : NumberParts) : Except LoadError Json :=
  if p.whole = [] then .error .decode
  else if p.fraction.isNone ∧ p.exponent.isNone then
    if loader.maxDigits < p.whole.length then .error .digits
    else .ok (.int (if p.negative then -natValue p.whole else natValue p.whole))
  else .ok (.float (loader.float p))

/-- `parse_constant`. -/
def constant (x : PyFloat) : Except LoadError Json :=
  if loader.constants then .ok (.float x) else .error .refused

/-- A literal or a number, and the rest of the text. -/
def scalar (t : Text) : Except LoadError (Json × Text) :=
  if (lit "null").isPrefixOf t then .ok (.null, t.drop 4)
  else if (lit "true").isPrefixOf t then .ok (.bool true, t.drop 4)
  else if (lit "false").isPrefixOf t then .ok (.bool false, t.drop 5)
  else if (lit "NaN").isPrefixOf t then (loader.constant .nan).map fun j => (j, t.drop 3)
  else if (lit "Infinity").isPrefixOf t then (loader.constant .posInf).map fun j => (j, t.drop 8)
  else if (lit "-Infinity").isPrefixOf t then (loader.constant .negInf).map fun j => (j, t.drop 9)
  else (loader.number (takeNumber t).1).map fun j => (j, (takeNumber t).2)

/-! ## Values -/

/-- The characters of a string after its quotation mark, and the rest of the text. -/
def string (t : Text) : Except LoadError (Text × Text) :=
  match parseString t.length t with
  | some result => .ok result
  | none => .error .decode

/-- `object_pairs_hook`, which raises for a duplicate key. -/
def object (members : List (Text × Json)) : Except LoadError Json :=
  if (members.map Prod.fst).Nodup then .ok (.obj members) else .error .refused

mutual

/-- A value, and the rest of the text; so many brackets may yet be nested. -/
def value : ℕ → ℕ → Text → Except LoadError (Json × Text)
  | 0, _, _ => .error .decode
  | fuel + 1, depth, t =>
    let t := skipSpace t
    if t.head? = some 34 then (string t.tail).map fun (s, rest) => (.str s, rest)
    else if t.head? = some 91 then
      match depth with
      | 0 => .error .recursion
      | depth + 1 =>
        if (skipSpace t.tail).head? = some 93 then .ok (.arr [], (skipSpace t.tail).tail)
        else do
          let (j, rest) ← value fuel depth t.tail
          let (items, rest) ← items fuel depth rest
          .ok (.arr (j :: items), rest)
    else if t.head? = some 123 then
      match depth with
      | 0 => .error .recursion
      | depth + 1 =>
        if (skipSpace t.tail).head? = some 125 then .ok (.obj [], (skipSpace t.tail).tail)
        else do
          let (m, rest) ← member fuel depth t.tail
          let (members, rest) ← members fuel depth rest
          .ok (← object (m :: members), rest)
    else loader.scalar t

/-- The items that are left of an array, and the rest of the text. -/
def items : ℕ → ℕ → Text → Except LoadError (List Json × Text)
  | 0, _, _ => .error .decode
  | fuel + 1, depth, t =>
    let t := skipSpace t
    if t.head? = some 93 then .ok ([], t.tail)
    else if t.head? = some 44 then do
      let (j, rest) ← value fuel depth t.tail
      let (items, rest) ← items fuel depth rest
      .ok (j :: items, rest)
    else .error .decode

/-- A key with its value, and the rest of the text. -/
def member : ℕ → ℕ → Text → Except LoadError ((Text × Json) × Text)
  | 0, _, _ => .error .decode
  | fuel + 1, depth, t =>
    let t := skipSpace t
    if t.head? = some 34 then do
      let (key, rest) ← string t.tail
      if (skipSpace rest).head? = some 58 then
        let (j, rest) ← value fuel depth (skipSpace rest).tail
        .ok ((key, j), rest)
      else .error .decode
    else .error .decode

/-- The members that are left of an object, and the rest of the text. -/
def members : ℕ → ℕ → Text → Except LoadError (List (Text × Json) × Text)
  | 0, _, _ => .error .decode
  | fuel + 1, depth, t =>
    let t := skipSpace t
    if t.head? = some 125 then .ok ([], t.tail)
    else if t.head? = some 44 then do
      let (m, rest) ← member fuel depth t.tail
      let (members, rest) ← members fuel depth rest
      .ok (m :: members, rest)
    else .error .decode

end

/-- `json.loads`; every step of the parser takes a character, so that there is fuel for
    each. -/
def loads (t : Text) : Except LoadError Json :=
  match loader.value (t.length + 1) loader.maxDepth t with
  | .error e => .error e
  | .ok (j, rest) => if (skipSpace rest).isEmpty then .ok j else .error .decode

variable {loader}

/-- A bracket is nested more deeply than the brackets that are left. -/
theorem value_brackets {fuel depth n : ℕ} (hfuel : n ≤ fuel) (hdepth : depth < n) (t : Text) :
    loader.value fuel depth (List.replicate n 91 ++ t) = .error .recursion := by
  induction n generalizing fuel depth with
  | zero => exact absurd hdepth (Nat.not_lt_zero _)
  | succ n ih =>
    obtain ⟨fuel, rfl⟩ := Nat.exists_eq_succ_of_ne_zero
      (Nat.ne_of_gt (Nat.lt_of_lt_of_le (Nat.succ_pos _) hfuel))
    have hskip (t : Text) : skipSpace (91 :: t) = 91 :: t :=
      List.dropWhile_cons_of_neg (by decide)
    have hhead {d : CodePoint} (hd : 91 ≠ d) (t : Text) : ¬ (91 :: t).head? = some d :=
      fun h => hd (Option.some.inj h)
    rw [List.replicate_succ, List.cons_append, value.eq_def]
    dsimp only
    rw [hskip]
    cases depth with
    | zero => rfl
    | succ depth =>
      -- what follows the bracket is a bracket too
      obtain ⟨n, rfl⟩ : ∃ m, n = m + 1 := ⟨n - 1, by omega⟩
      have hvalue := ih (Nat.le_of_succ_le_succ hfuel) (Nat.lt_of_succ_lt_succ hdepth)
      rw [List.replicate_succ, List.cons_append] at hvalue ⊢
      refine (if_neg (hhead (by decide) _)).trans ((if_pos rfl).trans ?_)
      dsimp only
      rw [List.tail_cons, hskip, if_neg (hhead (by decide) _), hvalue]
      rfl

/-- Brackets that are nested too deeply make the interpreter recurse too deeply, whatever
    follows them. -/
theorem loads_brackets {n : ℕ} (h : loader.maxDepth < n) (t : Text) :
    loader.loads (List.replicate n 91 ++ t) = .error .recursion := by
  rw [loads, value_brackets _ h]
  rw [List.length_append, List.length_replicate]
  omega

/-- A number without sign, fraction and exponent. -/
theorem takeNumber_numeral {t : Text} (ht : IsNumeral t) :
    takeNumber t = (⟨false, t, none, none⟩, []) := by
  obtain ⟨c, u, rfl⟩ := List.exists_cons_of_ne_nil ht.1.1
  have hdigit := ht.1.2 c List.mem_cons_self
  have hminus : ¬ c = 45 := by rintro rfl; cases hdigit
  have hwhole : takeWhole (c :: u) = (c :: u, []) := by
    rw [takeWhole]
    split_ifs with hzero
    · rw [ht.2 hzero]
      rfl
    · have hall := @takeWhile_digits (c :: u) [] ht.1.2 (fun _ h => by cases h)
      rw [List.append_nil] at hall
      rw [hall.1, hall.2]
  rw [takeNumber, List.head?_cons]
  have hminus' : (decide (some c = some 45)) = false := decide_eq_false fun h => hminus (Option.some.inj h)
  simp only [hminus', Bool.false_eq_true, if_false, hwhole]
  rfl

/-- An integer of too many digits is not read. -/
theorem loads_digits {t : Text} (ht : IsNumeral t) (h : loader.maxDigits < t.length) :
    loader.loads t = .error .digits := by
  obtain ⟨c, u, rfl⟩ := List.exists_cons_of_ne_nil ht.1.1
  have hdigit := ht.1.2 c List.mem_cons_self
  have hne {d : CodePoint} (hd : d.isDigit = false) : c ≠ d := by
    rintro rfl
    cases hd.symm.trans hdigit
  have hhead {d : CodePoint} (hd : d.isDigit = false) : ¬ (c :: u).head? = some d :=
    fun h => hne hd (Option.some.inj h)
  have hspace : isJsonSpace c = false := by
    rw [isJsonSpace, decide_eq_false (hne rfl), decide_eq_false (hne rfl), decide_eq_false (hne rfl),
      decide_eq_false (hne rfl)]
    rfl
  have hskip : skipSpace (c :: u) = c :: u := List.dropWhile_cons_of_neg (by simp [hspace])
  have hliteral {d : CodePoint} (v : Text) (hd : d.isDigit = false) :
      ¬ (d :: v).isPrefixOf (c :: u) = true := by
    rw [List.isPrefixOf, beq_false_of_ne (hne hd).symm]
    exact Bool.false_ne_true
  have hscalar : loader.scalar (c :: u) = .error .digits := by
    refine (if_neg (hliteral (lit "ull") rfl)).trans ?_
    refine (if_neg (hliteral (lit "rue") rfl)).trans ?_
    refine (if_neg (hliteral (lit "alse") rfl)).trans ?_
    refine (if_neg (hliteral (lit "aN") rfl)).trans ?_
    refine (if_neg (hliteral (lit "nfinity") rfl)).trans ?_
    refine (if_neg (hliteral (lit "Infinity") rfl)).trans ?_
    rw [takeNumber_numeral ht, number, if_neg (List.cons_ne_nil _ _), if_pos ⟨rfl, rfl⟩, if_pos h]
    rfl
  rw [loads, List.length_cons, value.eq_def]
  dsimp only
  rw [hskip, if_neg (hhead rfl), if_neg (hhead rfl), if_neg (hhead rfl), hscalar]

end Loader

/-- A loader of documents in which every number has few digits. -/
def shallowLoader : Loader := ⟨2, 4, .finite, false⟩

example : (shallowLoader.loads (lit " [-1, \x7b\"a\": null\x7d]")).toOption.isSome = true := by
  decide +kernel

end McpRuntime
