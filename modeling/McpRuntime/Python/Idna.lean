import McpRuntime.Python.Text
import Mathlib.Data.List.Dedup
import Mathlib.Data.List.Sort

/-!
# Internationalized domain names

The codec `idna`, which encodes the labels of a domain name on their own.

* `punycode`: the codec of that name;
* `nameprep`: the mapping of a label. The tables of `stringprep` and the normalization form NFKC
  are parameters;
* `idnaEncode_ascii`: a name in ASCII is kept.
-/

namespace McpRuntime

/-! ## Punycode -/

namespace Punycode

/-- What `insertion_unsort` has written so far, with the counts that it keeps; an index is one
    more than in the source. -/
structure Unsorted where
  result : List ℤ := []
  oldIndex : ℤ := 0
  index : ℤ := 0
  delta : ℤ := 0

/-- A character is passed, in search of the occurrences of `c`. -/
def Unsorted.pass (c : CodePoint) (s : Unsorted) (d : CodePoint) : Unsorted :=
  if d = c then
    let index := s.index + 1
    ⟨s.result ++ [s.delta + index - s.oldIndex - 1], index, index, 0⟩
  else if d.val < c.val then { s with index := s.index + 1 }
  else s

/-- `insertion_unsort`, of the characters beyond ASCII in order. -/
def insertionUnsort (t : Text) (extended : List CodePoint) : List ℤ :=
  (extended.foldl (fun (s : Unsorted × ℕ) c =>
    let before := (t.filter fun d => d.val < c.val).length
    (t.foldl (Unsorted.pass c)
      { s.1 with index := 0, delta := (before + 1) * (c.val - s.2) }, c.val)) ({}, 0x80)).1.result

/-- `T`. -/
def threshold (j bias : ℕ) : ℕ := max 1 (min 26 (36 * (j + 1) - bias))

/-- A digit. -/
def digit (n : ℕ) : CodePoint := Fin.ofNat 0x110000 (if n < 26 then 97 + n else 22 + n)

/-- `generate_generalized_integer`, of a number that is less than the fuel. -/
def generalizedInteger (bias : ℕ) : ℕ → ℕ → ℕ → Text
  | 0, _, _ => []
  | fuel + 1, j, n =>
    let t := threshold j bias
    if n < t then [digit n]
    else digit (t + (n - t) % (36 - t)) :: generalizedInteger bias fuel (j + 1) ((n - t) / (36 - t))

/-- The divisions of `adapt`, of a number that is less than the fuel. -/
def divide : ℕ → ℕ → ℕ → ℕ × ℕ
  | 0, delta, divisions => (delta, divisions)
  | fuel + 1, delta, divisions =>
    if 455 < delta then divide fuel (delta / 35) (divisions + 36) else (delta, divisions)

/-- `adapt`. -/
def adapt (delta : ℕ) (first : Bool) (numchars : ℕ) : ℕ :=
  let delta := if first then delta / 700 else delta / 2
  let delta := delta + delta / numchars
  let (delta, divisions) := divide (delta + 1) delta 0
  divisions + 36 * delta / (delta + 38)

/-- `generate_integers`. -/
def generateIntegers (baselen : ℕ) (deltas : List ℕ) : Text :=
  (deltas.zipIdx.foldl (fun (s : Text × ℕ) (delta, points) =>
    (s.1 ++ generalizedInteger s.2 (delta + 1) 0 delta,
      adapt delta (points = 0) (baselen + points + 1))) ([], 72)).1

/-- `punycode_encode`. -/
def encode (t : Text) : Text :=
  let base := t.filter fun c => c.val < 0x80
  let extended := ((t.filter fun c => 0x80 ≤ c.val).dedup).insertionSort fun a b => a.val ≤ b.val
  let integers := generateIntegers base.length ((insertionUnsort t extended).map Int.toNat)
  if base = [] then integers else base ++ 45 :: integers

example : encode (lit "bücher") = lit "bcher-kva" ∧ encode (lit "münchen") = lit "mnchen-3ya" ∧
    encode (lit "aüöa日本ü") = lit "aa-fkaxc1116mo4b" := by
  decide +kernel

end Punycode

/-! ## Labels -/

/-- The tables of `stringprep`, and NFKC of `unicodedata.ucd_3_2_0`. -/
structure Stringprep where
  inTableB1 : CodePoint → Bool
  mapTableB2 : CodePoint → Text
  nfkc : Text → Text
  /-- A character is in one of the tables C.1.2, C.2.2 and C.3 to C.9. -/
  isProhibited : CodePoint → Bool
  inTableD1 : CodePoint → Bool
  inTableD2 : CodePoint → Bool

variable (tables : Stringprep)

/-- `nameprep`, which raises `UnicodeError`. -/
def nameprep (label : Text) : Option Text :=
  let label := tables.nfkc ((label.filter fun c => !tables.inTableB1 c).flatMap tables.mapTableB2)
  if label.any tables.isProhibited then none
  else if label.any tables.inTableD1 &&
      (label.any tables.inTableD2 || !label.head?.any tables.inTableD1 ||
        !label.getLast?.any tables.inTableD1) then none
  else some label

/-- The last step of `ToASCII`. -/
def checkSize (label : Text) : Option Text :=
  if 0 < label.length ∧ label.length < 64 then some label else none

/-- `ToASCII`, which raises `UnicodeError`. -/
def toASCII (label : Text) : Option Text :=
  if label.isAscii then checkSize label
  else do
    let label ← nameprep tables label
    if label.isAscii then checkSize label
    else if (lit "xn--").isPrefixOf label then none
    else checkSize (lit "xn--" ++ Punycode.encode label)

/-! ## Names -/

/-- `dots`. -/
def isDot (c : CodePoint) : Bool := c = 0x2E || c = 0x3002 || c = 0xFF0E || c = 0xFF61

/-- `input.encode("idna")`, which raises `UnicodeError`. -/
def idnaEncode (input : Text) : Option Text :=
  if input = [] then some []
  else if input.isAscii then
    let labels := input.split 46
    if labels.dropLast.all (fun label => 0 < label.length && label.length < 64) &&
        (labels.getLastD []).length < 64 then some input
    else none
  else
    let labels := Text.split 46 (input.map fun c => if isDot c then 46 else c)
    if labels.getLast? = some [] then do
      let encoded ← labels.dropLast.mapM (toASCII tables)
      some ([46].intercalate encoded ++ [46])
    else do
      let encoded ← labels.mapM (toASCII tables)
      some ([46].intercalate encoded)

variable {tables}

/-- A name in ASCII is kept. -/
theorem idnaEncode_ascii {input form : Text} (hascii : input.isAscii = true)
    (h : idnaEncode tables input = some form) : form = input := by
  rw [idnaEncode] at h
  dsimp only at h
  split_ifs at h with hnil hlabels
  · exact (Option.some.inj h).symm.trans hnil.symm
  · exact (Option.some.inj h).symm

/-- A name in ASCII is encoded where its labels are neither empty nor too long. -/
theorem idnaEncode_of_labels {input : Text} (hascii : input.isAscii = true)
    (hlabels : ∀ label ∈ input.split 46, 0 < label.length ∧ label.length < 64) :
    idnaEncode tables input = some input := by
  rw [idnaEncode]
  dsimp only
  split_ifs with hnil hgood
  · rw [hnil]
  · rfl
  -- The last label may be empty in general, but none is here.
  · refine absurd ?_ hgood
    rw [Bool.and_eq_true, List.all_eq_true, decide_eq_true_iff]
    refine ⟨fun label hlabel => ?_, ?_⟩
    · have := hlabels label (List.dropLast_subset _ hlabel)
      simpa using this
    · rw [List.getLastD_eq_getLast?, List.getLast?_eq_some_getLast (Text.split_ne_nil 46 input)]
      exact (hlabels _ (List.getLast_mem _)).2

end McpRuntime
