import McpRuntime.Python.JsonParser
import McpRuntime.Python.Except
import McpRuntime.Tool.Manifest

/-!
# The canonical encoding of the registry

The text of a JSON value as the encoder of the registry writes it: the members of
objects in order, the characters of HTML and the line separators escaped, and
floats without an exponent within the range in which they are written out.

* `readsEqual_of_goRender`: the text of a value is read as a value that is equal,
  numbers by their value and objects as sets of members;
* `parseJson_canonical`: the payload of an artifact is read as an object with its
  parts, so that contents with one payload are equal (`goJson_faithful`).
-/

namespace McpRuntime

namespace Registry

/-! ## Strings -/

/-- `_go_json_string`. -/
def goJsonString (t : Text) : Text :=
  ((((Text.replace (34 :: quoted t) (lit "<") (lit "\\u003c")).replace (lit ">")
    (lit "\\u003e")).replace (lit "&") (lit "\\u0026")).replace [0x2028]
      (lit "\\u2028")).replace [0x2029] (lit "\\u2029")

/-! ## Floats -/

/-- `text.removesuffix(".0")`. -/
def removeDotZero (t : Text) : Text :=
  if (lit ".0").isSuffixOf t then t.take (t.length - 2) else t

/-- `int(text)`, of digits with an optional sign. -/
def intOfText (t : Text) : Option ℤ :=
  let (sign, digits) := readSign t
  if digits.isEmpty || !digits.all CodePoint.isDigit then none
  else some (NumberParts.exponentValue (some (sign, digits)))

/-- A `Decimal`: its sign, its digits and its exponent. -/
structure Decimal where
  negative : Bool
  digits : Text
  exponent : ℤ

/-- `Decimal(text)`, of the text of a number. -/
def Decimal.ofText (t : Text) : Option Decimal :=
  match parseNumber t with
  | some (p, []) =>
    some ⟨p.negative, natText (natValue (p.whole ++ p.fraction.getD [])),
      NumberParts.exponentValue p.exponent - (p.fraction.getD []).length⟩
  | _ => none

/-- The digits before and after the point of `format(d, "f")`. -/
def Decimal.fixedParts (digits : Text) (exponent : ℤ) : Text × Text :=
  let dotplace := exponent + digits.length
  if dotplace < 0 then ([48], List.replicate (-dotplace).toNat 48 ++ digits)
  else if digits.length < dotplace then
    (digits ++ List.replicate (dotplace - digits.length).toNat 48, [])
  else
    (if dotplace = 0 then [48] else digits.take dotplace.toNat, digits.drop dotplace.toNat)

/-- `format(d, "f")`. A zero with a positive exponent has no digits after it. -/
def Decimal.fixed (d : Decimal) : Text :=
  let (intpart, fracpart) :=
    Decimal.fixedParts d.digits (if d.digits = [48] ∧ 0 < d.exponent then 0 else d.exponent)
  (if d.negative then [45] else []) ++
    (intpart ++ if fracpart.isEmpty then [] else 46 :: fracpart)

/-- `_go_json_float`, which raises `ValueError` for a float that is not finite. -/
def goJsonFloat (writer : JsonWriter) (x : PyFloat) : Option Text :=
  if !x.isFinite then none
  else if x = .negZero then some (lit "-0")
  else
    let rendered := (writer.floatText x).map CodePoint.asciiLower
    if !rendered.contains 101 then some (removeDotZero rendered)
    else do
      let mantissa := rendered.takeWhile (· ≠ 101)
      let exponent ← intOfText (rendered.dropWhile (· ≠ 101)).tail
      if -6 ≤ exponent ∧ exponent < 21 then do
        let fixed := (← Decimal.ofText rendered).fixed
        some (if fixed.contains 46 then Text.rstripChar 46 (Text.rstripChar 48 fixed) else fixed)
      else
        some (removeDotZero mantissa ++
          101 :: (if 0 ≤ exponent then 43 else 45) :: natText exponent.natAbs)

/-! ## Values -/

/-- `_go_json`, of a value whose members are in order. -/
def goRender (writer : JsonWriter) : Json → Option Text
  | .null => some (lit "null")
  | .bool true => some (lit "true")
  | .bool false => some (lit "false")
  | .str t => some (goJsonString t)
  | .int n => some (intText n)
  | .float x => goJsonFloat writer x
  | .obj members => do some (123 :: (commaJoin (← goMembers members) ++ [125]))
  | .arr items => do some (91 :: (commaJoin (← goItems items) ++ [93]))
where
  goItems : List Json → Option (List Text)
    | [] => some []
    | j :: items => do some ((← goRender writer j) :: (← goItems items))
  goMembers : List (Text × Json) → Option (List Text)
    | [] => some []
    | (key, j) :: members => do
      let t ← goRender writer j
      some ((goJsonString key ++ 58 :: t) :: (← goMembers members))

/-- `_go_json`, which raises `ValueError` for a float that is not finite and for a
    value that the interpreter refuses. -/
def goJson (writer : JsonWriter) (j : Json) : Option Text :=
  if writer.refuses j then none else goRender writer j.sorted

/-! ## Strings are read back -/

/-- What stands for a character of a JSON string. -/
def htmlEscape (c : CodePoint) : Text :=
  if c = 60 then lit "\\u003c" else if c = 62 then lit "\\u003e"
  else if c = 38 then lit "\\u0026" else if c = 0x2028 then lit "\\u2028"
  else if c = 0x2029 then lit "\\u2029" else [c]

/-- What stands for a character of a text. -/
def goEscape (c : CodePoint) : Text := (escapeChar c).flatMap htmlEscape

/-- The replacements in turn are one replacement. -/
theorem replace_html (t : Text) :
    ((((t.replace (lit "<") (lit "\\u003c")).replace (lit ">")
      (lit "\\u003e")).replace (lit "&") (lit "\\u0026")).replace [0x2028]
        (lit "\\u2028")).replace [0x2029] (lit "\\u2029") = t.flatMap htmlEscape := by
  rw [show lit "<" = [60] from rfl, show lit ">" = [62] from rfl, show lit "&" = [38] from rfl]
  simp only [Text.replace_singleton, List.flatMap_assoc]
  refine congrArg (fun f => t.flatMap f) (funext fun d => ?_)
  rw [htmlEscape]
  -- what one replacement writes has no character of a later one
  split_ifs with hless hgreater hamp hline hparagraph
  · rfl
  · subst hgreater
    rfl
  · subst hamp
    rfl
  · subst hline
    rfl
  · subst hparagraph
    rfl
  · simp [hgreater, hamp, hline, hparagraph]

/-- The encoding of a text, character by character. -/
theorem goJsonString_eq (t : Text) : goJsonString t = 34 :: (t.flatMap goEscape ++ [34]) := by
  rw [goJsonString, replace_html, quoted_eq_flatMap, ← List.singleton_append, List.flatMap_append,
    List.flatMap_append, List.flatMap_assoc]
  rfl

/-- The escape of a character has the character, a backslash, letters and digits. -/
theorem escapeChar_chars {c d : CodePoint} (h : d ∈ escapeChar c) :
    d = c ∨ d = 92 ∨ d.isAlphanumeric = true := by
  have hhex : ∀ n < 16, (hexDigit n).isAlphanumeric = true := by decide
  have hletter {x : CodePoint} (hx : x.isAlphanumeric = true) (h : d ∈ [92, x]) :
      d = c ∨ d = 92 ∨ d.isAlphanumeric = true := by
    rcases List.mem_pair.1 h with rfl | rfl
    · exact .inr (.inl rfl)
    · exact .inr (.inr hx)
  rw [escapeChar] at h
  split_ifs at h with hself hb ht hn hf hr hlow
  · rcases List.mem_pair.1 h with rfl | rfl
    · exact .inr (.inl rfl)
    · exact .inl rfl
  · exact hletter (x := 98) rfl h
  · exact hletter (x := 116) rfl h
  · exact hletter (x := 110) rfl h
  · exact hletter (x := 102) rfl h
  · exact hletter (x := 114) rfl h
  · simp only [List.mem_cons, List.not_mem_nil, or_false] at h
    rcases h with rfl | rfl | rfl | rfl | rfl | rfl
    · exact .inr (.inl rfl)
    · exact .inr (.inr rfl)
    · exact .inr (.inr rfl)
    · exact .inr (.inr rfl)
    · exact .inr (.inr (hhex _ (by omega)))
    · exact .inr (.inr (hhex _ (by omega)))
  · exact .inl (List.mem_singleton.1 h)

/-- A character that is not special stands for itself. -/
theorem htmlEscape_of_ne {c : CodePoint}
    (h : ¬ (c = 60 ∨ c = 62 ∨ c = 38 ∨ c = 0x2028 ∨ c = 0x2029)) : htmlEscape c = [c] := by
  simp only [not_or] at h
  rw [htmlEscape, if_neg h.1, if_neg h.2.1, if_neg h.2.2.1, if_neg h.2.2.2.1, if_neg h.2.2.2.2]

/-- A character is read from its escape in the registry. -/
theorem readChar_goEscape (c : CodePoint) (t : Text) :
    readChar (goEscape c ++ t) = some (c, t) ∧ (goEscape c ++ t).head? ≠ some 34 := by
  by_cases hspecial : c = 60 ∨ c = 62 ∨ c = 38 ∨ c = 0x2028 ∨ c = 0x2029
  · rcases hspecial with rfl | rfl | rfl | rfl | rfl <;> exact ⟨by rfl, nofun⟩
  · have hplain : goEscape c = escapeChar c := by
      refine Eq.trans (List.flatMap_congr fun d hd => htmlEscape_of_ne ?_) (List.flatMap_singleton' _)
      rcases escapeChar_chars hd with rfl | rfl | hd
      · exact hspecial
      · decide
      · rintro (rfl | rfl | rfl | rfl | rfl) <;> exact absurd hd (by decide)
    rw [hplain]
    exact readChar_escapeChar c t

/-! ## Floats are read back -/

/-- The text is a number of JSON that denotes `q`. -/
def Denotes (t : Text) (q : ℚ) : Prop := ∃ p : NumberParts, p.Valid ∧ p.text = t ∧ p.value = q

/-- The fraction that is left of a fraction when `.0` is dropped. -/
def dropZeroFraction (fraction : Option Text) : Option Text :=
  if fraction = some [48] then none else fraction

/-- What `removesuffix(".0")` leaves of the text of a number without an
    exponent. -/
theorem removeDotZero_fraction {u : Text} (hu : 46 ∉ u) {fraction : Option Text}
    (h : ∀ digits ∈ fraction, IsDigits digits) :
    removeDotZero (u ++ NumberParts.fractionText fraction) =
      u ++ NumberParts.fractionText (dropZeroFraction fraction) := by
  rw [removeDotZero]
  cases fraction with
  | none =>
    rw [NumberParts.fractionText, List.append_nil, if_neg]
    · rw [dropZeroFraction, if_neg (by simp), NumberParts.fractionText, List.append_nil]
    · rw [List.isSuffixOf_iff_suffix]
      rintro ⟨v, hv⟩
      exact hu (hv ▸ List.mem_append_right _ List.mem_cons_self)
  | some digits =>
    have hpoint : (46 : CodePoint) ∉ digits := fun hmem => by
      have := (h _ rfl).2 _ hmem
      cases this
    by_cases hzero : digits = [48]
    · subst hzero
      refine (if_pos (List.isSuffixOf_iff_suffix.2 ⟨u, rfl⟩)).trans ?_
      rw [dropZeroFraction, if_pos rfl, NumberParts.fractionText, NumberParts.fractionText,
        List.append_nil, List.length_append]
      exact List.take_left' (by rfl)
    · rw [if_neg, dropZeroFraction, if_neg fun he => hzero (Option.some.inj he)]
      rw [List.isSuffixOf_iff_suffix]
      rintro ⟨v, hv⟩
      exact hzero ((List.append_cons_inj_of_notMem hu hpoint).1 hv.symm).2.2

/-- Dropping `.0` does not change the value of a number. -/
theorem value_dropZeroFraction (p : NumberParts) :
    NumberParts.value { p with fraction := dropZeroFraction p.fraction } = p.value := by
  rw [dropZeroFraction]
  split_ifs with h
  · rw [NumberParts.value, NumberParts.value, h]
    have hten : (10 : ℚ) ≠ 0 := by norm_num
    simp only [Option.getD_none, Option.getD_some, List.append_nil, natValue_append,
      List.length_nil, List.length_singleton, Nat.cast_zero, sub_zero, Nat.cast_one, pow_one]
    rw [zpow_sub_one₀ hten]
    have hzero : natValue [48] = 0 := rfl
    rw [hzero]
    push_cast
    ring
  · rfl

/-- The sign and the digits of a number before its point. -/
def signedWhole (p : NumberParts) : Text := (if p.negative then [45] else []) ++ p.whole

/-- The text of a number, in three parts. -/
theorem text_eq (p : NumberParts) :
    p.text = signedWhole p ++ NumberParts.fractionText p.fraction ++
      NumberParts.exponentText p.exponent := by
  rw [NumberParts.text, signedWhole]
  simp only [List.append_assoc]

/-- Before the point there is a sign or a digit. -/
theorem signedWhole_chars {p : NumberParts} (h : p.Valid) {c : CodePoint} (hc : c ∈ signedWhole p) :
    c = 45 ∨ c.isDigit = true := by
  rcases List.mem_append.1 hc with hc | hc
  · split_ifs at hc with hnegative
    · exact .inl (List.mem_singleton.1 hc)
    · cases hc
  · exact .inr (h.whole.1.2 c hc)

/-- There is no point before the point. -/
theorem point_notMem {p : NumberParts} (h : p.Valid) : 46 ∉ signedWhole p := fun hmem =>
  (signedWhole_chars h hmem).elim (by decide) (by decide)

/-- There is no exponent before the exponent. -/
theorem e_notMem {p : NumberParts} (h : p.Valid) :
    101 ∉ signedWhole p ++ NumberParts.fractionText p.fraction := fun hmem => by
  rcases List.mem_append.1 hmem with hmem | hmem
  · exact (signedWhole_chars h hmem).elim (by decide) (by decide)
  · cases hfraction : p.fraction with
    | none =>
      rw [hfraction] at hmem
      cases hmem
    | some digits =>
      rw [hfraction] at hmem
      rcases List.mem_cons.1 hmem with he | hmem
      · exact absurd he (by decide)
      · exact absurd ((h.fraction _ hfraction).2 _ hmem) (by decide)

/-- The text of a number is in lower case. -/
theorem map_asciiLower_text {p : NumberParts} (h : p.Valid) :
    p.text.map CodePoint.asciiLower = p.text := by
  have hdigit {c : CodePoint} (hc : c.isDigit = true) : c.asciiLower = c := by
    rw [CodePoint.isDigit, Bool.and_eq_true, decide_eq_true_iff, decide_eq_true_iff] at hc
    rw [CodePoint.asciiLower, if_neg]
    simp only [Bool.and_eq_true, decide_eq_true_iff, not_and]
    omega
  have hchars {c : CodePoint} (hc : c ∈ p.text) : c.asciiLower = c := by
    rw [text_eq, List.mem_append, List.mem_append] at hc
    rcases hc with (hc | hc) | hc
    · rcases signedWhole_chars h hc with rfl | hc
      · rfl
      · exact hdigit hc
    · cases hfraction : p.fraction with
      | none =>
        rw [hfraction] at hc
        cases hc
      | some digits =>
        rw [hfraction] at hc
        rcases List.mem_cons.1 hc with rfl | hc
        · rfl
        · exact hdigit ((h.fraction _ hfraction).2 _ hc)
    · cases hexponent : p.exponent with
      | none =>
        rw [hexponent] at hc
        cases hc
      | some e =>
        obtain ⟨sign, digits⟩ := e
        rw [hexponent] at hc
        rcases List.mem_cons.1 hc with rfl | hc
        · rfl
        · rcases List.mem_append.1 hc with hc | hc
          · cases sign with
            | none => cases hc
            | some negative =>
              cases negative <;> (rw [List.mem_singleton.1 hc]; rfl)
          · exact hdigit ((h.exponent _ hexponent).2 _ hc)
  exact (List.map_congr_left fun c hc => hchars hc).trans (List.map_id _)

/-- The integer of an exponent is read. -/
theorem intOfText_text (sign : Option Bool) {digits : Text} (h : IsDigits digits) :
    intOfText (NumberParts.signText sign ++ digits) =
      some (NumberParts.exponentValue (some (sign, digits))) := by
  have hread := readSign_text sign h []
  rw [List.append_nil] at hread
  rw [intOfText, hread]
  refine if_neg ?_
  rw [Bool.or_eq_true, List.isEmpty_iff, Bool.not_eq_true', List.all_eq_false, not_or]
  refine ⟨h.1, ?_⟩
  rintro ⟨c, hc, hdigit⟩
  exact hdigit (h.2 c hc)

/-- The exponent of a number splits its text. -/
theorem split_text {p : NumberParts} (h : p.Valid) {sign : Option Bool} {digits : Text}
    (hexponent : p.exponent = some (sign, digits)) :
    p.text.takeWhile (· ≠ 101) = signedWhole p ++ NumberParts.fractionText p.fraction ∧
      (p.text.dropWhile (· ≠ 101)).tail = NumberParts.signText sign ++ digits := by
  have hne : ∀ c ∈ signedWhole p ++ NumberParts.fractionText p.fraction, decide (c ≠ 101) = true :=
    fun c hc => decide_eq_true fun he => e_notMem h (he ▸ hc)
  rw [text_eq, hexponent, NumberParts.exponentText, List.takeWhile_append_of_pos hne,
    List.dropWhile_append_of_pos hne, List.takeWhile_cons_of_neg (by decide),
    List.dropWhile_cons_of_neg (by decide), List.append_nil]
  exact ⟨rfl, rfl⟩

/-- The digits of `format(d, "f")` stand for the number. -/
theorem fixedParts_spec {n : ℕ} {exponent : ℤ} (hzero : n = 0 → exponent ≤ 0) :
    IsNumeral (Decimal.fixedParts (natText n) exponent).1 ∧
      (∀ c ∈ (Decimal.fixedParts (natText n) exponent).2, c.isDigit = true) ∧
      (natValue ((Decimal.fixedParts (natText n) exponent).1 ++
          (Decimal.fixedParts (natText n) exponent).2) : ℚ) *
        10 ^ (-((Decimal.fixedParts (natText n) exponent).2.length : ℤ)) = n * 10 ^ exponent := by
  have hten : (10 : ℚ) ≠ 0 := by norm_num
  have hnumeral := isNumeral_natText n
  have hpoint : IsNumeral [48] :=
    ⟨⟨List.cons_ne_nil _ _, fun c hc => List.mem_singleton.1 hc ▸ rfl⟩, fun _ => rfl⟩
  have hzeros (k : ℕ) : ∀ c ∈ List.replicate k (48 : CodePoint), c.isDigit = true := fun c hc => by
    rw [List.eq_of_mem_replicate hc]
    rfl
  rw [Decimal.fixedParts]
  split_ifs with hneg hlong hdot
  · -- the digits begin after the point
    refine ⟨hpoint, ?_, ?_⟩
    · intro c hc
      exact (List.mem_append.1 hc).elim (hzeros _ c) (hnumeral.1.2 c)
    · have hvalue : natValue ([48] ++ (List.replicate (-(exponent + (natText n).length)).toNat 48 ++
          natText n)) = n := by
        rw [natValue_append, natValue_append, natValue_zeros, natValue_natText]
        simp [natValue]
      rw [hvalue, List.length_append, List.length_replicate]
      congr 2
      push_cast
      omega
  · -- the number has zeros before the point
    have hpos : n ≠ 0 := fun h => by
      have := hzero h
      omega
    refine ⟨⟨⟨by simp [hnumeral.1.1], fun c hc => ?_⟩, fun hhead => ?_⟩, List.forall_mem_nil _, ?_⟩
    · exact (List.mem_append.1 hc).elim (hnumeral.1.2 c) (hzeros _ c)
    · rw [List.head?_append_of_ne_nil _ hnumeral.1.1] at hhead
      exact absurd (natText_inj ((hnumeral.2 hhead).trans rfl : natText n = natText 0)) hpos
    · rw [List.append_nil, natValue_append, natValue_natText, natValue_zeros, List.length_replicate]
      obtain ⟨k, rfl⟩ : ∃ k : ℕ, exponent = k := ⟨exponent.toNat, by omega⟩
      rw [Nat.add_zero, add_sub_cancel_right, Int.toNat_natCast, zpow_natCast]
      simp
  · -- the point is before the digits
    refine ⟨hpoint, ?_, ?_⟩
    · intro c hc
      exact hnumeral.1.2 c (List.mem_of_mem_drop hc)
    · rw [hdot, Int.toNat_zero, List.drop_zero, natValue_append, natValue_natText]
      have hexponent : exponent = -((natText n).length : ℤ) := by omega
      rw [hexponent]
      simp [natValue]
  · -- the point is among the digits, or after them
    have hpos : 0 < (exponent + (natText n).length).toNat := by omega
    refine ⟨⟨⟨?_, fun c hc => ?_⟩, fun hhead => ?_⟩, ?_, ?_⟩
    · exact fun hempty => hnumeral.1.1 ((List.take_eq_nil_iff.1 hempty).resolve_left hpos.ne')
    · exact hnumeral.1.2 c (List.mem_of_mem_take hc)
    · rw [List.head?_take, if_neg hpos.ne'] at hhead
      have hn := hnumeral.2 hhead
      refine (List.take_of_length_le ?_).trans hn
      rw [hn] at hpos ⊢
      exact hpos
    · intro c hc
      exact hnumeral.1.2 c (List.mem_of_mem_drop hc)
    · rw [List.take_append_drop, natValue_natText, List.length_drop]
      congr 2
      omega

/-- The fraction with the digits of a text, if it has any. -/
def fractionOf (digits : Text) : Option Text := if digits = [] then none else some digits

/-- What stripping zeros and the point leaves of a number that is written out. -/
theorem strip_fixed {u digits : Text} (hu : IsDigits u) (sign : Text)
    (hdigits : ∀ c ∈ digits, c.isDigit = true) :
    Text.rstripChar 46 (Text.rstripChar 48 (sign ++ u ++ 46 :: digits)) =
      sign ++ u ++ NumberParts.fractionText (fractionOf (Text.rstripChar 48 digits)) := by
  have hstripped : ∀ c ∈ Text.rstripChar 48 digits, c.isDigit = true := fun c hc =>
    hdigits c ((List.rdropWhile_prefix _ _).subset hc)
  have hne {c : CodePoint} (hc : c.isDigit = true) : c ≠ 46 := by
    rintro rfl
    cases hc
  rw [Text.rstripChar_append (by decide)]
  generalize Text.rstripChar 48 digits = rest at hstripped
  rcases List.eq_nil_or_concat rest with rfl | ⟨init, last, rfl⟩
  · -- the point is stripped too, and the digits before it stay
    obtain ⟨init, last, rfl⟩ := (List.eq_nil_or_concat u).resolve_left hu.1
    have hlast := hne (hu.2 last (by simp))
    rw [List.concat_eq_append, List.append_assoc, List.append_assoc, List.append_assoc,
      ← List.append_assoc, List.singleton_append, Text.rstripChar_append hlast, fractionOf,
      if_pos rfl, NumberParts.fractionText]
    simp [Text.rstripChar, List.rdropWhile]
  · have hlast := hne (hstripped last (by simp))
    rw [List.concat_eq_append, ← List.cons_append, ← List.append_assoc,
      Text.rstripChar_append hlast, fractionOf, if_neg (by simp), NumberParts.fractionText]
    simp [Text.rstripChar]

/-- Zeros at the end of a fraction do not change the number. -/
theorem value_rstrip (whole digits : Text) :
    (natValue (whole ++ Text.rstripChar 48 digits) : ℚ) *
        10 ^ (-((Text.rstripChar 48 digits).length : ℤ)) =
      natValue (whole ++ digits) * 10 ^ (-(digits.length : ℤ)) := by
  have hten : (10 : ℚ) ≠ 0 := by norm_num
  obtain ⟨k, hk⟩ := Text.exists_rstripChar 48 digits
  generalize Text.rstripChar 48 digits = rest at hk
  subst hk
  rw [← List.append_assoc, natValue_append (whole ++ rest), natValue_zeros, List.length_append,
    List.length_replicate]
  push_cast
  rw [add_zero, neg_add, zpow_add₀ hten, mul_assoc, mul_comm (10 ^ (-(rest.length : ℤ)) : ℚ),
    ← mul_assoc ((10 : ℚ) ^ k), zpow_neg _ (k : ℤ), zpow_natCast, mul_inv_cancel₀ (pow_ne_zero _ hten),
    one_mul]

/-- The text of a `Decimal`, stripped as the encoder strips it. -/
theorem denotes_strip {negative : Bool} {whole digits : Text} (hwhole : IsNumeral whole)
    (hdigits : ∀ c ∈ digits, c.isDigit = true) {fixed : Text}
    (hfixed : fixed = (if negative then [45] else []) ++
      (whole ++ if digits.isEmpty then [] else 46 :: digits)) :
    Denotes (if fixed.contains 46 then Text.rstripChar 46 (Text.rstripChar 48 fixed) else fixed)
      ((if negative then -1 else 1) * natValue (whole ++ digits) * 10 ^ (-(digits.length : ℤ))) := by
  have hvalid : (NumberParts.mk negative whole (fractionOf (Text.rstripChar 48 digits)) none).Valid := by
    refine ⟨hwhole, fun rest hrest => ?_, nofun⟩
    have hrest' : fractionOf (Text.rstripChar 48 digits) = some rest := hrest
    rw [fractionOf] at hrest'
    split_ifs at hrest' with hempty
    cases hrest'
    exact ⟨hempty, fun c hc => hdigits c ((List.rdropWhile_prefix _ _).subset hc)⟩
  refine ⟨_, hvalid, ?_, ?_⟩
  · have hpoint := point_notMem hvalid
    rw [text_eq, signedWhole, NumberParts.exponentText, List.append_nil]
    rw [signedWhole] at hpoint
    dsimp only at hpoint ⊢
    generalize (if negative = true then [45] else [] : Text) = sign at hfixed hpoint ⊢
    by_cases hempty : digits = []
    · subst hempty
      have hfixed' : fixed = sign ++ whole := by simpa using hfixed
      rw [hfixed', if_neg (by simpa using hpoint)]
      simp [Text.rstripChar, fractionOf, NumberParts.fractionText]
    · have hfixed' : fixed = sign ++ whole ++ 46 :: digits := by
        rw [hfixed, if_neg (by simpa using hempty), List.append_assoc]
      rw [hfixed', strip_fixed hwhole.1 sign hdigits]
      exact (if_pos (by simp)).symm
  · have hlength : (fractionOf (Text.rstripChar 48 digits)).getD [] = Text.rstripChar 48 digits := by
      rw [fractionOf]
      split_ifs with hempty
      · exact hempty.symm
      · rfl
    rw [NumberParts.value, hlength, mul_assoc, mul_assoc, NumberParts.exponentValue, zero_sub,
      value_rstrip]

/-- A float that is written out is the number that it denotes. -/
theorem denotes_fixed {p : NumberParts} (h : p.Valid) :
    ∃ d, Decimal.ofText p.text = some d ∧
      Denotes (if d.fixed.contains 46 then Text.rstripChar 46 (Text.rstripChar 48 d.fixed)
        else d.fixed) p.value := by
  have hparse : parseNumber (p.text ++ []) = some (p, []) := parseNumber_text h nofun
  rw [List.append_nil] at hparse
  refine ⟨_, by rw [Decimal.ofText, hparse], ?_⟩
  generalize hn : natValue (p.whole ++ p.fraction.getD []) = n
  generalize he : NumberParts.exponentValue p.exponent - ((p.fraction.getD []).length : ℤ) = e
  have hexponent : ∃ e', (if natText n = [48] ∧ 0 < e then 0 else e) = e' ∧ (n = 0 → e' ≤ 0) ∧
      (n : ℚ) * 10 ^ e' = n * 10 ^ e := by
    refine ⟨_, rfl, ?_, ?_⟩
    · rintro rfl
      split_ifs with hpos
      · exact le_rfl
      · exact not_lt.1 fun hlt => hpos ⟨rfl, hlt⟩
    · split_ifs with hpos
      · obtain rfl : n = 0 := natText_inj (hpos.1.trans rfl)
        simp
      · rfl
  obtain ⟨e', he', hzero, hvalue⟩ := hexponent
  obtain ⟨hwhole, hdigits, hspec⟩ := fixedParts_spec hzero
  have hdenotes := @denotes_strip p.negative _ _ hwhole hdigits _ rfl
  rw [mul_assoc, hspec, hvalue, ← mul_assoc] at hdenotes
  rw [NumberParts.value, hn, he, Decimal.fixed, he']
  exact hdenotes

/-- Dropping `.0` keeps a number valid. -/
theorem valid_dropZeroFraction {p : NumberParts} (h : p.Valid)
    {exponent : Option (Option Bool × Text)} (hexponent : ∀ e ∈ exponent, IsDigits e.2) :
    NumberParts.Valid { p with fraction := dropZeroFraction p.fraction, exponent := exponent } := by
  refine ⟨h.whole, fun digits hdigits => h.fraction digits ?_, hexponent⟩
  have hdigits' : dropZeroFraction p.fraction = some digits := hdigits
  rw [dropZeroFraction] at hdigits'
  split_ifs at hdigits'
  exact hdigits'

/-- The exponent that is written is the exponent that was read. -/
theorem exponentValue_written (e : ℤ) :
    NumberParts.exponentValue (some (some (decide (¬ 0 ≤ e)), natText e.natAbs)) = e := by
  by_cases h : 0 ≤ e
  · rw [decide_eq_false (not_not.2 h), NumberParts.exponentValue, natValue_natText]
    · exact Int.natAbs_of_nonneg h
    · simp_all
  · rw [decide_eq_true h, NumberParts.exponentValue, natValue_natText]
    omega

/-- The text of a float denotes it, when its `repr` does. -/
theorem denotes_goJsonFloat {writer : JsonWriter} {x : PyFloat} {t : Text}
    (hrepr : Denotes (writer.floatText x) x.toRat) (h : goJsonFloat writer x = some t) :
    Denotes t x.toRat := by
  obtain ⟨p, hp, htext, hvalue⟩ := hrepr
  rw [goJsonFloat, ← htext, map_asciiLower_text hp] at h
  split_ifs at h with hfinite hzero
  · -- the negative zero
    cases h
    subst hzero
    refine ⟨⟨true, [48], none, none⟩, ⟨⟨⟨nofun, ?_⟩, fun _ => rfl⟩, nofun, nofun⟩, rfl, ?_⟩
    · exact fun c hc => List.mem_singleton.1 hc ▸ rfl
    · simp [NumberParts.value, natValue, PyFloat.toRat]
  cases hexponent : p.exponent with
  | none =>
    have hplain : p.text.contains 101 = false := by
      have hnone := e_notMem hp
      rw [text_eq, hexponent, NumberParts.exponentText, List.append_nil]
      simpa using hnone
    simp only [hplain, Bool.not_false, if_true] at h
    cases h
    refine ⟨_, valid_dropZeroFraction hp hp.exponent, ?_, (value_dropZeroFraction p).trans hvalue⟩
    rw [text_eq, text_eq, hexponent, NumberParts.exponentText, List.append_nil, List.append_nil,
      removeDotZero_fraction (point_notMem hp) hp.fraction]
    rfl
  | some written =>
    obtain ⟨sign, digits⟩ := written
    have hplain : p.text.contains 101 = true := by
      rw [text_eq, hexponent]
      simp [NumberParts.exponentText]
    obtain ⟨htake, hdrop⟩ := split_text hp hexponent
    simp only [hplain, Bool.not_true, Bool.false_eq_true, if_false, htake, hdrop,
      intOfText_text sign (hp.exponent _ hexponent), ← hexponent, Option.bind_eq_bind,
      Option.bind_some] at h
    by_cases hrange : -6 ≤ NumberParts.exponentValue p.exponent ∧
        NumberParts.exponentValue p.exponent < 21
    · -- the number is written out
      obtain ⟨d, hd, hdenotes⟩ := denotes_fixed hp
      rw [if_pos hrange, hd, Option.bind_some, Option.some.injEq] at h
      rw [← h, ← hvalue]
      exact hdenotes
    · -- the exponent is written
      rw [if_neg hrange] at h
      cases h
      generalize he : NumberParts.exponentValue p.exponent = e
      refine ⟨{ p with
        fraction := dropZeroFraction p.fraction
        exponent := some (some (decide (¬ 0 ≤ e)), natText e.natAbs) },
        valid_dropZeroFraction hp fun _ hmem => ?_, ?_, ?_⟩
      · cases hmem
        exact (isNumeral_natText _).1
      · rw [text_eq, removeDotZero_fraction (point_notMem hp) hp.fraction, NumberParts.exponentText]
        by_cases hnonneg : 0 ≤ e <;> simp [hnonneg, NumberParts.signText, signedWhole]
      · rw [← hvalue, ← value_dropZeroFraction p, NumberParts.value, NumberParts.value]
        dsimp only
        rw [exponentValue_written, he]

/-! ## Values are read back -/

/-- A float in a value. -/
inductive HasFloat (x : PyFloat) : Json → Prop
  | float : HasFloat x (.float x)
  | arr {items : List Json} {j : Json} : j ∈ items → HasFloat x j → HasFloat x (.arr items)
  | obj {members : List (Text × Json)} {m : Text × Json} :
      m ∈ members → HasFloat x m.2 → HasFloat x (.obj members)

/-- Sorting brings no float into a value. -/
theorem hasFloat_of_sorted {x : PyFloat} {j : Json} (h : HasFloat x j.sorted) : HasFloat x j := by
  induction j using Json.induct with
  | null | bool | int | float | str => exact h
  | arr items ih =>
    rw [Json.sorted_arr] at h
    cases h with
    | arr hmem h =>
      obtain ⟨j, hj, rfl⟩ := List.mem_map.1 hmem
      exact .arr hj (ih j hj h)
  | obj members ih =>
    rw [Json.sorted_obj] at h
    cases h with
    | obj hmem h =>
      obtain ⟨m, hm, rfl⟩ := List.mem_map.1 ((Json.sortMembers_perm _).mem_iff.1 hmem)
      exact .obj hm (ih m hm h)

/-- `repr` of each finite float in the value denotes the float. -/
def ReprDenotes (writer : JsonWriter) (j : Json) : Prop :=
  ∀ x, HasFloat x j → x.isFinite = true → Denotes (writer.floatText x) x.toRat

/-- The text is read as a value that is equal. -/
def ReadsEqual (t : Text) (j : Json) : Prop := ∃ j', Reads t j' ∧ Json.Equal j j'

/-- A number that stands for the value of a numeral is equal to what is read. -/
theorem readsEqual_number {p : NumberParts} (h : p.Valid) {j : Json}
    (hj : j.scalar false = some (.number p.value)) : ReadsEqual p.text j := by
  refine ⟨p.toJson, Reads.number h, (Json.equalWith_scalar hj).2 ?_⟩
  have hnumber := p.number_toJson
  rw [NumberParts.toJson] at hnumber ⊢
  split_ifs at hnumber ⊢ <;> simp_all [Json.number, Json.scalar]

/-- An integer is read. -/
theorem readsEqual_int (n : ℤ) : ReadsEqual (intText n) (.int n) := by
  have hread (negative : Bool) (n : ℕ) :
      ReadsEqual (NumberParts.text ⟨negative, natText n, none, none⟩)
        (.int (if negative then -n else n)) := by
    refine readsEqual_number (p := ⟨negative, natText n, none, none⟩)
      ⟨isNumeral_natText n, nofun, nofun⟩ ?_
    cases negative <;>
      simp [Json.scalar, NumberParts.value, NumberParts.exponentValue, natValue_natText]
  cases n with
  | ofNat n =>
    have h := hread false n
    rw [text_eq] at h
    simpa [signedWhole, NumberParts.fractionText, NumberParts.exponentText, intText] using h
  | negSucc n =>
    have h := hread true (n + 1)
    rw [text_eq] at h
    simpa [signedWhole, NumberParts.fractionText, NumberParts.exponentText, intText,
      Int.negSucc_eq] using h

/-- The texts of the items of an array are read. -/
theorem goItems_eq_some {writer : JsonWriter} {items : List Json} {texts : List Text} :
    goRender.goItems writer items = some texts ↔
      items.Forall₂ (fun j t => goRender writer j = some t) texts := by
  induction items generalizing texts with
  | nil => cases texts <;> simp [goRender.goItems]
  | cons j items ih =>
    simp only [goRender.goItems, Option.bind_eq_bind, Option.bind_eq_some_iff, Option.some.injEq, ih]
    cases texts with
    | nil => simp
    | cons t texts => simp

/-- The texts of the members of an object are read. -/
theorem goMembers_eq_some {writer : JsonWriter} {members : List (Text × Json)}
    {texts : List Text} :
    goRender.goMembers writer members = some texts ↔
      members.Forall₂ (fun m t => ∃ u, goRender writer m.2 = some u ∧
        goJsonString m.1 ++ 58 :: u = t) texts := by
  induction members generalizing texts with
  | nil => cases texts <;> simp [goRender.goMembers]
  | cons m members ih =>
    obtain ⟨key, j⟩ := m
    simp only [goRender.goMembers, Option.bind_eq_bind, Option.bind_eq_some_iff, Option.some.injEq,
      ih]
    cases texts with
    | nil => simp
    | cons t texts =>
      rw [List.forall₂_cons]
      constructor
      · rintro ⟨u, hu, ts, hts, he⟩
        obtain ⟨rfl, rfl⟩ := List.cons.inj he
        exact ⟨⟨u, hu, rfl⟩, hts⟩
      · rintro ⟨⟨u, hu, rfl⟩, hts⟩
        exact ⟨u, hu, texts, hts, rfl⟩

/-- A value is read back from its text. -/
theorem readsEqual_of_goRender {writer : JsonWriter} {j : Json} {t : Text} (hwf : j.WellFormed)
    (hrepr : ReprDenotes writer j) (h : goRender writer j = some t) : ReadsEqual t j := by
  induction j using Json.induct generalizing t with
  | null =>
    cases h
    exact ⟨.null, ReadsAlone.null.reads, rfl⟩
  | bool b =>
    refine ⟨.bool b, ?_, (Json.equalWith_scalar rfl).2 rfl⟩
    cases b with
    | true =>
      cases h
      exact (ReadsAlone.bool true).reads
    | false =>
      cases h
      exact (ReadsAlone.bool false).reads
  | int n =>
    cases h
    exact readsEqual_int n
  | float x =>
    rw [goRender] at h
    have hfinite : x.isFinite = true := by
      rw [goJsonFloat] at h
      split_ifs at h with hfinite <;> simpa using hfinite
    obtain ⟨p, hp, rfl, hvalue⟩ := denotes_goJsonFloat (hrepr x .float hfinite) h
    exact readsEqual_number hp (by rw [Json.scalar, if_pos hfinite, hvalue])
  | str s =>
    cases h
    rw [goJsonString_eq]
    exact ⟨.str s, (ReadsAlone.str readChar_goEscape s).reads, (Json.equalWith_scalar rfl).2 rfl⟩
  | arr items ih =>
    simp only [goRender, Option.bind_eq_bind, Option.bind_eq_some_iff, Option.some.injEq] at h
    obtain ⟨texts, htexts, rfl⟩ := h
    rw [Json.wellFormed_arr] at hwf
    rw [goItems_eq_some] at htexts
    have hitems : ∃ items', texts.Forall₂ Reads items' ∧
        items.Forall₂ (fun j j' => Json.equalWith false j j' = true) items' := by
      have hrepr' : ∀ j ∈ items, ReprDenotes writer j := fun j hj x hx => hrepr x (.arr hj hx)
      clear hrepr
      induction htexts with
      | nil => exact ⟨[], .nil, .nil⟩
      | cons ht _ ih' =>
        rw [List.forall_mem_cons] at ih hwf hrepr'
        obtain ⟨j', hj', heq⟩ := ih.1 hwf.1 hrepr'.1 ht
        obtain ⟨items', hreads, hequal⟩ := ih' ih.2 hwf.2 hrepr'.2
        exact ⟨j' :: items', .cons hj' hreads, .cons heq hequal⟩
    obtain ⟨items', hreads, hequal⟩ := hitems
    exact ⟨.arr items', Reads.arr hreads, Json.equalWith_arr.2 hequal⟩
  | obj members ih =>
    simp only [goRender, Option.bind_eq_bind, Option.bind_eq_some_iff, Option.some.injEq] at h
    obtain ⟨texts, htexts, rfl⟩ := h
    rw [Json.wellFormed_obj] at hwf
    rw [goMembers_eq_some] at htexts
    have hmembers : ∃ members', texts.Forall₂ ReadsMember members' ∧
        members.Forall₂ (fun m m' => m.1 = m'.1 ∧ Json.Equal m.2 m'.2) members' := by
      have hrepr' : ∀ m ∈ members, ReprDenotes writer m.2 := fun m hm x hx => hrepr x (.obj hm hx)
      have hwf' := hwf.2
      clear hrepr hwf
      induction htexts with
      | nil => exact ⟨[], .nil, .nil⟩
      | @cons m _ _ _ ht _ ih' =>
        rw [List.forall_mem_cons] at ih hwf' hrepr'
        obtain ⟨u, hu, rfl⟩ := ht
        obtain ⟨j', hj', heq⟩ := ih.1 hwf'.1 hrepr'.1 hu
        obtain ⟨members', hreads, hequal⟩ := ih' ih.2 hrepr'.2 hwf'.2
        rw [goJsonString_eq]
        exact ⟨(m.1, j') :: members', .cons (Reads.member readChar_goEscape m.1 hj') hreads,
          .cons ⟨rfl, heq⟩ hequal⟩
    obtain ⟨members', hreads, hequal⟩ := hmembers
    refine ⟨.obj members', Reads.obj hreads, Json.equalWith_obj.2 ⟨hequal.length_eq, fun m hm => ?_⟩⟩
    have hkeys : members.map Prod.fst = members'.map Prod.fst := by
      clear ih hwf htexts hreads hrepr hm
      induction hequal with
      | nil => rfl
      | cons h _ ih => rw [List.map_cons, List.map_cons, h.1, ih]
    obtain ⟨m', hm', hkey, heq⟩ := exists_of_forall₂ hequal hm
    exact ⟨m'.2, hkey ▸ Json.get_of_mem (hkeys ▸ hwf.1) hm', heq⟩

/-! ## Artifacts -/

/-- What the digest of an artifact covers. -/
structure ArtifactContent where
  kind : Text
  name : Text
  «namespace» : Text
  tag : Text
  labels : List (Text × Text)
  spec : List (Text × Json)

namespace ArtifactContent

variable (content : ArtifactContent)

/-- The labels as a JSON object. -/
def labelsJson : Json := .obj (content.labels.map fun label => (label.1, .str label.2))

/-- The keys of the labels and of the specification are distinct. -/
structure WellFormed : Prop where
  labels : content.labelsJson.WellFormed
  spec : (Json.obj content.spec).WellFormed

/-- The canonical payload of `registry_artifact_digest`. -/
def canonical (writer : JsonWriter) : Option Text := do
  some (lit "\x7b" ++ commaJoin [
    lit "\"kind\":" ++ (← goJson writer (.str content.kind)),
    lit "\"name\":" ++ (← goJson writer (.str content.name)),
    lit "\"namespace\":" ++ (← goJson writer (.str content.namespace)),
    lit "\"tag\":" ++ (← goJson writer (.str content.tag)),
    lit "\"labels\":" ++ (← goJson writer content.labelsJson),
    lit "\"spec\":" ++ (← goJson writer (.obj content.spec))] ++ lit "\x7d")

/-- `registry_artifact_digest`, which raises for a content without a canonical
    payload and for one that UTF-8 cannot encode. -/
def digest (hashing : Hashing) : Option Text := do
  some (lit "sha256:" ++ (← hashing.digest (← content.canonical hashing.writer)))

end ArtifactContent

variable {writer : JsonWriter}

/-- A value is read back from its encoding. -/
theorem readsEqual_of_goJson {j : Json} {t : Text} (hwf : j.WellFormed)
    (hrepr : ReprDenotes writer j) (h : goJson writer j = some t) : ReadsEqual t j := by
  rw [goJson] at h
  split_ifs at h
  obtain ⟨j', hreads, hequal⟩ := readsEqual_of_goRender (Json.wellFormed_sorted hwf)
    (fun x hx => hrepr x (hasFloat_of_sorted hx)) h
  exact ⟨j', hreads, Json.equalWith_trans (Json.equalWith_sorted hwf) hequal⟩

/-- What is equal to a text is the text. -/
theorem eq_of_equal_str {s : Text} {j : Json} (h : Json.Equal (.str s) j) : j = .str s :=
  Json.scalar_eq_text.1 ((Json.equalWith_scalar rfl).1 h)

/-- A payload is read as an object with the parts of the content. -/
theorem parseJson_canonical {content : ArtifactContent} {t : Text} (hwf : content.WellFormed)
    (hlabels : ReprDenotes writer content.labelsJson)
    (hspec : ReprDenotes writer (.obj content.spec))
    (h : content.canonical writer = some t) :
    ∃ labels spec, content.labelsJson.Equal labels ∧ (Json.obj content.spec).Equal spec ∧
      parseJson t = some (.obj [(lit "kind", .str content.kind), (lit "name", .str content.name),
        (lit "namespace", .str content.namespace), (lit "tag", .str content.tag),
        (lit "labels", labels), (lit "spec", spec)]) := by
  simp only [ArtifactContent.canonical, Option.bind_eq_bind, Option.bind_eq_some_iff,
    Option.some.injEq] at h
  obtain ⟨kind, hkind, name, hname, space, hspace, tag, htag, labels, hlabels', spec, hspec', rfl⟩ := h
  have hstr {s u : Text} (hu : goJson writer (.str s) = some u) : Reads u (.str s) := by
    have hwf : (Json.str s).WellFormed := trivial
    have hrepr : ReprDenotes writer (.str s) := fun x hx => by cases hx
    obtain ⟨j, hreads, hequal⟩ := readsEqual_of_goJson hwf hrepr hu
    exact eq_of_equal_str hequal ▸ hreads
  obtain ⟨labels', hlabelsReads, hlabelsEqual⟩ := readsEqual_of_goJson hwf.labels hlabels hlabels'
  obtain ⟨spec', hspecReads, hspecEqual⟩ := readsEqual_of_goJson hwf.spec hspec hspec'
  refine ⟨labels', spec', hlabelsEqual, hspecEqual, ?_⟩
  have hmember (key : Text) {u : Text} {j : Json} (hu : Reads u j) :=
    Reads.member readChar_goEscape key hu
  exact (Reads.obj (.cons (hmember (lit "kind") (hstr hkind)) (.cons (hmember (lit "name") (hstr hname))
    (.cons (hmember (lit "namespace") (hstr hspace)) (.cons (hmember (lit "tag") (hstr htag))
      (.cons (hmember (lit "labels") hlabelsReads)
        (.cons (hmember (lit "spec") hspecReads) .nil))))))).parseJson

/-- The encoding of a value is read back as an equal value, and so contents with one
    canonical payload are equal. -/
theorem goJson_faithful :
    (∀ j t, j.WellFormed → ReprDenotes writer j → goJson writer j = some t →
      ∃ j', parseJson t = some j' ∧ j.Equal j') ∧
    ∀ a b : ArtifactContent, ∀ t, a.WellFormed → b.WellFormed →
      ReprDenotes writer (.obj a.spec) → ReprDenotes writer (.obj b.spec) →
      a.canonical writer = some t → b.canonical writer = some t →
      a.kind = b.kind ∧ a.name = b.name ∧ a.namespace = b.namespace ∧ a.tag = b.tag ∧
        a.labelsJson.Equal b.labelsJson ∧ (Json.obj a.spec).Equal (.obj b.spec) := by
  refine ⟨fun j t hwf hrepr h => ?_, fun a b t ha hb hspec hspec' h h' => ?_⟩
  · obtain ⟨j', hreads, hequal⟩ := readsEqual_of_goJson hwf hrepr h
    exact ⟨j', hreads.parseJson, hequal⟩
  · -- labels have no floats
    have hlabels (content : ArtifactContent) : ReprDenotes writer content.labelsJson := by
      intro x hx
      cases hx with
      | obj hmem hx =>
        obtain ⟨label, -, rfl⟩ := List.mem_map.1 hmem
        cases hx
    obtain ⟨labels, spec, hl, hs, hparse⟩ := parseJson_canonical ha (hlabels a) hspec h
    obtain ⟨labels', spec', hl', hs', hparse'⟩ := parseJson_canonical hb (hlabels b) hspec' h'
    have heq := Option.some.inj (hparse.symm.trans hparse')
    simp only [Json.obj.injEq, List.cons.injEq, Prod.mk.injEq, Json.str.injEq, true_and,
      and_true] at heq
    obtain ⟨hkind, hname, hspace, htag, rfl, rfl⟩ := heq
    exact ⟨hkind, hname, hspace, htag, Json.equalWith_trans hl (Json.equalWith_symm hb.labels hl'),
      Json.equalWith_trans hs (Json.equalWith_symm hb.spec hs')⟩

/-- A writer that writes one float as the interpreter does. -/
def tinyWriter : JsonWriter where
  floatText x := if x = .finite (1 / 10000000) then lit "1e-07" else JsonWriter.plain.floatText x
  refuses _ := false
  floatText_inj x y hx hy h := by
    -- the texts of `plain` have no digit in front of the exponent
    have hne (z : PyFloat) : lit "1e-07" ≠ JsonWriter.plain.floatText z := by
      rw [show lit "1e-07" = [49, 101, 45, 48, 55] by decide]
      exact fun h => absurd (List.cons.inj h).1 (by decide)
    split_ifs at h with hx' hy' hy'
    · exact hx'.trans hy'.symm
    · exact absurd h (hne y)
    · exact absurd h.symm (hne x)
    · exact JsonWriter.plain.floatText_inj x y hx hy h
  floatText_chars x hx := by
    split_ifs
    · exact List.all_eq_true.1 (by decide)
    · exact JsonWriter.plain.floatText_chars x hx
  floatText_fractional x hx := by
    split_ifs
    · exact .inr (by decide)
    · exact JsonWriter.plain.floatText_fractional x hx

theorem denotes_tiny : Denotes (lit "1e-07") (1 / 10000000) := by
  refine ⟨⟨false, lit "1", none, some (some true, lit "07")⟩, ?_, by decide +kernel, by decide +kernel⟩
  have hdigits : IsDigits (lit "07") := ⟨by decide, List.all_eq_true.1 (by decide)⟩
  refine ⟨⟨⟨by decide, List.all_eq_true.1 (by decide)⟩, by decide⟩, by simp, fun e he => ?_⟩
  rw [← Option.some.inj he]
  exact hdigits

/-- An object with a float and an array is read back. -/
theorem goJson_faithful_example :
    ∃ j', parseJson (lit "\x7b\"\\u003c\":1e-7,\"a\":[-3,null]\x7d") = some j' ∧
      Json.Equal (.obj [(lit "a", .arr [.int (-3), .null]), ([60], .float (.finite (1 / 10000000)))])
        j' := by
  refine (@goJson_faithful tinyWriter).1 _ _ ?_ ?_ ?_
  · exact ⟨by decide, ⟨trivial, trivial, trivial⟩, trivial, trivial⟩
  · intro x hx _
    cases hx with
    | obj hmem hx =>
      rcases List.mem_pair.1 hmem with rfl | rfl
      · cases hx with
        | arr hmem hx => rcases List.mem_pair.1 hmem with rfl | rfl <;> cases hx
      · cases hx with
        | float =>
          rw [show tinyWriter.floatText (.finite (1 / 10000000)) = lit "1e-07" from if_pos rfl]
          exact denotes_tiny
  · decide +kernel

end Registry

end McpRuntime
