import McpRuntime.Python.Numeral

/-!
# Reading JSON

A JSON parser by recursive descent: white space, literals, numbers of any
precision, strings with their escapes, arrays and objects. The members of an object
are kept in order.

* `Reads t j`: wherever the text `t` stands for a value in a document, the parser
  reads the value `j`.
* `Reads.number`, `ReadsAlone.str`, `Reads.arr`, `Reads.obj`: what is read from the text of
  a number, and from texts put together with the punctuation of JSON.
-/

namespace McpRuntime

/-! ## Strings -/

/-- The value of a hexadecimal digit. -/
def hexNumber (c : CodePoint) : Option ℕ :=
  if c.isDigit then some (c.val - 48)
  else if 97 ≤ c.val ∧ c.val ≤ 102 then some (c.val - 87)
  else if 65 ≤ c.val ∧ c.val ≤ 70 then some (c.val - 55)
  else none

/-- Four hexadecimal digits, and the rest of the text. -/
def readHex : Text → Option (ℕ × Text)
  | a :: b :: c :: d :: rest => do
    some (4096 * (← hexNumber a) + 256 * (← hexNumber b) + 16 * (← hexNumber c) + (← hexNumber d),
      rest)
  | _ => none

/-- The character of `\uXXXX`, after a high surrogate that of both escapes. -/
def readUnicode (t : Text) : Option (CodePoint × Text) := do
  let (high, rest) ← readHex t
  if 0xD800 ≤ high ∧ high ≤ 0xDBFF ∧ (lit "\\u").isPrefixOf rest then
    match readHex (rest.drop 2) with
    | some (low, rest') =>
      if 0xDC00 ≤ low ∧ low ≤ 0xDFFF then
        some (Fin.ofNat 0x110000 (0x10000 + 1024 * (high - 0xD800) + (low - 0xDC00)), rest')
      else some (Fin.ofNat 0x110000 high, rest)
    | none => some (Fin.ofNat 0x110000 high, rest)
  else some (Fin.ofNat 0x110000 high, rest)

/-- The character of an escape, by the character after the backslash. -/
def readEscape (x : CodePoint) (t : Text) : Option (CodePoint × Text) :=
  if x = 117 then readUnicode t
  else if x = 34 ∨ x = 92 ∨ x = 47 then some (x, t)
  else if x = 98 then some (8, t)
  else if x = 102 then some (12, t)
  else if x = 110 then some (10, t)
  else if x = 114 then some (13, t)
  else if x = 116 then some (9, t)
  else none

/-- The first character of a string, and the rest of the text. -/
def readChar : Text → Option (CodePoint × Text)
  | [] => none
  | c :: t =>
    if c.val < 32 ∨ c = 34 then none
    else if c = 92 then
      match t with
      | [] => none
      | x :: t => readEscape x t
    else some (c, t)

/-- The characters of a string up to its quotation mark, and the rest of the text. -/
def parseString (fuel : ℕ) (t : Text) : Option (Text × Text) :=
  if t.head? = some 34 then some ([], t.tail)
  else
    match fuel with
    | 0 => none
    | fuel + 1 => do
      let (c, rest) ← readChar t
      let (s, rest) ← parseString fuel rest
      some (c :: s, rest)

/-- The characters of a text, and the quotation mark after them. -/
theorem quoted_eq_flatMap (t : Text) : quoted t = t.flatMap escapeChar ++ [34] := by
  induction t with
  | nil => rfl
  | cons c t ih => rw [quoted, ih, List.flatMap_cons, List.append_assoc]

/-- The hexadecimal digits of a control character are read. -/
theorem hexNumber_hexDigit : ∀ n < 16, hexNumber (hexDigit n) = some n := by decide

/-- A character is read from its escape in JSON. -/
theorem readChar_escapeChar (c : CodePoint) (t : Text) :
    readChar (escapeChar c ++ t) = some (c, t) ∧ (escapeChar c ++ t).head? ≠ some 34 := by
  have hne : (92 : CodePoint) ≠ 34 := by decide
  rw [escapeChar]
  split_ifs with hself hb ht hn hf hr hlow
  · rw [Bool.or_eq_true, decide_eq_true_iff, decide_eq_true_iff] at hself
    rcases hself with h | h
    · obtain rfl : c = 34 := Fin.ext h
      exact ⟨rfl, fun h => hne (Option.some.inj h)⟩
    · obtain rfl : c = 92 := Fin.ext h
      exact ⟨rfl, fun h => hne (Option.some.inj h)⟩
  · obtain rfl : c = 8 := Fin.ext hb
    exact ⟨rfl, fun h => hne (Option.some.inj h)⟩
  · obtain rfl : c = 9 := Fin.ext ht
    exact ⟨rfl, fun h => hne (Option.some.inj h)⟩
  · obtain rfl : c = 10 := Fin.ext hn
    exact ⟨rfl, fun h => hne (Option.some.inj h)⟩
  · obtain rfl : c = 12 := Fin.ext hf
    exact ⟨rfl, fun h => hne (Option.some.inj h)⟩
  · obtain rfl : c = 13 := Fin.ext hr
    exact ⟨rfl, fun h => hne (Option.some.inj h)⟩
  · have hhigh : hexNumber (hexDigit (c.val / 16)) = some (c.val / 16) :=
      hexNumber_hexDigit _ (by omega)
    have hmod : hexNumber (hexDigit (c.val % 16)) = some (c.val % 16) :=
      hexNumber_hexDigit _ (by omega)
    have hzero : hexNumber 48 = some 0 := rfl
    have hvalue : 4096 * 0 + 256 * 0 + 16 * (c.val / 16) + c.val % 16 = c.val := by omega
    have hc : Fin.ofNat 0x110000 c.val = c := Fin.ext (Nat.mod_eq_of_lt c.isLt)
    have hhex : readHex (48 :: 48 :: hexDigit (c.val / 16) :: hexDigit (c.val % 16) :: t) =
        some (c.val, t) := by
      simp only [readHex, hzero, hhigh, hmod, Option.bind_eq_bind, Option.bind_some, hvalue]
    refine ⟨?_, fun h => hne (Option.some.inj h)⟩
    change readUnicode (48 :: 48 :: hexDigit (c.val / 16) :: hexDigit (c.val % 16) :: t) = _
    simp only [readUnicode, hhex, Option.bind_eq_bind, Option.bind_some]
    rw [if_neg (by omega), hc]
  · rw [Bool.or_eq_true, decide_eq_true_iff, decide_eq_true_iff, not_or] at hself
    have hquote : c ≠ 34 := fun h => hself.1 (congrArg Fin.val h)
    have hslash : c ≠ 92 := fun h => hself.2 (congrArg Fin.val h)
    refine ⟨?_, fun h => hquote (Option.some.inj h)⟩
    rw [List.singleton_append, readChar.eq_def]
    exact (if_neg (not_or.2 ⟨hlow, hquote⟩)).trans (if_neg hslash)

/-! ## Values -/

/-- The white space of JSON. -/
def isJsonSpace (c : CodePoint) : Bool := c = 32 || c = 9 || c = 10 || c = 13

/-- The text after the white space at its beginning. -/
def skipSpace (t : Text) : Text := t.dropWhile isJsonSpace

/-- A literal or a number, and the rest of the text. -/
def parseScalar (t : Text) : Option (Json × Text) :=
  if (lit "null").isPrefixOf t then some (.null, t.drop 4)
  else if (lit "true").isPrefixOf t then some (.bool true, t.drop 4)
  else if (lit "false").isPrefixOf t then some (.bool false, t.drop 5)
  else (parseNumber t).map fun (p, rest) => (p.toJson, rest)

mutual

/-- A value, and the rest of the text. -/
def parseValue : ℕ → Text → Option (Json × Text)
  | 0, _ => none
  | fuel + 1, t =>
    let t := skipSpace t
    if t.head? = some 34 then
      (parseString t.length t.tail).map fun (s, rest) => (.str s, rest)
    else if t.head? = some 91 then
      if (skipSpace t.tail).head? = some 93 then some (.arr [], (skipSpace t.tail).tail)
      else do
        let (j, rest) ← parseValue fuel t.tail
        let (items, rest) ← parseItems fuel rest
        some (.arr (j :: items), rest)
    else if t.head? = some 123 then
      if (skipSpace t.tail).head? = some 125 then some (.obj [], (skipSpace t.tail).tail)
      else do
        let (m, rest) ← parseMember fuel t.tail
        let (members, rest) ← parseMembers fuel rest
        some (.obj (m :: members), rest)
    else parseScalar t

/-- The items that are left of an array, and the rest of the text. -/
def parseItems : ℕ → Text → Option (List Json × Text)
  | 0, _ => none
  | fuel + 1, t =>
    let t := skipSpace t
    if t.head? = some 93 then some ([], t.tail)
    else if t.head? = some 44 then do
      let (j, rest) ← parseValue fuel t.tail
      let (items, rest) ← parseItems fuel rest
      some (j :: items, rest)
    else none

/-- A key with its value, and the rest of the text. -/
def parseMember : ℕ → Text → Option ((Text × Json) × Text)
  | 0, _ => none
  | fuel + 1, t =>
    let t := skipSpace t
    if t.head? = some 34 then do
      let (key, rest) ← parseString t.length t.tail
      let rest := skipSpace rest
      if rest.head? = some 58 then do
        let (j, rest) ← parseValue fuel rest.tail
        some ((key, j), rest)
      else none
    else none

/-- The members that are left of an object, and the rest of the text. -/
def parseMembers : ℕ → Text → Option (List (Text × Json) × Text)
  | 0, _ => none
  | fuel + 1, t =>
    let t := skipSpace t
    if t.head? = some 125 then some ([], t.tail)
    else if t.head? = some 44 then do
      let (m, rest) ← parseMember fuel t.tail
      let (members, rest) ← parseMembers fuel rest
      some (m :: members, rest)
    else none

end

/-- The value of a document. -/
def parseJson (t : Text) : Option Json :=
  match parseValue t.length t with
  | some (j, rest) => if (skipSpace rest).isEmpty then some j else none
  | none => none

/-- A value with an object in an array is read. -/
example : (parseJson (lit " [1e2, \x7b\"a\": null\x7d]")).isSome = true := by decide +kernel

/-! ## Reading back -/

/-- A text that begins with neither white space nor a closing bracket. -/
def Starts (t : Text) : Prop := ∃ c u, t = c :: u ∧ isJsonSpace c = false ∧ c ≠ 93

/-- Wherever the text stands for a value, the value is read. -/
structure Reads (t : Text) (j : Json) : Prop where
  starts : Starts t
  parse : ∀ fuel rest, Ends rest → t.length ≤ fuel → parseValue fuel (t ++ rest) = some (j, rest)

/-- The text stands for a value whatever follows it. -/
structure ReadsAlone (t : Text) (j : Json) : Prop where
  starts : Starts t
  parse : ∀ fuel rest, t.length ≤ fuel → parseValue fuel (t ++ rest) = some (j, rest)

theorem ReadsAlone.reads {t : Text} {j : Json} (h : ReadsAlone t j) : Reads t j :=
  ⟨h.starts, fun fuel rest _ => h.parse fuel rest⟩

/-- Wherever the text stands for a member, the member is read. -/
structure ReadsMember (t : Text) (m : Text × Json) : Prop where
  starts : Starts t ∧ t.head? = some 34
  parse : ∀ fuel rest, Ends rest → t.length ≤ fuel → parseMember fuel (t ++ rest) = some (m, rest)

/-- A text without white space in front is left as it is. -/
theorem skipSpace_of_starts {t : Text} (h : Starts t) (rest : Text) :
    skipSpace (t ++ rest) = t ++ rest := by
  obtain ⟨c, u, rfl, hspace, -⟩ := h
  exact List.dropWhile_cons_of_neg (by simp [hspace])

/-- Texts with a comma before each. -/
def commaTexts (texts : List Text) : Text := texts.flatMap fun t => 44 :: t

/-- `",".join(texts)`. -/
def commaJoin : List Text → Text
  | [] => []
  | t :: texts => t ++ commaTexts texts

/-- What is left of an array ends an item. -/
theorem ends_commaTexts (texts : List Text) {c : CodePoint} (hc : c = 93 ∨ c = 125) (rest : Text) :
    Ends (commaTexts texts ++ c :: rest) := by
  cases texts with
  | nil =>
    rintro d ⟨⟩
    exact .inr hc
  | cons t texts =>
    rintro d ⟨⟩
    exact .inl rfl

/-- A text that ends a value is not skipped. -/
theorem skipSpace_of_ends {t : Text} (h : Ends t) : skipSpace t = t := by
  cases t with
  | nil => rfl
  | cons c t =>
    refine List.dropWhile_cons_of_neg ?_
    rcases h c rfl with rfl | rfl | rfl <;> decide

/-- A value that is no string and no container is read as a scalar. -/
theorem parseValue_scalar {fuel : ℕ} {t rest : Text} (ht : Starts t)
    (hhead : t.head? ≠ some 34 ∧ t.head? ≠ some 91 ∧ t.head? ≠ some 123) :
    parseValue (fuel + 1) (t ++ rest) = parseScalar (t ++ rest) := by
  rw [parseValue, skipSpace_of_starts ht]
  obtain ⟨c, u, rfl, -, -⟩ := ht
  exact (if_neg hhead.1).trans ((if_neg hhead.2.1).trans (if_neg hhead.2.2))

/-- The parser needs fuel for a text that is not empty. -/
theorem exists_succ_of_starts {t : Text} (h : Starts t) {fuel : ℕ} (hfuel : t.length ≤ fuel) :
    ∃ n, fuel = n + 1 := by
  obtain ⟨c, u, rfl, -⟩ := h
  exact Nat.exists_eq_succ_of_ne_zero (Nat.ne_of_gt (Nat.lt_of_lt_of_le (Nat.succ_pos _) hfuel))

/-- A string is read when each character is read from its escape. -/
theorem parseString_flatMap {escape : CodePoint → Text}
    (h : ∀ c t, readChar (escape c ++ t) = some (c, t) ∧ (escape c ++ t).head? ≠ some 34)
    {s : Text} {fuel : ℕ} (hfuel : s.length ≤ fuel) (rest : Text) :
    parseString fuel (s.flatMap escape ++ 34 :: rest) = some (s, rest) := by
  induction s generalizing fuel with
  | nil =>
    rw [parseString.eq_def]
    rfl
  | cons c s ih =>
    obtain ⟨n, rfl⟩ := Nat.exists_eq_succ_of_ne_zero (Nat.ne_of_gt (Nat.lt_of_lt_of_le
      (Nat.succ_pos _) hfuel))
    obtain ⟨hread, hhead⟩ := h c (s.flatMap escape ++ 34 :: rest)
    rw [List.flatMap_cons, List.append_assoc, parseString, if_neg hhead]
    simp only [hread, Option.bind_eq_bind, Option.bind_some, ih (Nat.le_of_succ_le_succ hfuel)]

/-- The escapes of a text are no shorter than the text. -/
theorem length_le_flatMap {escape : CodePoint → Text}
    (h : ∀ c t, readChar (escape c ++ t) = some (c, t) ∧ (escape c ++ t).head? ≠ some 34) (s : Text) :
    s.length ≤ (s.flatMap escape).length := by
  induction s with
  | nil => exact Nat.le_refl 0
  | cons c s ih =>
    have hne : escape c ≠ [] := fun hempty => by
      have hread := (h c []).1
      rw [hempty] at hread
      cases hread
    have hpos := List.length_pos_of_ne_nil hne
    rw [List.flatMap_cons, List.length_append, List.length_cons]
    omega

namespace ReadsAlone

theorem null : ReadsAlone (lit "null") .null := by
  have hstarts : Starts (lit "null") := ⟨110, lit "ull", rfl, rfl, by decide⟩
  refine ⟨hstarts, fun fuel rest hfuel => ?_⟩
  obtain ⟨n, rfl⟩ := exists_succ_of_starts hstarts hfuel
  exact parseValue_scalar hstarts (by decide)

theorem bool : ∀ b : Bool, ReadsAlone (if b then lit "true" else lit "false") (.bool b)
  | true => by
    have hstarts : Starts (lit "true") := ⟨116, lit "rue", rfl, rfl, by decide⟩
    refine ⟨hstarts, fun fuel rest hfuel => ?_⟩
    obtain ⟨n, rfl⟩ := exists_succ_of_starts hstarts hfuel
    exact parseValue_scalar hstarts (by decide)
  | false => by
    have hstarts : Starts (lit "false") := ⟨102, lit "alse", rfl, rfl, by decide⟩
    refine ⟨hstarts, fun fuel rest hfuel => ?_⟩
    obtain ⟨n, rfl⟩ := exists_succ_of_starts hstarts hfuel
    exact parseValue_scalar hstarts (by decide)

/-- A string is read when each character is read from its escape. -/
theorem str {escape : CodePoint → Text}
    (h : ∀ c t, readChar (escape c ++ t) = some (c, t) ∧ (escape c ++ t).head? ≠ some 34)
    (s : Text) : ReadsAlone (34 :: (s.flatMap escape ++ [34])) (.str s) := by
  have hstarts : Starts (34 :: (s.flatMap escape ++ [34])) := ⟨34, _, rfl, rfl, by decide⟩
  refine ⟨hstarts, fun fuel rest hfuel => ?_⟩
  obtain ⟨n, rfl⟩ := exists_succ_of_starts hstarts hfuel
  rw [parseValue, skipSpace_of_starts hstarts]
  refine (if_pos rfl).trans ?_
  rw [List.cons_append, List.tail_cons, List.append_assoc, List.singleton_append,
    parseString_flatMap h]
  · rfl
  · have := length_le_flatMap h s
    rw [List.length_cons, List.length_append]
    omega

theorem arr_nil : ReadsAlone (lit "[]") (.arr []) := by
  have hstarts : Starts (lit "[]") := ⟨91, lit "]", rfl, rfl, by decide⟩
  refine ⟨hstarts, fun fuel rest hfuel => ?_⟩
  obtain ⟨n, rfl⟩ := exists_succ_of_starts hstarts hfuel
  rw [parseValue, skipSpace_of_starts hstarts]
  rfl

theorem obj_nil : ReadsAlone (lit "\x7b\x7d") (.obj []) := by
  have hstarts : Starts (lit "\x7b\x7d") := ⟨123, lit "\x7d", rfl, rfl, by decide⟩
  refine ⟨hstarts, fun fuel rest hfuel => ?_⟩
  obtain ⟨n, rfl⟩ := exists_succ_of_starts hstarts hfuel
  rw [parseValue, skipSpace_of_starts hstarts]
  rfl

end ReadsAlone

namespace Reads

/-- A number is read. -/
theorem number {p : NumberParts} (h : p.Valid) : Reads p.text p.toJson := by
  -- a number begins with its sign or with a digit
  have hhead : ∃ c u, p.text = c :: u ∧ (c = 45 ∨ c.isDigit = true) := by
    obtain ⟨d, ds, hds⟩ := List.exists_cons_of_ne_nil h.whole.1.1
    rw [NumberParts.text, hds]
    cases p.negative with
    | true => exact ⟨45, _, rfl, .inl rfl⟩
    | false => exact ⟨d, _, rfl, .inr (h.whole.1.2 d (hds ▸ List.mem_cons_self))⟩
  obtain ⟨c, u, htext, hc⟩ := hhead
  have hne {d : CodePoint} (hd : d ≠ 45) (hdigit : d.isDigit = false) : c ≠ d := by
    rintro rfl
    exact hc.elim hd fun h => Bool.false_ne_true (hdigit.symm.trans h)
  have hspace : isJsonSpace c = false := by
    have hnot (d : CodePoint) (hd : d ≠ 45) (hdigit : d.isDigit = false) : (c = d : Bool) = false :=
      decide_eq_false (hne hd hdigit)
    rw [isJsonSpace, hnot 32 (by decide) rfl, hnot 9 (by decide) rfl, hnot 10 (by decide) rfl,
      hnot 13 (by decide) rfl]
    rfl
  have hstarts : Starts p.text := ⟨c, u, htext, hspace, hne (by decide) rfl⟩
  refine ⟨hstarts, fun fuel rest hrest hfuel => ?_⟩
  obtain ⟨n, rfl⟩ := exists_succ_of_starts hstarts hfuel
  rw [parseValue_scalar hstarts]
  · have hliteral {d : CodePoint} (v : Text) (hd : d ≠ 45) (hdigit : d.isDigit = false) :
        (d :: v).isPrefixOf (p.text ++ rest) = false := by
      rw [htext, List.cons_append, List.isPrefixOf, beq_false_of_ne (hne hd hdigit).symm]
      rfl
    rw [parseScalar, show lit "null" = 110 :: lit "ull" from rfl, hliteral _ (by decide) rfl,
      show lit "true" = 116 :: lit "rue" from rfl, hliteral _ (by decide) rfl,
      show lit "false" = 102 :: lit "alse" from rfl, hliteral _ (by decide) rfl,
      parseNumber_text h hrest]
    rfl
  · rw [htext]
    refine ⟨fun he => ?_, fun he => ?_, fun he => ?_⟩ <;>
      exact hne (by decide) (by rfl) (Option.some.inj he)

/-- The items that are left of an array are read. -/
theorem items {texts : List Text} {items : List Json} (h : texts.Forall₂ Reads items) {fuel : ℕ}
    (rest : Text) (hfuel : (commaTexts texts).length < fuel) :
    parseItems fuel (commaTexts texts ++ 93 :: rest) = some (items, rest) := by
  induction h generalizing fuel with
  | nil =>
    obtain ⟨n, rfl⟩ := Nat.exists_eq_succ_of_ne_zero (Nat.ne_of_gt (Nat.zero_lt_of_lt hfuel))
    rw [parseItems]
    rfl
  | @cons t j texts items ht _ ih =>
    obtain ⟨n, rfl⟩ := Nat.exists_eq_succ_of_ne_zero (Nat.ne_of_gt (Nat.zero_lt_of_lt hfuel))
    have hcomma : commaTexts (t :: texts) = 44 :: (t ++ commaTexts texts) := rfl
    have hends := ends_commaTexts (t :: texts) (.inl rfl : (93 : CodePoint) = 93 ∨ _) rest
    rw [hcomma, List.length_cons, List.length_append] at hfuel
    rw [parseItems, skipSpace_of_ends hends, hcomma, List.cons_append, List.append_assoc]
    refine (if_neg (by exact nofun)).trans ((if_pos rfl).trans ?_)
    rw [List.tail_cons, ht.parse n _ (ends_commaTexts texts (.inl rfl) rest) (by omega)]
    simp only [Option.bind_eq_bind, Option.bind_some, ih (show _ < n by omega)]

/-- An array is read when its items are. -/
theorem arr {texts : List Text} {items : List Json} (h : texts.Forall₂ Reads items) :
    Reads (91 :: (commaJoin texts ++ [93])) (.arr items) := by
  cases h with
  | nil => exact ReadsAlone.arr_nil.reads
  | @cons t j texts items ht hrest =>
    have hstarts : Starts (91 :: (commaJoin (t :: texts) ++ [93])) := ⟨91, _, rfl, rfl, by decide⟩
    refine ⟨hstarts, fun fuel rest _ hfuel => ?_⟩
    obtain ⟨n, rfl⟩ := exists_succ_of_starts hstarts hfuel
    rw [commaJoin, List.length_cons, List.length_append, List.length_append,
      List.length_singleton] at hfuel
    rw [parseValue, skipSpace_of_starts hstarts]
    refine (if_neg (by exact nofun)).trans ((if_pos rfl).trans ?_)
    rw [commaJoin, List.cons_append, List.tail_cons, List.append_assoc, List.append_assoc,
      List.singleton_append, skipSpace_of_starts ht.starts]
    obtain ⟨c, u, htext, -, hc⟩ := ht.starts
    have hclose : (t ++ (commaTexts texts ++ 93 :: rest)).head? ≠ some 93 := by
      rw [htext]
      exact fun he => hc (Option.some.inj he)
    rw [if_neg hclose, ht.parse n _ (ends_commaTexts texts (.inl rfl) rest) (by omega)]
    have hpos : 0 < t.length := by rw [htext]; exact Nat.succ_pos _
    simp only [Option.bind_eq_bind, Option.bind_some, Reads.items hrest rest (show _ < n by omega)]

/-- The members that are left of an object are read. -/
theorem members {texts : List Text} {members : List (Text × Json)}
    (h : texts.Forall₂ ReadsMember members) {fuel : ℕ} (rest : Text)
    (hfuel : (commaTexts texts).length < fuel) :
    parseMembers fuel (commaTexts texts ++ 125 :: rest) = some (members, rest) := by
  induction h generalizing fuel with
  | nil =>
    obtain ⟨n, rfl⟩ := Nat.exists_eq_succ_of_ne_zero (Nat.ne_of_gt (Nat.zero_lt_of_lt hfuel))
    rw [parseMembers]
    rfl
  | @cons t m texts members ht _ ih =>
    obtain ⟨n, rfl⟩ := Nat.exists_eq_succ_of_ne_zero (Nat.ne_of_gt (Nat.zero_lt_of_lt hfuel))
    have hcomma : commaTexts (t :: texts) = 44 :: (t ++ commaTexts texts) := rfl
    have hends := ends_commaTexts (t :: texts) (.inr rfl : (125 : CodePoint) = 93 ∨ _) rest
    rw [hcomma, List.length_cons, List.length_append] at hfuel
    rw [parseMembers, skipSpace_of_ends hends, hcomma, List.cons_append, List.append_assoc]
    refine (if_neg (by exact nofun)).trans ((if_pos rfl).trans ?_)
    rw [List.tail_cons, ht.parse n _ (ends_commaTexts texts (.inr rfl) rest) (by omega)]
    simp only [Option.bind_eq_bind, Option.bind_some, ih (show _ < n by omega)]

/-- An object is read when its members are. -/
theorem obj {texts : List Text} {members : List (Text × Json)}
    (h : texts.Forall₂ ReadsMember members) :
    Reads (123 :: (commaJoin texts ++ [125])) (.obj members) := by
  cases h with
  | nil => exact ReadsAlone.obj_nil.reads
  | @cons t m texts members ht hrest =>
    have hstarts : Starts (123 :: (commaJoin (t :: texts) ++ [125])) :=
      ⟨123, _, rfl, rfl, by decide⟩
    refine ⟨hstarts, fun fuel rest _ hfuel => ?_⟩
    obtain ⟨n, rfl⟩ := exists_succ_of_starts hstarts hfuel
    rw [commaJoin, List.length_cons, List.length_append, List.length_append,
      List.length_singleton] at hfuel
    rw [parseValue, skipSpace_of_starts hstarts]
    refine (if_neg (by exact nofun)).trans ((if_neg (by exact nofun)).trans ((if_pos rfl).trans ?_))
    rw [commaJoin, List.cons_append, List.tail_cons, List.append_assoc, List.append_assoc,
      List.singleton_append, skipSpace_of_starts ht.starts.1]
    obtain ⟨⟨c, u, htext, -, -⟩, hquote⟩ := ht.starts
    have hclose : (t ++ (commaTexts texts ++ 125 :: rest)).head? ≠ some 125 := by
      rw [htext] at hquote ⊢
      exact fun he => absurd (hquote.symm.trans he) (by decide)
    rw [if_neg hclose, ht.parse n _ (ends_commaTexts texts (.inr rfl) rest) (by omega)]
    have hpos : 0 < t.length := by rw [htext]; exact Nat.succ_pos _
    simp only [Option.bind_eq_bind, Option.bind_some, Reads.members hrest rest (show _ < n by omega)]

/-- A member is read when the characters of its key are, and its value is. -/
theorem member {escape : CodePoint → Text}
    (h : ∀ c t, readChar (escape c ++ t) = some (c, t) ∧ (escape c ++ t).head? ≠ some 34)
    (key : Text) {t : Text} {j : Json} (ht : Reads t j) :
    ReadsMember (34 :: (key.flatMap escape ++ [34]) ++ 58 :: t) (key, j) := by
  have hstarts : Starts (34 :: (key.flatMap escape ++ [34]) ++ 58 :: t) :=
    ⟨34, _, rfl, rfl, by decide⟩
  refine ⟨⟨hstarts, rfl⟩, fun fuel rest hrest hfuel => ?_⟩
  obtain ⟨n, rfl⟩ := exists_succ_of_starts hstarts hfuel
  rw [parseMember, skipSpace_of_starts hstarts]
  refine (if_pos rfl).trans ?_
  rw [List.length_append, List.length_cons, List.length_cons] at hfuel
  rw [List.cons_append, List.cons_append, List.tail_cons, List.append_assoc, List.append_assoc,
    List.singleton_append, List.cons_append, parseString_flatMap h]
  · have hcolon : skipSpace (58 :: (t ++ rest)) = 58 :: (t ++ rest) :=
      List.dropWhile_cons_of_neg (by decide)
    simp only [Option.bind_eq_bind, Option.bind_some, hcolon, List.head?_cons, if_true,
      List.tail_cons, ht.parse n rest hrest (by omega)]
  · have := length_le_flatMap h key
    rw [List.length_cons, List.length_append]
    omega

/-- A document that is the text of a value is read. -/
theorem parseJson {t : Text} {j : Json} (h : Reads t j) : McpRuntime.parseJson t = some j := by
  have hparse := h.parse t.length [] nofun le_rfl
  rw [List.append_nil] at hparse
  rw [McpRuntime.parseJson, hparse]
  rfl

end Reads

end McpRuntime
