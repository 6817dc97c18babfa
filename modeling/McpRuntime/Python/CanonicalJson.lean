import McpRuntime.Python.Json
import Mathlib.Data.List.Lex
import Mathlib.Data.List.Sort
import Mathlib.Data.Rat.Encodable
import Mathlib.Tactic.IntervalCases

/-!
# Canonical JSON

The text of a JSON value with the members of its objects in the order of their
keys: `json.dumps` with `sort_keys=True`, `ensure_ascii=False`,
`allow_nan=False` and the separators `","` and `":"`. The text of a float and
the values that the interpreter refuses (nested too deeply, an integer with too
many digits) are given by a `JsonWriter`.

* `Json.Same`: two values are equal up to the order of the members of objects.
* `JsonWriter.render_append_inj`: what follows the text of a value in a document
  can be told from it, so the text determines the value.
* `JsonWriter.same_of_dumps`: values with the same canonical text are equal up
  to the order of members.
-/

namespace McpRuntime

namespace Json

/-! ## Sorted members -/

/-- The members in the order of their keys. -/
def sortMembers (members : List (Text × Json)) : List (Text × Json) :=
  members.insertionSort fun m m' => m.1 ≤ m'.1

/-- The value with the members of every object in the order of their keys. -/
def sorted : Json → Json
  | arr items => arr (sortedItems items)
  | obj members => obj (sortMembers (sortedMembers members))
  | null => null
  | bool b => bool b
  | int n => int n
  | float x => float x
  | str t => str t
where
  sortedItems : List Json → List Json
    | [] => []
    | j :: items => j.sorted :: sortedItems items
  sortedMembers : List (Text × Json) → List (Text × Json)
    | [] => []
    | (key, j) :: members => (key, j.sorted) :: sortedMembers members

/-- Equal as JSON: equal up to the order of the members of objects. -/
def Same (a b : Json) : Prop := a.sorted = b.sorted

/-- No float in the value is an infinity or `nan`. -/
def allFinite : Json → Bool
  | float x => x.isFinite
  | arr items => itemsFinite items
  | obj members => membersFinite members
  | _ => true
where
  itemsFinite : List Json → Bool
    | [] => true
    | j :: items => j.allFinite && itemsFinite items
  membersFinite : List (Text × Json) → Bool
    | [] => true
    | (_, j) :: members => j.allFinite && membersFinite members

/-- The items of a sorted array are sorted. -/
@[simp] theorem sorted_arr (items : List Json) : (arr items).sorted = arr (items.map sorted) := by
  rw [sorted]
  congr 1
  induction items with
  | nil => rfl
  | cons j items ih => rw [sorted.sortedItems, ih, List.map_cons]

/-- The members of a sorted object are sorted, and so are their values. -/
@[simp] theorem sorted_obj (members : List (Text × Json)) :
    (obj members).sorted = obj (sortMembers (members.map fun m => (m.1, m.2.sorted))) := by
  rw [sorted]
  congr 2
  induction members with
  | nil => rfl
  | cons m members ih => rw [sorted.sortedMembers, ih, List.map_cons]

/-- Sorting keeps the members. -/
theorem sortMembers_perm (members : List (Text × Json)) : (sortMembers members).Perm members :=
  List.perm_insertionSort _ _

/-- An array is finite when its items are. -/
theorem allFinite_arr {items : List Json} :
    (arr items).allFinite ↔ ∀ j ∈ items, j.allFinite := by
  rw [allFinite]
  induction items with
  | nil => simp [allFinite.itemsFinite]
  | cons j items ih => rw [allFinite.itemsFinite, Bool.and_eq_true, ih, List.forall_mem_cons]

/-- An object is finite when its members are. -/
theorem allFinite_obj {members : List (Text × Json)} :
    (obj members).allFinite ↔ ∀ m ∈ members, m.2.allFinite := by
  rw [allFinite]
  induction members with
  | nil => simp [allFinite.membersFinite]
  | cons m members ih => rw [allFinite.membersFinite, Bool.and_eq_true, ih, List.forall_mem_cons]

/-- Sorting keeps the floats. -/
theorem allFinite_sorted {j : Json} (h : j.allFinite) : j.sorted.allFinite := by
  induction j using Json.induct with
  | null | bool | int | float | str => exact h
  | arr items ih =>
    rw [allFinite_arr] at h
    rw [sorted_arr, allFinite_arr, List.forall_mem_map]
    exact fun j hj => ih j hj (h j hj)
  | obj members ih =>
    rw [allFinite_obj] at h
    rw [sorted_obj, allFinite_obj]
    intro m hm
    obtain ⟨m', hm', rfl⟩ := List.mem_map.1 ((sortMembers_perm _).mem_iff.1 hm)
    exact ih m' hm' (h m' hm')

end Json

/-! ## Texts of numbers and strings -/

/-- The characters in the text of a number. -/
def isNumberChar (c : CodePoint) : Bool :=
  (48 ≤ c.val && c.val ≤ 57) || (lit "+-.e").contains c

/-- The text of a natural number. -/
def natText (n : ℕ) : Text := (Nat.toDigits 10 n).map fun c => Fin.ofNat 0x110000 c.toNat

/-- `int.__repr__`. -/
def intText : ℤ → Text
  | .ofNat n => natText n
  | .negSucc n => 45 :: natText (n + 1)

/-- The digit of `\u00xx`. -/
def hexDigit (n : ℕ) : CodePoint := Fin.ofNat 0x110000 (if n < 10 then 48 + n else 87 + n)

/-- `ESCAPE_DCT`: a quotation mark, a backslash and the characters below the
    space are escaped. -/
def escapeChar (c : CodePoint) : Text :=
  if c.val = 34 || c.val = 92 then [92, c]
  else if c.val = 8 then lit "\\b"
  else if c.val = 9 then lit "\\t"
  else if c.val = 10 then lit "\\n"
  else if c.val = 12 then lit "\\f"
  else if c.val = 13 then lit "\\r"
  else if c.val < 32 then [92, 117, 48, 48, hexDigit (c.val / 16), hexDigit (c.val % 16)]
  else [c]

/-- The characters of a text, and the quotation mark after them. -/
def quoted : Text → Text
  | [] => [34]
  | c :: t => escapeChar c ++ quoted t

/-- A character is a code point. -/
theorem toNat_lt (c : Char) : c.toNat < 0x110000 := by
  rcases c.valid with h | h
  · exact h.trans (by decide)
  · exact h.2

/-- A digit of a natural number is one of the ten digits. -/
theorem natText_digit {n : ℕ} {c : CodePoint} (hc : c ∈ natText n) : 48 ≤ c.val ∧ c.val ≤ 57 := by
  obtain ⟨d, hd, rfl⟩ := List.mem_map.1 hc
  have hdigit := Nat.isDigit_of_mem_toDigits (by decide) (by decide) hd
  rw [Char.isDigit_iff_toNat] at hdigit
  rw [Fin.val_ofNat, Nat.mod_eq_of_lt (toNat_lt d)]
  exact hdigit

/-- A number can be told from its digits. -/
theorem natText_inj {m n : ℕ} (h : natText m = natText n) : m = n := by
  have hdigits : Nat.toDigits 10 m = Nat.toDigits 10 n := by
    refine List.map_injective_iff.2 (fun c d hcd => ?_) h
    have hval := congrArg Fin.val hcd
    rw [Fin.val_ofNat, Fin.val_ofNat, Nat.mod_eq_of_lt (toNat_lt c),
      Nat.mod_eq_of_lt (toNat_lt d)] at hval
    exact Char.toNat_inj.1 hval
  rw [← Nat.ofDigitChars_ten_toDigits (n := m), hdigits, Nat.ofDigitChars_ten_toDigits]

/-- The characters of an integer are digits, after the sign. -/
theorem intText_chars {n : ℤ} {c : CodePoint} (hc : c ∈ intText n) :
    c = 45 ∨ (48 ≤ c.val ∧ c.val ≤ 57) := by
  cases n with
  | ofNat n => exact .inr (natText_digit hc)
  | negSucc n => exact (List.mem_cons.1 hc).imp_right natText_digit

/-- An integer can be told from its text. -/
theorem intText_inj {m n : ℤ} (h : intText m = intText n) : m = n := by
  have hsign {k : ℕ} {t : Text} (h : natText k = 45 :: t) : False := by
    have := natText_digit (n := k) (c := 45) (by rw [h]; exact List.mem_cons_self)
    revert this
    decide
  cases m with
  | ofNat m =>
    cases n with
    | ofNat n => rw [natText_inj h]
    | negSucc n => exact (hsign h).elim
  | negSucc m =>
    cases n with
    | ofNat n => exact (hsign h.symm).elim
    | negSucc n => rw [Nat.succ_injective (natText_inj (List.cons.inj h).2)]

/-- The value of a digit of `\u00xx`. -/
def hexValue (c : CodePoint) : ℕ := if c.val < 58 then c.val - 48 else c.val - 87

/-- The first character of an escaped text and what follows it, unless the text
    ends there. -/
def unescape : Text → Option (CodePoint × Text)
  | [] => none
  | c :: t =>
    if c.val = 34 then none
    else if c.val = 92 then
      match t with
      | [] => none
      | x :: t =>
        if x.val = 117 then
          match t with
          | _ :: _ :: a :: b :: t => some (Fin.ofNat 0x110000 (16 * hexValue a + hexValue b), t)
          | _ => none
        else if x.val = 98 then some (8, t)
        else if x.val = 116 then some (9, t)
        else if x.val = 110 then some (10, t)
        else if x.val = 102 then some (12, t)
        else if x.val = 114 then some (13, t)
        else some (x, t)
    else some (c, t)

/-- The two digits of a control character are read back. -/
theorem hexValue_hexDigit : ∀ n < 32,
    16 * hexValue (hexDigit (n / 16)) + hexValue (hexDigit (n % 16)) = n := by decide

/-- An escaped character is read back. -/
theorem unescape_escapeChar (c : CodePoint) (t : Text) :
    unescape (escapeChar c ++ t) = some (c, t) := by
  rw [escapeChar]
  split_ifs with hself hb ht hn hf hr hlow
  · rw [Bool.or_eq_true, decide_eq_true_iff, decide_eq_true_iff] at hself
    rcases hself with h | h
    · obtain rfl : c = 34 := Fin.ext h
      rfl
    · obtain rfl : c = 92 := Fin.ext h
      rfl
  · obtain rfl : c = 8 := Fin.ext hb
    rfl
  · obtain rfl : c = 9 := Fin.ext ht
    rfl
  · obtain rfl : c = 10 := Fin.ext hn
    rfl
  · obtain rfl : c = 12 := Fin.ext hf
    rfl
  · obtain rfl : c = 13 := Fin.ext hr
    rfl
  · have hc : Fin.ofNat 0x110000 c.val = c := Fin.ext (Nat.mod_eq_of_lt c.isLt)
    simp only [unescape, List.cons_append, List.nil_append]
    rw [if_neg (by decide), if_pos (by decide), if_pos (by decide), hexValue_hexDigit _ hlow, hc]
  · rw [Bool.or_eq_true, decide_eq_true_iff, decide_eq_true_iff, not_or] at hself
    simp only [unescape, List.singleton_append, if_neg hself.1, if_neg hself.2]

/-- A text can be told from its escaped characters, and so can what follows
    it. -/
theorem quoted_append_inj {t t' s s' : Text} (h : quoted t ++ s = quoted t' ++ s') :
    t = t' ∧ s = s' := by
  induction t generalizing t' with
  | nil =>
    cases t' with
    | nil => exact ⟨rfl, (List.cons.inj h).2⟩
    | cons c' t' =>
      rw [quoted, quoted, List.append_assoc] at h
      have hread := congrArg unescape h
      rw [unescape_escapeChar] at hread
      cases hread
  | cons c t ih =>
    cases t' with
    | nil =>
      rw [quoted, quoted, List.append_assoc] at h
      have hread := congrArg unescape h
      rw [unescape_escapeChar] at hread
      cases hread
    | cons c' t' =>
      rw [quoted, quoted, List.append_assoc, List.append_assoc] at h
      have hread := congrArg unescape h
      rw [unescape_escapeChar, unescape_escapeChar, Option.some.injEq, Prod.mk.injEq] at hread
      obtain ⟨rfl, hs⟩ := ih hread.2
      exact ⟨hread.1 ▸ rfl, hs⟩

/-! ## Texts of values -/

/-- What the interpreter decides about the text of a value. -/
structure JsonWriter where
  /-- `float.__repr__`. -/
  floatText : PyFloat → Text
  /-- The values that raise `RecursionError` or `ValueError`: nested too deeply,
      or with an integer of too many digits. -/
  refuses : Json → Bool
  floatText_inj : ∀ x y, x.isFinite → y.isFinite → floatText x = floatText y → x = y
  floatText_chars : ∀ x, x.isFinite → ∀ c ∈ floatText x, isNumberChar c
  /-- The text of a float has a point or an exponent. -/
  floatText_fractional : ∀ x, x.isFinite → 46 ∈ floatText x ∨ 101 ∈ floatText x

namespace JsonWriter

variable (w : JsonWriter)

/-- The text of a value, with the members of its objects as they are. -/
def render : Json → Text
  | .null => lit "null"
  | .bool true => lit "true"
  | .bool false => lit "false"
  | .int n => intText n
  | .float x => w.floatText x
  | .str t => 34 :: quoted t
  | .arr [] => lit "[]"
  | .arr (j :: items) => 91 :: (render j ++ renderItems items)
  | .obj [] => lit "{}"
  | .obj ((key, j) :: members) => 123 :: 34 :: (quoted key ++ 58 :: (render j ++ renderMembers members))
where
  renderItems : List Json → Text
    | [] => [93]
    | j :: items => 44 :: (render j ++ renderItems items)
  renderMembers : List (Text × Json) → Text
    | [] => [125]
    | (key, j) :: members => 44 :: 34 :: (quoted key ++ 58 :: (render j ++ renderMembers members))

/-- `_canonical_json`, which raises `ValueError` for a value that is not finite
    or that the interpreter refuses. -/
def dumps (j : Json) : Option Text :=
  if w.refuses j || !j.allFinite then none else some (w.render j.sorted)

/-- A text that no number continues into. -/
def Delimited (t : Text) : Prop := ∀ c ∈ t.head?, isNumberChar c = false

/-- What the first character of a text tells about the value: the characters of
    numbers are one kind, any other character is a kind of its own. -/
def leadKind (c : CodePoint) : ℕ := if isNumberChar c then 0 else c.val

/-- The kind of the first character of the text of a value. -/
def lead : Json → ℕ
  | .null => 110
  | .bool true => 116
  | .bool false => 102
  | .int _ | .float _ => 0
  | .str _ => 34
  | .arr _ => 91
  | .obj _ => 123

variable {w}

/-- A text of characters of numbers begins with one. -/
theorem leadKind_of_number {t : Text} (hne : t ≠ []) (h : ∀ c ∈ t, isNumberChar c) :
    ∃ c u, t = c :: u ∧ leadKind c = 0 := by
  obtain ⟨c, u, rfl⟩ := List.exists_cons_of_ne_nil hne
  exact ⟨c, u, rfl, if_pos (h c List.mem_cons_self)⟩

/-- The characters of an integer are characters of numbers. -/
theorem intText_isNumberChar {n : ℤ} {c : CodePoint} (hc : c ∈ intText n) : isNumberChar c := by
  rcases intText_chars hc with rfl | h
  · decide
  · simp [isNumberChar, h]

/-- The text of an integer is not empty. -/
theorem intText_ne_nil (n : ℤ) : intText n ≠ [] := by
  cases n with
  | ofNat n =>
    rw [intText, natText, Ne, List.map_eq_nil_iff, ← Ne]
    exact Nat.toDigits_ne_nil
  | negSucc n => exact List.cons_ne_nil _ _

/-- The text of a value begins with a character of the kind of the value. -/
theorem render_lead {j : Json} (hj : j.allFinite) :
    ∃ c u, w.render j = c :: u ∧ leadKind c = lead j := by
  cases j with
  | null => exact ⟨_, _, rfl, by decide⟩
  | bool b => cases b <;> exact ⟨_, _, rfl, by decide⟩
  | int n =>
    rw [render]
    exact leadKind_of_number (intText_ne_nil n) fun _ => intText_isNumberChar
  | float x =>
    rw [render]
    refine leadKind_of_number (fun h => ?_) (w.floatText_chars x hj)
    rcases w.floatText_fractional x hj with h' | h' <;> rw [h] at h' <;> cases h'
  | str t => exact ⟨34, _, by rw [render], rfl⟩
  | arr items =>
    cases items with
    | nil => exact ⟨_, _, rfl, by decide⟩
    | cons j items => exact ⟨91, _, by rw [render], rfl⟩
  | obj members =>
    cases members with
    | nil => exact ⟨_, _, rfl, by decide⟩
    | cons m members => exact ⟨123, _, by rw [render], rfl⟩

/-- Numbers can be told from what follows them. -/
theorem number_append_inj {a b s t : Text} (ha : ∀ c ∈ a, isNumberChar c)
    (hb : ∀ c ∈ b, isNumberChar c) (hs : Delimited s) (ht : Delimited t) (h : a ++ s = b ++ t) :
    a = b ∧ s = t := by
  have htake {a s : Text} (ha : ∀ c ∈ a, isNumberChar c) (hs : Delimited s) :
      (a ++ s).takeWhile isNumberChar = a := by
    rw [List.takeWhile_append_of_pos ha]
    cases s with
    | nil => rw [List.takeWhile_nil, List.append_nil]
    | cons c s => rw [List.takeWhile_cons_of_neg (by simp [hs c rfl]), List.append_nil]
  have hab : a = b := by rw [← htake ha hs, h, htake hb ht]
  exact ⟨hab, List.append_cancel_left (hab ▸ h)⟩

/-- The rest of an array is delimited. -/
theorem delimited_renderItems (items : List Json) (s : Text) :
    Delimited (render.renderItems w items ++ s) := by
  cases items <;> (rw [render.renderItems]; rintro c ⟨⟩; rfl)

/-- The rest of an object is delimited. -/
theorem delimited_renderMembers (members : List (Text × Json)) (s : Text) :
    Delimited (render.renderMembers w members ++ s) := by
  cases members <;> (rw [render.renderMembers]; rintro c ⟨⟩; rfl)

/-- The text of the value can be told from a delimited text after it. -/
def TextInj (w : JsonWriter) (j : Json) : Prop :=
  ∀ j' s s', j.allFinite → j'.allFinite → Delimited s → Delimited s' →
    w.render j ++ s = w.render j' ++ s' → j = j' ∧ s = s'

/-- The items of an array can be told from what follows them when each item
    can. -/
theorem renderItems_append_inj {items items' : List Json} {s s' : Text}
    (hinj : ∀ j ∈ items, TextInj w j) (hf : ∀ j ∈ items, j.allFinite)
    (hf' : ∀ j ∈ items', j.allFinite)
    (h : render.renderItems w items ++ s = render.renderItems w items' ++ s') :
    items = items' ∧ s = s' := by
  induction items generalizing items' with
  | nil =>
    cases items' with
    | nil => exact ⟨rfl, (List.cons.inj h).2⟩
    | cons => exact absurd (List.cons.inj h).1 (by decide)
  | cons j items ih =>
    cases items' with
    | nil => exact absurd (List.cons.inj h).1 (by decide)
    | cons j' items' =>
      rw [List.forall_mem_cons] at hinj hf hf'
      rw [render.renderItems, render.renderItems, List.cons_append, List.cons_append,
        List.append_assoc, List.append_assoc] at h
      obtain ⟨rfl, hrest⟩ := hinj.1 j' _ _ hf.1 hf'.1 (delimited_renderItems _ _)
        (delimited_renderItems _ _) (List.cons.inj h).2
      obtain ⟨rfl, hs⟩ := ih hinj.2 hf.2 hf'.2 hrest
      exact ⟨rfl, hs⟩

/-- A key and its value can be told from what follows them when the value
    can. -/
theorem member_append_inj {m m' : Text × Json} {s s' : Text} (hinj : TextInj w m.2)
    (hf : m.2.allFinite) (hf' : m'.2.allFinite) (hs : Delimited s) (hs' : Delimited s')
    (h : quoted m.1 ++ 58 :: (w.render m.2 ++ s) = quoted m'.1 ++ 58 :: (w.render m'.2 ++ s')) :
    m = m' ∧ s = s' := by
  obtain ⟨hkey, hvalue⟩ := quoted_append_inj h
  obtain ⟨hj, hrest⟩ := hinj m'.2 s s' hf hf' hs hs' (List.cons.inj hvalue).2
  exact ⟨Prod.ext hkey hj, hrest⟩

/-- The members of an object can be told from what follows them when each value
    can. -/
theorem renderMembers_append_inj {members members' : List (Text × Json)} {s s' : Text}
    (hinj : ∀ m ∈ members, TextInj w m.2) (hf : ∀ m ∈ members, m.2.allFinite)
    (hf' : ∀ m ∈ members', m.2.allFinite)
    (h : render.renderMembers w members ++ s = render.renderMembers w members' ++ s') :
    members = members' ∧ s = s' := by
  induction members generalizing members' with
  | nil =>
    cases members' with
    | nil => exact ⟨rfl, (List.cons.inj h).2⟩
    | cons => exact absurd (List.cons.inj h).1 (by decide)
  | cons m members ih =>
    cases members' with
    | nil => exact absurd (List.cons.inj h).1 (by decide)
    | cons m' members' =>
      rw [List.forall_mem_cons] at hinj hf hf'
      rw [render.renderMembers, render.renderMembers, List.cons_append, List.cons_append,
        List.cons_append, List.cons_append, List.append_assoc, List.append_assoc, List.cons_append,
        List.cons_append, List.append_assoc, List.append_assoc] at h
      obtain ⟨rfl, hrest⟩ := member_append_inj hinj.1 hf.1 hf'.1 (delimited_renderMembers _ _)
        (delimited_renderMembers _ _) (List.cons.inj (List.cons.inj h).2).2
      obtain ⟨rfl, hs⟩ := ih hinj.2 hf.2 hf'.2 hrest
      exact ⟨rfl, hs⟩

/-- An integer is no float: the text of the float has a point or an
    exponent. -/
theorem intText_ne_floatText {n : ℤ} {x : PyFloat} (hx : x.isFinite) :
    intText n ≠ w.floatText x := by
  intro h
  have hno {c : CodePoint} (hc : c ∈ w.floatText x) (hne : c ≠ 45)
      (hnot : ¬ (48 ≤ c.val ∧ c.val ≤ 57)) : False :=
    (intText_chars (h ▸ hc)).elim hne hnot
  rcases w.floatText_fractional x hx with hc | hc
  · exact hno hc (by decide) (by decide)
  · exact hno hc (by decide) (by decide)

/-- Texts that begin alike are of values of one kind. -/
theorem lead_eq {j j' : Json} {s s' : Text} (hf : j.allFinite) (hf' : j'.allFinite)
    (h : w.render j ++ s = w.render j' ++ s') : lead j = lead j' := by
  obtain ⟨c, u, hc, hk⟩ := render_lead (w := w) hf
  obtain ⟨c', u', hc', hk'⟩ := render_lead (w := w) hf'
  rw [hc, hc'] at h
  rw [← hk, ← hk', (List.cons.inj h).1]

theorem textInj_bool (b : Bool) : TextInj w (.bool b) := by
  intro j' s s' hf hf' _ _ h
  have hlead := lead_eq hf hf' h
  cases j' with
  | bool b' =>
    cases b <;> cases b'
    · exact ⟨rfl, List.append_cancel_left h⟩
    · cases hlead
    · cases hlead
    · exact ⟨rfl, List.append_cancel_left h⟩
  | _ => cases b <;> cases hlead

theorem textInj_int (n : ℤ) : TextInj w (.int n) := by
  intro j' s s' hf hf' hs hs' h
  have hlead := lead_eq hf hf' h
  have hchars : ∀ c ∈ intText n, isNumberChar c := fun _ => intText_isNumberChar
  cases j' with
  | int n' =>
    obtain ⟨hn, hs⟩ := number_append_inj hchars (fun _ => intText_isNumberChar) hs hs' h
    exact ⟨intText_inj hn ▸ rfl, hs⟩
  | float x =>
    obtain ⟨hn, -⟩ := number_append_inj hchars (w.floatText_chars x hf') hs hs' h
    exact (intText_ne_floatText hf' hn).elim
  | bool b => cases b <;> cases hlead
  | _ => cases hlead

theorem textInj_float (x : PyFloat) : TextInj w (.float x) := by
  intro j' s s' hf hf' hs hs' h
  have hlead := lead_eq hf hf' h
  have hchars := w.floatText_chars x hf
  cases j' with
  | int n =>
    obtain ⟨hn, -⟩ := number_append_inj hchars (fun _ => intText_isNumberChar) hs hs' h
    exact (intText_ne_floatText hf hn.symm).elim
  | float x' =>
    obtain ⟨hx, hs⟩ := number_append_inj hchars (w.floatText_chars x' hf') hs hs' h
    exact ⟨w.floatText_inj x x' hf hf' hx ▸ rfl, hs⟩
  | bool b => cases b <;> cases hlead
  | _ => cases hlead

theorem textInj_arr {items : List Json} (ih : ∀ j ∈ items, TextInj w j) :
    TextInj w (.arr items) := by
  intro j' s s' hf hf' _ _ h
  have hlead := lead_eq hf hf' h
  cases j' with
  | arr items' =>
    rw [Json.allFinite_arr] at hf hf'
    -- an item does not begin with the closing bracket
    have hbracket {j : Json} (hj : j.allFinite) (u v : Text) : w.render j ++ u ≠ 93 :: v := by
      obtain ⟨c, t, hc, hk⟩ := render_lead (w := w) hj
      rw [hc]
      intro he
      rw [(List.cons.inj he).1] at hk
      cases j with
      | bool b => cases b <;> cases hk
      | _ => cases hk
    cases items with
    | nil =>
      cases items' with
      | nil => exact ⟨rfl, List.append_cancel_left h⟩
      | cons j' items' =>
        rw [render, render, List.cons_append, List.append_assoc] at h
        exact (hbracket (List.forall_mem_cons.1 hf').1 _ _ (List.cons.inj h).2.symm).elim
    | cons j items =>
      rw [List.forall_mem_cons] at hf ih
      cases items' with
      | nil =>
        rw [render, render, List.cons_append, List.append_assoc] at h
        exact (hbracket hf.1 _ _ (List.cons.inj h).2).elim
      | cons j' items' =>
        rw [List.forall_mem_cons] at hf'
        rw [render, render, List.cons_append, List.cons_append, List.append_assoc,
          List.append_assoc] at h
        obtain ⟨rfl, hrest⟩ := ih.1 j' _ _ hf.1 hf'.1 (delimited_renderItems _ _)
          (delimited_renderItems _ _) (List.cons.inj h).2
        obtain ⟨rfl, hs⟩ := renderItems_append_inj ih.2 hf.2 hf'.2 hrest
        exact ⟨rfl, hs⟩
  | bool b => cases b <;> cases hlead
  | _ => cases hlead

theorem textInj_obj {members : List (Text × Json)} (ih : ∀ m ∈ members, TextInj w m.2) :
    TextInj w (.obj members) := by
  intro j' s s' hf hf' _ _ h
  have hlead := lead_eq hf hf' h
  cases j' with
  | obj members' =>
    rw [Json.allFinite_obj] at hf hf'
    cases members with
    | nil =>
      cases members' with
      | nil => exact ⟨rfl, List.append_cancel_left h⟩
      | cons m' members' =>
        rw [render, render] at h
        exact absurd (List.cons.inj (List.cons.inj h).2).1 (by decide)
    | cons m members =>
      rw [List.forall_mem_cons] at hf ih
      cases members' with
      | nil =>
        rw [render, render] at h
        exact absurd (List.cons.inj (List.cons.inj h).2).1 (by decide)
      | cons m' members' =>
        rw [List.forall_mem_cons] at hf'
        rw [render, render] at h
        simp only [List.cons_append, List.append_assoc] at h
        obtain ⟨rfl, hrest⟩ := member_append_inj ih.1 hf.1 hf'.1 (delimited_renderMembers _ _)
          (delimited_renderMembers _ _) (List.cons.inj (List.cons.inj h).2).2
        obtain ⟨rfl, hs⟩ := renderMembers_append_inj ih.2 hf.2 hf'.2 hrest
        exact ⟨rfl, hs⟩
  | bool b => cases b <;> cases hlead
  | _ => cases hlead

/-- What follows the text of a value in a document can be told from it. -/
theorem render_append_inj (w : JsonWriter) (j : Json) : TextInj w j := by
  induction j using Json.induct with
  | null =>
    intro j' s s' hf hf' _ _ h
    have hlead := lead_eq hf hf' h
    cases j' with
    | null => exact ⟨rfl, List.append_cancel_left h⟩
    | bool b => cases b <;> cases hlead
    | _ => cases hlead
  | bool b => exact textInj_bool b
  | int n => exact textInj_int n
  | float x => exact textInj_float x
  | str t =>
    intro j' s s' hf hf' _ _ h
    have hlead := lead_eq hf hf' h
    cases j' with
    | str t' =>
      obtain ⟨rfl, hs⟩ := quoted_append_inj (List.cons.inj h).2
      exact ⟨rfl, hs⟩
    | bool b => cases b <;> cases hlead
    | _ => cases hlead
  | arr items ih => exact textInj_arr ih
  | obj members ih => exact textInj_obj ih

/-- Values with the same canonical text are equal up to the order of members. -/
theorem same_of_dumps {a b : Json} {t : Text} (ha : w.dumps a = some t) (hb : w.dumps b = some t) :
    a.Same b := by
  have hdumps {j : Json} (hj : w.dumps j = some t) : j.allFinite ∧ w.render j.sorted = t := by
    rw [dumps] at hj
    split_ifs at hj with h
    rw [Bool.or_eq_true, not_or, Bool.not_eq_true', Bool.not_eq_false] at h
    exact ⟨h.2, Option.some.inj hj⟩
  have hf := Json.allFinite_sorted (hdumps ha).1
  have hf' := Json.allFinite_sorted (hdumps hb).1
  refine (render_append_inj w a.sorted b.sorted [] [] hf hf' nofun nofun ?_).1
  rw [(hdumps ha).2, (hdumps hb).2]

/-- A writer that refuses no value. Its floats have texts of their own, so it
    writes like the interpreter the values without floats. -/
def plain : JsonWriter where
  floatText x :=
    101 :: intText (match x with
      | .finite q => Encodable.encode q
      | _ => -1)
  refuses _ := false
  floatText_inj x y hx hy h := by
    have hint := intText_inj (List.cons.inj h).2
    cases x <;> cases y <;> simp_all [PyFloat.isFinite]
  floatText_chars x _ c hc :=
    (List.mem_cons.1 hc).elim (fun h => h ▸ rfl) intText_isNumberChar
  floatText_fractional _ _ := .inr List.mem_cons_self

end JsonWriter

end McpRuntime
