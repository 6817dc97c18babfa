import McpRuntime.Python.JsonParser

/-!
# Indented JSON

The text of a value as `json.dumps(indent=2, sort_keys=True, ensure_ascii=False)`
writes it: an element a line, with two spaces for each level.

* `parseJson_indented`: a parser of JSON reads the value back, with its members in
  order, if it has no numbers.
* `Plain.encodable_of_indented`: a text that UTF-8 can encode is the text of a
  value whose texts UTF-8 can encode.
-/

namespace McpRuntime

namespace Json

/-! ## Values without numbers -/

/-- A value of texts that meet a condition, nested in at most so many levels, whose
    objects have distinct keys. -/
def Plain (condition : Text → Prop) : ℕ → Json → Prop
  | _, null => True
  | _, bool _ => True
  | _, str t => condition t
  | room + 1, arr items => ∀ j ∈ items, Plain condition room j
  | room + 1, obj members => (members.map Prod.fst).Nodup ∧
    ∀ m ∈ members, condition m.1 ∧ Plain condition room m.2
  | _, _ => False

@[simp] theorem plain_null {condition : Text → Prop} {room : ℕ} : Plain condition room null := by
  cases room <;> trivial

@[simp] theorem plain_bool {condition : Text → Prop} {room : ℕ} {b : Bool} :
    Plain condition room (bool b) := by
  cases room <;> trivial

@[simp] theorem plain_str {condition : Text → Prop} {room : ℕ} {t : Text} :
    Plain condition room (str t) ↔ condition t := by
  cases room <;> rfl

/-! ## The writer -/

/-- A line break, with the indentation of a level. -/
def newline (level : ℕ) : Text := 10 :: List.replicate (2 * level) 32

/-- The lines that are left of an array or an object, after its first element. -/
def nextLines (closing : CodePoint) (level : ℕ) : List Text → Text
  | [] => newline level ++ [closing]
  | t :: texts => 44 :: (newline (level + 1) ++ t) ++ nextLines closing level texts

/-- The texts of elements, a line for each, between brackets. -/
def block (opening closing : CodePoint) (level : ℕ) : List Text → Text
  | [] => [opening, closing]
  | t :: texts => opening :: (newline (level + 1) ++ t) ++ nextLines closing level texts

/-- The text of a value at a level. -/
def indented (w : JsonWriter) : Json → ℕ → Text
  | arr items, level => block 91 93 level (itemTexts items (level + 1))
  | obj members, level => block 123 125 level (memberTexts members (level + 1))
  | null, _ => w.render null
  | bool b, _ => w.render (bool b)
  | int n, _ => w.render (int n)
  | float x, _ => w.render (float x)
  | str t, _ => w.render (str t)
where
  itemTexts : List Json → ℕ → List Text
    | [], _ => []
    | j :: items, level => indented w j level :: itemTexts items level
  memberTexts : List (Text × Json) → ℕ → List Text
    | [], _ => []
    | (key, j) :: members, level =>
      (34 :: quoted key ++ lit ": " ++ indented w j level) :: memberTexts members level

variable {w : JsonWriter} {level room : ℕ} {condition : Text → Prop}

theorem indented_arr (items : List Json) : indented w (arr items) level =
    block 91 93 level (items.map fun j => indented w j (level + 1)) := by
  rw [indented]
  congr 1
  induction items with
  | nil => rfl
  | cons j items ih => rw [indented.itemTexts, ih, List.map_cons]

theorem indented_obj (members : List (Text × Json)) : indented w (obj members) level =
    block 123 125 level
      (members.map fun m => 34 :: quoted m.1 ++ lit ": " ++ indented w m.2 (level + 1)) := by
  rw [indented]
  congr 1
  induction members with
  | nil => rfl
  | cons m members ih => rw [indented.memberTexts, ih, List.map_cons]

/-- The texts of the elements are part of the text. -/
theorem mem_block {opening closing c : CodePoint} {texts : List Text} {t : Text} (ht : t ∈ texts)
    (hc : c ∈ t) : c ∈ block opening closing level texts := by
  have hlines {texts : List Text} (ht : t ∈ texts) : c ∈ nextLines closing level texts := by
    induction texts with
    | nil => cases ht
    | cons u texts ih =>
      rw [nextLines]
      rcases List.mem_cons.1 ht with rfl | ht
      · exact List.mem_append_left _ (List.mem_cons_of_mem _ (List.mem_append_right _ hc))
      · exact List.mem_append_right _ (ih ht)
  cases texts with
  | nil => cases ht
  | cons u texts =>
    rw [block]
    rcases List.mem_cons.1 ht with rfl | ht
    · exact List.mem_append_left _ (List.mem_cons_of_mem _ (List.mem_append_right _ hc))
    · exact List.mem_append_right _ (hlines ht)

/-- A text that UTF-8 can encode in quotation marks can be encoded by itself. -/
theorem encodable_of_quoted {t : Text} (h : (quoted t).Encodable) : t.Encodable := by
  intro c hc
  cases hsurrogate : c.isSurrogate with
  | false => rfl
  | true =>
    have hescape : c ∈ escapeChar c := by
      rw [CodePoint.isSurrogate, Bool.and_eq_true, decide_eq_true_eq] at hsurrogate
      have hlarge : 0xD800 ≤ c.val := hsurrogate.1
      have hne {n : ℕ} (hn : n < 0xD800) : decide (c.val = n) = false :=
        decide_eq_false (Nat.ne_of_gt (hn.trans_le hlarge))
      rw [escapeChar, hne (by decide), hne (by decide), if_neg (by simp), if_neg (by omega),
        if_neg (by omega), if_neg (by omega), if_neg (by omega), if_neg (by omega), if_neg (by omega)]
      exact List.mem_singleton_self c
    rw [quoted_eq_flatMap] at h
    have hmem : c ∈ t.flatMap escapeChar ++ [34] :=
      List.mem_append_left _ (List.mem_flatMap.2 ⟨c, hc, hescape⟩)
    exact absurd (h c hmem) (by simp [hsurrogate])

/-- Where the text of a value can be encoded, its texts can. -/
theorem Plain.encodable_of_indented {j : Json} (hj : j.Plain condition room)
    (h : (indented w j level).Encodable) : j.Plain Text.Encodable room := by
  induction j using Json.induct generalizing room level with
  | null => exact plain_null
  | bool b => exact plain_bool
  | int n => cases room <;> exact hj.elim
  | float x => cases room <;> exact hj.elim
  | str t => exact plain_str.2 <| encodable_of_quoted fun c hc => h c (List.mem_cons_of_mem _ hc)
  | arr items ih =>
    cases room with
    | zero => exact hj.elim
    | succ room =>
      rw [indented_arr] at h
      intro j hmem
      exact ih j hmem (hj j hmem) fun c hc => h c (mem_block (List.mem_map_of_mem hmem) hc)
  | obj members ih =>
    cases room with
    | zero => exact hj.elim
    | succ room =>
      rw [indented_obj] at h
      refine ⟨hj.1, fun m hmem => ⟨?_, ?_⟩⟩
      · refine encodable_of_quoted fun c hc => h c (mem_block (List.mem_map_of_mem hmem) ?_)
        exact List.mem_append_left _ (List.mem_append_left _ (List.mem_cons_of_mem _ hc))
      · refine @ih m hmem (level + 1) room (hj.2 m hmem).2 fun c hc => ?_
        exact h c (mem_block (List.mem_map_of_mem hmem) (List.mem_append_right _ hc))

end Json

/-! ## Reading back -/

section

variable {spaces t rest : Text} {fuel : ℕ}

theorem skipSpace_append (h : ∀ c ∈ spaces, isJsonSpace c = true) (t : Text) :
    skipSpace (spaces ++ t) = skipSpace t := by
  induction spaces with
  | nil => rfl
  | cons c spaces ih =>
    rw [List.forall_mem_cons] at h
    exact (List.dropWhile_cons_of_pos h.1).trans (ih h.2)

/-- White space before a value does not matter. -/
theorem parseValue_append (h : ∀ c ∈ spaces, isJsonSpace c = true) (t : Text) :
    parseValue fuel (spaces ++ t) = parseValue fuel t := by
  cases fuel with
  | zero => rw [parseValue, parseValue]
  | succ fuel => rw [parseValue, parseValue, skipSpace_append h]

theorem parseMember_append (h : ∀ c ∈ spaces, isJsonSpace c = true) (t : Text) :
    parseMember fuel (spaces ++ t) = parseMember fuel t := by
  cases fuel with
  | zero => rw [parseMember, parseMember]
  | succ fuel => rw [parseMember, parseMember, skipSpace_append h]

end

/-- The text stands for a member whatever follows it. -/
structure ReadsMemberAlone (t : Text) (m : Text × Json) : Prop where
  starts : Starts t ∧ t.head? = some 34
  parse : ∀ fuel rest, t.length ≤ fuel → parseMember fuel (t ++ rest) = some (m, rest)

namespace ReadsAlone

variable {texts : List Text} {t : Text} {level fuel : ℕ}

theorem isJsonSpace_newline : ∀ c ∈ Json.newline level, isJsonSpace c = true := by
  intro c hc
  rcases List.mem_cons.1 hc with rfl | hc
  · rfl
  · obtain rfl := List.eq_of_mem_replicate hc
    rfl

theorem length_newline : 0 < (Json.newline level).length := Nat.succ_pos _

/-- The lines of an array that are left are read. -/
theorem itemLines {items : List Json} (h : texts.Forall₂ ReadsAlone items) (rest : Text)
    (hfuel : (Json.nextLines 93 level texts).length ≤ fuel) :
    parseItems fuel (Json.nextLines 93 level texts ++ rest) = some (items, rest) := by
  have hline := @length_newline (level + 1)
  induction h generalizing fuel with
  | nil =>
    rw [Json.nextLines, List.length_append, List.length_singleton] at hfuel
    obtain ⟨n, rfl⟩ := Nat.exists_eq_add_of_le' (Nat.le_of_add_left_le hfuel)
    rw [parseItems, Json.nextLines, List.append_assoc, skipSpace_append isJsonSpace_newline]
    rfl
  | @cons t j texts items ht _ ih =>
    rw [Json.nextLines, List.cons_append, List.length_cons, List.length_append,
      List.length_append] at hfuel
    obtain ⟨n, rfl⟩ := Nat.exists_eq_add_of_le' (show 1 ≤ fuel by omega)
    have hcomma (u : Text) : skipSpace (44 :: u) = 44 :: u := List.dropWhile_cons_of_neg (by decide)
    rw [parseItems, Json.nextLines, List.cons_append, List.cons_append, hcomma]
    refine (if_neg (by simp)).trans ((if_pos rfl).trans ?_)
    rw [List.tail_cons, List.append_assoc, List.append_assoc, parseValue_append isJsonSpace_newline,
      ht.parse n _ (by omega)]
    simp only [Option.bind_eq_bind, Option.bind_some, @ih n (by omega)]

/-- An array is read when its items are. -/
theorem arr {items : List Json} (h : texts.Forall₂ ReadsAlone items) :
    ReadsAlone (Json.block 91 93 level texts) (.arr items) := by
  cases h with
  | nil => exact arr_nil
  | @cons t j texts items ht hrest =>
    have hstarts : Starts (Json.block 91 93 level (t :: texts)) := ⟨91, _, rfl, rfl, by decide⟩
    refine ⟨hstarts, fun fuel rest hfuel => ?_⟩
    have hline := @length_newline (level + 1)
    rw [Json.block, List.cons_append, List.length_cons, List.length_append,
      List.length_append] at hfuel
    obtain ⟨n, rfl⟩ := Nat.exists_eq_add_of_le' (show 1 ≤ fuel by omega)
    rw [parseValue, skipSpace_of_starts hstarts]
    refine (if_neg (by simp [Json.block])).trans ((if_pos rfl).trans ?_)
    rw [Json.block, List.cons_append, List.cons_append, List.tail_cons, List.append_assoc,
      List.append_assoc, skipSpace_append isJsonSpace_newline, skipSpace_of_starts ht.starts]
    obtain ⟨c, u, htext, -, hc⟩ := ht.starts
    have hclose : (t ++ (Json.nextLines 93 level texts ++ rest)).head? ≠ some 93 := by
      rw [htext]
      exact fun he => hc (Option.some.inj he)
    rw [if_neg hclose, parseValue_append isJsonSpace_newline, ht.parse n _ (by omega)]
    have hlength : (Json.nextLines 93 level texts).length ≤ n := by omega
    simp only [Option.bind_eq_bind, Option.bind_some, itemLines hrest rest hlength]

/-- The lines of an object that are left are read. -/
theorem memberLines {members : List (Text × Json)} (h : texts.Forall₂ ReadsMemberAlone members)
    (rest : Text) (hfuel : (Json.nextLines 125 level texts).length ≤ fuel) :
    parseMembers fuel (Json.nextLines 125 level texts ++ rest) = some (members, rest) := by
  have hline := @length_newline (level + 1)
  induction h generalizing fuel with
  | nil =>
    rw [Json.nextLines, List.length_append, List.length_singleton] at hfuel
    obtain ⟨n, rfl⟩ := Nat.exists_eq_add_of_le' (Nat.le_of_add_left_le hfuel)
    rw [parseMembers, Json.nextLines, List.append_assoc, skipSpace_append isJsonSpace_newline]
    rfl
  | @cons t m texts members ht _ ih =>
    rw [Json.nextLines, List.cons_append, List.length_cons, List.length_append,
      List.length_append] at hfuel
    obtain ⟨n, rfl⟩ := Nat.exists_eq_add_of_le' (show 1 ≤ fuel by omega)
    have hcomma (u : Text) : skipSpace (44 :: u) = 44 :: u := List.dropWhile_cons_of_neg (by decide)
    rw [parseMembers, Json.nextLines, List.cons_append, List.cons_append, hcomma]
    refine (if_neg (by simp)).trans ((if_pos rfl).trans ?_)
    rw [List.tail_cons, List.append_assoc, List.append_assoc, parseMember_append isJsonSpace_newline,
      ht.parse n _ (by omega)]
    simp only [Option.bind_eq_bind, Option.bind_some, @ih n (by omega)]

/-- An object is read when its members are. -/
theorem obj {members : List (Text × Json)} (h : texts.Forall₂ ReadsMemberAlone members) :
    ReadsAlone (Json.block 123 125 level texts) (.obj members) := by
  cases h with
  | nil => exact obj_nil
  | @cons t m texts members ht hrest =>
    have hstarts : Starts (Json.block 123 125 level (t :: texts)) := ⟨123, _, rfl, rfl, by decide⟩
    refine ⟨hstarts, fun fuel rest hfuel => ?_⟩
    have hline := @length_newline (level + 1)
    rw [Json.block, List.cons_append, List.length_cons, List.length_append,
      List.length_append] at hfuel
    obtain ⟨n, rfl⟩ := Nat.exists_eq_add_of_le' (show 1 ≤ fuel by omega)
    rw [parseValue, skipSpace_of_starts hstarts]
    refine (if_neg (by simp [Json.block])).trans ((if_neg (by simp [Json.block])).trans ((if_pos rfl).trans ?_))
    rw [Json.block, List.cons_append, List.cons_append, List.tail_cons, List.append_assoc,
      List.append_assoc, skipSpace_append isJsonSpace_newline, skipSpace_of_starts ht.starts.1]
    obtain ⟨⟨c, u, htext, -, -⟩, hquote⟩ := ht.starts
    have hclose : (t ++ (Json.nextLines 125 level texts ++ rest)).head? ≠ some 125 := by
      rw [htext] at hquote ⊢
      exact fun he => absurd (hquote.symm.trans he) (by decide)
    rw [if_neg hclose, parseMember_append isJsonSpace_newline, ht.parse n _ (by omega)]
    have hlength : (Json.nextLines 125 level texts).length ≤ n := by omega
    simp only [Option.bind_eq_bind, Option.bind_some, memberLines hrest rest hlength]

/-- A member is read when its value is. -/
theorem member (key : Text) {j : Json} (ht : ReadsAlone t j) :
    ReadsMemberAlone (34 :: quoted key ++ lit ": " ++ t) (key, j) := by
  have hstarts : Starts (34 :: quoted key ++ lit ": " ++ t) :=
    ⟨34, quoted key ++ lit ": " ++ t, by rw [List.cons_append, List.cons_append], rfl, by decide⟩
  refine ⟨⟨hstarts, by rw [List.cons_append, List.cons_append, List.head?_cons]⟩,
    fun fuel rest hfuel => ?_⟩
  obtain ⟨n, rfl⟩ := exists_succ_of_starts hstarts hfuel
  have hspace : ∀ c ∈ ([32] : Text), isJsonSpace c = true := List.forall_mem_singleton.2 rfl
  rw [quoted_eq_flatMap, List.length_append, List.length_append, List.length_cons,
    List.length_append] at hfuel
  rw [parseMember, skipSpace_of_starts hstarts]
  refine (if_pos rfl).trans ?_
  rw [quoted_eq_flatMap, List.cons_append, List.cons_append, List.cons_append, List.tail_cons,
    List.append_assoc, List.append_assoc, List.append_assoc, List.singleton_append,
    parseString_flatMap readChar_escapeChar]
  · have hcolon : skipSpace (lit ": " ++ (t ++ rest)) = 58 :: ([32] ++ (t ++ rest)) :=
      List.dropWhile_cons_of_neg (by decide)
    simp only [Option.bind_eq_bind, Option.bind_some, hcolon, List.head?_cons, if_true,
      List.tail_cons, parseValue_append hspace, ht.parse n rest (by omega)]
  · have := length_le_flatMap readChar_escapeChar key
    rw [List.length_cons, List.length_append]
    omega

end ReadsAlone

namespace Json

variable {w : JsonWriter} {condition : Text → Prop}

/-- A value without numbers is read from its text. -/
theorem readsAlone_indented {j : Json} {level room : ℕ} (hj : j.Plain condition room) :
    ReadsAlone (indented w j level) j := by
  induction j using Json.induct generalizing room level with
  | null => exact .null
  | bool b =>
    have h := ReadsAlone.bool b
    cases b <;> exact h
  | int n => cases room <;> exact hj.elim
  | float x => cases room <;> exact hj.elim
  | str t =>
    have h := ReadsAlone.str readChar_escapeChar t
    rw [← quoted_eq_flatMap] at h
    exact h
  | arr items ih =>
    -- The items are indented by one level more, and the induction is for all levels.
    cases room with
    | zero => exact hj.elim
    | succ room =>
      rw [indented_arr]
      refine .arr (List.forall₂_map_left_iff.2 (List.forall₂_same.2 fun j hmem => ?_))
      exact ih j hmem (hj j hmem)
  | obj members ih =>
    cases room with
    | zero => exact hj.elim
    | succ room =>
      rw [indented_obj]
      refine .obj (List.forall₂_map_left_iff.2 (List.forall₂_same.2 fun m hmem => ?_))
      exact ReadsAlone.member m.1 (ih m hmem (hj.2 m hmem).2)

/-- A document of a value without numbers, and a line break, is read. -/
theorem parseJson_indented {j : Json} {room : ℕ} (hj : j.Plain condition room) :
    parseJson (indented w j 0 ++ [10]) = some j := by
  rw [parseJson, (readsAlone_indented hj).parse _ _ (by rw [List.length_append]; omega)]
  rfl

end Json

end McpRuntime
