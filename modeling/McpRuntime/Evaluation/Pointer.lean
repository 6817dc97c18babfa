import McpRuntime.Evaluation.Runner

/-!
# JSON pointers

What a pointer designates by RFC 6901: its reference tokens, with `~1` and `~0` for
a slash and a tilde, are followed through objects by their keys and through arrays by
their indices, which have no leading zeros. An assertion is resolved by code that
accepts more tokens.

* `designated`: the value that tokens designate.
* `Misread`: tokens that the code takes for an index, or for a key, though they are
  none.
* `resolve_iff_not_misread`: a pointer is resolved to what it designates, and without
  an exception, exactly when none of its tokens is misread on the way to a value.
* `misread_index`: an index with a leading zero.
-/

namespace McpRuntime

namespace Evaluation

/-! ## RFC 6901 -/

/-- The text that a reference token stands for; a tilde has to be followed by `0` or by
    `1`. -/
def tokenText : Text → Option Text
  | [] => some []
  | [c] => if c = 126 then none else some [c]
  | c :: d :: t =>
    if c = 126 then
      if d = 48 then (tokenText t).map fun part => 126 :: part
      else if d = 49 then (tokenText t).map fun part => 47 :: part
      else none
    else (tokenText (d :: t)).map fun part => c :: part

/-- The array index that a text stands for: ASCII digits without a leading zero. -/
def arrayIndex (t : Text) : Option ℕ := if isDecimal t then some (natValue t) else none

/-- The value that a reference token designates in a value. -/
def child (token : Text) : Json → Option Json
  | .obj members => (tokenText token).bind fun part => Json.get part members
  | .arr items => ((tokenText token).bind arrayIndex).bind fun index => items[index]?
  | _ => none

/-- The value that reference tokens designate, from a value on. -/
def designated : List Text → Json → Option Json
  | [], j => some j
  | token :: tokens, j => (child token j).bind (designated tokens)

/-- The value that a pointer designates in a document. -/
def rfc6901 (document : Json) : Text → Option Json
  | [] => some document
  | c :: t => if c = 47 then designated (Text.split 47 t) document else none

/-! ## Tokens that are misread -/

/-- The part of a pointer, as the code reads it. -/
def pythonPart (token : Text) : Text :=
  (token.replace (lit "~1") (lit "/")).replace (lit "~0") (lit "~")

variable (platform : Platform)

/-- The code goes from a value into another one with a token. -/
inductive Enters (token : Text) : Json → Json → Prop
  | key {members : List (Text × Json)} {j : Json} :
      Json.get (pythonPart token) members = some j → Enters token (.obj members) j
  | index {items : List Json} {index : ℕ} {j : Json} :
      isDigits platform (pythonPart token) = true → intOf platform (pythonPart token) = some index →
        items[index]? = some j → Enters token (.arr items) j

/-- Tokens lead the code to a value. -/
inductive Leads : List Text → Json → Prop
  | nil {j : Json} : Leads [] j
  | cons {token : Text} {tokens : List Text} {j j' : Json} :
      Enters platform token j j' → Leads tokens j' → Leads (token :: tokens) j

/-- The tokens are misread, on the way to a value. -/
inductive Misread : List Text → Json → Prop
  /-- Digits that are not decimal: `int` raises `ValueError`. -/
  | digits {token : Text} {tokens : List Text} {items : List Json} :
      isDigits platform (pythonPart token) = true → intOf platform (pythonPart token) = none →
        Misread (token :: tokens) (.arr items)
  /-- The code goes on where the token designates nothing. -/
  | token {token : Text} {tokens : List Text} {j j' : Json} : Enters platform token j j' →
      child token j = none → Leads platform tokens j' → Misread (token :: tokens) j
  | later {token : Text} {tokens : List Text} {j j' : Json} : Enters platform token j j' →
      Misread tokens j' → Misread (token :: tokens) j

/-! ## Resolution -/

variable {platform} {token part : Text} {tokens : List Text} {j j' : Json}

/-- The code puts a slash and a tilde in place of their escapes. -/
theorem pythonPart_of_tokenText (h : tokenText token = some part) : pythonPart token = part := by
  have hslash : lit "~1" = [126, 49] := by decide
  have htilde : lit "~0" = [126, 48] := by decide
  rw [pythonPart, Text.replace, Text.replace, hslash, htilde]
  -- a character that is no tilde begins no escape
  have hplain {c : CodePoint} (d : CodePoint) (hc : c ≠ 126) (t : Text) :
      [126, d].isPrefixOf (c :: t) = false := by
    rw [List.isPrefixOf, beq_false_of_ne (Ne.symm hc), Bool.false_and]
  fun_induction tokenText token generalizing part with
  | case1 => exact Option.some.inj h
  | case2 => cases h
  | case3 c hc =>
    obtain rfl := Option.some.inj h
    rw [replaceAll, hplain 49 hc, if_neg Bool.false_ne_true, replaceAll, replaceAll, hplain 48 hc,
      if_neg Bool.false_ne_true, replaceAll]
  | case4 t ih =>
    obtain ⟨rest, hrest, rfl⟩ := Option.map_eq_some_iff.1 h
    rw [← ih hrest]
    rfl
  | case5 t _ ih =>
    obtain ⟨rest, hrest, rfl⟩ := Option.map_eq_some_iff.1 h
    rw [← ih hrest]
    rfl
  | case6 => cases h
  | case7 c d t hc ih =>
    obtain ⟨rest, hrest, rfl⟩ := Option.map_eq_some_iff.1 h
    rw [replaceAll, hplain 49 hc, if_neg Bool.false_ne_true, replaceAll, hplain 48 hc,
      if_neg Bool.false_ne_true, ih hrest]

/-- An index of RFC 6901 is a number to the code. -/
theorem intOf_of_arrayIndex (platform : Platform) {index : ℕ} (h : arrayIndex part = some index) :
    isDigits platform part = true ∧ intOf platform part = some index := by
  rw [arrayIndex] at h
  split_ifs at h with hdecimal
  obtain rfl := Option.some.inj h
  rw [isDecimal, Bool.and_eq_true, List.all_eq_true] at hdecimal
  obtain ⟨hdigits, hhead⟩ := hdecimal
  have hascii (c : CodePoint) (hc : c ∈ part) : c.val < 0x80 := by
    have hdigit := hdigits c hc
    simp only [CodePoint.isDigit, Bool.and_eq_true, decide_eq_true_eq] at hdigit
    omega
  constructor
  · rw [isDigits, Bool.and_eq_true, List.all_eq_true]
    refine ⟨?_, fun c hc => ?_⟩
    · cases part with
      | nil => cases hhead
      | cons => rfl
    · rw [if_pos (hascii c hc)]
      exact hdigits c hc
  · have hvalues : part.mapM (fun c => if c.val < 0x80 then some (c.val - 48) else platform.decimal c) =
        some (part.map fun c => c.val - 48) := by
      rw [mapM_eq_some, List.forall₂_map_right_iff, List.forall₂_same]
      exact fun c hc => if_pos (hascii c hc)
    rw [intOf, hvalues, Option.map_some, List.foldl_map]
    rfl

/-- A token that designates a value leads the code to it. -/
theorem enters_of_child (platform : Platform) (h : child token j = some j') : Enters platform token j j' := by
  cases j with
  | obj members =>
    obtain ⟨part, hpart, hget⟩ := Option.bind_eq_some_iff.1 h
    exact .key (pythonPart_of_tokenText hpart ▸ hget)
  | arr items =>
    obtain ⟨index, hindex, hitem⟩ := Option.bind_eq_some_iff.1 h
    obtain ⟨part, hpart, hindex⟩ := Option.bind_eq_some_iff.1 hindex
    obtain ⟨hdigits, hint⟩ := intOf_of_arrayIndex platform hindex
    obtain rfl := pythonPart_of_tokenText hpart
    exact .index hdigits hint hitem
  | null | bool | int | float | str => cases h

/-- A token leads to one value. -/
theorem Enters.unique {j'' : Json} (h : Enters platform token j j') (h' : Enters platform token j j'') :
    j' = j'' := by
  cases h with
  | key hget =>
    cases h' with
    | key hget' => exact Option.some.inj (hget.symm.trans hget')
  | index _ hint hitem =>
    cases h' with
    | index _ hint' hitem' =>
      obtain rfl := Option.some.inj (hint.symm.trans hint')
      exact Option.some.inj (hitem.symm.trans hitem')

theorem resolveParts_obj {members : List (Text × Json)} :
    resolveParts platform (token :: tokens) (.obj members) =
      (Json.get (pythonPart token) members).elim (some none) (resolveParts platform tokens) := by
  rw [resolveParts, pythonPart]
  cases Json.get _ members <;> rfl

theorem resolveParts_arr {items : List Json} :
    resolveParts platform (token :: tokens) (.arr items) =
      if isDigits platform (pythonPart token) then
        (intOf platform (pythonPart token)).bind fun index =>
          items[index]?.elim (some none) (resolveParts platform tokens)
      else some none := by
  rw [resolveParts, pythonPart]
  cases intOf platform _ with
  | none => rfl
  | some index =>
    dsimp only [Option.bind_some]
    cases items[index]? <;> rfl

/-- What the code does with a token: it goes on, `int` raises, or the pointer has no
    value. -/
inductive Read (platform : Platform) (token : Text) (tokens : List Text) (j : Json) : Option (Option Json) → Prop
  | enters {j' : Json} : Enters platform token j j' →
      Read platform token tokens j (resolveParts platform tokens j')
  | raises : Misread platform (token :: tokens) j → (∀ j', ¬ Enters platform token j j') →
      Read platform token tokens j none
  | absent : ¬ Misread platform (token :: tokens) j → (∀ j', ¬ Enters platform token j j') →
      Read platform token tokens j (some none)

theorem read_resolveParts (platform : Platform) (token : Text) (tokens : List Text) (j : Json) :
    Read platform token tokens j (resolveParts platform (token :: tokens) j) := by
  have habsent (hno : ∀ j', ¬ Enters platform token j j')
      (hint : ∀ items, j = .arr items → isDigits platform (pythonPart token) = true →
        intOf platform (pythonPart token) ≠ none) : Read platform token tokens j (some none) := by
    refine .absent (fun h => ?_) hno
    cases h with
    | digits hdigits hraises => exact hint _ rfl hdigits hraises
    | token henters => exact hno _ henters
    | later henters => exact hno _ henters
  cases j with
  | obj members =>
    rw [resolveParts_obj]
    cases hget : Json.get (pythonPart token) members with
    | none =>
      refine habsent (fun j' h => ?_) fun items h => by cases h
      cases h with
      | key hkey => cases hget.symm.trans hkey
    | some j' => exact .enters (.key hget)
  | arr items =>
    rw [resolveParts_arr]
    cases hdigits : isDigits platform (pythonPart token) with
    | false =>
      refine habsent (fun j' h => ?_) fun items _ h => by cases hdigits.symm.trans h
      cases h with
      | index h => cases hdigits.symm.trans h
    | true =>
      rw [if_pos rfl]
      cases hint : intOf platform (pythonPart token) with
      | none =>
        refine .raises (.digits hdigits hint) fun j' h => ?_
        cases h with
        | index _ hsome => cases hint.symm.trans hsome
      | some index =>
        rw [Option.bind_some]
        cases hitem : items[index]? with
        | none =>
          refine habsent (fun j' h => ?_) fun items _ _ h => by cases hint.symm.trans h
          cases h with
          | index _ hsome hsome' =>
            obtain rfl := Option.some.inj (hint.symm.trans hsome)
            cases hitem.symm.trans hsome'
        | some j' => exact .enters (.index hdigits hint hitem)
  | null | bool | int | float | str =>
    exact habsent (fun j' h => by cases h) fun items h => by cases h

theorem Enters.leads_cons (h : Enters platform token j j') :
    Leads platform (token :: tokens) j ↔ Leads platform tokens j' := by
  constructor
  · intro hleads
    cases hleads with
    | cons henters hleads => exact h.unique henters ▸ hleads
  · exact .cons h

theorem Enters.misread_cons (h : Enters platform token j j') :
    Misread platform (token :: tokens) j ↔
      (child token j = none ∧ Leads platform tokens j') ∨ Misread platform tokens j' := by
  constructor
  · intro hmisread
    cases hmisread with
    | digits _ hraises =>
      cases h with
      | index _ hint => cases hraises.symm.trans hint
    | token henters hchild hleads => exact .inl ⟨hchild, h.unique henters ▸ hleads⟩
    | later henters hmisread => exact .inr (h.unique henters ▸ hmisread)
  · rintro (⟨hchild, hleads⟩ | hmisread)
    · exact .token h hchild hleads
    · exact .later h hmisread

theorem Enters.resolveParts_cons (h : Enters platform token j j') :
    resolveParts platform (token :: tokens) j = resolveParts platform tokens j' := by
  have hread := read_resolveParts platform token tokens j
  generalize resolveParts platform (token :: tokens) j = result at hread ⊢
  cases hread with
  | enters henters => rw [h.unique henters]
  | raises _ hno | absent _ hno => exact absurd h (hno j')

/-- The pointer has a value for the code, or makes it raise, exactly when its tokens
    lead to a value or are misread. -/
theorem resolveParts_ne_absent :
    resolveParts platform tokens j ≠ some none ↔
      Leads platform tokens j ∨ Misread platform tokens j := by
  induction tokens generalizing j with
  | nil => exact iff_of_true (fun h => by cases h) (.inl .nil)
  | cons token tokens ih =>
    have hread := read_resolveParts platform token tokens j
    generalize resolveParts platform (token :: tokens) j = result at hread ⊢
    cases hread with
    | enters henters =>
      rw [ih, henters.leads_cons, henters.misread_cons, ← or_assoc, or_iff_left_of_imp And.right]
    | raises hmisread => exact iff_of_true (fun h => by cases h) (.inr hmisread)
    | absent hmisread hno =>
      refine iff_of_false (not_not.2 rfl) (fun h => h.elim (fun hleads => ?_) hmisread)
      cases hleads with
      | cons henters => exact hno _ henters

/-- What tokens designate is what the code resolves them to. -/
theorem resolveParts_of_designated (h : designated tokens j = some j') :
    resolveParts platform tokens j = some (some j') := by
  induction tokens generalizing j with
  | nil => exact congrArg some h
  | cons token tokens ih =>
    obtain ⟨next, hchild, hrest⟩ := Option.bind_eq_some_iff.1 h
    rw [(enters_of_child platform hchild).resolveParts_cons, ih hrest]

/-- Tokens are resolved to what they designate exactly when none is misread. -/
theorem resolveParts_eq_designated :
    resolveParts platform tokens j = some (designated tokens j) ↔ ¬ Misread platform tokens j := by
  induction tokens generalizing j with
  | nil => exact iff_of_true rfl (fun h => by cases h)
  | cons token tokens ih =>
    have hread := read_resolveParts platform token tokens j
    generalize hresult : resolveParts platform (token :: tokens) j = result at hread
    cases hread with
    | @enters j' henters =>
      rw [henters.misread_cons, designated]
      cases hchild : child token j with
      | none =>
        rw [Option.bind_none, and_iff_right rfl, ← resolveParts_ne_absent, not_not]
      | some next =>
        obtain rfl := henters.unique (enters_of_child platform hchild)
        rw [Option.bind_some, ih, or_iff_right (fun h => by cases h.1)]
    | raises hmisread => exact iff_of_false (fun h => by cases h) (not_not.2 hmisread)
    | absent hmisread hno =>
      have hchild : child token j = none := by
        cases h : child token j with
        | none => rfl
        | some next => exact absurd (enters_of_child platform h) (hno next)
      rw [designated, hchild]
      exact iff_of_true rfl hmisread

/-- No token is misread of those that designate a value. -/
theorem not_misread_of_designated (h : designated tokens j = some j') :
    ¬ Misread platform tokens j :=
  resolveParts_eq_designated.1 ((resolveParts_of_designated h).trans (congrArg some h.symm))

/-! ## Pointers -/

/-- A pointer that an assertion accepts is resolved as RFC 6901 does, and without an
    exception, exactly when none of its tokens is misread on the way to a value. -/
theorem resolve_iff_not_misread (platform : Platform) (document : Json) {pointer : Text}
    (h : Bounded 1 512 pointer ∧ pointer.head? = some 47) :
    resolvePointer platform document pointer = some (rfc6901 document pointer) ↔
      ¬ Misread platform (Text.split 47 pointer.tail) document := by
  obtain ⟨-, hhead⟩ := h
  obtain ⟨t, rfl⟩ := List.head?_eq_some_iff.1 hhead
  rw [resolvePointer, rfc6901, if_pos rfl, List.tail_cons]
  exact resolveParts_eq_designated

/-- What a pointer designates is what the code resolves it to. -/
theorem resolvePointer_of_rfc6901 (platform : Platform) {document : Json} {pointer : Text}
    (hhead : pointer.head? = some 47) (h : rfc6901 document pointer = some j) :
    resolvePointer platform document pointer = some (some j) := by
  obtain ⟨t, rfl⟩ := List.head?_eq_some_iff.1 hhead
  rw [rfc6901, if_pos rfl] at h
  rw [resolvePointer, if_pos hhead, List.tail_cons]
  exact resolveParts_of_designated h

/-- A platform to which a superscript is a digit, though not a decimal one. -/
def superscriptPlatform : Platform where
  hashing := ⟨.plain, fun _ => ⟨List.replicate 64 48, isDigest_zeros⟩⟩
  rounding := .finite
  dumpValue := id
  dumpJson _ := []
  word _ := false
  isDigit c := c = 0xB2
  decimal _ := none

/-- A document with a key that has a slash. -/
def nestedDocument : Json :=
  .obj [(lit "a/b", .arr [.null, .obj [(lit "~", .bool true)]])]

/-- A pointer with both escapes. -/
theorem resolve_iff_not_misread_example :
    resolvePointer superscriptPlatform nestedDocument (lit "/a~1b/1/~0") =
      some (rfc6901 nestedDocument (lit "/a~1b/1/~0")) := by
  have hdesignated : designated (Text.split 47 (lit "a~1b/1/~0")) nestedDocument = some (.bool true) := rfl
  exact (resolve_iff_not_misread _ _ (by decide)).2 (not_misread_of_designated hdesignated)

/-- An index with a leading zero designates nothing and is resolved; for a superscript
    the code raises. -/
theorem misread_index :
    (resolvePointer superscriptPlatform (.arr [.bool false, .bool true]) (lit "/01") =
        some (some (.bool true)) ∧
      rfc6901 (.arr [.bool false, .bool true]) (lit "/01") = none) ∧
    resolvePointer superscriptPlatform (.arr [.bool false]) [47, 0xB2] = none := by
  exact ⟨⟨rfl, rfl⟩, rfl⟩

end Evaluation

end McpRuntime
