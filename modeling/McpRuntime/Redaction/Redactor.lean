import McpRuntime.Python.CanonicalJson
import McpRuntime.Python.Except
import McpRuntime.Python.Regex
import McpRuntime.Errors
import McpRuntime.Redaction

/-!
# The redactor

`SecretRedactor` replaces the known secrets, and what looks like a credential, in
the texts and the keys of a JSON value, and every value under the key of a
secret. The value is bounded before and after.

Which characters beyond ASCII belong to a word, and how they are folded, is the
Unicode table of Python, a parameter.

* `freshKey_notMem`: the loop that looks for a free key ends with one, so that
  `wellFormed_transform`: a redacted value has distinct keys.
-/

namespace McpRuntime

/-- `RedactionLimits`, each of them within its hard maximum. -/
structure RedactionLimits where
  maxDepth : ℕ := 64
  maxNodes : ℕ := 65536
  maxTextBytes : ℕ := 1048576
  depth_range : 1 ≤ maxDepth ∧ maxDepth ≤ 64 := by decide
  nodes_range : 1 ≤ maxNodes ∧ maxNodes ≤ 65536 := by decide
  text_range : 1 ≤ maxTextBytes ∧ maxTextBytes ≤ 1048576 := by decide

namespace RedactionLimits

theorem standard_depth : 1 ≤ 64 ∧ 64 ≤ 64 := by decide

theorem standard_nodes : 1 ≤ 65536 ∧ 65536 ≤ 65536 := by decide

theorem standard_text : 1 ≤ 1048576 ∧ 1048576 ≤ 1048576 := by decide

/-- The default limits. -/
def standard : RedactionLimits where
  depth_range := standard_depth
  nodes_range := standard_nodes
  text_range := standard_text

end RedactionLimits

/-- `RedactionError`. -/
def PyException.redactionError : PyException := ⟨.other, lit "RedactionError"⟩

/-- `UnicodeEncodeError`. -/
def PyException.unicodeEncodeError : PyException := ⟨.valueError, lit "UnicodeEncodeError"⟩

/-! ## The patterns -/

namespace Pattern

/-- A character matches a lower case letter in a pattern that ignores case. Some
    characters beyond ASCII have an ASCII letter as their lower case, or share
    their upper case with one. -/
def sameLetter (a c : CodePoint) : Bool :=
  c.asciiLower == a || (a.val == 105 && (c.val == 0x130 || c.val == 0x131)) ||
    (a.val == 115 && c.val == 0x17F) || (a.val == 107 && c.val == 0x212A)

/-- One of the characters of a text. -/
def oneOf (t : Text) : Regex CodePoint := .char fun c => t.contains c

/-- A character other than those of a text. -/
def noneOf (t : Text) : Regex CodePoint := .char fun c => !t.contains c

/-- The letters of a word, in any case. -/
def letters (word : String) : Regex CodePoint := .text sameLetter (lit word)

/-- The characters of a text. -/
def exactly (t : String) : Regex CodePoint := .text (· == ·) (lit t)

/-- `[-_ ]?` -/
def separator : Regex CodePoint := (oneOf (lit "-_ ")).optional

/-- `\s` -/
def space : Regex CodePoint := .char CodePoint.isSpace

/-- `[^\s,;}\]]+` -/
def unquoted : Regex CodePoint :=
  (Regex.char fun c => !c.isSpace && !(lit ",;\x7d]").contains c).plus

/-- A word, a separator, and another word. -/
def pair (first : Regex CodePoint) (second : String) : Regex CodePoint :=
  .all [first, separator, letters second]

/-- The names in `_SECRET_ASSIGNMENT`. -/
def assignedName : Regex CodePoint :=
  (letters "authorization").first
    [pair (letters "proxy") "authorization",
      letters "token",
      pair ((letters "access").first [letters "refresh", letters "auth", letters "id"]) "token",
      pair (letters "api") "key",
      letters "credential",
      letters "password",
      pair (letters "client") "secret",
      pair (letters "private") "key",
      .seq (pair ((pair (letters "secret") "access").first
          [letters "access", letters "signing", letters "encryption"]) "key")
        (Regex.seq separator (letters "id")).optional]

/-- The characters of a word: letters, digits and `_`, and beyond ASCII those of
    the Unicode table. -/
def isWord (word : CodePoint → Bool) (c : CodePoint) : Bool :=
  if c.val < 0x80 then c.isAlphanumeric || c.val == 95 else word c

/-- The group `prefix` of `_SECRET_ASSIGNMENT`. -/
def assignmentPrefix (word : CodePoint → Bool) : Regex CodePoint :=
  .all [.boundary (isWord word), assignedName, .boundary (isWord word),
    (oneOf (lit "\"'")).optional, .star space, oneOf (lit ":="), .star space]

/-- A text in quotes, on one line. -/
def inQuotes (quote : String) : Regex CodePoint :=
  .all [exactly quote, .star (noneOf (lit (quote ++ "\r\n"))), exactly quote]

/-- The group `value` of `_SECRET_ASSIGNMENT`. -/
def assignmentValue : Regex CodePoint :=
  (Regex.all [(letters "bearer").first [letters "basic"], space.plus, unquoted]).first
    [inQuotes "\"", inQuotes "'", unquoted]

/-- `[A-Za-z0-9_-]` -/
def isJwtChar (c : CodePoint) : Bool := c.isAlphanumeric || c.val == 95 || c.val == 45

/-- `_JWT` -/
def jwt : Regex CodePoint :=
  let part : Regex CodePoint := (Regex.char isJwtChar).atLeast 8
  .all [.notBehind isJwtChar, part, exactly ".", part, exactly ".", part, .notAhead isJwtChar]

/-- A line of `_PRIVATE_KEY`: its first word, the kind of the key if there is one,
    and the rest. -/
def keyLine (word : String) : Regex CodePoint :=
  let kind : Regex CodePoint := .char fun c => (65 ≤ c.val && c.val ≤ 90) || c.isDigit
  .all [exactly ("-----" ++ word ++ " "), (Regex.seq kind.plus (exactly " ")).optional,
    exactly "PRIVATE KEY-----"]

/-- `_PRIVATE_KEY` -/
def privateKey : Regex CodePoint :=
  .all [keyLine "BEGIN", .lazy (.char fun _ => true), keyLine "END"]

end Pattern

/-- `replace_assignment`, of the assigned text. A quoted text keeps its quotes. -/
def redactAssigned : Text → Text
  | [] => redactedText
  | quote :: rest =>
    if (quote.val = 34 ∨ quote.val = 39) ∧ (quote :: rest).getLast? = some quote then
      quote :: redactedText ++ [quote]
    else redactedText

/-- What `_SECRET_ASSIGNMENT.sub(replace_assignment, text)` finds. -/
def findAssignment (word : CodePoint → Bool) : Finder CodePoint := fun c =>
  ((Pattern.assignmentPrefix word).lengths Pattern.assignmentValue c).map fun (n, m) =>
    (n + m, c.after.take n ++ redactAssigned ((c.after.drop n).take m))

/-! ## Redaction -/

/-- `SecretRedactor`: the known secrets, each of them once, the longest first. -/
structure SecretRedactor where
  knownSecrets : List Text
  limits : RedactionLimits

/-- The values of a list, each of them once. -/
def distinct (values : List Text) : List Text :=
  values.foldl (fun seen value => if value ∈ seen then seen else seen ++ [value]) []

/-- The number that sets a redacted key apart from the keys before it. -/
def keySuffix (suffix : ℕ) : Text := lit "#" ++ natText suffix

/-- The loop of `_transform` over the suffixes of a key, `fuel` turns at most. -/
def freshFrom (used : List Text) (key : Text) : ℕ → ℕ → Text
  | 0, suffix => key ++ keySuffix suffix
  | fuel + 1, suffix =>
    if key ++ keySuffix suffix ∈ used then freshFrom used key fuel (suffix + 1)
    else key ++ keySuffix suffix

/-- The key for the redacted key `key` in an output with the keys `used`. -/
def freshKey (used : List Text) (key : Text) : Text :=
  if key ∈ used then freshFrom used key (used.length - 1) 2 else key

/-- Suffixes with distinct numbers are distinct. -/
theorem keySuffix_inj {m n : ℕ} (h : keySuffix m = keySuffix n) : m = n :=
  natText_inj (List.append_cancel_left h)

/-- The loop gives the key a suffix, and one in use only where all of them are. -/
theorem freshFrom_spec (used : List Text) (key : Text) (fuel suffix : ℕ) :
    ∃ n, suffix ≤ n ∧ n ≤ suffix + fuel ∧
      freshFrom used key fuel suffix = key ++ keySuffix n ∧
      (key ++ keySuffix n ∈ used →
        ∀ m, suffix ≤ m → m ≤ suffix + fuel → key ++ keySuffix m ∈ used) := by
  induction fuel generalizing suffix with
  | zero =>
    refine ⟨suffix, le_rfl, le_rfl, rfl, fun h m hm hm' => ?_⟩
    rwa [Nat.le_antisymm hm' hm]
  | succ fuel ih =>
    rw [freshFrom]
    split_ifs with hused
    · obtain ⟨n, hn, hn', he, hall⟩ := ih (suffix + 1)
      refine ⟨n, by omega, by omega, he, fun h m hm hm' => ?_⟩
      rcases Nat.eq_or_lt_of_le hm with rfl | hlt
      · exact hused
      · exact hall h m hlt (by omega)
    · exact ⟨suffix, le_rfl, by omega, rfl, fun h => absurd h hused⟩

/-- A fresh key is the key, or the key with a suffix that is at most one more
    than the number of the keys before it. -/
theorem freshKey_cases (used : List Text) (key : Text) :
    freshKey used key = key ∨
      key ∈ used ∧ ∃ n, 2 ≤ n ∧ n ≤ used.length + 1 ∧ freshKey used key = key ++ keySuffix n := by
  rw [freshKey]
  split_ifs with hkey
  · obtain ⟨n, hn, hn', he, -⟩ := freshFrom_spec used key (used.length - 1) 2
    have hpos := List.length_pos_of_mem hkey
    exact .inr ⟨hkey, n, hn, by omega, he⟩
  · exact .inl rfl

/-- The loop ends with a key that is not in use. -/
theorem freshKey_notMem (used : List Text) (key : Text) : freshKey used key ∉ used := by
  rw [freshKey]
  split_ifs with hkey
  · obtain ⟨n, hn, hn', he, hall⟩ := freshFrom_spec used key (used.length - 1) 2
    rw [he]
    intro hused
    -- otherwise the key and its suffixes would be more keys than there are
    have hpos := List.length_pos_of_mem hkey
    have hnodup : (key :: (List.range' 2 used.length).map fun n => key ++ keySuffix n).Nodup := by
      rw [List.nodup_cons]
      constructor
      · intro hmem
        obtain ⟨m, -, hm⟩ := List.mem_map.1 hmem
        have hnil := List.append_right_eq_self.1 hm
        exact List.cons_ne_nil _ _ hnil
      · exact List.Nodup.map (fun m m' h => keySuffix_inj (List.append_cancel_left h))
          (List.nodup_range' 1 Nat.one_pos)
    have hsub : (key :: (List.range' 2 used.length).map fun n => key ++ keySuffix n) ⊆ used := by
      rw [List.cons_subset]
      refine ⟨hkey, fun t ht => ?_⟩
      obtain ⟨m, hm, rfl⟩ := List.mem_map.1 ht
      rw [List.mem_range'_1] at hm
      exact hall hused m hm.1 (by omega)
    have hlength := (List.subperm_of_subset hnodup hsub).length_le
    rw [List.length_cons, List.length_map, List.length_range'] at hlength
    omega
  · exact hkey

/-- `_InputBudget`. -/
structure InputBudget where
  nodes : ℕ := 0
  textBytes : ℕ := 0

namespace SecretRedactor

/-- `SecretRedactor(known_secrets=…, limits=…)`. -/
def create (knownSecrets : List SecretValue) (limits : RedactionLimits) : SecretRedactor :=
  ⟨(distinct (knownSecrets.map SecretValue.reveal)).insertionSort fun a b => b.length ≤ a.length,
    limits⟩

variable (unicode : UnicodeTable) (word : CodePoint → Bool) (r : SecretRedactor)

/-- The known secrets are replaced in turn. -/
def replaceSecrets (value : Text) : Text :=
  r.knownSecrets.foldl (fun value secret => value.replace secret redactedText) value

/-- `_redact_text`. -/
def redactPlain (value : Text) : Text :=
  let value := r.replaceSecrets value
  let value := sub (Pattern.privateKey.replacedBy redactedText) [] 0 value
  let value := sub (Pattern.jwt.replacedBy redactedText) [] 0 value
  sub (findAssignment word) [] 0 value

/-- `len(value.encode("utf-8"))`, which raises where UTF-8 cannot encode the
    text. -/
def encodedLength (value : Text) : Except PyException ℕ :=
  if value.Encodable then pure value.utf8Length else throw .unicodeEncodeError

/-- `_check_text`. -/
def checkText (value : Text) : Except PyException Unit := do
  let bytes ← encodedLength value
  if r.limits.maxTextBytes < bytes then throw .redactionError

/-- `redact_text`. -/
def redactText (value : Text) : Except PyException Text := do
  r.checkText value
  let redacted := r.redactPlain word value
  r.checkText redacted
  pure redacted

/-- `_consume_text`. -/
def consumeText (value : Text) (budget : InputBudget) : Except PyException InputBudget := do
  let bytes ← encodedLength value
  if r.limits.maxTextBytes < budget.textBytes + bytes then throw .redactionError
  else pure { budget with textBytes := budget.textBytes + bytes }

/-- The checks of `_validate` at a value: its depth, and one node more. -/
def enter (depth : ℕ) (budget : InputBudget) : Except PyException InputBudget :=
  if r.limits.maxDepth < depth ∨ r.limits.maxNodes < budget.nodes + 1 then throw .redactionError
  else pure { budget with nodes := budget.nodes + 1 }

/-- `_validate`, with the budget that it leaves. -/
def validate : Json → ℕ → InputBudget → Except PyException InputBudget
  | .null, depth, budget => r.enter depth budget
  | .bool _, depth, budget => r.enter depth budget
  | .int _, depth, budget => r.enter depth budget
  | .float x, depth, budget => do
    let budget ← r.enter depth budget
    if x.isFinite then pure budget else throw .redactionError
  | .str t, depth, budget => do
    let budget ← r.enter depth budget
    r.consumeText t budget
  | .arr items, depth, budget => do
    let budget ← r.enter depth budget
    validateItems items (depth + 1) budget
  | .obj members, depth, budget => do
    let budget ← r.enter depth budget
    validateMembers members (depth + 1) budget
where
  validateItems : List Json → ℕ → InputBudget → Except PyException InputBudget
    | [], _, budget => pure budget
    | item :: items, depth, budget => do
      let budget ← validate item depth budget
      validateItems items depth budget
  validateMembers : List (Text × Json) → ℕ → InputBudget → Except PyException InputBudget
    | [], _, budget => pure budget
    | (key, item) :: members, depth, budget => do
      let budget ← r.consumeText key budget
      let budget ← validate item depth budget
      validateMembers members depth budget

/-- `_transform`. -/
def transform : Json → Json
  | .str t => .str (r.redactPlain word t)
  | .arr items => .arr (transformItems items)
  | .obj members => .obj (transformMembers [] members)
  | j => j
where
  transformItems : List Json → List Json
    | [] => []
    | item :: items => transform item :: transformItems items
  /-- The members of an object, with the keys `used` already in the output. -/
  transformMembers (used : List Text) : List (Text × Json) → List (Text × Json)
    | [] => []
    | (key, item) :: members =>
      let candidate := freshKey used (r.redactPlain word key)
      (candidate, if isSecretKey unicode key then .str redactedText else transform item) ::
        transformMembers (candidate :: used) members

/-- `redact`. -/
def redact (value : Json) : Except PyException Json := do
  let _ ← r.validate value 0 {}
  let output := r.transform unicode word value
  let _ ← r.validate output 0 {}
  pure output

/-! ## The shape of the output -/

/-- The items of a redacted array. -/
theorem transformItems_eq (items : List Json) :
    transform.transformItems unicode word r items = items.map (r.transform unicode word) := by
  induction items with
  | nil => rfl
  | cons item items ih => rw [transform.transformItems, ih, List.map_cons]

/-- The keys of a redacted object are distinct, and not among those in use. -/
theorem nodup_transformMembers (used : List Text) (members : List (Text × Json)) :
    ((transform.transformMembers unicode word r used members).map Prod.fst).Nodup ∧
      ∀ key ∈ (transform.transformMembers unicode word r used members).map Prod.fst,
        key ∉ used := by
  induction members generalizing used with
  | nil => exact ⟨List.nodup_nil, nofun⟩
  | cons m members ih =>
    obtain ⟨key, item⟩ := m
    obtain ⟨hnodup, hused⟩ := ih (freshKey used (r.redactPlain word key) :: used)
    rw [transform.transformMembers, List.map_cons, List.nodup_cons, List.forall_mem_cons]
    refine ⟨⟨fun hmem => ?_, hnodup⟩, freshKey_notMem _ _, fun k hk hmem => ?_⟩
    · exact hused _ hmem List.mem_cons_self
    · exact hused k hk (List.mem_cons_of_mem _ hmem)

/-- The members of a redacted object are redacted, or under the key of a
    secret. -/
theorem mem_transformMembers {used : List Text} {members : List (Text × Json)} {m : Text × Json}
    (hm : m ∈ transform.transformMembers unicode word r used members) :
    ∃ m' ∈ members, (isSecretKey unicode m'.1 = true ∧ m.2 = .str redactedText) ∨
      (isSecretKey unicode m'.1 = false ∧ m.2 = r.transform unicode word m'.2) := by
  induction members generalizing used with
  | nil => exact absurd hm List.not_mem_nil
  | cons first members ih =>
    obtain ⟨key, item⟩ := first
    rw [transform.transformMembers] at hm
    rcases List.mem_cons.1 hm with rfl | hm
    · refine ⟨(key, item), List.mem_cons_self, ?_⟩
      cases hkey : isSecretKey unicode key with
      | true => exact .inl ⟨rfl, rfl⟩
      | false => exact .inr ⟨rfl, rfl⟩
    · obtain ⟨m', hm', h⟩ := ih hm
      exact ⟨m', List.mem_cons_of_mem _ hm', h⟩

/-- A redacted value has distinct keys at every object, whatever keys are
    redacted to one text. -/
theorem wellFormed_transform (j : Json) : (r.transform unicode word j).WellFormed := by
  induction j using Json.induct with
  | null => trivial
  | bool b => trivial
  | int n => trivial
  | float x => trivial
  | str t => trivial
  | arr items ih =>
    rw [transform, transformItems_eq, Json.wellFormed_arr]
    exact List.forall_mem_map.2 ih
  | obj members ih =>
    rw [transform, Json.wellFormed_obj]
    refine ⟨(nodup_transformMembers unicode word r [] members).1, fun m hm => ?_⟩
    obtain ⟨m', hm', ⟨-, he⟩ | ⟨-, he⟩⟩ := mem_transformMembers unicode word r hm
    · rw [he]
      trivial
    · rw [he]
      exact ih m' hm'

end SecretRedactor

end McpRuntime
