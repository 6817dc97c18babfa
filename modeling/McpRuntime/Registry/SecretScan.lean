import McpRuntime.Redaction.Secrecy

/-!
# The secret scan of registry documents

What a registry answers is scanned before it is used: no text in it may be one that the
redactor would change, and under the key of a secret there may only be the mask.

* `secretSafe`: `_secret_safe`, with its bounds of depth and of values.
* `Cleared`, `cleared_of_secretSafe`: what the scan has seen of a document.
* `secretFree_iff_untouched`: a document that is accepted is free of secrets exactly when the
  redactor keeps all of its keys, and the masks in it.
-/

namespace McpRuntime

namespace Registry

/-- The text that stands for a secret in a document of the registry. -/
def maskText : Text := lit "***"

/-- `redact_text` of a redaction policy. -/
abbrev RedactText := Text → Except PyException Text

variable (unicode : UnicodeTable) (redactText : RedactText)

/-- `redact_text(value) == value`, and no exception. -/
def keeps (t : Text) : Bool :=
  match redactText t with
  | .ok u => u = t
  | .error _ => false

/-- The check of the bounds at a value: how many values have been seen with it. -/
def enterValue (depth seen : ℕ) : Option ℕ :=
  if 32 < depth ∨ 32768 < seen + 1 then none else some (seen + 1)

/-- `value == "***"` -/
def isMask : Json → Bool
  | .str t => t = maskText
  | _ => false

/-- `_secret_safe`: how many values have been seen where the value is safe, and otherwise
    `none`. -/
def secretSafe : Json → ℕ → ℕ → Option ℕ
  | .null, depth, seen => enterValue depth seen
  | .bool _, depth, seen => enterValue depth seen
  | .int _, depth, seen => enterValue depth seen
  | .float _, depth, seen => enterValue depth seen
  | .str t, depth, seen => do
    let seen ← enterValue depth seen
    if keeps redactText t then some seen else none
  | .arr items, depth, seen => do
    let seen ← enterValue depth seen
    itemsSafe items (depth + 1) seen
  | .obj members, depth, seen => do
    let seen ← enterValue depth seen
    membersSafe members (depth + 1) seen
where
  itemsSafe : List Json → ℕ → ℕ → Option ℕ
    | [], _, seen => some seen
    | item :: items, depth, seen => do
      let seen ← secretSafe item depth seen
      itemsSafe items depth seen
  membersSafe : List (Text × Json) → ℕ → ℕ → Option ℕ
    | [], _, seen => some seen
    | (key, item) :: members, depth, seen =>
      if isSecretKey unicode key then
        if isMask item then membersSafe members depth seen else none
      else do
        let seen ← secretSafe item depth seen
        membersSafe members depth seen

/-! ## What the scan has seen -/

/-- A document whose texts the redactor keeps, the masks of secrets apart. -/
inductive Cleared : Json → Prop
  | null : Cleared .null
  | bool (b : Bool) : Cleared (.bool b)
  | int (n : ℤ) : Cleared (.int n)
  | float (x : PyFloat) : Cleared (.float x)
  | str {t : Text} (h : keeps redactText t = true) : Cleared (.str t)
  | arr {items : List Json} (h : ∀ item ∈ items, Cleared item) : Cleared (.arr items)
  | obj {members : List (Text × Json)}
      (masked : ∀ m ∈ members, isSecretKey unicode m.1 = true → m.2 = .str maskText)
      (others : ∀ m ∈ members, isSecretKey unicode m.1 = false → Cleared m.2) : Cleared (.obj members)

/-- A value in a document. -/
inductive PartOf (document : Json) : Json → Prop
  | self : PartOf document document
  | item {items : List Json} {item : Json} :
      PartOf document (.arr items) → item ∈ items → PartOf document item
  | member {members : List (Text × Json)} {m : Text × Json} :
      PartOf document (.obj members) → m ∈ members → PartOf document m.2

/-- A document without secrets: the redactor keeps every text and every key in it, and under
    the key of a secret is the mask. -/
structure SecretFree (document : Json) : Prop where
  texts : ∀ t, PartOf document (.str t) → keeps redactText t = true
  keys : ∀ members, PartOf document (.obj members) → ∀ m ∈ members, keeps redactText m.1 = true
  masked : ∀ members, PartOf document (.obj members) →
    ∀ m ∈ members, isSecretKey unicode m.1 = true → m.2 = .str maskText

/-- The redactor keeps every key in a document, and the mask where it stands for a secret. -/
structure Untouched (document : Json) : Prop where
  keys : ∀ members, PartOf document (.obj members) → ∀ m ∈ members, keeps redactText m.1 = true
  mask : ∀ members, PartOf document (.obj members) →
    ∀ m ∈ members, isSecretKey unicode m.1 = true → keeps redactText maskText = true

variable {unicode redactText}

theorem isMask_iff {j : Json} : isMask j = true ↔ j = .str maskText := by
  cases j with
  | str t => exact decide_eq_true_iff.trans ⟨fun h => by rw [h], fun h => Json.str.inj h⟩
  | null | bool | int | float | arr | obj => exact ⟨fun h => (by cases h), fun h => (by cases h)⟩

/-- The scan of items clears each of them. -/
theorem itemsSafe_spec {items : List Json}
    (ih : ∀ item ∈ items, ∀ depth seen n,
      secretSafe unicode redactText item depth seen = some n → Cleared unicode redactText item)
    {depth seen n : ℕ} (h : secretSafe.itemsSafe unicode redactText items depth seen = some n) :
    ∀ item ∈ items, Cleared unicode redactText item := by
  induction items generalizing seen with
  | nil => exact fun _ hm => by cases hm
  | cons item items ihItems =>
    rw [secretSafe.itemsSafe] at h
    obtain ⟨between, hfirst, hrest⟩ := Option.bind_eq_some_iff.1 h
    obtain ⟨ihFirst, ihRest⟩ := List.forall_mem_cons.1 ih
    exact List.forall_mem_cons.2 ⟨ihFirst _ _ _ hfirst, ihItems ihRest hrest⟩

/-- The scan of members clears each of them, or finds a mask. -/
theorem membersSafe_spec {members : List (Text × Json)}
    (ih : ∀ m ∈ members, ∀ depth seen n,
      secretSafe unicode redactText m.2 depth seen = some n → Cleared unicode redactText m.2)
    {depth seen n : ℕ} (h : secretSafe.membersSafe unicode redactText members depth seen = some n) :
    ∀ m ∈ members, (isSecretKey unicode m.1 = true → m.2 = .str maskText) ∧
      (isSecretKey unicode m.1 = false → Cleared unicode redactText m.2) := by
  induction members generalizing seen with
  | nil => exact fun _ hm => by cases hm
  | cons m members ihMembers =>
    obtain ⟨key, item⟩ := m
    obtain ⟨ihFirst, ihRest⟩ := List.forall_mem_cons.1 ih
    rw [secretSafe.membersSafe] at h
    refine List.forall_mem_cons.2 ?_
    dsimp only
    -- The scan does not go into the value of a secret key: it has to be the mask.
    split_ifs at h with hkey hmask
    · refine ⟨⟨fun _ => isMask_iff.1 hmask, fun hother => ?_⟩, ihMembers ihRest h⟩
      cases hkey.symm.trans hother
    · obtain ⟨between, hfirst, hrest⟩ := Option.bind_eq_some_iff.1 h
      exact ⟨⟨fun hsecret => absurd hsecret hkey, fun _ => ihFirst _ _ _ hfirst⟩,
        ihMembers ihRest hrest⟩

/-- What the scan accepts is cleared. -/
theorem cleared_of_secretSafe {document : Json} {depth seen n : ℕ}
    (h : secretSafe unicode redactText document depth seen = some n) :
    Cleared unicode redactText document := by
  induction document using Json.induct generalizing depth seen n with
  | null => exact .null
  | bool b => exact .bool b
  | int i => exact .int i
  | float x => exact .float x
  | str t =>
    rw [secretSafe] at h
    obtain ⟨between, -, h⟩ := Option.bind_eq_some_iff.1 h
    split_ifs at h with hkeeps
    exact .str hkeeps
  | arr items ih =>
    -- The counter of the scan goes on from item to item, so the items are cleared for any count.
    rw [secretSafe] at h
    obtain ⟨between, -, h⟩ := Option.bind_eq_some_iff.1 h
    exact .arr (itemsSafe_spec (fun item hm _ _ _ hs => ih item hm hs) h)
  | obj members ih =>
    rw [secretSafe] at h
    obtain ⟨between, -, h⟩ := Option.bind_eq_some_iff.1 h
    have hall := membersSafe_spec (fun m hm _ _ _ hs => ih m hm hs) h
    exact .obj (fun m hm => (hall m hm).1) fun m hm => (hall m hm).2

/-- A value in a cleared document is cleared, or is the mask of a secret. -/
theorem Cleared.part {document value : Json} (h : Cleared unicode redactText document)
    (hpart : PartOf document value) : Cleared unicode redactText value ∨
      ∃ members, PartOf document (.obj members) ∧ ∃ m ∈ members,
        isSecretKey unicode m.1 = true ∧ value = .str maskText := by
  induction hpart with
  | self => exact .inl h
  | item _ hitem ih =>
    rcases ih with h | ⟨_, _, _, _, _, he⟩
    · cases h with
      | arr h => exact .inl (h _ hitem)
    · cases he
  | @member members m hobj hm ih =>
    rcases ih with h | ⟨_, _, _, _, _, he⟩
    · cases h with
      | obj masked others =>
        cases hsecret : isSecretKey unicode m.1 with
        | true => exact .inr ⟨members, hobj, m, hm, hsecret, masked m hm hsecret⟩
        | false => exact .inl (others m hm hsecret)
    · cases he

/-- A document that the scan accepts is without secrets exactly when the redactor keeps all of
    its keys, and the masks in it. -/
theorem secretFree_iff_untouched {document : Json} {n : ℕ}
    (h : secretSafe unicode redactText document 0 0 = some n) :
    SecretFree unicode redactText document ↔ Untouched unicode redactText document := by
  have hcleared := cleared_of_secretSafe h
  constructor
  · intro hfree
    refine ⟨hfree.keys, fun members hpart m hm hsecret => ?_⟩
    exact hfree.texts _ (hfree.masked members hpart m hm hsecret ▸ hpart.member hm)
  · intro huntouched
    refine ⟨fun t hpart => ?_, huntouched.keys, fun members hpart m hm hsecret => ?_⟩
    · rcases hcleared.part hpart with h | ⟨members, hobj, m, hm, hsecret, he⟩
      · cases h with
        | str h => exact h
      · cases he
        exact huntouched.mask members hobj m hm hsecret
    · rcases hcleared.part hpart with h | ⟨_, _, _, _, _, he⟩
      · cases h with
        | obj masked _ => exact masked m hm hsecret
      · cases he

/-! ## Examples -/

/-- A document with one text. -/
def noted (key t : Text) : Json := .obj [(key, .str t)]

/-- The values in this document. -/
theorem partOf_noted {key t : Text} {value : Json} (h : PartOf (noted key t) value) :
    value = noted key t ∨ value = .str t := by
  induction h with
  | self => exact .inl rfl
  | item _ hitem ih => rcases ih with he | he <;> cases he
  | member _ hm ih =>
    rcases ih with he | he
    · cases he
      exact .inr (congrArg Prod.snd (List.mem_singleton.1 hm))
    · cases he

/-- A redactor that knows one secret. -/
def hunterText : RedactText :=
  (SecretRedactor.create [SecretRedactor.hunter] .standard).redactText fun _ => false

/-- The mask of a token. -/
theorem secretFree_iff_untouched_example :
    SecretFree ⟨fun c => [c], fun c => [c]⟩ hunterText (noted (lit "token") maskText) := by
  have hmask : keeps hunterText maskText = true := by decide +kernel
  refine (secretFree_iff_untouched (n := 1) (by decide +kernel)).2
    ⟨fun members hpart m hm => ?_, fun _ _ _ _ _ => hmask⟩
  rcases partOf_noted hpart with he | he
  · cases he
    rw [List.mem_singleton.1 hm]
    decide +kernel
  · cases he

/-- A known secret is a key. -/
example :
    secretSafe ⟨fun c => [c], fun c => [c]⟩ hunterText (noted (lit "hunter22") (lit "none")) 0 0 =
      some 2 ∧
    ¬ SecretFree ⟨fun c => [c], fun c => [c]⟩ hunterText (noted (lit "hunter22") (lit "none")) := by
  refine ⟨by decide +kernel, fun h => ?_⟩
  exact absurd (h.keys _ .self _ (.head _)) (by decide +kernel)

end Registry

end McpRuntime
