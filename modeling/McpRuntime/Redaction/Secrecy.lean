import McpRuntime.Redaction.Redactor

/-!
# What redaction lets through

The redactor replaces a known secret by a marker, and what looks like a credential
as well. The marker is text, and so is the number that sets a redacted key apart
from another: with what is beside them they can make up a known secret again.

* `SecretRedactor.redact_secretless`: a known secret that shares no characters
  with what is inserted does not occur in the output; nor does one of a value in
  which nothing is redacted.
* `SecretRedactor.redact_reveals`: the secret `REDACTED` occurs in every text from
  which it has been redacted.
* `SecretRedactor.redact_noninterference`: the output does not depend on the values
  under the keys of secrets.
-/

namespace McpRuntime

namespace Json

/-- The strings and the keys in a value. -/
def texts : Json → List Text
  | .str t => [t]
  | .arr items => itemTexts items
  | .obj members => memberTexts members
  | _ => []
where
  itemTexts : List Json → List Text
    | [] => []
    | item :: items => item.texts ++ itemTexts items
  memberTexts : List (Text × Json) → List Text
    | [] => []
    | (key, item) :: members => key :: item.texts ++ memberTexts members

/-- The texts in the items of an array. -/
theorem mem_itemTexts {items : List Json} {t : Text} :
    t ∈ texts.itemTexts items ↔ ∃ item ∈ items, t ∈ item.texts := by
  induction items with
  | nil => simp [texts.itemTexts]
  | cons item items ih => simp [texts.itemTexts, ih]

/-- The texts in the members of an object: the keys, and those in the values. -/
theorem mem_memberTexts {members : List (Text × Json)} {t : Text} :
    t ∈ texts.memberTexts members ↔ ∃ m ∈ members, t = m.1 ∨ t ∈ m.2.texts := by
  induction members with
  | nil => simp [texts.memberTexts]
  | cons m members ih => simp [texts.memberTexts, ih, or_assoc]

/-- A value without what is under the keys of secrets. -/
def mask (unicode : UnicodeTable) : Json → Json
  | .arr items => .arr (maskItems items)
  | .obj members => .obj (maskMembers members)
  | j => j
where
  maskItems : List Json → List Json
    | [] => []
    | item :: items => mask unicode item :: maskItems items
  maskMembers : List (Text × Json) → List (Text × Json)
    | [] => []
    | (key, item) :: members =>
      (key, if isSecretKey unicode key then .null else mask unicode item) :: maskMembers members

/-- The items of an array, masked. -/
theorem maskItems_eq (unicode : UnicodeTable) (items : List Json) :
    mask.maskItems unicode items = items.map (mask unicode) := by
  induction items with
  | nil => rfl
  | cons item items ih => rw [mask.maskItems, ih, List.map_cons]

end Json

/-! ## Texts that come apart from what is inserted -/

/-- A text could end in a suffix that is put at the end of another text, or occur
    in the suffix. -/
def Straddles (suffix s : Text) : Prop :=
  s <:+: suffix ∨ ∃ w, w ≠ [] ∧ w <:+ s ∧ w <+: suffix

/-- A text that does not straddle a suffix does not occur because of it. -/
theorem not_infix_append {s key suffix : Text} (hs : ¬ Straddles suffix s) (hkey : ¬ s <:+: key) :
    ¬ s <:+: key ++ suffix := by
  rw [List.infix_append_iff_ne_nil]
  rintro (h | h | ⟨x, y, -, hy, rfl, -, hpre⟩)
  · exact hkey h
  · exact hs (.inl h)
  · exact hs (.inr ⟨y, hy, List.suffix_append x y, hpre⟩)

namespace SecretRedactor

variable (unicode : UnicodeTable) (word : CodePoint → Bool) (r : SecretRedactor)

/-- Nothing in the text is redacted: no known secret occurs in it, and nothing
    looks like a credential. -/
def Untouched (t : Text) : Prop :=
  (∀ s ∈ r.knownSecrets, ¬ s <:+: t) ∧
    search (Pattern.privateKey.replacedBy redactedText) [] t = false ∧
    search (Pattern.jwt.replacedBy redactedText) [] t = false ∧
    search (findAssignment word) [] t = false

/-- A text in which a known secret cannot survive: the secret has nothing in common
    with the marker, or no marker is put into the text. -/
def SafeText (s t : Text) : Prop := ¬ Overlaps redactedText s ∨ r.Untouched word t

/-- The keys of an object in which a known secret cannot survive: each of them is safe,
    and they are redacted to distinct texts, or the secret has nothing in common
    with the suffixes that set equal ones apart. -/
def SafeKeys (s : Text) (keys : List Text) : Prop :=
  (∀ key ∈ keys, r.SafeText word s key) ∧
    ((keys.map (r.redactPlain word)).Nodup ∨
      ∀ n, 2 ≤ n → n ≤ keys.length → ¬ Straddles (keySuffix n) s)

/-- A value in which a known secret cannot survive. -/
def Safe (s : Text) : Json → Prop
  | .str t => r.SafeText word s t
  | .arr items => safeItems items
  | .obj members => r.SafeKeys word s (members.map Prod.fst) ∧ safeMembers members
  | _ => True
where
  safeItems : List Json → Prop
    | [] => True
    | item :: items => Safe s item ∧ safeItems items
  safeMembers : List (Text × Json) → Prop
    | [] => True
    | (key, item) :: members =>
      (if isSecretKey unicode key then ¬ s <:+: redactedText else Safe s item) ∧
        safeMembers members

/-! ## Texts -/

variable {r} {s t : Text}

/-- `_SECRET_ASSIGNMENT.sub` leaves the marker, between a beginning and an end of
    what it matches. -/
theorem marks_findAssignment : Marks redactedText (findAssignment word) := by
  intro c n new h
  rw [findAssignment, Option.map_eq_some_iff] at h
  obtain ⟨⟨k, m⟩, -, he⟩ := h
  cases he
  rw [List.take_add]
  cases hassigned : (c.after.drop k).take m with
  | nil =>
    refine ⟨c.after.take k, [], ?_, List.prefix_append _ _, List.nil_suffix⟩
    rw [redactAssigned, List.append_nil]
  | cons quote rest =>
    rw [redactAssigned]
    split_ifs with hquote
    · -- the quotes are the first and the last character of what is assigned
      obtain ⟨rest', hrest'⟩ := List.getLast?_eq_some_iff.1 hquote.2
      refine ⟨c.after.take k ++ [quote], [quote], by simp, ?_, ?_⟩
      · rw [List.prefix_append_right_inj]
        exact List.prefix_append [quote] rest
      · rw [hrest']
        exact ⟨c.after.take k ++ rest', by rw [List.append_assoc]⟩
    · exact ⟨c.after.take k, [], by rw [List.append_nil], List.prefix_append _ _,
        List.nil_suffix⟩

/-- A known secret that has nothing in common with the marker does not occur in a
    redacted text. -/
theorem not_infix_redactPlain (hne : ∀ s' ∈ r.knownSecrets, s' ≠ []) (hs : s ∈ r.knownSecrets)
    (hm : ¬ Overlaps redactedText s) : ¬ s <:+: r.redactPlain word t := by
  have hnil := hne s hs
  have hknown : ¬ s <:+: r.replaceSecrets t :=
    not_infix_foldl_replaceAll hne hnil hm (.inl hs)
  have hkey := (patched_sub (Regex.marks_replacedBy Pattern.privateKey redactedText) _).not_occurs
    hnil hm hknown
  have hjwt := (patched_sub (Regex.marks_replacedBy Pattern.jwt redactedText) _).not_occurs
    hnil hm hkey
  exact (patched_sub (marks_findAssignment word) _).not_occurs hnil hm hjwt

/-- A text in which nothing is redacted is kept. -/
theorem redactPlain_eq_self (h : r.Untouched word t) : r.redactPlain word t = t := by
  obtain ⟨hsecrets, hkey, hjwt, hassignment⟩ := h
  have hself : r.replaceSecrets t = t := foldl_replaceAll_eq_self hsecrets
  simp only [redactPlain, hself, sub_eq_self hkey, sub_eq_self hjwt, sub_eq_self hassignment]

/-- A text in which something is redacted carries the marker afterwards. -/
theorem infix_redactPlain (hne : ∀ s' ∈ r.knownSecrets, s' ≠ []) (h : ¬ r.Untouched word t) :
    redactedText <:+: r.redactPlain word t := by
  have hkey := Regex.marks_replacedBy Pattern.privateKey redactedText
  have hjwt := Regex.marks_replacedBy Pattern.jwt redactedText
  have hassignment := marks_findAssignment word
  simp only [redactPlain, replaceSecrets]
  -- the first of the passes that changes the text leaves a marker, and the rest keep it
  by_cases hsecrets : ∃ s' ∈ r.knownSecrets, s' <:+: t
  · exact infix_sub_of_occurs hassignment (infix_sub_of_occurs hjwt (infix_sub_of_occurs hkey
      (infix_foldl_replaceAll hne (.inl hsecrets))))
  · have hself : r.knownSecrets.foldl
        (fun value secret => Text.replace value secret redactedText) t = t := by
      exact foldl_replaceAll_eq_self fun s' hs' hin => hsecrets ⟨s', hs', hin⟩
    rw [hself]
    by_cases hfoundKey : search (Pattern.privateKey.replacedBy redactedText) [] t = true
    · exact infix_sub_of_occurs hassignment (infix_sub_of_occurs hjwt (infix_sub hkey hfoundKey))
    · rw [sub_eq_self (Bool.eq_false_iff.2 hfoundKey)]
      by_cases hfoundJwt : search (Pattern.jwt.replacedBy redactedText) [] t = true
      · exact infix_sub_of_occurs hassignment (infix_sub hjwt hfoundJwt)
      · rw [sub_eq_self (Bool.eq_false_iff.2 hfoundJwt)]
        refine infix_sub hassignment (by_contra fun hfound => h ⟨?_, ?_, ?_, ?_⟩)
        · exact fun s' hs' hin => hsecrets ⟨s', hs', hin⟩
        · exact Bool.eq_false_iff.2 hfoundKey
        · exact Bool.eq_false_iff.2 hfoundJwt
        · exact Bool.eq_false_iff.2 hfound

/-- A known secret that is a part of the marker occurs in a redacted text just when
    something in the text is redacted. -/
theorem infix_redactPlain_iff (hne : ∀ s' ∈ r.knownSecrets, s' ≠ []) (hs : s ∈ r.knownSecrets)
    (hm : s <:+: redactedText) : s <:+: r.redactPlain word t ↔ ¬ r.Untouched word t := by
  constructor
  · intro hin huntouched
    rw [redactPlain_eq_self word huntouched] at hin
    exact huntouched.1 s hs hin
  · exact fun h => hm.trans (infix_redactPlain word hne h)

/-- A known secret does not survive in a safe text. -/
theorem SafeText.not_occurs (h : r.SafeText word s t) (hne : ∀ s' ∈ r.knownSecrets, s' ≠ [])
    (hs : s ∈ r.knownSecrets) : ¬ s <:+: r.redactPlain word t := by
  rcases h with hm | ht
  · exact not_infix_redactPlain word hne hs hm
  · rw [redactPlain_eq_self word ht]
    exact ht.1 s hs

/-! ## Values -/

/-- The items of an array are safe when each of them is. -/
theorem safeItems_iff {items : List Json} :
    Safe.safeItems unicode word r s items ↔ ∀ item ∈ items, r.Safe unicode word s item := by
  induction items with
  | nil => simp [Safe.safeItems]
  | cons item items ih => rw [Safe.safeItems, ih, List.forall_mem_cons]

/-- The values of an object are safe when each of them is, or is replaced by a marker
    in which the secret does not occur. -/
theorem safeMembers_iff {members : List (Text × Json)} :
    Safe.safeMembers unicode word r s members ↔ ∀ m ∈ members,
      if isSecretKey unicode m.1 then ¬ s <:+: redactedText else r.Safe unicode word s m.2 := by
  induction members with
  | nil => simp [Safe.safeMembers]
  | cons m members ih => rw [Safe.safeMembers, ih, List.forall_mem_cons]

/-- A known secret that has nothing in common with the suffixes does not occur in the
    keys of a redacted object, where it does not occur in the redacted keys. -/
theorem not_infix_key {used : List Text} {members : List (Text × Json)}
    (hplain : ∀ m ∈ members, ¬ s <:+: r.redactPlain word m.1)
    (hsuffix : ∀ n, 2 ≤ n → n ≤ used.length + members.length → ¬ Straddles (keySuffix n) s) :
    ∀ key ∈ (transform.transformMembers unicode word r used members).map Prod.fst,
      ¬ s <:+: key := by
  induction members generalizing used with
  | nil => exact fun key hkey => absurd hkey List.not_mem_nil
  | cons m members ih =>
    obtain ⟨key, item⟩ := m
    rw [List.forall_mem_cons] at hplain
    rw [transform.transformMembers, List.map_cons, List.forall_mem_cons]
    constructor
    · rcases freshKey_cases used (r.redactPlain word key) with he | ⟨-, n, hn, hn', he⟩
      · rw [he]
        exact hplain.1
      · rw [he]
        exact not_infix_append (hsuffix n hn (by rw [List.length_cons]; omega)) hplain.1
    · refine ih hplain.2 fun n hn hn' => hsuffix n hn ?_
      rw [List.length_cons] at hn' ⊢
      omega

/-- Keys that are redacted to distinct texts get no suffix. -/
theorem keys_eq_redacted {used : List Text} {members : List (Text × Json)}
    (hnodup : (members.map fun m => r.redactPlain word m.1).Nodup)
    (hused : ∀ m ∈ members, r.redactPlain word m.1 ∉ used) :
    (transform.transformMembers unicode word r used members).map Prod.fst =
      members.map fun m => r.redactPlain word m.1 := by
  induction members generalizing used with
  | nil => rfl
  | cons m members ih =>
    obtain ⟨key, item⟩ := m
    rw [List.map_cons, List.nodup_cons] at hnodup
    rw [List.forall_mem_cons] at hused
    have hfresh : freshKey used (r.redactPlain word key) = r.redactPlain word key :=
      if_neg hused.1
    rw [transform.transformMembers, List.map_cons, List.map_cons, hfresh]
    refine congrArg (r.redactPlain word key :: ·) (ih hnodup.2 fun m hm hmem => ?_)
    -- the keys in use are those before, and this one
    rcases List.mem_cons.1 hmem with he | hmem
    · exact hnodup.1 (he ▸ List.mem_map_of_mem hm)
    · exact hused.2 m hm hmem

/-- A known secret does not occur in the keys of a redacted object, where they are
    safe. -/
theorem SafeKeys.not_occurs {members : List (Text × Json)}
    (h : r.SafeKeys word s (members.map Prod.fst))
    (hne : ∀ s' ∈ r.knownSecrets, s' ≠ []) (hs : s ∈ r.knownSecrets) :
    ∀ key ∈ (transform.transformMembers unicode word r [] members).map Prod.fst,
      ¬ s <:+: key := by
  obtain ⟨hsafe, hkeys⟩ := h
  have hplain : ∀ m ∈ members, ¬ s <:+: r.redactPlain word m.1 := fun m hm =>
    (hsafe m.1 (List.mem_map_of_mem hm)).not_occurs word hne hs
  rcases hkeys with hnodup | hsuffix
  · rw [List.map_map] at hnodup
    rw [keys_eq_redacted unicode word hnodup fun _ _ => List.not_mem_nil]
    exact List.forall_mem_map.2 hplain
  · refine not_infix_key unicode word hplain fun n hn hn' => hsuffix n hn ?_
    rwa [List.length_nil, Nat.zero_add, ← List.length_map (f := Prod.fst)] at hn'

/-- A known secret does not survive in a safe value. -/
theorem Safe.not_occurs {j : Json} (h : r.Safe unicode word s j)
    (hne : ∀ s' ∈ r.knownSecrets, s' ≠ []) (hs : s ∈ r.knownSecrets) :
    ∀ t ∈ (r.transform unicode word j).texts, ¬ s <:+: t := by
  induction j using Json.induct with
  | null => exact fun t ht => absurd ht List.not_mem_nil
  | bool b => exact fun t ht => absurd ht List.not_mem_nil
  | int n => exact fun t ht => absurd ht List.not_mem_nil
  | float x => exact fun t ht => absurd ht List.not_mem_nil
  | str u =>
    intro t ht
    rw [List.mem_singleton.1 ht]
    exact SafeText.not_occurs word h hne hs
  | arr items ih =>
    intro t ht
    rw [transform, transformItems_eq, Json.texts, Json.mem_itemTexts] at ht
    obtain ⟨_, hitem, ht⟩ := ht
    obtain ⟨item, hmem, rfl⟩ := List.mem_map.1 hitem
    exact ih item hmem ((safeItems_iff unicode word).1 h item hmem) t ht
  | obj members ih =>
    intro t ht
    rw [transform, Json.texts, Json.mem_memberTexts] at ht
    obtain ⟨m, hm, ht⟩ := ht
    rcases ht with rfl | ht
    · exact h.1.not_occurs unicode word hne hs m.1 (List.mem_map_of_mem hm)
    · obtain ⟨m', hm', hvalue⟩ := mem_transformMembers unicode word r hm
      have hsafe := (safeMembers_iff unicode word).1 h.2 m' hm'
      rcases hvalue with ⟨hkey, he⟩ | ⟨hkey, he⟩
      · rw [if_pos hkey] at hsafe
        rw [he, Json.texts, List.mem_singleton] at ht
        rwa [ht]
      · rw [if_neg (Bool.eq_false_iff.1 hkey)] at hsafe
        rw [he] at ht
        exact ih m' hm' hsafe t ht

/-! ## The results -/

/-- The values of a list, each of them once, are its values. -/
theorem mem_distinct {values : List Text} {t : Text} : t ∈ distinct values ↔ t ∈ values := by
  have hfold : ∀ (values seen : List Text),
      t ∈ values.foldl (fun seen value => if value ∈ seen then seen else seen ++ [value]) seen ↔
        t ∈ seen ∨ t ∈ values := by
    intro values
    induction values with
    | nil => simp
    | cons value values ih =>
      intro seen
      rw [List.foldl_cons, ih]
      split_ifs with hseen
      · rw [List.mem_cons]
        refine ⟨Or.imp_right .inr, ?_⟩
        rintro (h | rfl | h)
        · exact .inl h
        · exact .inl hseen
        · exact .inr h
      · rw [List.mem_append, List.mem_singleton, List.mem_cons, or_assoc]
  exact (hfold values []).trans (or_iff_right List.not_mem_nil)

/-- The known secrets of a redactor are those it is created with. -/
theorem mem_create {known : List SecretValue} {limits : RedactionLimits} {t : Text} :
    t ∈ (create known limits).knownSecrets ↔ ∃ v ∈ known, v.reveal = t := by
  rw [create, List.mem_insertionSort, mem_distinct, List.mem_map]

/-- A known secret has at least four characters. -/
theorem ne_nil_of_mem_create {known : List SecretValue} {limits : RedactionLimits} :
    ∀ t ∈ (create known limits).knownSecrets, t ≠ [] := by
  intro t ht
  obtain ⟨v, -, rfl⟩ := mem_create.1 ht
  exact List.ne_nil_of_length_pos (Nat.lt_of_lt_of_le (by decide) v.length_range.1)

/-- What `redact_text` gives. -/
theorem redactText_eq_ok {t u : Text} (h : r.redactText word t = .ok u) :
    u = r.redactPlain word t := by
  rw [redactText, bind_eq_ok] at h
  obtain ⟨-, -, h⟩ := h
  obtain ⟨-, -, h⟩ := bind_eq_ok.1 h
  exact (pure_eq_ok.1 h).symm

/-- What `redact` gives. -/
theorem redact_eq_ok {j out : Json} (h : r.redact unicode word j = .ok out) :
    out = r.transform unicode word j := by
  rw [redact, bind_eq_ok] at h
  obtain ⟨-, -, h⟩ := h
  obtain ⟨-, -, h⟩ := bind_eq_ok.1 h
  exact (pure_eq_ok.1 h).symm

/-- No known secret is in a redacted text, nor in a string or a key of a redacted
    value, where it has nothing in common with what redaction inserts, or where
    nothing is inserted; and this is the only case for a secret that is a part of
    the marker. -/
theorem redact_secretless (known : List SecretValue) (limits : RedactionLimits) (v : SecretValue)
    (hv : v ∈ known) :
    (∀ t u, (create known limits).redactText word t = .ok u →
      ((create known limits).SafeText word v.reveal t → ¬ v.reveal <:+: u) ∧
        (v.reveal <:+: redactedText → ¬ v.reveal <:+: u →
          (create known limits).SafeText word v.reveal t)) ∧
    ∀ j out, (create known limits).redact unicode word j = .ok out →
      (create known limits).Safe unicode word v.reveal j →
        ∀ t ∈ out.texts, ¬ v.reveal <:+: t := by
  have hmem : v.reveal ∈ (create known limits).knownSecrets := mem_create.2 ⟨v, hv, rfl⟩
  constructor
  · intro t u h
    rw [redactText_eq_ok word h]
    refine ⟨fun hsafe => SafeText.not_occurs word hsafe ne_nil_of_mem_create hmem,
      fun hm hnot => ?_⟩
    rw [infix_redactPlain_iff word ne_nil_of_mem_create hmem hm, not_not] at hnot
    exact .inr hnot
  · intro j out h hsafe
    rw [redact_eq_ok unicode word h]
    exact Safe.not_occurs unicode word hsafe ne_nil_of_mem_create hmem

/-- A known secret without anything in common with what is inserted. -/
def hunter : SecretValue where
  reveal := lit "hunter22"
  length_range := by decide
  strip_eq := by decide
  ne_redacted := by decide
  visible := by decide

/-- A known secret that has nothing in common with the marker, but with the suffixes. -/
def numbered : SecretValue where
  reveal := lit "pass#"
  length_range := by decide
  strip_eq := by decide
  ne_redacted := by decide
  visible := by decide

/-- A known secret in a text, and two in an object: one in a key, which gets no suffix,
    the other in the value under it. -/
theorem redact_secretless_example :
    (¬ hunter.reveal <:+: lit "log in as [REDACTED]!") ∧
      ∀ t ∈ (Json.obj [(lit "hello", .int 1),
          (lit "say [REDACTED] now", .str (lit "log in as [REDACTED]!"))]).texts,
        ¬ numbered.reveal <:+: t ∧ ¬ hunter.reveal <:+: t := by
  have hhunter : ¬ Overlaps redactedText hunter.reveal := by decide
  have hnumbered : ¬ Overlaps redactedText numbered.reveal := by decide
  have hsecretless := redact_secretless ⟨fun c => [c], fun c => [c]⟩ (fun _ => false)
    [hunter, numbered] {}
  have hkeys : (([lit "hello", lit "say pass# now"] : List Text).map
      ((create [hunter, numbered] {}).redactPlain fun _ => false)).Nodup := by
    show List.Nodup [lit "hello", lit "say [REDACTED] now"]
    decide
  have hvalue : ∀ v ∈ [hunter, numbered], ¬ Overlaps redactedText v.reveal →
      ∀ t ∈ (Json.obj [(lit "hello", .int 1),
        (lit "say [REDACTED] now", .str (lit "log in as [REDACTED]!"))]).texts,
      ¬ v.reveal <:+: t := by
    intro v hv hm
    refine (hsecretless v hv).2 (.obj [(lit "hello", .int 1),
      (lit "say pass# now", .str (lit "log in as hunter22!"))]) _ rfl ?_
    refine ⟨⟨fun _ _ => .inl hm, .inl hkeys⟩, ?_, ?_, trivial⟩
    · rw [if_neg (by decide)]
      trivial
    · rw [if_neg (by decide)]
      exact .inl hm
  have hmem : numbered ∈ [hunter, numbered] := List.mem_cons_of_mem _ List.mem_cons_self
  exact ⟨((hsecretless hunter List.mem_cons_self).1 (lit "log in as hunter22!") _ rfl).1
    (.inl hhunter), fun t ht => ⟨hvalue numbered hmem hnumbered t ht,
      hvalue hunter List.mem_cons_self hhunter t ht⟩⟩

/-- A known secret that is a part of the marker. -/
def partOfMarker : SecretValue where
  reveal := lit "REDACTED"
  length_range := by decide
  strip_eq := by decide
  ne_redacted := by decide
  visible := by decide

/-- The text of a known secret is redacted to a text in which the secret occurs. -/
theorem redact_reveals :
    ¬ ∀ (unicode : UnicodeTable) (word : CodePoint → Bool) (known : List SecretValue)
      (limits : RedactionLimits),
      (∀ t u, (create known limits).redactText word t = .ok u →
        ∀ v ∈ known, ¬ v.reveal <:+: u) ∧
      ∀ j out, j.WellFormed → (create known limits).redact unicode word j = .ok out →
        ∀ v ∈ known, ∀ t ∈ out.texts, ¬ v.reveal <:+: t := by
  intro h
  have hnot := (h ⟨fun c => [c], fun c => [c]⟩ (fun _ => false) [partOfMarker] {}).1
    (lit "REDACTED") redactedText rfl partOfMarker List.mem_cons_self
  exact hnot ⟨lit "[", lit "]", rfl⟩

/-- Redaction does not change with what is masked. -/
theorem transform_mask (j : Json) :
    r.transform unicode word (j.mask unicode) = r.transform unicode word j := by
  induction j using Json.induct with
  | null => rfl
  | bool b => rfl
  | int n => rfl
  | float x => rfl
  | str t => rfl
  | arr items ih =>
    rw [Json.mask, transform, transform, transformItems_eq, transformItems_eq,
      Json.maskItems_eq, List.map_map]
    exact congrArg Json.arr (List.map_congr_left ih)
  | obj members ih =>
    rw [Json.mask, transform, transform]
    -- the keys, and with them the suffixes, are those of the members
    have hmembers : ∀ used, transform.transformMembers unicode word r used
        (Json.mask.maskMembers unicode members) =
          transform.transformMembers unicode word r used members := by
      induction members with
      | nil => exact fun used => rfl
      | cons m members ihm =>
        obtain ⟨key, item⟩ := m
        intro used
        have hitem := ih (key, item) List.mem_cons_self
        rw [Json.mask.maskMembers, transform.transformMembers, transform.transformMembers,
          ihm fun m hm => ih m (List.mem_cons_of_mem _ hm)]
        split_ifs with hkey
        · rfl
        · rw [hitem]
    rw [hmembers]

/-- Two values that differ only under the keys of secrets are redacted to the same
    output. -/
theorem redact_noninterference (r : SecretRedactor) {a b x y : Json}
    (h : a.mask unicode = b.mask unicode) (ha : r.redact unicode word a = .ok x)
    (hb : r.redact unicode word b = .ok y) : x = y := by
  rw [redact_eq_ok unicode word ha, redact_eq_ok unicode word hb, ← transform_mask, h,
    transform_mask]

/-- Two values that differ in what is under the key of a password. -/
theorem redact_noninterference_example :
    ∃ x y,
      (create [hunter] {}).redact ⟨fun c => [c], fun c => [c]⟩ (fun _ => false)
        (.obj [(lit "password", .str (lit "hunter22")), (lit "n", .int 1)]) = .ok x ∧
      (create [hunter] {}).redact ⟨fun c => [c], fun c => [c]⟩ (fun _ => false)
        (.obj [(lit "password", .arr [.null, .int 2]), (lit "n", .int 1)]) = .ok y ∧ x = y :=
  ⟨_, _, rfl, rfl, redact_noninterference ⟨fun c => [c], fun c => [c]⟩ (fun _ => false)
    (create [hunter] {}) (a := .obj [(lit "password", .str (lit "hunter22")), (lit "n", .int 1)])
    (b := .obj [(lit "password", .arr [.null, .int 2]), (lit "n", .int 1)]) rfl rfl rfl⟩

end SecretRedactor

end McpRuntime
