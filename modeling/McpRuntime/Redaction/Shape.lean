import McpRuntime.Redaction.Secrecy

/-!
# The shape of a redacted value

A redacted value is the value itself with other texts and keys: its arrays keep their items
and its objects their members, one for one and in order, and whole values are replaced only
under the keys of secrets. The keys stay distinct, whichever of them are redacted to one text:
the loop that looks for a free key ends (`keyLoop_freshKey`).
-/

namespace McpRuntime.SecretRedactor

/-- The `while` loop of `_transform`, from a candidate and the next suffix: it ends with a
    candidate that is not in use. -/
inductive KeyLoop (used : List Text) (redactedKey : Text) : Text → ℕ → Text → Prop
  | done {candidate : Text} {suffix : ℕ} :
      candidate ∉ used → KeyLoop used redactedKey candidate suffix candidate
  | turn {candidate result : Text} {suffix : ℕ} : candidate ∈ used →
      KeyLoop used redactedKey (redactedKey ++ keySuffix suffix) (suffix + 1) result →
        KeyLoop used redactedKey candidate suffix result

/-- The turns from a suffix on, where one of the next candidates is free. -/
theorem keyLoop_freshFrom {used : List Text} {key : Text} {fuel suffix : ℕ}
    (h : freshFrom used key fuel suffix ∉ used) :
    KeyLoop used key (key ++ keySuffix suffix) (suffix + 1) (freshFrom used key fuel suffix) := by
  induction fuel generalizing suffix with
  | zero => exact .done h
  | succ fuel ih =>
    rw [freshFrom] at h ⊢
    split_ifs at h ⊢ with hused
    · exact .turn hused (ih h)
    · exact .done h

/-- The loop ends with the fresh key. -/
theorem keyLoop_freshKey (used : List Text) (key : Text) :
    KeyLoop used key key 2 (freshKey used key) := by
  have hfresh := freshKey_notMem used key
  rw [freshKey] at hfresh ⊢
  split_ifs at hfresh ⊢ with hused
  · exact .turn hused (keyLoop_freshFrom hfresh)
  · exact .done hfresh

/-- A loop has one end. -/
theorem KeyLoop.unique {used : List Text} {key candidate result result' : Text} {suffix : ℕ}
    (h : KeyLoop used key candidate suffix result)
    (h' : KeyLoop used key candidate suffix result') : result = result' := by
  induction h with
  | done hfree =>
    cases h' with
    | done _ => rfl
    | turn hused _ => exact absurd hused hfree
  | turn hused _ ih =>
    cases h' with
    | done hfree => exact absurd hused hfree
    | turn _ hrest => exact ih hrest

variable (unicode : UnicodeTable) (word : CodePoint → Bool) (r : SecretRedactor)

/-- A key in the output is the redacted key, or has a suffix after it. -/
def RedactedKey (key candidate : Text) : Prop :=
  candidate = r.redactPlain word key ∨
    ∃ suffix, 2 ≤ suffix ∧ candidate = r.redactPlain word key ++ keySuffix suffix

mutual

/-- Two values have one shape: texts stand for texts, and items and members for items and
    members, one by one. -/
inductive SameShape : Json → Json → Prop
  | null : SameShape .null .null
  | bool (b : Bool) : SameShape (.bool b) (.bool b)
  | int (n : ℤ) : SameShape (.int n) (.int n)
  | float (x : PyFloat) : SameShape (.float x) (.float x)
  | str (t : Text) : SameShape (.str t) (.str (r.redactPlain word t))
  | arr {items items' : List Json} :
      List.Forall₂ SameShape items items' → SameShape (.arr items) (.arr items')
  | obj {members members' : List (Text × Json)} : (members'.map Prod.fst).Nodup →
      List.Forall₂ SameMember members members' → SameShape (.obj members) (.obj members')

/-- A member stands for another: only under the key of a secret, its value is replaced. -/
inductive SameMember : Text × Json → Text × Json → Prop
  | secret {key candidate : Text} {item : Json} : isSecretKey unicode key = true →
      r.RedactedKey word key candidate → SameMember (key, item) (candidate, .str redactedText)
  | other {key candidate : Text} {item item' : Json} : isSecretKey unicode key = false →
      r.RedactedKey word key candidate → SameShape item item' →
      SameMember (key, item) (candidate, item')

end

/-- A key in the output is that of its member, with whatever keys in use. -/
theorem redactedKey_freshKey (used : List Text) (key : Text) :
    r.RedactedKey word key (freshKey used (r.redactPlain word key)) := by
  rcases freshKey_cases used (r.redactPlain word key) with he | ⟨-, n, hn, -, he⟩
  · exact .inl he
  · exact .inr ⟨n, hn, he⟩

/-- The members of a redacted object stand for its members. -/
theorem sameMember_transformMembers {members : List (Text × Json)}
    (h : ∀ m ∈ members, SameShape unicode word r m.2 (r.transform unicode word m.2))
    (used : List Text) :
    List.Forall₂ (SameMember unicode word r) members
      (transform.transformMembers unicode word r used members) := by
  induction members generalizing used with
  | nil => exact .nil
  | cons m members ih =>
    obtain ⟨key, item⟩ := m
    obtain ⟨hitem, hmembers⟩ := List.forall_mem_cons.1 h
    -- A key may have a suffix, which the keys in use before it decide.
    have hkey := redactedKey_freshKey word r used key
    rw [transform.transformMembers]
    refine .cons ?_ (ih hmembers _)
    split_ifs with hsecret
    · exact .secret hsecret hkey
    · exact .other (Bool.eq_false_of_not_eq_true hsecret) hkey hitem

/-- A redacted value has the shape of the value. -/
theorem sameShape_transform (j : Json) : SameShape unicode word r j (r.transform unicode word j) := by
  induction j using Json.induct with
  | null => exact .null
  | bool b => exact .bool b
  | int n => exact .int n
  | float x => exact .float x
  | str t => exact .str t
  | arr items ih =>
    rw [transform, transformItems_eq]
    exact .arr (List.forall₂_map_right_iff.2 (List.forall₂_same.2 ih))
  | obj members ih =>
    rw [transform]
    exact .obj (nodup_transformMembers unicode word r [] members).1
      (sameMember_transformMembers unicode word r ih [])

/-- What `redact` returns has the shape of the value, and the loop over the suffixes of a key
    ends, with the key that the output has. -/
theorem redact_sameShape {j out : Json} (h : r.redact unicode word j = .ok out) :
    SameShape unicode word r j out ∧
      ∀ (used : List Text) (key candidate : Text),
        KeyLoop used key key 2 candidate ↔ candidate = freshKey used key := by
  refine ⟨?_, fun used key candidate => ⟨fun hloop => ?_, ?_⟩⟩
  · rw [redact_eq_ok unicode word h]
    exact sameShape_transform unicode word r j
  · exact hloop.unique (keyLoop_freshKey used key)
  · rintro rfl
    exact keyLoop_freshKey used key

/-- Two keys that are redacted to one text, and a key that has that text with a suffix. -/
theorem redact_sameShape_example :
    SameShape ⟨fun c => [c], fun c => [c]⟩ (fun _ => false) (create [hunter] {})
      (.obj [(lit "hunter22", .arr [.null]), (lit "[REDACTED]", .int 1),
        (lit "[REDACTED]#2", .str (lit "hunter22"))])
      (.obj [(lit "[REDACTED]", .arr [.null]), (lit "[REDACTED]#2", .int 1),
        (lit "[REDACTED]#2#2", .str (lit "[REDACTED]"))]) :=
  (redact_sameShape ⟨fun c => [c], fun c => [c]⟩ (fun _ => false) (create [hunter] {}) rfl).1

end McpRuntime.SecretRedactor
