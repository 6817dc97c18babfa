import McpRuntime.Python.Url

/-!
# URLs in authoring manifests

`validated_url` accepts a URL by what its authority and its path are once they are decoded
until they change no more.

* `unquoteLoop_iterate`: the loop of `_fully_unquote` ends, since each pass that changes the
  text makes it shorter.
* `Clear.of_unquote`: what is forbidden in a path is still there after a pass, so that a path
  that is clear when it is decoded was clear after every pass.
* `validatedUrl_decoded`: after any number of passes the path and the authority of a URL that
  is accepted have nothing that is forbidden.

Which characters beyond ASCII are printable is a parameter.
-/

namespace McpRuntime

/-- `str.isprintable`, of a character. No surrogate is printable. -/
def CodePoint.isPrintable (printable : CodePoint → Bool) (c : CodePoint) : Bool :=
  if c.val < 0x80 then 32 ≤ c.val && c.val < 127 else !c.isSurrogate && printable c

namespace Manifest

/-! ## The decoding loop -/

/-- The loop of `_fully_unquote`, for `fuel` turns at most; `none` when it has not ended. -/
def unquoteLoop : ℕ → Text → Option Text
  | 0, _ => none
  | fuel + 1, decoded =>
    if unquote decoded = decoded then some decoded else unquoteLoop fuel (unquote decoded)

/-- The loop ends with a text that a pass does not change, after no more passes than the text
    has characters. -/
theorem unquoteLoop_iterate (t : Text) :
    ∃ k ≤ t.length, unquote (unquote^[k] t) = unquote^[k] t ∧
      ∀ fuel, k < fuel → unquoteLoop fuel t = some (unquote^[k] t) := by
  induction hn : t.length using Nat.strong_induction_on generalizing t with
  | _ n ih =>
    by_cases hfixed : unquote t = t
    · refine ⟨0, Nat.zero_le _, hfixed, fun fuel hfuel => ?_⟩
      obtain ⟨fuel, rfl⟩ := Nat.exists_eq_add_of_lt hfuel
      rw [Nat.zero_add, unquoteLoop, if_pos hfixed]
      rfl
    · have hlt := (unquote_eq_or_lt t).resolve_left hfixed
      obtain ⟨k, hk, hend, hloop⟩ := ih _ (hn ▸ hlt) (unquote t) rfl
      refine ⟨k + 1, by omega, hend, fun fuel hfuel => ?_⟩
      obtain ⟨fuel, rfl⟩ : ∃ fuel', fuel = fuel' + 1 := ⟨fuel - 1, by omega⟩
      rw [unquoteLoop, if_neg hfixed]
      exact hloop fuel (by omega)

theorem unquoteLoop_isSome (t : Text) : (unquoteLoop (t.length + 1) t).isSome := by
  obtain ⟨k, hk, -, hloop⟩ := unquoteLoop_iterate t
  rw [hloop _ (by omega)]
  rfl

/-- `_fully_unquote`. -/
def fullyUnquote (value : Text) : Text :=
  (unquoteLoop (value.length + 1) value).get (unquoteLoop_isSome value)

theorem fullyUnquote_iterate (t : Text) :
    ∃ k, unquote (unquote^[k] t) = unquote^[k] t ∧ fullyUnquote t = unquote^[k] t := by
  obtain ⟨k, hk, hend, hloop⟩ := unquoteLoop_iterate t
  exact ⟨k, hend, Option.get_of_eq_some _ (hloop _ (by omega))⟩

/-! ## Validation -/

/-- Why a URL is refused, with a `ValueError`. -/
inductive UrlError
  | notVisible
  | notSplit
  | notAbsolute
  | traversal
  deriving DecidableEq

/-- The message of the error, where `validated_url` raises it. -/
def UrlError.message : UrlError → Option Text
  | notVisible => some (lit "URL must be bounded visible text")
  | notSplit => none
  | notAbsolute => some (lit "URL must be absolute and credential-free")
  | traversal => some (lit "URL path must not contain traversal")

/-- `_INVALID_PERCENT_ESCAPE.search(value)`. -/
def hasInvalidEscape : Text → Bool
  | [] => false
  | c :: t =>
    c = 37 && !((t.take 2).length = 2 && (t.take 2).all fun d => (hexNumber d).isSome) ||
      hasInvalidEscape t

section

variable (printable : CodePoint → Bool) (nfkc : Text → Text)

/-- `_is_visible`. -/
def isVisible (value : Text) : Bool := value.all fun c => c.isPrintable printable && !c.isSpace

/-- `validated_url`. -/
def validatedUrl (httpsOnly : Bool) (value : Text) : Except UrlError Text :=
  if ¬ isVisible printable value ∨ 2048 < value.utf8Length ∨ value.contains 63 ∨
      value.contains 35 ∨ hasInvalidEscape value then
    .error .notVisible
  else
    match urlsplit nfkc value with
    | none => .error .notSplit
    | some parsed =>
      let decodedAuthority := fullyUnquote parsed.netloc
      let decodedPath := fullyUnquote parsed.path
      if parsed.port = none ∨ ¬ (parsed.scheme = lit "https" ∨ !httpsOnly ∧ parsed.scheme = lit "http") ∨
          ¬ parsed.hasHostname ∨ parsed.username.isSome ∨ parsed.password.isSome ∨
          parsed.netloc.contains 37 ∨ decodedAuthority.contains 64 ∨
          decodedAuthority.contains 92 ∨ ¬ isVisible printable decodedAuthority then
        .error .notAbsolute
      else if ¬ isVisible printable decodedPath ∨ decodedPath.contains 92 ∨
          (decodedPath.split 47).any fun part => part = [46] ∨ part = [46, 46] then
        .error .traversal
      else .ok value

/-- A path with nothing that is forbidden: no segment of dots, no backslash, and nothing that is
    not visible. -/
structure Clear (path : Text) : Prop where
  segments : [46] ∉ path.split 47 ∧ [46, 46] ∉ path.split 47
  backslash : 92 ∉ path
  visible : ∀ c ∈ path, c.isPrintable printable ∧ ¬ c.isSpace

variable {printable : CodePoint → Bool} {nfkc : Text → Text}

theorem isVisible_iff {t : Text} :
    isVisible printable t = true ↔ ∀ c ∈ t, c.isPrintable printable ∧ ¬ c.isSpace := by
  simp [isVisible]

/-- What is not visible is no part of an escape. -/
theorem inert_of_not_visible {c : CodePoint} (h : ¬ (c.isPrintable printable ∧ ¬ c.isSpace)) :
    c.Inert := by
  -- What an escape is made of, `%` and the hexadecimal digits, is visible.
  have hvisible : ∀ c : CodePoint, 33 ≤ c.val → c.val < 127 →
      c.isPrintable printable ∧ ¬ c.isSpace := by
    intro c hlow hhigh
    rw [CodePoint.isPrintable, if_pos (by omega), CodePoint.isSpace]
    simp
    omega
  constructor
  · rintro rfl
    exact h (hvisible 37 (by decide) (by decide))
  · rw [hexNumber]
    split_ifs with hdigit hlower hupper
    · rw [CodePoint.isDigit, Bool.and_eq_true, decide_eq_true_iff, decide_eq_true_iff] at hdigit
      exact absurd (hvisible c (by omega) (by omega)) h
    · exact absurd (hvisible c (by omega) (by omega)) h
    · exact absurd (hvisible c (by omega) (by omega)) h
    · rfl

/-- What is forbidden in a path is still there after a pass. -/
theorem Clear.of_unquote {path : Text} (h : Clear printable (unquote path)) :
    Clear printable path := by
  have hdot : (46 : CodePoint).Inert := ⟨by decide, rfl⟩
  have hslash : (47 : CodePoint).Inert := ⟨by decide, rfl⟩
  refine ⟨⟨fun hmem => ?_, fun hmem => ?_⟩, fun hmem => ?_, fun c hc => ?_⟩
  · exact h.segments.1 (mem_split_unquote hslash (by simpa using hdot) hmem)
  · exact h.segments.2 (mem_split_unquote hslash (by simpa using hdot) hmem)
  · exact h.backslash (mem_unquote ⟨by decide, rfl⟩ hmem)
  · by_contra hhidden
    exact hhidden (h.visible c (mem_unquote (inert_of_not_visible hhidden) hc))

theorem Clear.of_iterate {path : Text} (n : ℕ) (h : Clear printable (unquote^[n] path)) :
    Clear printable path := by
  induction n generalizing path with
  | zero => exact h
  | succ n ih =>
    rw [Function.iterate_succ_apply] at h
    exact (ih h).of_unquote

/-- A path that is clear when it is decoded is clear after any number of passes: before the
    loop ends, since it is clear later, and from then on, since a pass does not change it. -/
theorem Clear.iterate {path : Text} (h : Clear printable (fullyUnquote path)) (n : ℕ) :
    Clear printable (unquote^[n] path) := by
  obtain ⟨k, hfixed, hk⟩ := fullyUnquote_iterate path
  rw [hk] at h
  rcases le_total n k with hle | hle <;> obtain ⟨m, rfl⟩ := Nat.exists_eq_add_of_le' hle
  · rw [Function.iterate_add_apply] at h
    exact h.of_iterate m
  · rwa [Function.iterate_add_apply, Function.iterate_fixed hfixed]

/-- An authority without user information, backslash and percent sign. -/
structure Bare (authority : Text) : Prop where
  userInfo : 64 ∉ authority
  backslash : 92 ∉ authority
  percent : 37 ∉ authority

/-- An authority without a percent sign is not changed by any number of passes. -/
theorem Bare.iterate {authority : Text} (hpercent : 37 ∉ authority)
    (huser : 64 ∉ fullyUnquote authority) (hbackslash : 92 ∉ fullyUnquote authority) (n : ℕ) :
    Bare (unquote^[n] authority) := by
  have hfixed : unquote authority = authority := if_neg hpercent
  have hiterate := Function.iterate_fixed hfixed
  obtain ⟨k, -, hk⟩ := fullyUnquote_iterate authority
  rw [hk, hiterate] at huser hbackslash
  rw [hiterate]
  exact ⟨huser, hbackslash, hpercent⟩

/-- What `validated_url` checks of a URL that it accepts. -/
theorem validatedUrl_eq_ok {httpsOnly : Bool} {value url : Text}
    (h : validatedUrl printable nfkc httpsOnly value = .ok url) :
    url = value ∧ ∃ parsed, urlsplit nfkc value = some parsed ∧
      Clear printable (fullyUnquote parsed.path) ∧ 37 ∉ parsed.netloc ∧
      64 ∉ fullyUnquote parsed.netloc ∧ 92 ∉ fullyUnquote parsed.netloc := by
  rw [validatedUrl] at h
  split_ifs at h
  cases hparsed : urlsplit nfkc value with
  | none =>
    rw [hparsed] at h
    cases h
  | some parsed =>
    rw [hparsed] at h
    dsimp only at h
    split_ifs at h with hauthority hpath
    simp only [not_or] at hauthority hpath
    -- Of the checks of the authority and the path, those that say something of the decoded URL.
    obtain ⟨-, -, -, -, -, hpercent, huser, hbackslash, -⟩ := hauthority
    obtain ⟨hvisible, hclear, hsegments⟩ := hpath
    cases h
    refine ⟨rfl, parsed, rfl, ⟨?_, by simpa using hclear, ?_⟩, by simpa using hpercent,
      by simpa using huser, by simpa using hbackslash⟩
    · simp only [List.any_eq_true, decide_eq_true_eq, not_exists, not_and, not_or] at hsegments
      exact ⟨fun hmem => (hsegments _ hmem).1 rfl, fun hmem => (hsegments _ hmem).2 rfl⟩
    · exact isVisible_iff.1 (not_not.1 hvisible)

/-- The decoding of any text ends, and after any number of passes the path of a URL that is
    accepted is clear, and its authority bare. -/
theorem validatedUrl_decoded (printable : CodePoint → Bool) (nfkc : Text → Text) :
    (∀ t : Text, ∃ k ≤ t.length, unquote (unquote^[k] t) = unquote^[k] t ∧
      ∀ fuel, k < fuel → unquoteLoop fuel t = some (unquote^[k] t)) ∧
    ∀ (httpsOnly : Bool) (value url : Text),
      validatedUrl printable nfkc httpsOnly value = .ok url →
        ∃ parsed, urlsplit nfkc url = some parsed ∧
          ∀ n, Clear printable (unquote^[n] parsed.path) ∧ Bare (unquote^[n] parsed.netloc) := by
  refine ⟨unquoteLoop_iterate, fun httpsOnly value url h => ?_⟩
  obtain ⟨rfl, parsed, hparsed, hpath, hpercent, huser, hbackslash⟩ := validatedUrl_eq_ok h
  exact ⟨parsed, hparsed, fun n => ⟨hpath.iterate n, Bare.iterate hpercent huser hbackslash n⟩⟩

/-- The path is decoded twice: `/a%252Fb` names `/a/b`. -/
theorem validatedUrl_decoded_example : ∃ parsed,
    urlsplit id (lit "https://example.com/a%252Fb") = some parsed ∧
      ∀ n, Clear (fun _ => false) (unquote^[n] parsed.path) ∧ Bare (unquote^[n] parsed.netloc) :=
  (validatedUrl_decoded (fun _ => false) id).2 true (lit "https://example.com/a%252Fb") _
    (by decide +kernel)

end

end Manifest

end McpRuntime
