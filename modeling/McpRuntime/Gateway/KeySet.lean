import McpRuntime.Python.CanonicalJson
import McpRuntime.Python.Dict

/-!
# The key sets of a gateway

A gateway signs its tokens with keys that it publishes as a *key set*, a bounded
JSON document. `validateJwks` reads the keys of a set for the one algorithm that
is configured, and refuses a set with anything unusable in it.

What is read is in the document: the key of an id is made from a member of
`keys` with that id (`publishes_of_validateJwks`).
-/

namespace McpRuntime.Gateway

/-- The part of the `GatewayIdentityConfig` that the keys depend on, with what
    `__post_init__` makes sure of. -/
structure GatewayIdentityConfig where
  algorithm : Text
  jwksFreshSeconds : ℚ
  jwksStaleSeconds : ℚ
  jwksRetrySeconds : ℚ
  maxJwksBytes : ℕ
  maxJwksKeys : ℕ
  fresh_pos : 0 < jwksFreshSeconds
  fresh_le_stale : jwksFreshSeconds ≤ jwksStaleSeconds
  retry_pos : 0 < jwksRetrySeconds
  maxJwksKeys_pos : 0 < maxJwksKeys

/-! ## The size of a document -/

/-- The number of ASCII characters `json.dumps` writes for a character of a
    text. -/
def escapedLength (c : CodePoint) : ℕ :=
  if c.val = 34 ∨ c.val = 92 ∨ c.val = 8 ∨ c.val = 9 ∨ c.val = 10 ∨ c.val = 12 ∨ c.val = 13 then 2
  else if 32 ≤ c.val ∧ c.val < 127 then 1
  -- beyond the basic plane, a pair of surrogates is written
  else if c.val < 0x10000 then 6 else 12

/-- The number of characters `json.dumps` writes for a text. -/
def escapedTextLength (t : Text) : ℕ := 2 + (t.map escapedLength).sum

section
variable (w : JsonWriter)

/-- The number of characters `json.dumps` writes for a float, the non-finite
    values included. -/
def floatLength : PyFloat → ℕ
  | .posInf => (lit "Infinity").length
  | .negInf => (lit "-Infinity").length
  | .nan => (lit "NaN").length
  | x => (w.floatText x).length

/-- The number of bytes of the document `json.dumps` writes without spaces, in
    ASCII; the order of the members does not matter to it. -/
def encodedLength : Json → ℕ
  | .null => 4
  | .bool true => 4
  | .bool false => 5
  | .int n => (intText n).length
  | .float x => floatLength w x
  | .str t => escapedTextLength t
  | .arr [] => 2
  | .arr items => 1 + itemsLength items
  | .obj [] => 2
  | .obj members => 1 + membersLength members
where
  /-- Each item, with the comma or the bracket after it. -/
  itemsLength : List Json → ℕ
    | [] => 0
    | j :: items => encodedLength j + 1 + itemsLength items
  membersLength : List (Text × Json) → ℕ
    | [] => 0
    | (key, j) :: members => escapedTextLength key + 1 + encodedLength j + 1 + membersLength members

end

/-! ## The keys of a document -/

/-- `_bounded_claim`: a short text without control characters, and without white
    space at its ends. -/
def boundedClaim (maximum : ℕ) : Option Json → Option Text
  | some (.str t) =>
    if t = [] ∨ t ≠ t.strip ∨ maximum < t.length ∨ t.any (fun c => c.val < 32 || c.val == 127) then none
    else some t
  | _ => none

section
variable {K : Type*} (config : GatewayIdentityConfig) (fromDict : List (Text × Json) → Option K)

/-- Whether a value is the given text. -/
def isText (t : Text) : Option Json → Bool
  | some (.str u) => u = t
  | _ => false

/-- `use in {None, "sig"}`, where a list or an object raises `TypeError`. -/
def usable : Option Json → Bool
  | none | some .null => true
  | use => isText (lit "sig") use

/-- What an iteration of the loop of `_validate_jwks` reads from a member: its id,
    and its key if it is one for the algorithm. The parameter `fromDict` is
    `jwt.PyJWK.from_dict`, for the algorithm. -/
def readKey : Json → Option (Text × Option K)
  | .obj rawKey =>
    match boundedClaim 128 (Json.get (lit "kid") rawKey) with
    | none => none
    | some kid =>
      if !isText config.algorithm (Json.get (lit "alg") rawKey) then some (kid, none)
      else if !usable (Json.get (lit "use") rawKey) then none
      else (fromDict rawKey).map fun key => (kid, some key)
  | _ => none

/-- The loop of `_validate_jwks`, which refuses an id that it has observed. -/
def readKeys (observed : List Text) (result : Dict Text K) : List Json → Option (Dict Text K)
  | [] => some result
  | rawKey :: rawKeys =>
    match readKey config fromDict rawKey with
    | none => none
    | some (kid, key) =>
      if observed.contains kid then none
      else readKeys (kid :: observed) (key.elim result fun key => result.insert kid key) rawKeys

/-- `_validate_jwks`: the keys of a document by their ids, if it is accepted. -/
def validateJwks (w : JsonWriter) (document : List (Text × Json)) : Option (Dict Text K) :=
  if w.refuses (.obj document) || config.maxJwksBytes < encodedLength w (.obj document) then none
  else
    match Json.get (lit "keys") document with
    | some (.arr rawKeys) =>
      if rawKeys = [] || config.maxJwksKeys < rawKeys.length then none
      else (readKeys config fromDict [] ∅ rawKeys).filter fun keys => keys.len ≠ 0
    | _ => none

/-! ## What a key set publishes -/

/-- A member of a key set with the id makes the key. -/
def MadeFrom (kid : Text) (key : K) (rawKeys : List Json) : Prop :=
  ∃ rawKey, .obj rawKey ∈ rawKeys ∧ Json.get (lit "kid") rawKey = some (.str kid) ∧
    Json.get (lit "alg") rawKey = some (.str config.algorithm) ∧ fromDict rawKey = some key

/-- A document publishes the key under the id, for the algorithm. -/
def Publishes (document : List (Text × Json)) (kid : Text) (key : K) : Prop :=
  ∃ rawKeys, Json.get (lit "keys") document = some (.arr rawKeys) ∧
    MadeFrom config fromDict kid key rawKeys

end

section
variable {K : Type*} {config : GatewayIdentityConfig} {fromDict : List (Text × Json) → Option K}

/-- A claim that is bounded text is that text. -/
theorem eq_of_boundedClaim {maximum : ℕ} {value : Option Json} {t : Text}
    (h : boundedClaim maximum value = some t) : value = some (.str t) := by
  unfold boundedClaim at h
  split at h
  · split_ifs at h
    rw [Option.some.inj h]
  · cases h

/-- A value that is the text is a text. -/
theorem eq_of_isText {t : Text} {value : Option Json} (h : isText t value = true) :
    value = some (.str t) := by
  unfold isText at h
  split at h
  · rw [of_decide_eq_true h]
  · cases h

/-- A key that is read from a member is made from it. -/
theorem madeFrom_of_readKey {j : Json} {kid : Text} {key : K}
    (h : readKey config fromDict j = some (kid, some key)) : MadeFrom config fromDict kid key [j] := by
  unfold readKey at h
  split at h
  · rename_i rawKey
    split at h
    · cases h
    · rename_i kid' hkid
      split_ifs at h with halg huse
      · cases h
      · obtain ⟨key', hkey, heq⟩ := Option.map_eq_some_iff.1 h
        cases heq
        rw [Bool.not_eq_true, Bool.not_eq_false'] at halg
        exact ⟨rawKey, List.mem_singleton_self _, eq_of_boundedClaim hkid, eq_of_isText halg, hkey⟩
  · cases h

/-- What is made from some of the members is made from all of them. -/
theorem MadeFrom.mono {kid : Text} {key : K} {rawKeys rawKeys' : List Json}
    (h : MadeFrom config fromDict kid key rawKeys) (hsub : rawKeys ⊆ rawKeys') :
    MadeFrom config fromDict kid key rawKeys' := by
  obtain ⟨rawKey, hmem, hrest⟩ := h
  exact ⟨rawKey, hsub hmem, hrest⟩

/-- The loop adds only keys that are made from its members. -/
theorem madeFrom_of_readKeys {rawKeys : List Json} {observed : List Text} {result keys : Dict Text K}
    (h : readKeys config fromDict observed result rawKeys = some keys) {kid : Text} {key : K}
    (hkey : keys.lookup kid = some key) :
    result.lookup kid = some key ∨ MadeFrom config fromDict kid key rawKeys := by
  induction rawKeys generalizing observed result with
  | nil =>
    rw [readKeys, Option.some.injEq] at h
    exact .inl (h ▸ hkey)
  | cons j rawKeys ih =>
    rw [readKeys] at h
    split at h
    · cases h
    · rename_i kid' key' hread
      split_ifs at h
      rcases ih h with hold | hmade
      · -- the key was there before, or is the one that this member adds
        cases key' with
        | none => exact .inl hold
        | some key' =>
          rw [Option.elim_some, Dict.lookup_insert] at hold
          split_ifs at hold with heq
          · cases hold
            subst heq
            exact .inr ((madeFrom_of_readKey hread).mono (by simp))
          · exact .inl hold
      · exact .inr (hmade.mono (List.subset_cons_self _ _))

/-- A document publishes the keys that are read from it. -/
theorem publishes_of_validateJwks {w : JsonWriter} {document : List (Text × Json)} {keys : Dict Text K}
    (h : validateJwks config fromDict w document = some keys) {kid : Text} {key : K}
    (hkey : keys.lookup kid = some key) : Publishes config fromDict document kid key := by
  rw [validateJwks] at h
  split_ifs at h
  split at h
  · rename_i rawKeys hkeys
    split_ifs at h
    obtain ⟨hread, -⟩ := Option.filter_eq_some_iff.1 h
    rcases madeFrom_of_readKeys hread hkey with hold | hmade
    · cases hold
    · exact ⟨rawKeys, hkeys, hmade⟩
  · cases h

end

end McpRuntime.Gateway
