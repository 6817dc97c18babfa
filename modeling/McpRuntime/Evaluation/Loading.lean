import McpRuntime.Evaluation.Pointer
import McpRuntime.Python.JsonLoads
import McpRuntime.Python.Utf8
import McpRuntime.Redaction.Patterns

/-!
# Loading a bundle

`load_evaluation_bundle` takes a text or bytes through its encoding, the bounds, the
scan for secrets, `json.loads`, the check of the structure and the models. What it
refuses it refuses with `EvaluationContractError`; some of what the stages raise is
not turned into that.

* `BundleLoader.load`: the stages.
* `Loadable`: a text can be encoded, and what comes to `json.loads` is not stopped by a
  limit of the interpreter.
* `load_contract_iff_loadable`: nothing but `EvaluationContractError` is raised exactly
  for the payloads that are loadable.
* `brackets_escape`, `digits_escape`: payloads that meet a limit.
-/

namespace McpRuntime

namespace Evaluation

/-- What `load_evaluation_bundle` raises. -/
inductive LoadRaised
  /-- `EvaluationContractError`, with its code. -/
  | contract (code : Text)
  /-- `UnicodeEncodeError`. -/
  | encode
  /-- The `ValueError` of `int`, which is no `JSONDecodeError`. -/
  | digits
  /-- `RecursionError`. -/
  | recursion
  deriving DecidableEq

def LoadRaised.isContract : LoadRaised → Bool
  | .contract _ => true
  | _ => false

/-- A payload. -/
inductive Payload
  | str (t : Text)
  | bytes (b : List UInt8)
  /-- An object of any other type. -/
  | other

/-- The bytes of a payload. -/
def Payload.encoded : Payload → Except LoadRaised (List UInt8)
  | .str t => if t.Encodable then .ok t.utf8 else .error .encode
  | .bytes b => .ok b
  | .other => .error (.contract (lit "bundle_type"))

/-! ## The structure of a document -/

/-- What is in a value. -/
def children : Json → List Json
  | .arr items => items
  | .obj members => members.map Prod.snd
  | _ => []

/-- The loop of `_validate_json_structure`, which may take so many values yet from what is
    pending, the last of it first. -/
def structureBounded : ℕ → List (Json × ℕ) → Bool
  | _, [] => true
  | 0, _ :: _ => false
  | nodes + 1, (value, depth) :: pending =>
    depth ≤ 64 &&
      structureBounded nodes ((children value).reverse.map (fun child => (child, depth + 1)) ++ pending)

/-- `_validate_json_structure`, which raises `EvaluationContractError` where this is
    false. -/
def validateJsonStructure (document : Json) : Bool := structureBounded 100000 [(document, 1)]

/-! ## The loader -/

/-- What `load_evaluation_bundle` runs with. -/
structure BundleLoader where
  platform : Platform
  json : Loader
  /-- The fields that the library of models reads from a document, with the sets in
      order, or `none` where it refuses one. -/
  fields : Json → Option EvaluationBundle

namespace BundleLoader

variable (loader : BundleLoader)

/-- `scan_journey_surfaces`, of bytes alone. -/
def scanBytes (raw : List UInt8) : Bool :=
  let text := decodeReplace raw
  raw.length ≤ 1048576 && !(searches (bearer loader.platform) text ||
    searches (secretAssignment loader.platform) text || assignsAuthorization loader.platform text)

/-- The document in a text. -/
def document (t : Text) : Except LoadRaised Json :=
  match loader.json.loads t with
  | .ok document => .ok document
  | .error .decode | .error .refused => .error (.contract (lit "invalid_json"))
  | .error .digits => .error .digits
  | .error .recursion => .error .recursion

/-- `EvaluationBundle.model_validate`. -/
def modelValidate (document : Json) : Except LoadRaised EvaluationBundle :=
  match loader.fields document with
  | some bundle =>
    if bundle.Valid then .ok bundle else .error (.contract (lit "invalid_bundle"))
  | none => .error (.contract (lit "invalid_bundle"))

/-- `load_evaluation_bundle`, of the bytes of a payload. -/
def loadBytes (encoded : List UInt8) : Except LoadRaised EvaluationBundle :=
  if encoded = [] ∨ 1048576 < encoded.length then .error (.contract (lit "bundle_bounds"))
  else if !loader.scanBytes encoded then .error (.contract (lit "unsafe_bundle"))
  else
    match decodeStrict encoded with
    | none => .error (.contract (lit "invalid_json"))
    | some text => do
      let document ← loader.document text
      if !validateJsonStructure document then .error (.contract (lit "bundle_too_complex"))
      else loader.modelValidate document

/-- `load_evaluation_bundle`. -/
def load (payload : Payload) : Except LoadRaised EvaluationBundle := do
  loader.loadBytes (← payload.encoded)

/-! ## What escapes -/

/-- The text in the bytes comes to `json.loads`: they are within their bounds, are safe, and
    are UTF-8. -/
structure Reaches (encoded : List UInt8) (text : Text) : Prop where
  bounds : encoded ≠ [] ∧ encoded.length ≤ 1048576
  safe : loader.scanBytes encoded = true
  decoded : decodeStrict encoded = some text

/-- A text is encodable, and `json.loads` meets neither an integer of too many digits nor
    brackets that are nested too deeply before anything else that it refuses. -/
structure Loadable (payload : Payload) : Prop where
  encodable : ∀ t, payload = .str t → t.Encodable
  unlimited : ∀ encoded text, payload.encoded = .ok encoded → loader.Reaches encoded text →
    loader.json.loads text ≠ .error .digits ∧ loader.json.loads text ≠ .error .recursion

variable {loader}

theorem document_raisesOnly {t : Text} :
    RaisesOnly (fun e => e.isContract = true) (loader.document t) ↔
      loader.json.loads t ≠ .error .digits ∧ loader.json.loads t ≠ .error .recursion := by
  rw [document]
  cases loader.json.loads t with
  | ok j => exact iff_of_true raisesOnly_ok ⟨fun h => (by cases h), fun h => (by cases h)⟩
  | error e =>
    rw [ne_eq, ne_eq, Except.error.injEq, Except.error.injEq]
    cases e with
    | decode | refused => exact iff_of_true (raisesOnly_error.2 rfl) (by decide)
    | digits => exact iff_of_false (fun h => Bool.false_ne_true (h _ rfl)) fun h => h.1 rfl
    | recursion => exact iff_of_false (fun h => Bool.false_ne_true (h _ rfl)) fun h => h.2 rfl

theorem modelValidate_raisesOnly (j : Json) :
    RaisesOnly (fun e => e.isContract = true) (loader.modelValidate j) := by
  rw [modelValidate]
  split
  · split_ifs
    · exact raisesOnly_ok
    · exact raisesOnly_error.2 rfl
  · exact raisesOnly_error.2 rfl

theorem loadBytes_raisesOnly {encoded : List UInt8} :
    RaisesOnly (fun e => e.isContract = true) (loader.loadBytes encoded) ↔
      ∀ text, loader.Reaches encoded text →
        loader.json.loads text ≠ .error .digits ∧ loader.json.loads text ≠ .error .recursion := by
  rw [loadBytes]
  -- What is refused before the document is loaded raises the error of the contract, and reaches
  -- no text.
  by_cases hbounds : encoded = [] ∨ 1048576 < encoded.length
  · rw [if_pos hbounds]
    refine iff_of_true (raisesOnly_error.2 rfl) fun text h => ?_
    exact absurd hbounds (not_or.2 ⟨h.bounds.1, Nat.not_lt.2 h.bounds.2⟩)
  rw [if_neg hbounds]
  rw [not_or, Nat.not_lt] at hbounds
  cases hsafe : loader.scanBytes encoded with
  | false =>
    refine iff_of_true (raisesOnly_error.2 rfl) fun text h => ?_
    cases hsafe.symm.trans h.safe
  | true =>
    cases hdecoded : decodeStrict encoded with
    | none =>
      refine iff_of_true (raisesOnly_error.2 rfl) fun text h => ?_
      cases hdecoded.symm.trans h.decoded
    | some text =>
      rw [Bool.not_true, if_neg Bool.false_ne_true]
      dsimp only
      rw [raisesOnly_bind, document_raisesOnly]
      -- Both limits of the interpreter are met in `json.loads` alone: the models raise nothing
      -- else.
      constructor
      · rintro ⟨hunlimited, -⟩ text' h
        obtain rfl := Option.some.inj (hdecoded.symm.trans h.decoded)
        exact hunlimited
      · intro h
        refine ⟨h text ⟨hbounds, hsafe, hdecoded⟩, fun j _ => ?_⟩
        split_ifs
        · exact raisesOnly_error.2 rfl
        · exact modelValidate_raisesOnly j

/-- Loading raises nothing but `EvaluationContractError` exactly for the payloads that are
    loadable. -/
theorem load_contract_iff_loadable (loader : BundleLoader) (payload : Payload) :
    RaisesOnly (fun e => e.isContract = true) (loader.load payload) ↔ loader.Loadable payload := by
  rw [load, raisesOnly_bind]
  constructor
  · rintro ⟨hencoded, hload⟩
    refine ⟨fun t ht => ?_, fun encoded text hok => loadBytes_raisesOnly.1 (hload encoded hok) text⟩
    -- A lone surrogate cannot be encoded, which raises another error.
    by_contra hsurrogate
    rw [ht, Payload.encoded, if_neg hsurrogate, raisesOnly_error] at hencoded
    cases hencoded
  · intro h
    refine ⟨?_, fun encoded hok => loadBytes_raisesOnly.2 fun text => h.unlimited encoded text hok⟩
    cases payload with
    | str t =>
      rw [Payload.encoded, if_pos (h.encodable t rfl)]
      exact raisesOnly_ok
    | bytes => exact raisesOnly_ok
    | other => exact raisesOnly_error.2 rfl

/-! ## Payloads of one character -/

/-- A place of a text, after some of its characters. -/
theorem suffix_of_mem_places {t before : Text} {place : Cursor CodePoint}
    (h : place ∈ places before t) : place.after <:+ t := by
  induction t generalizing before with
  | nil =>
    obtain rfl := List.mem_singleton.1 h
    exact List.suffix_rfl
  | cons c t ih =>
    rcases List.mem_cons.1 h with rfl | h
    · exact List.suffix_rfl
    · exact (ih h).trans (List.suffix_cons _ _)

/-- A pattern that begins with a letter has no match in a text without letters. -/
theorem run_eq_nil_of_places {r : Regex CodePoint} (hr : r.Starts Pattern.IsLetter) {t : Text}
    (ht : ∀ c ∈ t, ¬ Pattern.IsLetter c) {place : Cursor CodePoint} (h : place ∈ places [] t) :
    r.run place = [] := by
  refine hr.run_eq_nil fun c hc => ht c ?_
  exact (suffix_of_mem_places h).subset (List.mem_of_head? hc)

theorem searches_eq_false {r : Regex CodePoint} (hr : r.Starts Pattern.IsLetter) {t : Text}
    (ht : ∀ c ∈ t, ¬ Pattern.IsLetter c) : searches r t = false := by
  rw [searches, List.any_eq_false]
  intro place hplace
  rw [run_eq_nil_of_places hr ht hplace]
  exact Bool.false_ne_true

theorem starts_bearer (platform : Platform) : (bearer platform).Starts Pattern.IsLetter :=
  (Pattern.starts_letters (by decide)).seq.boundary

theorem starts_secretAssignment (platform : Platform) :
    (secretAssignment platform).Starts Pattern.IsLetter := by
  refine Regex.Starts.boundary (.seq (.alt ?_ (.alt ?_ (.alt ?_ (.alt ?_ ?_)))))
  · exact (Pattern.starts_letters (by decide)).seq
  · exact (Pattern.starts_letters (by decide)).seq
  · exact Pattern.starts_letters (by decide)
  · exact Pattern.starts_letters (by decide)
  · exact Pattern.starts_letters (by decide)

theorem starts_authorizationPrefix (platform : Platform) :
    (authorizationPrefix platform).Starts Pattern.IsLetter :=
  (Pattern.starts_letters (by decide)).seq.boundary

/-- Bytes of which none is a letter are safe. -/
theorem scanBytes_of_letterless {raw : List UInt8} (hlength : raw.length ≤ 1048576)
    (h : ∀ c ∈ decodeReplace raw, ¬ Pattern.IsLetter c) : loader.scanBytes raw = true := by
  have hauthorization : assignsAuthorization loader.platform (decodeReplace raw) = false := by
    rw [assignsAuthorization, List.any_eq_false]
    intro place hplace
    rw [run_eq_nil_of_places (starts_authorizationPrefix _) h hplace]
    exact Bool.false_ne_true
  rw [scanBytes, searches_eq_false (starts_bearer _) h, searches_eq_false (starts_secretAssignment _) h,
    hauthorization, decide_eq_true hlength]
  rfl

/-- Bytes that are all one ASCII character. -/
theorem decodeFrom_replicate {b : UInt8} (hb : b.toNat < 0x80) (n : ℕ) :
    decodeFrom none (List.replicate n b) =
      List.replicate n (some (Fin.ofNat 0x110000 b.toNat)) := by
  induction n with
  | zero => rfl
  | succ n ih =>
    have hstep : utf8Step none b = ([some (Fin.ofNat 0x110000 b.toNat)], none) := if_pos hb
    rw [List.replicate_succ, decodeFrom_cons, hstep, ih]
    rfl

/-- A payload that is all one ASCII character, and no letter, comes to `json.loads`. -/
theorem reaches_replicate {b : UInt8} {n : ℕ} (hb : b.toNat < 0x80)
    (hletter : ¬ Pattern.IsLetter (Fin.ofNat 0x110000 b.toNat)) (hn : 0 < n ∧ n ≤ 1048576) :
    loader.Reaches (List.replicate n b) (List.replicate n (Fin.ofNat 0x110000 b.toNat)) where
  bounds := ⟨List.ne_nil_of_length_pos (by rw [List.length_replicate]; exact hn.1),
    by rw [List.length_replicate]; exact hn.2⟩
  safe := by
    refine scanBytes_of_letterless (by rw [List.length_replicate]; exact hn.2) fun c hc => ?_
    rw [decodeReplace, decodeFrom_replicate hb, List.map_replicate] at hc
    rw [List.eq_of_mem_replicate hc]
    exact hletter
  decoded := by
    rw [decodeStrict, decodeFrom_replicate hb, ← List.map_replicate (f := some), mapM_eq_some,
      List.forall₂_map_left_iff, List.forall₂_same]
    exact fun _ _ => rfl

/-- What is loaded of bytes that come to `json.loads`. -/
theorem Reaches.loadBytes_eq {encoded : List UInt8} {text : Text} (h : loader.Reaches encoded text) :
    loader.loadBytes encoded = loader.document text >>= fun document =>
      if !validateJsonStructure document then .error (.contract (lit "bundle_too_complex"))
      else loader.modelValidate document := by
  rw [loadBytes, if_neg (not_or.2 ⟨h.bounds.1, Nat.not_lt.2 h.bounds.2⟩), h.safe, h.decoded]
  rfl

/-- What `json.loads` raises without a hook escapes, of a payload that comes to it. -/
theorem Reaches.load_eq {encoded : List UInt8} {text : Text} (h : loader.Reaches encoded text)
    {e : LoadRaised} (he : loader.document text = .error e) :
    loader.load (.bytes encoded) = .error e := by
  change loader.loadBytes encoded = _
  rw [h.loadBytes_eq, he]
  rfl

/-- Brackets that are nested too deeply escape as a `RecursionError`. -/
theorem brackets_escape (loader : BundleLoader) {n : ℕ} (h : loader.json.maxDepth < n)
    (hn : n ≤ 1048576) : loader.load (.bytes (List.replicate n 91)) = .error .recursion := by
  have hreaches : loader.Reaches (List.replicate n 91) (List.replicate n 91) :=
    reaches_replicate (b := 91) (by decide) (by decide) ⟨Nat.zero_lt_of_lt h, hn⟩
  have hloads := Loader.loads_brackets h []
  rw [List.append_nil] at hloads
  exact hreaches.load_eq (by rw [document, hloads])

/-- An integer of too many digits escapes as a `ValueError`. -/
theorem digits_escape (loader : BundleLoader) {n : ℕ} (h : loader.json.maxDigits < n)
    (hn : n ≤ 1048576) : loader.load (.bytes (List.replicate n 49)) = .error .digits := by
  have hreaches : loader.Reaches (List.replicate n 49) (List.replicate n 49) :=
    reaches_replicate (b := 49) (by decide) (by decide) ⟨Nat.zero_lt_of_lt h, hn⟩
  have hnumeral : IsNumeral (List.replicate n 49) := by
    refine ⟨⟨List.ne_nil_of_length_pos (by rw [List.length_replicate]; omega), fun c hc => ?_⟩, ?_⟩
    · rw [List.eq_of_mem_replicate hc]
      rfl
    · intro hhead
      cases List.eq_of_mem_replicate (List.mem_of_head? hhead)
  exact hreaches.load_eq (by
    rw [document, Loader.loads_digits hnumeral (by rw [List.length_replicate]; exact h)])

/-- A loader with the limits of an interpreter, and models that refuse all documents. -/
def exampleLoader : BundleLoader where
  platform := superscriptPlatform
  json := ⟨1000, 4300, .finite, false⟩
  fields _ := none

/-- A text with a lone surrogate, too many brackets and an integer that is too long raise
    what is no `EvaluationContractError`. -/
theorem load_escapes :
    exampleLoader.load (.str [0xD800]) = .error .encode ∧
      exampleLoader.load (.bytes (List.replicate 1001 91)) = .error .recursion ∧
      exampleLoader.load (.bytes (List.replicate 4301 49)) = .error .digits :=
  ⟨rfl, brackets_escape _ (by decide) (by decide), digits_escape _ (by decide) (by decide)⟩

end BundleLoader

end Evaluation

end McpRuntime
