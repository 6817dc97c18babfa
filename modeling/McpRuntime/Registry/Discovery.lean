import McpRuntime.Outbound.Redirect
import McpRuntime.Python.JsonLoads
import McpRuntime.Registry.Documents
import McpRuntime.Registry.SecretScan
import McpRuntime.Schema.Compatibility

/-!
# Discovery over HTTP

`RegistryHTTPDiscovery` reads a response of the registry: its status, its bytes as a JSON
document that is scanned for secrets, and the stubs or the artifact in the document.

* `discovery_closed_iff`: when a search and a fetch raise nothing but the errors of the
  registry.
* `discovery_cleared`: the redactor would change no text of what they return, apart from the
  masks under the keys of secrets.
-/

namespace McpRuntime

namespace Registry

open Outbound (OutboundHTTPResponse)
open Schema (asMapping)

/-- `RegistryHTTPDiscoveryLimits`. -/
structure RegistryHTTPDiscoveryLimits where
  maxSearchBytes : ℕ := 128 * 1024
  maxArtifactBytes : ℕ := 512 * 1024
  search_range : 1 ≤ maxSearchBytes ∧ maxSearchBytes ≤ 128 * 1024
  artifact_range : 1 ≤ maxArtifactBytes ∧ maxArtifactBytes ≤ 512 * 1024

/-- The errors of the registry, without the request id that each of them has. -/
inductive RegistryDiscoveryError
  | artifactRace (ref : Text)
  | contract (code : ErrorCode)
  | authentication
  | authorization
  | unavailable
  deriving DecidableEq

/-- What a search or a fetch raises. -/
inductive DiscoveryRaised
  | registry (e : RegistryDiscoveryError)
  | valueError
  | recursionError
  deriving DecidableEq

/-- The exception is an error of the registry. -/
def DiscoveryRaised.isRegistry : DiscoveryRaised → Bool
  | .registry _ => true
  | .valueError | .recursionError => false

/-- `RegistryHTTPDiscovery`, from the response on. -/
structure RegistryHTTPDiscovery where
  nfkc : Text → Text
  writer : JsonWriter
  unicode : UnicodeTable
  redactText : RedactText
  loader : Loader
  constants : loader.constants = true
  limits : RegistryHTTPDiscoveryLimits

namespace RegistryHTTPDiscovery

variable (d : RegistryHTTPDiscovery) (context : CallContext)

/-! ## Documents -/

/-- `_text`. -/
def text (document : Members) (key : Text) : Option Text :=
  match Json.pyGet key document with
  | .str t => some t
  | _ => none

/-- `_optional_text`. -/
def optionalText (document : Members) (key : Text) : Option Text :=
  match Json.get key document with
  | none => some []
  | some (.str t) => some t
  | some _ => none

/-- `_text_mapping`, of texts by their names. -/
def textMembers : Members → Option (List (Text × Text))
  | [] => some []
  | (key, .str t) :: members => (textMembers members).map ((key, t) :: ·)
  | _ :: _ => none

/-- `_text_mapping`, of a member that may be missing. -/
def textMapping (document : Members) (key : Text) : Option (List (Text × Text)) :=
  match Json.get key document with
  | none => some []
  | some j => (asMapping j).bind textMembers

/-- `_object`, of a member that may be missing. -/
def optionalObject (document : Members) (key : Text) : Option Members :=
  match Json.get key document with
  | none => some []
  | some j => asMapping j

/-- The fields of a stub in a document. -/
def stubFields (j : Json) : Option StubFields := do
  let document ← asMapping j
  some {
    kind := ← text document (lit "kind")
    name := ← text document (lit "name")
    «namespace» := ← text document (lit "namespace")
    tag := ← text document (lit "tag")
    arn := ← text document (lit "arn")
    digest := ← text document (lit "digest")
    ref := ← text document (lit "ref")
    title := ← optionalText document (lit "title")
    description := ← optionalText document (lit "description")
    visibility := ← optionalText document (lit "visibility")
    labels := ← textMapping document (lit "labels")
    annotations := ← textMapping document (lit "annotations")
    attributes := ← optionalObject document (lit "attributes")
    fetchPath := ← text document (lit "fetchPath") }

/-- The fields of an artifact in a document. -/
def artifactFields (j : Json) : Option ArtifactFields := do
  let document ← asMapping j
  let metadata ← asMapping (Json.pyGet (lit "metadata") document)
  some {
    apiVersion := ← text document (lit "apiVersion")
    kind := ← text document (lit "kind")
    name := ← text metadata (lit "name")
    «namespace» := ← text metadata (lit "namespace")
    tag := ← text metadata (lit "tag")
    arn := ← text metadata (lit "arn")
    digest := ← text metadata (lit "digest")
    ref := ← text metadata (lit "ref")
    labels := ← textMapping metadata (lit "labels")
    spec := ← asMapping (Json.pyGet (lit "spec") document) }

/-- The document is without secrets, as far as the scan sees. -/
def isSafe (j : Json) : Bool := (secretSafe d.unicode d.redactText j 0 0).isSome

/-- `_stub`, of a document without secrets. -/
def stub (j : Json) : Option (RegistrySearchStub d.nfkc) := do
  if !d.isSafe j then none
  else
    let fields ← stubFields j
    if h : fields.Valid d.nfkc then some ⟨fields, h⟩ else none

/-- The stubs of a search, no more than its limit. -/
def stubs (limit : ℕ) : Json → Option (List (RegistrySearchStub d.nfkc))
  | .arr items => if limit < items.length then none else items.mapM d.stub
  | _ => none

/-- `_artifact`, of a document without secrets. -/
def artifact (j : Json) : Option (RegistryArtifact d.writer) := do
  if !d.isSafe j then none
  else
    let fields ← artifactFields j
    if h : fields.Valid d.writer then some ⟨fields, h⟩ else none

/-! ## Responses -/

/-- An error of the registry, whose constructor refuses a request id with a `DEL`. -/
def error (e : RegistryDiscoveryError) : DiscoveryRaised :=
  if IsVisible 256 context.requestId then .registry e else .valueError

/-- The error that a status stands for, where an artifact may be missing. -/
def failure (status : ℕ) (ref : Option Text) : RegistryDiscoveryError :=
  match ref.filter fun _ => status = 404 with
  | some ref => .artifactRace ref
  | none =>
    if status = 400 ∨ status = 422 then .contract .invalidInput
    else if status = 401 then .authentication
    else if status = 403 then .authorization
    else .unavailable

/-- `_require_success`. -/
def requireSuccess (response : OutboundHTTPResponse) (ref : Option Text) :
    Except DiscoveryRaised Unit :=
  if response.status = 200 then .ok () else .error (error context (failure response.status ref))

/-- `_decode`. -/
def decode (body : List UInt8) (maximum : ℕ) : Except DiscoveryRaised Json :=
  if maximum < body.length then .error (error context (.contract .resultTooLarge))
  else
    match decodeStrict body with
    | none => .error (error context (.contract .unavailable))
    | some t =>
      match d.loader.loads t with
      | .ok j => .ok j
      | .error .decode | .error .refused => .error (error context (.contract .unavailable))
      | .error .digits => .error .valueError
      | .error .recursion => .error .recursionError

/-- What is read of a document, which raises where it is not what it has to be. -/
def accept {α : Type} : Option α → Except DiscoveryRaised α
  | some a => .ok a
  | none => .error (error context (.contract .unavailable))

/-- What a response answers, where its document is read with `read`. -/
def answer {α : Type} (read : Json → Option α) (ref : Option Text) (maximum : ℕ)
    (response : OutboundHTTPResponse) : Except DiscoveryRaised α := do
  requireSuccess context response ref
  let document ← d.decode context response.body maximum
  accept context (read document)

/-- `search`, from the response on. -/
def search (query : RegistrySearchQuery) (response : OutboundHTTPResponse) :
    Except DiscoveryRaised (List (RegistrySearchStub d.nfkc)) :=
  d.answer context (d.stubs query.limit) none d.limits.maxSearchBytes response

/-- `fetch`, from the response on. -/
def fetch (stub : RegistrySearchStub d.nfkc) (response : OutboundHTTPResponse) :
    Except DiscoveryRaised (RegistryArtifact d.writer) :=
  d.answer context d.artifact (some stub.ref) d.limits.maxArtifactBytes response

/-! ## What escapes -/

/-- `json.loads` reads the body of a successful response without meeting an integer of too
    many digits or brackets that are nested too deeply. -/
def Loadable (maximum : ℕ) (response : OutboundHTTPResponse) : Prop :=
  ∀ t, response.status = 200 → response.body.length ≤ maximum → decodeStrict response.body = some t →
    d.loader.loads t ≠ .error .digits ∧ d.loader.loads t ≠ .error .recursion

variable {d context}

theorem isRegistry_error {e : RegistryDiscoveryError} :
    (error context e).isRegistry = true ↔ IsVisible 256 context.requestId := by
  rw [error]
  split_ifs with h
  · exact iff_of_true rfl h
  · exact iff_of_false Bool.false_ne_true h

/-- What is decoded, by what `json.loads` makes of it. -/
theorem decode_cases (body : List UInt8) (maximum : ℕ) :
    (∃ e, d.decode context body maximum = .error (error context e) ∧
      ∀ t, body.length ≤ maximum → decodeStrict body = some t →
        d.loader.loads t ≠ .error .digits ∧ d.loader.loads t ≠ .error .recursion) ∨
    ∃ t, body.length ≤ maximum ∧ decodeStrict body = some t ∧
      ((∃ j, d.loader.loads t = .ok j ∧ d.decode context body maximum = .ok j) ∨
        (d.loader.loads t = .error .digits ∧ d.decode context body maximum = .error .valueError) ∨
        d.loader.loads t = .error .recursion ∧
          d.decode context body maximum = .error .recursionError) := by
  rw [decode]
  by_cases hlong : maximum < body.length
  · rw [if_pos hlong]
    exact .inl ⟨_, rfl, fun t hshort => absurd hshort (not_le.2 hlong)⟩
  rw [if_neg hlong]
  cases hdecoded : decodeStrict body with
  | none => exact .inl ⟨_, rfl, fun t _ ht => (by cases ht)⟩
  | some t =>
    dsimp only
    cases hloads : d.loader.loads t with
    | ok j => exact .inr ⟨t, not_lt.1 hlong, rfl, .inl ⟨j, hloads, rfl⟩⟩
    | error e =>
      cases e with
      | decode =>
        refine .inl ⟨_, rfl, fun u _ hu => ?_⟩
        rw [← Option.some.inj hu, hloads]
        exact ⟨fun h => (by cases h), fun h => (by cases h)⟩
      | refused =>
        refine .inl ⟨_, rfl, fun u _ hu => ?_⟩
        rw [← Option.some.inj hu, hloads]
        exact ⟨fun h => (by cases h), fun h => (by cases h)⟩
      | digits => exact .inr ⟨t, not_lt.1 hlong, rfl, .inr (.inl ⟨hloads, rfl⟩)⟩
      | recursion => exact .inr ⟨t, not_lt.1 hlong, rfl, .inr (.inr ⟨hloads, rfl⟩)⟩

/-- A response is answered with a value or an error of the registry exactly when its body can
    be loaded, and an error has a request id that it accepts. -/
theorem answer_closed_iff {α : Type} {read : Json → Option α} {ref : Option Text} {maximum : ℕ}
    {response : OutboundHTTPResponse} :
    RaisesOnly (fun e => e.isRegistry = true) (d.answer context read ref maximum response) ↔
      d.Loadable maximum response ∧
        (127 ∈ context.requestId → ∃ a, d.answer context read ref maximum response = .ok a) := by
  have hvisible : IsVisible 256 context.requestId ↔ 127 ∉ context.requestId :=
    and_iff_right context.requestId_isText
  -- An error is built with the request id, and `DEL` in it makes this fail.
  have herror {e : RegistryDiscoveryError} :
      RaisesOnly (fun e => e.isRegistry = true) (.error (error context e) : Except DiscoveryRaised α) ↔
        (127 ∈ context.requestId → ∃ a : α,
          (.error (error context e) : Except DiscoveryRaised α) = .ok a) := by
    rw [raisesOnly_error, isRegistry_error, hvisible]
    exact ⟨fun hnot hmem => absurd hmem hnot, fun h hmem => by cases (h hmem).choose_spec⟩
  by_cases hstatus : response.status = 200
  · have hanswer : d.answer context read ref maximum response =
        d.decode context response.body maximum >>= fun document => accept context (read document) := by
      rw [answer, requireSuccess, if_pos hstatus]
      rfl
    rcases decode_cases response.body maximum with
      ⟨e, hdecode, hloads⟩ | ⟨t, hshort, hdecoded, ⟨j, hloads, hdecode⟩ | ⟨hloads, hdecode⟩ |
        ⟨hloads, hdecode⟩⟩
    · have hloadable : d.Loadable maximum response := fun t _ hshort ht => hloads t hshort ht
      rw [hanswer, hdecode, and_iff_right hloadable]
      exact herror
    · have hloadable : d.Loadable maximum response := by
        intro u _ _ hu
        rw [← Option.some.inj (hdecoded.symm.trans hu), hloads]
        exact ⟨fun h => (by cases h), fun h => (by cases h)⟩
      have hread : answer d context read ref maximum response = accept context (read j) := by
        rw [hanswer, hdecode]
        rfl
      rw [hread, and_iff_right hloadable]
      cases read j with
      | some a => exact iff_of_true raisesOnly_ok fun _ => ⟨a, rfl⟩
      | none => exact herror
    · -- The limits of the interpreter raise what `_decode` does not catch.
      rw [hanswer, hdecode]
      refine iff_of_false (fun h => ?_) fun h => (h.1 t hstatus hshort hdecoded).1 hloads
      exact Bool.false_ne_true (h .valueError rfl)
    · rw [hanswer, hdecode]
      refine iff_of_false (fun h => ?_) fun h => (h.1 t hstatus hshort hdecoded).2 hloads
      exact Bool.false_ne_true (h .recursionError rfl)
  · -- With another status the body is not decoded.
    have hloadable : d.Loadable maximum response := fun _ h => absurd h hstatus
    rw [answer, requireSuccess, if_neg hstatus, and_iff_right hloadable]
    exact herror

/-- A search and a fetch raise nothing but the errors of the registry exactly when `json.loads`
    meets neither limit of the interpreter in the body, and the request id is without `DEL`,
    which the errors refuse, unless there is no error. -/
theorem discovery_closed_iff (d : RegistryHTTPDiscovery) (context : CallContext)
    (query : RegistrySearchQuery) (stub : RegistrySearchStub d.nfkc)
    (response : OutboundHTTPResponse) :
    (RaisesOnly (fun e => e.isRegistry = true) (d.search context query response) ↔
      d.Loadable d.limits.maxSearchBytes response ∧
        (127 ∈ context.requestId → ∃ stubs, d.search context query response = .ok stubs)) ∧
    (RaisesOnly (fun e => e.isRegistry = true) (d.fetch context stub response) ↔
      d.Loadable d.limits.maxArtifactBytes response ∧
        (127 ∈ context.requestId → ∃ artifact, d.fetch context stub response = .ok artifact)) :=
  ⟨answer_closed_iff, answer_closed_iff⟩

/-! ## What is returned -/

/-- The labels are without secrets: the redactor keeps the value of each, or it is the mask. -/
def LabelsCleared (d : RegistryHTTPDiscovery) (labels : List (Text × Text)) : Prop :=
  ∀ label ∈ labels, if isSecretKey d.unicode label.1 then label.2 = maskText
    else keeps d.redactText label.2 = true

/-- A stub without secrets. -/
structure StubCleared (d : RegistryHTTPDiscovery) (s : StubFields) : Prop where
  texts : ∀ t ∈ [s.kind, s.name, s.namespace, s.tag, s.arn, s.digest, s.ref, s.fetchPath],
    keeps d.redactText t = true
  optional : ∀ t ∈ [s.title, s.description, s.visibility], t = [] ∨ keeps d.redactText t = true
  labels : LabelsCleared d s.labels
  annotations : LabelsCleared d s.annotations
  attributes : Cleared d.unicode d.redactText (.obj s.attributes)

/-- An artifact without secrets. -/
structure ArtifactCleared (d : RegistryHTTPDiscovery) (a : ArtifactFields) : Prop where
  texts : ∀ t ∈ [a.apiVersion, a.kind, a.name, a.namespace, a.tag, a.arn, a.digest, a.ref],
    keeps d.redactText t = true
  labels : LabelsCleared d a.labels
  spec : Cleared d.unicode d.redactText (.obj a.spec)

/-- The keys of the documents. -/
def documentKeys : List Text :=
  ["apiVersion", "metadata", "spec", "kind", "name", "namespace", "tag", "arn", "digest", "ref",
    "title", "description", "visibility", "labels", "annotations", "attributes", "fetchPath"].map lit

/-- Whether a key of ASCII characters is that of a secret does not depend on the tables. -/
theorem isSecretKey_ascii (unicode unicode' : UnicodeTable) {key : Text}
    (h : ∀ c ∈ key, c.val < 0x80) : isSecretKey unicode key = isSecretKey unicode' key := by
  have hfold : key.casefold unicode = key.casefold unicode' :=
    List.flatMap_congr fun c hc => by rw [if_pos (h c hc), if_pos (h c hc)]
  rw [isSecretKey, isSecretKey, hfold]

/-- No key of a document is that of a secret. -/
theorem isSecretKey_documentKeys (unicode : UnicodeTable) {key : Text} (hkey : key ∈ documentKeys) :
    isSecretKey unicode key = false := by
  have hall : documentKeys.all (fun key => key.all (fun c => c.val < 0x80) &&
      !isSecretKey ⟨fun c => [c], fun c => [c]⟩ key) = true := by decide +kernel
  have h := List.all_eq_true.1 hall key hkey
  rw [Bool.and_eq_true, List.all_eq_true, Bool.not_eq_true'] at h
  rw [isSecretKey_ascii unicode _ fun c hc => of_decide_eq_true (h.1 c hc)]
  exact h.2

section
variable {document : Members}

/-- The value of a key that is not that of a secret is cleared. -/
theorem cleared_get (h : Cleared d.unicode d.redactText (.obj document)) {key : Text}
    (hkey : key ∈ documentKeys) {j : Json} (hget : Json.get key document = some j) :
    Cleared d.unicode d.redactText j := by
  cases h with
  | obj _ others => exact others _ (Json.mem_of_get hget) (isSecretKey_documentKeys _ hkey)

theorem keeps_text (h : Cleared d.unicode d.redactText (.obj document)) {key t : Text}
    (hkey : key ∈ documentKeys) (ht : text document key = some t) : keeps d.redactText t = true := by
  rw [text, Json.pyGet] at ht
  cases hget : Json.get key document with
  | none =>
    rw [hget] at ht
    cases ht
  | some j =>
    rw [hget] at ht
    have hcleared := cleared_get h hkey hget
    cases j with
    | str u =>
      cases ht
      cases hcleared with
      | str hkeeps => exact hkeeps
    | null | bool | int | float | arr | obj => cases ht

theorem keeps_optionalText (h : Cleared d.unicode d.redactText (.obj document)) {key t : Text}
    (hkey : key ∈ documentKeys) (ht : optionalText document key = some t) :
    t = [] ∨ keeps d.redactText t = true := by
  rw [optionalText] at ht
  cases hget : Json.get key document with
  | none =>
    rw [hget] at ht
    exact .inl (Option.some.inj ht).symm
  | some j =>
    rw [hget] at ht
    have hcleared := cleared_get h hkey hget
    cases j with
    | str u =>
      cases ht
      cases hcleared with
      | str hkeeps => exact .inr hkeeps
    | null | bool | int | float | arr | obj => cases ht

theorem mem_of_textMembers {members : Members} {labels : List (Text × Text)}
    (h : textMembers members = some labels) {label : Text × Text} (hlabel : label ∈ labels) :
    (label.1, .str label.2) ∈ members := by
  induction members generalizing labels with
  | nil =>
    cases h
    cases hlabel
  | cons m members ih =>
    obtain ⟨key, j⟩ := m
    cases j with
    | str t =>
      obtain ⟨rest, hrest, rfl⟩ := Option.map_eq_some_iff.1 h
      rcases List.mem_cons.1 hlabel with rfl | hlabel
      · exact .head _
      · exact .tail _ (ih hrest hlabel)
    | null | bool | int | float | arr | obj => cases h

theorem cleared_textMapping (h : Cleared d.unicode d.redactText (.obj document)) {key : Text}
    (hkey : key ∈ documentKeys) {labels : List (Text × Text)}
    (ht : textMapping document key = some labels) : LabelsCleared d labels := by
  rw [textMapping] at ht
  cases hget : Json.get key document with
  | none =>
    rw [hget] at ht
    cases ht
    exact fun _ hlabel => absurd hlabel List.not_mem_nil
  | some j =>
    rw [hget] at ht
    obtain ⟨members, hmembers, ht⟩ := Option.bind_eq_some_iff.1 ht
    obtain rfl := Schema.asMapping_eq_some.1 hmembers
    intro label hlabel
    have hmem := mem_of_textMembers ht hlabel
    cases cleared_get h hkey hget with
    | obj masked others =>
      split_ifs with hsecret
      · exact Json.str.inj (masked _ hmem hsecret)
      · cases others _ hmem (Bool.eq_false_iff.2 hsecret) with
        | str hkeeps => exact hkeeps

theorem cleared_optionalObject (h : Cleared d.unicode d.redactText (.obj document)) {key : Text}
    (hkey : key ∈ documentKeys) {members : Members}
    (ht : optionalObject document key = some members) :
    Cleared d.unicode d.redactText (.obj members) := by
  rw [optionalObject] at ht
  cases hget : Json.get key document with
  | none =>
    rw [hget] at ht
    cases ht
    exact .obj (fun _ hm => absurd hm List.not_mem_nil) fun _ hm => absurd hm List.not_mem_nil
  | some j =>
    rw [hget] at ht
    obtain rfl := Schema.asMapping_eq_some.1 ht
    exact cleared_get h hkey hget

/-- The mapping under a key is cleared. -/
theorem cleared_asMapping (h : Cleared d.unicode d.redactText (.obj document)) {key : Text}
    (hkey : key ∈ documentKeys) {members : Members}
    (ht : asMapping (Json.pyGet key document) = some members) :
    Cleared d.unicode d.redactText (.obj members) := by
  have hpy := Schema.asMapping_eq_some.1 ht
  rw [Json.pyGet] at hpy
  cases hget : Json.get key document with
  | none =>
    rw [hget] at hpy
    cases hpy
  | some j =>
    rw [hget] at hpy
    cases hpy
    exact cleared_get h hkey hget

end

theorem stubCleared {j : Json} {fields : StubFields} (h : Cleared d.unicode d.redactText j)
    (hread : stubFields j = some fields) : StubCleared d fields := by
  rw [stubFields] at hread
  obtain ⟨document, hdocument, hread⟩ := Option.bind_eq_some_iff.1 hread
  obtain ⟨kind, hkind, hread⟩ := Option.bind_eq_some_iff.1 hread
  obtain ⟨name, hname, hread⟩ := Option.bind_eq_some_iff.1 hread
  obtain ⟨space, hspace, hread⟩ := Option.bind_eq_some_iff.1 hread
  obtain ⟨tag, htag, hread⟩ := Option.bind_eq_some_iff.1 hread
  obtain ⟨arn, harn, hread⟩ := Option.bind_eq_some_iff.1 hread
  obtain ⟨digest, hdigest, hread⟩ := Option.bind_eq_some_iff.1 hread
  obtain ⟨ref, href, hread⟩ := Option.bind_eq_some_iff.1 hread
  obtain ⟨title, htitle, hread⟩ := Option.bind_eq_some_iff.1 hread
  obtain ⟨description, hdescription, hread⟩ := Option.bind_eq_some_iff.1 hread
  obtain ⟨visibility, hvisibility, hread⟩ := Option.bind_eq_some_iff.1 hread
  obtain ⟨labels, hlabels, hread⟩ := Option.bind_eq_some_iff.1 hread
  obtain ⟨annotations, hannotations, hread⟩ := Option.bind_eq_some_iff.1 hread
  obtain ⟨attributes, hattributes, hread⟩ := Option.bind_eq_some_iff.1 hread
  obtain ⟨fetchPath, hfetchPath, hread⟩ := Option.bind_eq_some_iff.1 hread
  cases hread
  obtain rfl := Schema.asMapping_eq_some.1 hdocument
  refine ⟨?_, ?_, cleared_textMapping h (by decide) hlabels,
    cleared_textMapping h (by decide) hannotations, cleared_optionalObject h (by decide) hattributes⟩
  · simp only [List.forall_mem_cons]
    exact ⟨keeps_text h (by decide) hkind, keeps_text h (by decide) hname,
      keeps_text h (by decide) hspace, keeps_text h (by decide) htag, keeps_text h (by decide) harn,
      keeps_text h (by decide) hdigest, keeps_text h (by decide) href,
      keeps_text h (by decide) hfetchPath, List.forall_mem_nil _⟩
  · simp only [List.forall_mem_cons]
    exact ⟨keeps_optionalText h (by decide) htitle, keeps_optionalText h (by decide) hdescription,
      keeps_optionalText h (by decide) hvisibility, List.forall_mem_nil _⟩

theorem artifactCleared {j : Json} {fields : ArtifactFields} (h : Cleared d.unicode d.redactText j)
    (hread : artifactFields j = some fields) : ArtifactCleared d fields := by
  rw [artifactFields] at hread
  obtain ⟨document, hdocument, hread⟩ := Option.bind_eq_some_iff.1 hread
  obtain ⟨metadata, hmetadata, hread⟩ := Option.bind_eq_some_iff.1 hread
  obtain ⟨apiVersion, hapiVersion, hread⟩ := Option.bind_eq_some_iff.1 hread
  obtain ⟨kind, hkind, hread⟩ := Option.bind_eq_some_iff.1 hread
  obtain ⟨name, hname, hread⟩ := Option.bind_eq_some_iff.1 hread
  obtain ⟨space, hspace, hread⟩ := Option.bind_eq_some_iff.1 hread
  obtain ⟨tag, htag, hread⟩ := Option.bind_eq_some_iff.1 hread
  obtain ⟨arn, harn, hread⟩ := Option.bind_eq_some_iff.1 hread
  obtain ⟨digest, hdigest, hread⟩ := Option.bind_eq_some_iff.1 hread
  obtain ⟨ref, href, hread⟩ := Option.bind_eq_some_iff.1 hread
  obtain ⟨labels, hlabels, hread⟩ := Option.bind_eq_some_iff.1 hread
  obtain ⟨spec, hspec, hread⟩ := Option.bind_eq_some_iff.1 hread
  cases hread
  obtain rfl := Schema.asMapping_eq_some.1 hdocument
  have hmeta := cleared_asMapping h (by decide) hmetadata
  refine ⟨?_, cleared_textMapping hmeta (by decide) hlabels, cleared_asMapping h (by decide) hspec⟩
  simp only [List.forall_mem_cons]
  exact ⟨keeps_text h (by decide) hapiVersion, keeps_text h (by decide) hkind,
    keeps_text hmeta (by decide) hname, keeps_text hmeta (by decide) hspace,
    keeps_text hmeta (by decide) htag, keeps_text hmeta (by decide) harn,
    keeps_text hmeta (by decide) hdigest, keeps_text hmeta (by decide) href, List.forall_mem_nil _⟩

theorem cleared_of_isSafe {j : Json} (h : d.isSafe j = true) : Cleared d.unicode d.redactText j := by
  obtain ⟨n, hn⟩ := Option.isSome_iff_exists.1 h
  exact cleared_of_secretSafe hn

theorem stubCleared_of_stub {j : Json} {stub : RegistrySearchStub d.nfkc} (h : d.stub j = some stub) :
    StubCleared d stub.toStubFields := by
  rw [RegistryHTTPDiscovery.stub] at h
  cases hsafe : d.isSafe j with
  | false =>
    rw [hsafe] at h
    cases h
  | true =>
    rw [hsafe, Bool.not_true, if_neg Bool.false_ne_true] at h
    obtain ⟨fields, hfields, h⟩ := Option.bind_eq_some_iff.1 h
    split_ifs at h
    cases h
    exact stubCleared (cleared_of_isSafe hsafe) hfields

theorem artifactCleared_of_artifact {j : Json} {artifact : RegistryArtifact d.writer}
    (h : d.artifact j = some artifact) : ArtifactCleared d artifact.toArtifactFields := by
  rw [RegistryHTTPDiscovery.artifact] at h
  cases hsafe : d.isSafe j with
  | false =>
    rw [hsafe] at h
    cases h
  | true =>
    rw [hsafe, Bool.not_true, if_neg Bool.false_ne_true] at h
    obtain ⟨fields, hfields, h⟩ := Option.bind_eq_some_iff.1 h
    split_ifs at h
    cases h
    exact artifactCleared (cleared_of_isSafe hsafe) hfields

/-- What is answered was read of a document. -/
theorem exists_of_answer {α : Type} {read : Json → Option α} {ref : Option Text} {maximum : ℕ}
    {response : OutboundHTTPResponse} {a : α}
    (h : d.answer context read ref maximum response = .ok a) : ∃ j, read j = some a := by
  obtain ⟨_, -, h⟩ := bind_eq_ok.1 h
  obtain ⟨j, -, h⟩ := bind_eq_ok.1 h
  refine ⟨j, ?_⟩
  cases hread : read j with
  | none =>
    rw [hread] at h
    cases h
  | some b =>
    rw [hread] at h
    cases h
    rfl

/-- The stubs that a search returns, and the artifact that a fetch returns, are without secrets:
    the redactor keeps their texts, and what is under the keys of secrets is the mask. -/
theorem discovery_cleared (d : RegistryHTTPDiscovery) (context : CallContext)
    (query : RegistrySearchQuery) (stub : RegistrySearchStub d.nfkc)
    (response : OutboundHTTPResponse) :
    (∀ stubs, d.search context query response = .ok stubs →
      ∀ stub ∈ stubs, StubCleared d stub.toStubFields) ∧
    ∀ artifact, d.fetch context stub response = .ok artifact →
      ArtifactCleared d artifact.toArtifactFields := by
  constructor
  · intro stubs h stub hstub
    obtain ⟨j, hread⟩ := exists_of_answer h
    cases j with
    | arr items =>
      rw [RegistryHTTPDiscovery.stubs] at hread
      split_ifs at hread
      obtain ⟨item, -, hitem⟩ := exists_of_forall₂ (mapM_eq_some.1 hread).flip hstub
      exact stubCleared_of_stub hitem
    | null | bool | int | float | str | obj => cases hread
  · intro artifact h
    obtain ⟨j, hread⟩ := exists_of_answer h
    exact artifactCleared_of_artifact hread

/-! ## Answers with a mask -/

/-- A discovery whose redactor knows one secret. -/
def hunterDiscovery : RegistryHTTPDiscovery where
  nfkc := id
  writer := .plain
  unicode := ⟨fun c => [c], fun c => [c]⟩
  redactText := hunterText
  loader := ⟨64, 4300, .finite, true⟩
  constants := rfl
  limits := {
    search_range := by decide
    artifact_range := by decide }

def agentQuery : RegistrySearchQuery where
  intent := lit "agents"
  kinds := [lit "Agent"]
  «namespace» := some (lit "n")
  limit := 1
  intent_isVisible := by decide
  kinds_valid := by decide
  namespace_isVisible := by decide
  limit_range := by decide

/-- A response with a document of ASCII characters. -/
def documentResponse (document : Json) : OutboundHTTPResponse where
  status := 200
  headers := []
  body := (JsonWriter.plain.render document).map fun c => UInt8.ofNat c.val
  status_range := by decide

/-- The members that the stub and the artifact of the agent share. -/
def agentMembers : Members :=
  [(lit "name", .str (lit "a")), (lit "namespace", .str (lit "n")), (lit "tag", .str (lit "1")),
    (lit "arn", .str (lit "r")), (lit "digest", .str (lit "sha256:" ++ List.replicate 64 48)),
    (lit "ref", .str (lit "f"))]

/-- A token that is masked. -/
def maskedMembers : Members := [(lit "token", .str maskText), (lit "port", .int 80)]

/-- What the registry answers to the search. -/
def stubsResponse : OutboundHTTPResponse :=
  documentResponse (.arr [.obj (agentMembers ++ [(lit "kind", .str (lit "Agent")),
    (lit "fetchPath", .str (lit "/v0/a")), (lit "attributes", .obj maskedMembers)])])

/-- What the registry answers to the fetch. -/
def artifactResponse : OutboundHTTPResponse :=
  documentResponse (.obj [(lit "apiVersion", .str (lit "registry.agentic.dev/v1alpha1")),
    (lit "kind", .str (lit "Agent")), (lit "metadata", .obj agentMembers),
    (lit "spec", .obj maskedMembers)])

/-- The search and the fetch both return, and the mask is in what they return. -/
theorem discovery_cleared_example :
    ∃ stubs, hunterDiscovery.search aliceCall agentQuery stubsResponse = .ok stubs ∧
      ∃ stub ∈ stubs, text stub.attributes (lit "token") = some maskText ∧
        StubCleared hunterDiscovery stub.toStubFields ∧
        ∃ artifact, hunterDiscovery.fetch aliceCall stub artifactResponse = .ok artifact ∧
          text artifact.spec (lit "token") = some maskText ∧
          ArtifactCleared hunterDiscovery artifact.toArtifactFields := by
  have hreturns : (hunterDiscovery.search aliceCall agentQuery stubsResponse).toOption.any
      (fun stubs => stubs.any fun stub => text stub.attributes (lit "token") = some maskText &&
        (hunterDiscovery.fetch aliceCall stub artifactResponse).toOption.any fun artifact =>
          text artifact.spec (lit "token") = some maskText) = true := by decide +kernel
  obtain ⟨stubs, hsearch, hany⟩ := (Option.any_eq_true ..).1 hreturns
  obtain ⟨stub, hstub, hany⟩ := List.any_eq_true.1 hany
  obtain ⟨hattributes, hany⟩ := Bool.and_eq_true_iff.1 hany
  obtain ⟨artifact, hfetch, hspec⟩ := (Option.any_eq_true ..).1 hany
  have hsearch := eq_ok_of_toOption hsearch
  have hfetch := eq_ok_of_toOption hfetch
  have hcleared := discovery_cleared hunterDiscovery aliceCall agentQuery stub
  exact ⟨stubs, hsearch, stub, hstub, of_decide_eq_true hattributes,
    (hcleared stubsResponse).1 _ hsearch _ hstub, artifact, hfetch, of_decide_eq_true hspec,
    (hcleared artifactResponse).2 _ hfetch⟩

end RegistryHTTPDiscovery

end Registry

end McpRuntime
