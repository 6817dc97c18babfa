import McpRuntime.Manifest.Compiler

/-!
# Portable extraction is lossless

`extract_server_json` of a compiled registry manifest is the compiled
`server.json` (`extract_compiled`), whatever the authoring manifest says: the
documents of the compiler have texts, booleans and distinct keys only
(`plain_registryDocument`), so the registry manifest is read back with its members
in order, and what is left of its `spec` has the canonical form of the portable
document.
-/

namespace McpRuntime

namespace Json

/-! ## Members in order -/

/-- Members with distinct keys have one order. -/
theorem sortMembers_eq_of_perm {members members' : List (Text × Json)} (h : members.Perm members')
    (hnodup : (members.map Prod.fst).Nodup) : sortMembers members = sortMembers members' := by
  have hperm : (sortMembers members).Perm (sortMembers members') :=
    (sortMembers_perm _).trans (h.trans (sortMembers_perm _).symm)
  refine hperm.eq_of_pairwise (fun m m' hm hm' hle hle' => ?_)
    (List.pairwise_insertionSort _ _) (List.pairwise_insertionSort _ _)
  refine List.inj_on_of_nodup_map hnodup ((sortMembers_perm _).mem_iff.1 hm) ?_
    (le_antisymm hle hle')
  exact h.mem_iff.2 ((sortMembers_perm _).mem_iff.1 hm')

/-- A value in canonical form is left as it is. -/
theorem sorted_sorted (j : Json) : j.sorted.sorted = j.sorted := by
  induction j using Json.induct with
  | null | bool | int | float | str => rfl
  | arr items ih =>
    rw [sorted_arr, sorted_arr, List.map_map]
    exact congrArg arr (List.map_congr_left ih)
  | obj members ih =>
    have hvalues : (sortMembers (members.map fun m => (m.1, m.2.sorted))).map
        (fun m => (m.1, m.2.sorted)) = sortMembers (members.map fun m => (m.1, m.2.sorted)) := by
      refine (List.map_congr_left fun m hm => ?_).trans (List.map_id _)
      obtain ⟨m', hm', rfl⟩ := List.mem_map.1 ((sortMembers_perm _).mem_iff.1 hm)
      exact congrArg (Prod.mk m'.1) (ih m' hm')
    rw [sorted_obj, sorted_obj, hvalues]
    exact congrArg obj (List.pairwise_insertionSort _ _).insertionSort_eq

/-- What a key is bound to does not depend on the order of distinct keys. -/
theorem get_sortMembers {members : List (Text × Json)} (hnodup : (members.map Prod.fst).Nodup)
    {key : Text} {j : Json} (hj : get key members = some j) :
    get key (sortMembers members) = some j := by
  refine get_of_mem ?_ ((sortMembers_perm _).mem_iff.2 (mem_of_get hj))
  exact (((sortMembers_perm members).map Prod.fst).nodup_iff).2 hnodup

variable {condition : Text → Prop} {room : ℕ}

/-- The canonical form of a value without numbers has none. -/
theorem Plain.sorted {j : Json} (h : j.Plain condition room) : j.sorted.Plain condition room := by
  induction j using Json.induct generalizing room with
  | null | bool | str => exact h
  | int | float => cases room <;> exact h.elim
  | arr items ih =>
    cases room with
    | zero => exact h.elim
    | succ room =>
      rw [sorted_arr]
      intro j hj
      obtain ⟨j', hj', rfl⟩ := List.mem_map.1 hj
      exact ih j' hj' (h j' hj')
  | obj members ih =>
    cases room with
    | zero => exact h.elim
    | succ room =>
      have hperm := sortMembers_perm (members.map fun m => (m.1, m.2.sorted))
      rw [sorted_obj]
      refine ⟨(hperm.map Prod.fst).nodup_iff.2 ?_, fun m hm => ?_⟩
      · rw [List.map_map]
        exact h.1
      · obtain ⟨m', hm', rfl⟩ := List.mem_map.1 (hperm.mem_iff.1 hm)
        exact ⟨(h.2 m' hm').1, ih m' hm' (h.2 m' hm').2⟩

/-- A value without numbers is finite. -/
theorem Plain.allFinite {j : Json} (h : j.Plain condition room) : j.allFinite = true := by
  induction j using Json.induct generalizing room with
  | null | bool | int | str => rfl
  | float => cases room <;> exact h.elim
  | arr items ih =>
    cases room with
    | zero => exact h.elim
    | succ room => exact allFinite_arr.2 fun j hj => ih j hj (h j hj)
  | obj members ih =>
    cases room with
    | zero => exact h.elim
    | succ room => exact allFinite_obj.2 fun m hm => ih m hm (h.2 m hm).2

end Json

namespace Manifest

/-! ## The documents have texts, booleans and distinct keys -/

/-- A value of the documents: nested in at most so many levels, of texts, booleans
    and objects with distinct keys. -/
abbrev IsPlain (room : ℕ) (j : Json) : Prop := j.Plain (fun _ => True) room

/-- An optional value of the documents. -/
def OptionPlain (room : ℕ) (o : Option Json) : Prop := ∀ j ∈ o, IsPlain room j

section

variable {room : ℕ}

@[simp] theorem optionPlain_none : OptionPlain room none := nofun

@[simp] theorem optionPlain_some {j : Json} : OptionPlain room (some j) ↔ IsPlain room j :=
  ⟨fun h => h j rfl, fun h _ hj => Option.some.inj hj ▸ h⟩

@[simp] theorem optionPlain_text? {t : Option Text} : OptionPlain room (text? t) := by
  cases t <;> simp [text?]

theorem isPlain_obj {document : Document} (hnodup : (document.map Prod.fst).Nodup)
    (h : ∀ m ∈ document, IsPlain room m.2) : IsPlain (room + 1) (.obj document) :=
  ⟨hnodup, fun m hm => ⟨trivial, h m hm⟩⟩

theorem isPlain_arr {items : List Json} (h : ∀ j ∈ items, IsPlain room j) :
    IsPlain (room + 1) (.arr items) :=
  h

@[simp] theorem isPlain_sortedStrings {values : List Text} :
    IsPlain (room + 1) (sortedStrings values) := by
  refine isPlain_arr fun j hj => ?_
  obtain ⟨t, -, rfl⟩ := List.mem_map.1 hj
  exact Json.plain_str.2 trivial

@[simp] theorem optionPlain_optionalSortedStrings {values : List Text} :
    OptionPlain (room + 1) (optionalSortedStrings values) := by
  rw [optionalSortedStrings]
  split_ifs <;> simp

/-- The keys of a document are among those that were written. -/
theorem withoutNone_keys (document : List (Text × Option Json)) :
    ((withoutNone document).map Prod.fst).Sublist (document.map Prod.fst) := by
  induction document with
  | nil => exact .slnil
  | cons m document ih =>
    obtain ⟨key, _ | j⟩ := m
    · exact ih.cons _
    · exact ih.cons_cons _

theorem isPlain_withoutNone {document : List (Text × Option Json)}
    (hnodup : (document.map Prod.fst).Nodup) (h : ∀ m ∈ document, OptionPlain room m.2) :
    IsPlain (room + 1) (.obj (withoutNone document)) := by
  refine isPlain_obj ((withoutNone_keys document).nodup hnodup) fun m hm => ?_
  obtain ⟨m', hm', hj⟩ := List.mem_filterMap.1 hm
  obtain ⟨j, hmem, rfl⟩ := Option.map_eq_some_iff.1 hj
  exact h m' hm' j hmem

theorem isPlain_dict {values : Dict Text Json} (h : ∀ e ∈ values.entries, IsPlain room e.2) :
    IsPlain (room + 1) (.obj (values.entries.map fun e => (e.1, e.2))) := by
  refine isPlain_obj ?_ fun m hm => ?_
  · rw [List.map_map]
    exact values.nodupKeys
  · obtain ⟨e, he, rfl⟩ := List.mem_map.1 hm
    exact h e he

theorem isPlain_stringMap {values : Dict Text Text} :
    IsPlain (room + 1) (.obj (stringMap values)) := by
  refine isPlain_obj ?_ fun m hm => ?_
  · rw [stringMap, List.map_map]
    exact values.nodupKeys
  · obtain ⟨e, -, rfl⟩ := List.mem_map.1 hm
    exact Json.plain_str.2 trivial

theorem isPlain_toolProperties (inputs : List ToolInputField) :
    IsPlain (room + 2) (.obj ((toolProperties inputs).entries.map fun e => (e.1, e.2))) := by
  have hfold (properties : Dict Text Json) (h : ∀ e ∈ properties.entries, IsPlain (room + 1) e.2) :
      ∀ e ∈ (inputs.foldl (fun properties input => properties.insert input.name
        (.obj (withoutNone [(lit "description", text? input.description),
          (lit "type", some (.str input.jsonType.value))]))) properties).entries,
        IsPlain (room + 1) e.2 := by
    induction inputs generalizing properties with
    | nil => exact h
    | cons input inputs ih =>
      refine ih _ fun e he => ?_
      rw [← AList.mem_lookup_iff, Dict.lookup_insert] at he
      split_ifs at he
      · rw [← Option.some.inj he]
        exact isPlain_withoutNone (of_decide_eq_true rfl) (by simp)
      · exact h e (AList.mem_lookup_iff.1 he)
  exact isPlain_dict (hfold ∅ nofun)

theorem isPlain_toolInputSchema (tool : ToolSummary) :
    IsPlain (room + 3) (toolInputSchema tool) := by
  rw [toolInputSchema]
  refine isPlain_obj (of_decide_eq_true rfl) ?_
  simp only [List.forall_mem_cons, List.not_mem_nil, false_imp_iff, implies_true, and_true,
    Json.plain_str]
  refine ⟨isPlain_toolProperties _, isPlain_arr fun j hj => ?_⟩
  obtain ⟨input, -, rfl⟩ := List.mem_map.1 hj
  exact Json.plain_str.2 trivial

theorem isPlain_toolDocument {hashing : Hashing} {tool : ToolSummary} {document : Document}
    (h : toolDocument hashing tool = some document) : IsPlain (room + 4) (.obj document) := by
  obtain ⟨fingerprint, -, rfl⟩ := Option.map_eq_some_iff.1 h
  refine isPlain_withoutNone (of_decide_eq_true rfl) ?_
  have hsemantic : IsPlain (room + 1 + 1 + 1) (.obj (withoutNone [
      (lit "examples", optionalSortedStrings tool.semantic.examples),
      (lit "notFor", optionalSortedStrings tool.semantic.notFor),
      (lit "summary", text? tool.semantic.summary),
      (lit "whenToUse", optionalSortedStrings tool.semantic.whenToUse)])) :=
    isPlain_withoutNone (of_decide_eq_true rfl) (by simp)
  simp [hsemantic, isPlain_toolInputSchema tool]

theorem isPlain_packageDocument (package : PackageIdentity) :
    IsPlain (room + 2) (.obj (packageDocument package)) := by
  rw [packageDocument]
  refine isPlain_withoutNone (of_decide_eq_true rfl) ?_
  have htransport : IsPlain (room + 1) (.obj (withoutNone
      [(lit "type", some (.str package.transport.type.value)),
        (lit "url", text? package.transport.url)])) :=
    isPlain_withoutNone (of_decide_eq_true rfl) (by simp)
  simp [htransport]

theorem isPlain_portableDocument (manifest : ServerAuthoringManifest) :
    IsPlain (room + 4) (.obj (portableDocument manifest)) := by
  rw [portableDocument]
  refine isPlain_withoutNone (of_decide_eq_true rfl) ?_
  have hrepository : IsPlain (room + 3) (.obj (withoutNone [(lit "id", text? manifest.repository.id),
      (lit "source", some (.str manifest.repository.source)),
      (lit "subfolder", text? manifest.repository.subfolder),
      (lit "url", some (.str manifest.repository.url))])) :=
    isPlain_withoutNone (of_decide_eq_true rfl) (by simp)
  have hremotes : OptionPlain (room + 3) (manifest.remote.map fun remote =>
      .arr [.obj [(lit "type", .str (lit "streamable-http")), (lit "url", .str remote.url)]]) := by
    intro j hj
    obtain ⟨remote, -, rfl⟩ := Option.map_eq_some_iff.1 hj
    refine isPlain_arr (List.forall_mem_singleton.2 (isPlain_obj (of_decide_eq_true rfl) ?_))
    simp
  have hpackages : OptionPlain (room + 3) (manifest.package.map fun package =>
      .arr [.obj (packageDocument package)]) := by
    intro j hj
    obtain ⟨package, -, rfl⟩ := Option.map_eq_some_iff.1 hj
    exact isPlain_arr (List.forall_mem_singleton.2 (isPlain_packageDocument package))
  simp [hrepository, hremotes, hpackages]

theorem isPlain_registryMetadata (manifest : ServerAuthoringManifest) :
    IsPlain (room + 2) (.obj (registryMetadata manifest)) := by
  rw [registryMetadata]
  refine isPlain_withoutNone (of_decide_eq_true rfl) ?_
  have hannotations (annotations : Document) (h : IsPlain (room + 1) (.obj annotations)) :
      OptionPlain (room + 1) (if annotations.isEmpty then none else some (.obj annotations)) := by
    split_ifs <;> simp [h]
  simp [isPlain_stringMap, hannotations, -List.isEmpty_iff]

theorem isPlain_registryExtension (manifest : ServerAuthoringManifest) {tools : List Document}
    (h : ∀ tool ∈ tools, IsPlain (room + 4) (.obj tool)) :
    IsPlain (room + 6) (.obj (registryExtension manifest tools)) := by
  rw [registryExtension]
  refine isPlain_obj (of_decide_eq_true rfl) ?_
  have hroute : IsPlain (room + 5) (.obj [(lit "directAccess", .bool manifest.routePolicy.directAccess),
      (lit "gatewayPath", .str manifest.routePolicy.gatewayPath)]) :=
    isPlain_obj (of_decide_eq_true rfl) (by simp)
  have hsemantic : IsPlain (room + 5) (.obj (withoutNone [
      (lit "capabilities", some (sortedStrings manifest.semantic.capabilities)),
      (lit "domains", some (sortedStrings manifest.semantic.domains)),
      (lit "examples", optionalSortedStrings manifest.semantic.examples),
      (lit "keywords", some (sortedStrings manifest.semantic.keywords)),
      (lit "notFor", optionalSortedStrings manifest.semantic.notFor),
      (lit "requires", optionalSortedStrings manifest.semantic.requires),
      (lit "risk", text? (manifest.semantic.risk.map DiscoveryRisk.value)),
      (lit "summary", text? manifest.semantic.summary),
      (lit "whenToUse", optionalSortedStrings manifest.semantic.whenToUse)])) :=
    isPlain_withoutNone (of_decide_eq_true rfl) (by simp)
  have htools : IsPlain (room + 5) (.arr (tools.map .obj)) := by
    refine isPlain_arr fun j hj => ?_
    obtain ⟨tool, htool, rfl⟩ := List.mem_map.1 hj
    exact h tool htool
  simp [hroute, hsemantic, htools]

end

/-! ## Extraction -/

variable {hashing : Hashing} {manifest : ServerAuthoringManifest} {tools : List Document}

/-- Neither key that is added to the `spec` is a key of the portable document. -/
theorem portable_keys {m : Text × Json} (hm : m ∈ portableDocument manifest) :
    m.1 ≠ registryExtensionKey ∧ m.1 ≠ lit "credentialRef" := by
  have hkeys : m.1 ∈ [lit "$schema", lit "description", lit "name", lit "repository", lit "title",
      lit "version", lit "remotes", lit "packages"] :=
    (withoutNone_keys _).subset (List.mem_map_of_mem hm)
  have hne : ∀ key ∈ [lit "$schema", lit "description", lit "name", lit "repository", lit "title",
      lit "version", lit "remotes", lit "packages"],
      key ≠ registryExtensionKey ∧ key ≠ lit "credentialRef" := by decide
  exact hne _ hkeys

/-- The members that extraction keeps. -/
def isPortable (m : Text × Json) : Bool :=
  m.1 ≠ registryExtensionKey && m.1 ≠ lit "credentialRef"

/-- What is kept of the `spec` is the portable document. -/
theorem filter_registrySpec :
    (registrySpec manifest (portableDocument manifest) tools).filter isPortable =
      portableDocument manifest := by
  have hportable : (portableDocument manifest).filter isPortable = portableDocument manifest :=
    List.filter_eq_self.2 fun m hm => by
      obtain ⟨hextension, hcredential⟩ := portable_keys hm
      rw [isPortable, decide_eq_true hextension, decide_eq_true hcredential]
      rfl
  have hextension : isPortable (registryExtensionKey, .obj (registryExtension manifest tools)) = false :=
    rfl
  rw [registrySpec, List.filter_append, hportable, List.filter_cons_of_neg (by simp [hextension])]
  cases manifest.credentialRef with
  | none => exact List.append_nil _
  | some reference =>
    rw [Option.map_some, Option.toList_some, List.filter_cons_of_neg (by exact Bool.false_ne_true)]
    exact List.append_nil _

/-- The members that are added to the portable document. -/
theorem mem_registrySpec {m : Text × Json} :
    m ∈ registrySpec manifest (portableDocument manifest) tools ↔ m ∈ portableDocument manifest ∨
      m = (registryExtensionKey, .obj (registryExtension manifest tools)) ∨
        ∃ reference ∈ manifest.credentialRef, m = (lit "credentialRef", .obj
          [(lit "key", .str reference.key), (lit "secretName", .str reference.secretName)]) := by
  rw [registrySpec, List.mem_append, List.mem_cons, Option.mem_toList, Option.map_eq_some_iff]
  simp only [Option.mem_def, eq_comm]

theorem nodup_registrySpec :
    ((registrySpec manifest (portableDocument manifest) tools).map Prod.fst).Nodup := by
  have hportable := (@isPlain_portableDocument 0 manifest).1
  have hadded : registryExtensionKey ≠ lit "credentialRef" := by decide
  rw [registrySpec, List.map_append, List.map_cons]
  refine hportable.append ?_ fun key hkey hmem => ?_
  · cases manifest.credentialRef with
    | none => exact List.nodup_singleton _
    | some reference =>
      exact List.nodup_cons.2 ⟨fun h => hadded (List.mem_singleton.1 h), List.nodup_singleton _⟩
  · obtain ⟨m, hm, rfl⟩ := List.mem_map.1 hkey
    obtain ⟨hextension, hcredential⟩ := portable_keys hm
    cases hreference : manifest.credentialRef with
    | none =>
      rw [hreference] at hmem
      exact hextension (List.mem_singleton.1 hmem)
    | some reference =>
      rw [hreference] at hmem
      rcases List.mem_cons.1 hmem with h | h
      · exact hextension h
      · exact hcredential (List.mem_singleton.1 h)

theorem isPlain_registrySpec (manifest : ServerAuthoringManifest) {room : ℕ} (h : ∀ tool ∈ tools, IsPlain (room + 4) (.obj tool)) :
    IsPlain (room + 7) (.obj (registrySpec manifest (portableDocument manifest) tools)) := by
  have hportable := @isPlain_portableDocument (room + 3) manifest
  refine isPlain_obj nodup_registrySpec fun m hm => ?_
  rcases mem_registrySpec.1 hm with hm | rfl | ⟨reference, -, rfl⟩
  · exact (hportable.2 m hm).2
  · exact isPlain_registryExtension manifest h
  · exact isPlain_obj (of_decide_eq_true rfl) (by simp)

/-- The registry document of the documents of the tools. -/
theorem registryDocument_eq_some {registry : Document}
    (h : registryDocument hashing manifest (portableDocument manifest) = some registry) :
    ∃ tools : List Document, (∀ tool ∈ tools, ∀ room, IsPlain (room + 4) (.obj tool)) ∧
      registry = [(lit "apiVersion", .str (lit "registry.agentic.dev/v1alpha1")),
        (lit "kind", .str (lit "MCPServer")), (lit "metadata", .obj (registryMetadata manifest)),
        (lit "spec", .obj (registrySpec manifest (portableDocument manifest) tools))] := by
  obtain ⟨tools, htools, rfl⟩ := Option.map_eq_some_iff.1 h
  refine ⟨tools, fun tool htool room => ?_, rfl⟩
  obtain ⟨summary, -, hdocument⟩ := exists_of_forall₂ (mapM_eq_some.1 htools).flip htool
  exact isPlain_toolDocument hdocument

/-- The registry document has texts, booleans and distinct keys only. -/
theorem isPlain_registryDocument {room : ℕ} {registry : Document}
    (h : registryDocument hashing manifest (portableDocument manifest) = some registry) :
    IsPlain (room + 8) (.obj registry) := by
  obtain ⟨tools, htools, rfl⟩ := registryDocument_eq_some h
  refine isPlain_obj (of_decide_eq_true rfl) ?_
  have hspec := isPlain_registrySpec manifest fun tool htool => htools tool htool room
  have hmetadata := @isPlain_registryMetadata (room + 5) manifest
  simp [hspec, hmetadata]

section

variable {writer : JsonWriter} {document document' : Document} {text : Text}

/-- A document that is written has finite numbers and a text that UTF-8 can encode. -/
theorem canonicalJson_eq_some : canonicalJson writer document = some text ↔
    (Json.obj document).allFinite = true ∧ text.Encodable ∧
      (Json.obj document).sorted.indented writer 0 ++ [10] = text := by
  rw [canonicalJson]
  split_ifs with h
  · refine ⟨fun he => ?_, fun he => congrArg some he.2.2⟩
    obtain rfl := Option.some.inj he
    exact ⟨h.1, h.2, rfl⟩
  · refine ⟨nofun, fun he => absurd ?_ h⟩
    obtain ⟨hfinite, hencodable, rfl⟩ := he
    exact ⟨hfinite, hencodable⟩

/-- Finite documents with one canonical form have one text. -/
theorem canonicalJson_congr (h : (Json.obj document).sorted = (Json.obj document').sorted)
    (hfinite : (Json.obj document).allFinite = true) (hfinite' : (Json.obj document').allFinite = true) :
    canonicalJson writer document = canonicalJson writer document' := by
  rw [canonicalJson, canonicalJson, h, hfinite, hfinite']

/-- A document without numbers is read from its text, in canonical form. -/
theorem parseJson_canonicalJson {room : ℕ} (hplain : IsPlain room (.obj document))
    (h : canonicalJson writer document = some text) :
    parseJson text = some (Json.obj document).sorted ∧
      (Json.obj document).sorted.Plain Text.Encodable room := by
  obtain ⟨-, hencodable, rfl⟩ := canonicalJson_eq_some.1 h
  have hsorted := hplain.sorted
  have htext : ((Json.obj document).sorted.indented writer 0).Encodable := fun c hc =>
    hencodable c (List.mem_append_left _ hc)
  exact ⟨Json.parseJson_indented hsorted, hsorted.encodable_of_indented htext⟩

end

/-- The documents of a manifest that is accepted. -/
theorem compileManifests_eq_ok {revalidated : ServerAuthoringManifest → Option ServerAuthoringManifest}
    {runtimeVersion : Text} {compiled : CompiledManifests}
    (h : compileManifests hashing revalidated manifest runtimeVersion = .ok compiled) :
    ∃ manifest registry, registryDocument hashing manifest (portableDocument manifest) = some registry ∧
      canonicalJson hashing.writer (portableDocument manifest) = some compiled.serverJson ∧
      canonicalJson hashing.writer registry = some compiled.registryManifest := by
  -- The documents are those of the manifest that was given, or of the one validated again.
  have hdocuments {manifest : ServerAuthoringManifest}
      (h : compileManifests.documents hashing manifest = .ok compiled) :
      ∃ manifest registry,
        registryDocument hashing manifest (portableDocument manifest) = some registry ∧
        canonicalJson hashing.writer (portableDocument manifest) = some compiled.serverJson ∧
        canonicalJson hashing.writer registry = some compiled.registryManifest := by
    rw [compileManifests.documents] at h
    split at h
    · cases h
    · next registry hregistry =>
      split at h
      · next serverJson registryManifest hserver hmanifest =>
        obtain rfl := Except.ok.inj h
        exact ⟨manifest, registry, hregistry, hserver, hmanifest⟩
      · cases h
  rw [compileManifests] at h
  split_ifs at h
  split at h
  · cases h
  · split_ifs at h
    split at h
    · split_ifs at h
      exact hdocuments h
    · exact hdocuments h

/-- What `validate_json` of the adapter of objects does with the text of an object of
    texts and booleans, with distinct keys, that is not nested deeply: it reads it. -/
def ReadsPlain (validateJson : Text → Option Json) : Prop :=
  ∀ text members, text.Encodable → parseJson text = some (.obj members) →
    (Json.obj members).Plain Text.Encodable 100 → validateJson text = some (.obj members)

/-- The members of the canonical form of the `spec` that are kept have the canonical
    form of the portable document. -/
theorem sorted_filter_registrySpec {spec : Document}
    (h : (Json.obj (registrySpec manifest (portableDocument manifest) tools)).sorted = .obj spec) :
    (Json.obj (spec.filter isPortable)).sorted = (Json.obj (portableDocument manifest)).sorted := by
  rw [Json.sorted_obj] at h
  obtain rfl := Json.obj.inj h
  have hfilter : ((registrySpec manifest (portableDocument manifest) tools).map
      fun m => (m.1, m.2.sorted)).filter isPortable =
        (portableDocument manifest).map fun m => (m.1, m.2.sorted) := by
    rw [List.filter_map]
    exact congrArg _ filter_registrySpec
  have hperm := ((Json.sortMembers_perm ((registrySpec manifest (portableDocument manifest) tools).map
    fun m => (m.1, m.2.sorted))).filter isPortable).trans (.of_eq hfilter)
  have hvalues : ((portableDocument manifest).map fun m => (m.1, m.2.sorted)).map
      (fun m => (m.1, m.2.sorted)) = (portableDocument manifest).map fun m => (m.1, m.2.sorted) := by
    rw [List.map_map]
    exact List.map_congr_left fun m _ => congrArg (Prod.mk m.1) (Json.sorted_sorted m.2)
  rw [Json.sorted_obj, Json.sorted_obj]
  refine congrArg Json.obj (Json.sortMembers_eq_of_perm ?_ ?_).symm
  · exact ((hperm.map _).trans (.of_eq hvalues)).symm
  · rw [List.map_map]
    exact (@isPlain_portableDocument 0 manifest).1

/-- **The portable document is what was compiled.** -/
theorem extract_compiled {validateJson : Text → Option Json} (hreads : ReadsPlain validateJson)
    {revalidated : ServerAuthoringManifest → Option ServerAuthoringManifest} {runtimeVersion : Text}
    {compiled : CompiledManifests}
    (h : compileManifests hashing revalidated manifest runtimeVersion = .ok compiled) :
    extractServerJson hashing.writer validateJson compiled.registryManifest =
      some compiled.serverJson := by
  obtain ⟨manifest, registry, hregistry, hserver, hcompiled⟩ := compileManifests_eq_ok h
  have hplain := @isPlain_registryDocument _ _ 92 _ hregistry
  obtain ⟨hparse, hencodable⟩ := parseJson_canonicalJson hplain hcompiled
  have htext := (canonicalJson_eq_some.1 hcompiled).2.1
  obtain ⟨tools, htools, rfl⟩ := registryDocument_eq_some hregistry
  have hspec := @isPlain_registrySpec tools manifest 92 fun tool htool => htools tool htool 92
  obtain ⟨spec, hsorted⟩ : ∃ spec,
      (Json.obj (registrySpec manifest (portableDocument manifest) tools)).sorted = .obj spec :=
    ⟨_, Json.sorted_obj _⟩
  rw [Json.sorted_obj] at hparse hencodable
  have hvalidate := hreads _ _ htext hparse hencodable
  have hnodup : (([(lit "apiVersion", .str (lit "registry.agentic.dev/v1alpha1")),
      (lit "kind", .str (lit "MCPServer")), (lit "metadata", .obj (registryMetadata manifest)),
      (lit "spec", .obj (registrySpec manifest (portableDocument manifest) tools))].map
        fun m : Text × Json => (m.1, m.2.sorted)).map Prod.fst).Nodup := of_decide_eq_true rfl
  have hkind := @Json.get_sortMembers _ hnodup (lit "kind") (.str (lit "MCPServer")) rfl
  have hget := @Json.get_sortMembers _ hnodup (lit "spec") (.obj spec) (congrArg some hsorted)
  rw [extractServerJson, hvalidate]
  simp only [hkind, hget, if_true]
  have hplain' := hspec.sorted
  rw [hsorted] at hplain'
  have hfinite : (Json.obj (spec.filter isPortable)).allFinite = true :=
    Json.allFinite_obj.2 fun m hm => (hplain'.2 m (List.mem_of_mem_filter hm)).2.allFinite
  refine (canonicalJson_congr (sorted_filter_registrySpec hsorted) hfinite ?_).trans hserver
  exact (@isPlain_portableDocument 0 manifest).allFinite

/-- A tool of one input. -/
def findTool : ToolSummary where
  name := lit "find"
  description := lit "Find"
  inputFingerprint := lit "in"
  outputFingerprint := lit "out"
  inputs := [{ name := lit "id", jsonType := .string }]

/-- A manifest with a package, a remote endpoint, credentials and a tool. -/
def orderManifest : ServerAuthoringManifest where
  name := lit "io.github.example/orders"
  version := lit "1.0.0"
  description := [34, 233, 10, 127, 128512]
  title := some (lit "Orders")
  repository := { url := lit "https://github.com/example/orders", source := lit "github" }
  ownership := { «namespace» := lit "example", tenantId := lit "tenant", visibility := .internal }
  adapter := .native
  protocolVersions := [lit "2025-11-25"]
  lifecycle := .active
  routePolicy := { gatewayPath := lit "/orders" }
  remote := some { url := lit "https://example.com/mcp" }
  package := some { registryType := .pypi, identifier := lit "orders", transport := { type := .stdio } }
  credentialRef := some { secretName := lit "orders", key := lit "api" }
  tools := [findTool]

/-- A reader of objects. -/
def readObject (text : Text) : Option Json :=
  match parseJson text with
  | some (.obj members) => some (.obj members)
  | _ => none

theorem readsPlain_readObject : ReadsPlain readObject := fun _ _ _ hparse _ => by
  rw [readObject, hparse]

theorem extract_compiled_example : ∃ compiled,
    compileManifests Gateway.flatHashing some orderManifest (lit "1.0.0") = .ok compiled ∧
      extractServerJson Gateway.flatHashing.writer readObject compiled.registryManifest =
        some compiled.serverJson := by
  have hok : (compileManifests Gateway.flatHashing some orderManifest (lit "1.0.0")).isOk = true := by
    decide +kernel
  cases hcompiled : compileManifests Gateway.flatHashing some orderManifest (lit "1.0.0") with
  | error e =>
    rw [hcompiled] at hok
    cases hok
  | ok compiled => exact ⟨compiled, rfl, extract_compiled readsPlain_readObject hcompiled⟩

end Manifest

end McpRuntime
