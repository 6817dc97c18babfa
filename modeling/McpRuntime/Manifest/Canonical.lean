import McpRuntime.Manifest.Lossless
import McpRuntime.Manifest.Models
import McpRuntime.Python.Sorted

/-!
# Compilation and the order of lists

The lists of an authoring manifest are sorted where its documents are made, each with its own
key. The order of a list of texts is lost. Tools and inputs are sorted by their names, which the
models do not require to be distinct: among tools of one name, and among inputs of one name,
the order is kept, and goes into the documents.

`compile_rearranged_iff`: what is compiled is the same for every order of the lists exactly
where the tools of one name are alike, and the inputs of one name describe one property.
-/

namespace McpRuntime

namespace Json

/-! ## Members by their keys -/

theorem get_map_sorted (key : Text) (members : List (Text × Json)) :
    get key (members.map fun m => (m.1, m.2.sorted)) = (get key members).map sorted := by
  induction members with
  | nil => rfl
  | cons m members ih =>
    obtain ⟨k, j⟩ := m
    rw [get, get, List.map_cons, List.lookup_cons, List.lookup_cons]
    cases key == k with
    | true => rfl
    | false => exact ih

/-- What a key is bound to in the canonical form of an object. -/
theorem get_sorted {members : List (Text × Json)} (hnodup : (members.map Prod.fst).Nodup)
    (key : Text) :
    get key (sortMembers (members.map fun m => (m.1, m.2.sorted))) = (get key members).map sorted := by
  have hkeys : ((members.map fun m => (m.1, m.2.sorted)).map Prod.fst).Nodup := by
    rw [List.map_map]
    exact hnodup
  rw [← get_map_sorted]
  cases hget : get key (members.map fun m => (m.1, m.2.sorted)) with
  | some j => exact get_sortMembers hkeys hget
  | none =>
    cases hsorted : get key (sortMembers (members.map fun m => (m.1, m.2.sorted))) with
    | none => rfl
    | some j =>
      have hmem := (sortMembers_perm _).mem_iff.1 (mem_of_get hsorted)
      rw [get_of_mem hkeys hmem] at hget
      cases hget

/-- Objects with one canonical form bind each key to values with one canonical form. -/
theorem get_of_sorted_eq {members members' : List (Text × Json)}
    (hnodup : (members.map Prod.fst).Nodup) (hnodup' : (members'.map Prod.fst).Nodup)
    (h : (obj members).sorted = (obj members').sorted) (key : Text) :
    (get key members).map sorted = (get key members').map sorted := by
  rw [sorted_obj, sorted_obj] at h
  rw [← get_sorted hnodup, ← get_sorted hnodup', obj.inj h]

/-- Objects that bind each key to values with one canonical form have one canonical form. -/
theorem sorted_obj_eq {members members' : List (Text × Json)}
    (hnodup : (members.map Prod.fst).Nodup) (hnodup' : (members'.map Prod.fst).Nodup)
    (h : ∀ key, (get key members).map sorted = (get key members').map sorted) :
    (obj members).sorted = (obj members').sorted := by
  have hkeys {members : List (Text × Json)} (hnodup : (members.map Prod.fst).Nodup) :
      ((members.map fun m => (m.1, m.2.sorted)).map Prod.fst).Nodup := by
    rwa [List.map_map]
  have hmem {members : List (Text × Json)} (hnodup : (members.map Prod.fst).Nodup) (m : Text × Json) :
      m ∈ members.map (fun m => (m.1, m.2.sorted)) ↔ (get m.1 members).map sorted = some m.2 := by
    rw [← get_map_sorted]
    exact ⟨get_of_mem (hkeys hnodup), mem_of_get⟩
  rw [sorted_obj, sorted_obj]
  refine congrArg obj (sortMembers_eq_of_perm ?_ (hkeys hnodup))
  refine (List.perm_ext_iff_of_nodup (hkeys hnodup).of_map (hkeys hnodup').of_map).2 fun m => ?_
  rw [hmem hnodup, hmem hnodup', h]

end Json

namespace Manifest

open Gateway (ManifestLifecycle)

/-! ## Parts of documents -/

theorem withoutNone_cons_some (key : Text) (j : Json) (document : List (Text × Option Json)) :
    withoutNone ((key, some j) :: document) = (key, j) :: withoutNone document := rfl

theorem withoutNone_cons_none (key : Text) (document : List (Text × Option Json)) :
    withoutNone ((key, none) :: document) = withoutNone document := rfl

theorem get_withoutNone {document : List (Text × Option Json)}
    (hnodup : (document.map Prod.fst).Nodup) (key : Text) :
    Json.get key (withoutNone document) = (document.lookup key).join := by
  induction document with
  | nil => rfl
  | cons m document ih =>
    obtain ⟨k, j⟩ := m
    obtain ⟨hk, hnodup⟩ := List.nodup_cons.1 hnodup
    have hrest := ih hnodup
    rw [List.lookup_cons]
    cases hkey : key == k with
    | false =>
      cases j with
      | none => exact hrest
      | some j =>
        rw [withoutNone_cons_some, Json.get, List.lookup_cons, hkey]
        exact hrest
    | true =>
      obtain rfl := eq_of_beq hkey
      cases j with
      | none =>
        rw [withoutNone_cons_none]
        change _ = none
        cases hget : Json.get key (withoutNone document) with
        | none => rfl
        | some j =>
          have hmem := List.mem_map_of_mem (f := Prod.fst) (Json.mem_of_get hget)
          exact absurd ((withoutNone_keys document).subset hmem) hk
      | some j =>
        rw [withoutNone_cons_some, Json.get, List.lookup_cons, hkey]
        rfl

/-- Documents with one canonical form have the same fields, each in canonical form. -/
theorem lookup_of_sorted_eq {document document' : List (Text × Option Json)}
    (hnodup : (document.map Prod.fst).Nodup) (hnodup' : (document'.map Prod.fst).Nodup)
    (h : (Json.obj (withoutNone document)).sorted = (Json.obj (withoutNone document')).sorted)
    (key : Text) :
    (document.lookup key).join.map Json.sorted = (document'.lookup key).join.map Json.sorted := by
  rw [← get_withoutNone hnodup, ← get_withoutNone hnodup']
  exact Json.get_of_sorted_eq ((withoutNone_keys _).nodup hnodup)
    ((withoutNone_keys _).nodup hnodup') h key

/-- Documents whose fields have the same canonical forms have one canonical form. -/
theorem sorted_withoutNone {document document' : List (Text × Option Json)}
    (h : document.map (fun m => (m.1, m.2.map Json.sorted)) =
      document'.map fun m => (m.1, m.2.map Json.sorted)) :
    (Json.obj (withoutNone document)).sorted = (Json.obj (withoutNone document')).sorted := by
  have hmap (document : List (Text × Option Json)) :
      (withoutNone document).map (fun m => (m.1, m.2.sorted)) =
        withoutNone (document.map fun m => (m.1, m.2.map Json.sorted)) := by
    rw [withoutNone, withoutNone, List.map_filterMap, List.filterMap_map]
    refine List.filterMap_congr fun m _ => ?_
    obtain ⟨k, _ | j⟩ := m <;> rfl
  rw [Json.sorted_obj, Json.sorted_obj, hmap, hmap, h]

theorem map_sorted_text? {t t' : Option Text} :
    (text? t).map Json.sorted = (text? t').map Json.sorted ↔ t = t' := by
  cases t <;> cases t' <;> simp [text?, Json.sorted]

/-- Sorting loses the order of texts, and nothing else. -/
theorem sortedTexts_eq_iff {values values' : List Text} :
    sortedTexts values = sortedTexts values' ↔ values.Perm values' := by
  constructor
  · intro h
    exact (List.perm_insertionSort _ values).symm.trans
      ((List.Perm.of_eq h).trans (List.perm_insertionSort _ values'))
  · intro h
    exact List.Perm.eq_of_pairwise (fun _ _ _ _ => le_antisymm) (List.pairwise_insertionSort _ _)
      (List.pairwise_insertionSort _ _)
      ((List.perm_insertionSort _ values).trans (h.trans (List.perm_insertionSort _ values').symm))

theorem sorted_sortedStrings (values : List Text) :
    (sortedStrings values).sorted = sortedStrings values := by
  rw [sortedStrings, Json.sorted_arr, List.map_map]
  rfl

theorem sortedStrings_eq_iff {values values' : List Text} :
    sortedStrings values = sortedStrings values' ↔ values.Perm values' := by
  rw [← sortedTexts_eq_iff, sortedStrings, sortedStrings, Json.arr.injEq]
  exact (List.map_injective_iff.2 fun _ _ => Json.str.inj).eq_iff

theorem optionalSortedStrings_eq_iff {values values' : List Text} :
    optionalSortedStrings values = optionalSortedStrings values' ↔ values.Perm values' := by
  rw [← sortedStrings_eq_iff, optionalSortedStrings, optionalSortedStrings]
  cases values with
  | nil => cases values' <;> simp [sortedStrings_eq_iff]
  | cons value values => cases values' <;> simp [sortedStrings_eq_iff]

/-! ## Inputs of tools -/

/-- What an input says of its property. -/
def ToolInputField.described (input : ToolInputField) : Text × Option Text × ToolJsonType :=
  (input.name, input.description, input.jsonType)

/-- The document of a property. -/
def propertyDocument (input : ToolInputField) : Json :=
  .obj (withoutNone [(lit "description", text? input.description),
    (lit "type", some (.str input.jsonType.value))])

theorem jsonType_value_injective : Function.Injective ToolJsonType.value := by
  intro a b h
  cases a <;> cases b <;> first | rfl | exact absurd h (by decide)

/-- A property shows what the input says of it. -/
theorem sorted_propertyDocument_eq_iff {input input' : ToolInputField} :
    (propertyDocument input).sorted = (propertyDocument input').sorted ↔
      input.description = input'.description ∧ input.jsonType = input'.jsonType := by
  constructor
  · intro h
    have hfields := lookup_of_sorted_eq (of_decide_eq_true rfl) (of_decide_eq_true rfl) h
    have hdescription : (text? input.description).map Json.sorted =
        (text? input'.description).map Json.sorted := by
      have h := hfields (lit "description")
      cases hd : input.description <;> cases hd' : input'.description <;> rw [hd, hd'] at h <;> exact h
    have htype : some (Json.str input.jsonType.value) = some (Json.str input'.jsonType.value) :=
      hfields (lit "type")
    exact ⟨map_sorted_text?.1 hdescription,
      jsonType_value_injective (Json.str.inj (Option.some.inj htype))⟩
  · rintro ⟨hdescription, htype⟩
    rw [propertyDocument, propertyDocument, hdescription, htype]

/-- A property is that of the last input of its name. -/
theorem lookup_toolProperties (inputs : List ToolInputField) (name : Text) :
    (toolProperties inputs).lookup name =
      ((inputs.filter (·.name = name)).getLast?).map propertyDocument := by
  rw [toolProperties]
  induction inputs using List.reverseRecOn with
  | nil => rfl
  | append_singleton inputs input ih =>
    rw [List.foldl_append, List.foldl_cons, List.foldl_nil, Dict.lookup_insert, List.filter_append]
    by_cases h : input.name = name
    · rw [if_pos h.symm, List.filter_cons_of_pos (by simpa using h), List.filter_nil,
        List.getLast?_concat]
      rfl
    · rw [if_neg (Ne.symm h), List.filter_cons_of_neg (by simpa using h), List.filter_nil,
        List.append_nil]
      exact ih

/-- The inputs of one name say the same. -/
def Consistent (inputs : List ToolInputField) : Prop :=
  ∀ input ∈ inputs, ∀ input' ∈ inputs, input.name = input'.name → input.described = input'.described

/-- A property of consistent inputs is that of any input of its name. -/
theorem Consistent.exists_last {inputs : List ToolInputField} (h : Consistent inputs)
    {input : ToolInputField} (hinput : input ∈ inputs) :
    ∃ last ∈ inputs, (inputs.filter (·.name = input.name)).getLast? = some last ∧
      last.described = input.described := by
  have hmem : input ∈ inputs.filter (·.name = input.name) :=
    List.mem_filter.2 ⟨hinput, decide_eq_true rfl⟩
  have hlast := List.getLast?_eq_some_getLast (List.ne_nil_of_mem hmem)
  obtain ⟨hlastmem, hname⟩ := List.mem_filter.1 (List.getLast_mem (List.ne_nil_of_mem hmem))
  exact ⟨_, hlastmem, hlast, h _ hlastmem _ hinput (of_decide_eq_true hname)⟩

theorem get_entries (values : Dict Text Json) (key : Text) :
    Json.get key (values.entries.map fun e => (e.1, e.2)) = values.lookup key := by
  cases hlookup : values.lookup key with
  | some j =>
    have hmem : (key, j) ∈ values.entries.map fun e => (e.1, e.2) :=
      List.mem_map.2 ⟨_, AList.mem_lookup_iff.1 hlookup, rfl⟩
    refine Json.get_of_mem ?_ hmem
    rw [List.map_map]
    exact values.nodupKeys
  | none =>
    cases hget : Json.get key (values.entries.map fun e => (e.1, e.2)) with
    | none => rfl
    | some j =>
      obtain ⟨e, he, heq⟩ := List.mem_map.1 (Json.mem_of_get hget)
      cases heq
      rw [AList.mem_lookup_iff.2 he] at hlookup
      cases hlookup

/-- The properties of inputs, in the order of their names. -/
def propertiesOf (inputs : List ToolInputField) : Document :=
  (toolProperties (sortedBy ToolInputField.name inputs)).entries.map fun e => (e.1, e.2)

theorem get_propertiesOf (inputs : List ToolInputField) (name : Text) :
    Json.get name (propertiesOf inputs) =
      ((inputs.filter (·.name = name)).getLast?).map propertyDocument := by
  rw [propertiesOf, get_entries, lookup_toolProperties, filter_sortedBy]

theorem nodup_propertiesOf (inputs : List ToolInputField) :
    ((propertiesOf inputs).map Prod.fst).Nodup := by
  rw [propertiesOf, List.map_map]
  exact (toolProperties _).nodupKeys

/-- Consistent inputs say the same of the properties where each of them is said by one of the
    others. -/
theorem described_subset {inputs inputs' : List ToolInputField} (h : Consistent inputs)
    (hsorted : (Json.obj (propertiesOf inputs)).sorted = (Json.obj (propertiesOf inputs')).sorted) :
    inputs.map ToolInputField.described ⊆ inputs'.map ToolInputField.described := by
  intro d hd
  obtain ⟨input, hinput, rfl⟩ := List.mem_map.1 hd
  obtain ⟨last, -, hlast, hdescribed⟩ := h.exists_last hinput
  have hget := Json.get_of_sorted_eq (nodup_propertiesOf inputs) (nodup_propertiesOf inputs') hsorted
    input.name
  rw [get_propertiesOf, get_propertiesOf, hlast, Option.map_some, Option.map_some, Option.map_map] at hget
  obtain ⟨last', hlast', hdocument⟩ := Option.map_eq_some_iff.1 hget.symm
  obtain ⟨hmem, hname⟩ := List.mem_filter.1 (List.mem_of_getLast? hlast')
  obtain ⟨hdescription, htype⟩ := sorted_propertyDocument_eq_iff.1 hdocument
  rw [← hdescribed]
  refine List.mem_map.2 ⟨last', hmem, ?_⟩
  have hlastname : last.name = input.name := congrArg Prod.fst hdescribed
  rw [ToolInputField.described, ToolInputField.described, hlastname, hdescription, htype,
    of_decide_eq_true hname]

/-- Inputs that say the same of the same properties, and require the same. -/
structure SameInputs (inputs inputs' : List ToolInputField) : Prop where
  described : ∀ d, d ∈ inputs.map ToolInputField.described ↔ d ∈ inputs'.map ToolInputField.described
  required : ((inputs.filter (·.required)).map (·.name)).Perm
    ((inputs'.filter (·.required)).map (·.name))

theorem SameInputs.symm {inputs inputs' : List ToolInputField} (h : SameInputs inputs inputs') :
    SameInputs inputs' inputs :=
  ⟨fun d => (h.described d).symm, h.required.symm⟩

/-- The names of the inputs that are required, in order. -/
theorem required_eq_iff {inputs inputs' : List ToolInputField} :
    ((sortedBy ToolInputField.name inputs).filter (·.required)).map (·.name) =
      ((sortedBy ToolInputField.name inputs').filter (·.required)).map (·.name) ↔
    ((inputs.filter (·.required)).map (·.name)).Perm ((inputs'.filter (·.required)).map (·.name)) := by
  have hperm (inputs : List ToolInputField) :
      (((sortedBy ToolInputField.name inputs).filter (·.required)).map (·.name)).Perm
        ((inputs.filter (·.required)).map (·.name)) :=
    ((sortedBy_perm inputs).filter _).map _
  have hpairwise (inputs : List ToolInputField) :
      (((sortedBy ToolInputField.name inputs).filter (·.required)).map (·.name)).Pairwise (· ≤ ·) :=
    (pairwise_keys inputs).sublist (List.filter_sublist.map _)
  constructor
  · intro h
    exact (hperm inputs).symm.trans ((List.Perm.of_eq h).trans (hperm inputs'))
  · intro h
    exact List.Perm.eq_of_pairwise (fun _ _ _ _ => le_antisymm) (hpairwise inputs) (hpairwise inputs')
      ((hperm inputs).trans (h.trans (hperm inputs').symm))

/-- The same consistent inputs show the same properties. -/
theorem SameInputs.sorted_propertiesOf {inputs inputs' : List ToolInputField}
    (h : Consistent inputs) (h' : Consistent inputs') (hsame : SameInputs inputs inputs') :
    (Json.obj (propertiesOf inputs)).sorted = (Json.obj (propertiesOf inputs')).sorted := by
  -- a property of the one is a property of the other
  have hsome {inputs inputs' : List ToolInputField} (h' : Consistent inputs')
      (hsame : SameInputs inputs inputs') {name : Text} {j : Json}
      (hj : Json.get name (propertiesOf inputs) = some j) :
      Json.get name (propertiesOf inputs') = some j := by
    rw [get_propertiesOf] at hj
    obtain ⟨last, hlast, rfl⟩ := Option.map_eq_some_iff.1 hj
    obtain ⟨hmem, hname⟩ := List.mem_filter.1 (List.mem_of_getLast? hlast)
    obtain ⟨input, hinput, hinputs⟩ := List.mem_map.1 ((hsame.described _).1 (List.mem_map_of_mem hmem))
    obtain ⟨last', -, hlast', hdescribed⟩ := h'.exists_last hinput
    have heq : last'.described = last.described := hdescribed.trans hinputs
    have hinputname : input.name = name := (congrArg Prod.fst hinputs).trans (of_decide_eq_true hname)
    rw [get_propertiesOf, ← hinputname, hlast', Option.map_some, propertyDocument, propertyDocument]
    simp only [ToolInputField.described, Prod.mk.injEq] at heq
    rw [heq.2.1, heq.2.2]
  refine Json.sorted_obj_eq (nodup_propertiesOf inputs) (nodup_propertiesOf inputs') fun name => ?_
  cases hget : Json.get name (propertiesOf inputs) with
  | some j => rw [hsome h' hsame hget]
  | none =>
    cases hget' : Json.get name (propertiesOf inputs') with
    | none => rfl
    | some j =>
      rw [hsome h hsame.symm hget'] at hget
      cases hget

theorem toolInputSchema_eq (tool : ToolSummary) : toolInputSchema tool = .obj
    [(lit "properties", .obj (propertiesOf tool.inputs)),
      (lit "required", .arr (((sortedBy ToolInputField.name tool.inputs).filter (·.required)).map
        fun input => .str input.name)),
      (lit "type", .str (lit "object"))] :=
  rfl

theorem sorted_propertiesOf_eq {tool tool' : ToolSummary}
    (h : (toolInputSchema tool).sorted = (toolInputSchema tool').sorted) :
    (Json.obj (propertiesOf tool.inputs)).sorted = (Json.obj (propertiesOf tool'.inputs)).sorted :=
  Option.some.inj
    (Json.get_of_sorted_eq (of_decide_eq_true rfl) (of_decide_eq_true rfl) h (lit "properties"))

/-- Consistent inputs have one schema exactly where they are the same. -/
theorem sorted_toolInputSchema_eq_iff {tool tool' : ToolSummary} (h : Consistent tool.inputs)
    (h' : Consistent tool'.inputs) :
    (toolInputSchema tool).sorted = (toolInputSchema tool').sorted ↔
      SameInputs tool.inputs tool'.inputs := by
  have hrequired (inputs : List ToolInputField) :
      (Json.arr (inputs.map fun input => .str input.name)).sorted =
        .arr ((inputs.map (·.name)).map .str) := by
    rw [Json.sorted_arr, List.map_map, List.map_map]
    rfl
  have hinjective : Function.Injective (List.map Json.str) :=
    List.map_injective_iff.2 fun _ _ => Json.str.inj
  constructor
  · intro heq
    have hproperties := sorted_propertiesOf_eq heq
    have harr := Option.some.inj
      (Json.get_of_sorted_eq (of_decide_eq_true rfl) (of_decide_eq_true rfl) heq (lit "required"))
    rw [hrequired, hrequired, Json.arr.injEq, hinjective.eq_iff, required_eq_iff] at harr
    exact ⟨fun d => ⟨fun hd => described_subset h hproperties hd,
      fun hd => described_subset h' hproperties.symm hd⟩, harr⟩
  · intro hsame
    rw [toolInputSchema_eq, toolInputSchema_eq, Json.sorted_obj, Json.sorted_obj]
    simp only [List.map_cons, List.map_nil]
    rw [hsame.sorted_propertiesOf h h', hrequired, hrequired, required_eq_iff.2 hsame.required]

/-! ## Tools -/

/-- Tools that have the same documents, up to the order of lists. -/
structure ToolSummary.Alike (tool tool' : ToolSummary) : Prop where
  name : tool.name = tool'.name
  description : tool.description = tool'.description
  inputFingerprint : tool.inputFingerprint = tool'.inputFingerprint
  outputFingerprint : tool.outputFingerprint = tool'.outputFingerprint
  lifecycle : tool.lifecycle = tool'.lifecycle
  risk : tool.semantic.risk = tool'.semantic.risk
  summary : tool.semantic.summary = tool'.semantic.summary
  requiredScopes : tool.requiredScopes.Perm tool'.requiredScopes
  capabilities : tool.semantic.capabilities.Perm tool'.semantic.capabilities
  requires : tool.semantic.requires.Perm tool'.semantic.requires
  examples : tool.semantic.examples.Perm tool'.semantic.examples
  notFor : tool.semantic.notFor.Perm tool'.semantic.notFor
  whenToUse : tool.semantic.whenToUse.Perm tool'.semantic.whenToUse
  inputs : SameInputs tool.inputs tool'.inputs

/-- The document of a tool in canonical form. -/
def sortedToolDocument (hashing : Hashing) (tool : ToolSummary) : Option Json :=
  (toolDocument hashing tool).map fun document => (Json.obj document).sorted

theorem lifecycleValue_injective : Function.Injective lifecycleValue := by
  intro a b h
  cases a <;> cases b <;> first | rfl | exact absurd h (by decide)

theorem riskValue_injective : Function.Injective DiscoveryRisk.value := by
  intro a b h
  cases a <;> cases b <;> first | rfl | exact absurd h (by decide)

theorem map_sorted_optionalSortedStrings {values values' : List Text} :
    (optionalSortedStrings values).map Json.sorted = (optionalSortedStrings values').map Json.sorted ↔
      values.Perm values' := by
  have hsorted (values : List Text) :
      (optionalSortedStrings values).map Json.sorted = optionalSortedStrings values := by
    rw [optionalSortedStrings]
    split_ifs
    · rfl
    · rw [Option.map_some, sorted_sortedStrings]
  rw [hsorted, hsorted, optionalSortedStrings_eq_iff]

/-- `json.dumps` refuses no value of texts that is nested in three levels. -/
def WritesShallow (hashing : Hashing) : Prop := ∀ j, IsPlain 3 j → hashing.writer.refuses j = false

variable {hashing : Hashing}

/-- Shallow values with one canonical form have one fingerprint. -/
theorem fingerprint_congr (hwrites : WritesShallow hashing) {j j' : Json} (hj : IsPlain 3 j)
    (hj' : IsPlain 3 j') (h : j.sorted = j'.sorted) : hashing.fingerprint j = hashing.fingerprint j' := by
  rw [Hashing.fingerprint, Hashing.fingerprint, JsonWriter.dumps, JsonWriter.dumps, hwrites j hj,
    hwrites j' hj', hj.allFinite, hj'.allFinite, h]

/-- The semantic metadata in the document of a tool. -/
def semanticDocument (semantic : SemanticMetadata) : Document :=
  withoutNone [(lit "examples", optionalSortedStrings semantic.examples),
    (lit "notFor", optionalSortedStrings semantic.notFor), (lit "summary", text? semantic.summary),
    (lit "whenToUse", optionalSortedStrings semantic.whenToUse)]

theorem sorted_semanticDocument_eq_iff {semantic semantic' : SemanticMetadata} :
    (Json.obj (semanticDocument semantic)).sorted = (Json.obj (semanticDocument semantic')).sorted ↔
      semantic.examples.Perm semantic'.examples ∧ semantic.notFor.Perm semantic'.notFor ∧
        semantic.summary = semantic'.summary ∧ semantic.whenToUse.Perm semantic'.whenToUse := by
  constructor
  · intro h
    have hfields := lookup_of_sorted_eq (of_decide_eq_true rfl) (of_decide_eq_true rfl) h
    exact ⟨map_sorted_optionalSortedStrings.1 (hfields (lit "examples")),
      map_sorted_optionalSortedStrings.1 (hfields (lit "notFor")),
      map_sorted_text?.1 (hfields (lit "summary")),
      map_sorted_optionalSortedStrings.1 (hfields (lit "whenToUse"))⟩
  · rintro ⟨hexamples, hnotFor, hsummary, hwhenToUse⟩
    rw [semanticDocument, semanticDocument, optionalSortedStrings_eq_iff.2 hexamples,
      optionalSortedStrings_eq_iff.2 hnotFor, hsummary, optionalSortedStrings_eq_iff.2 hwhenToUse]

/-- The fields of the document of a tool, with the fingerprint of its input schema. -/
def toolFields (tool : ToolSummary) (inputSchemaFingerprint : Text) : List (Text × Option Json) :=
  [(lit "capabilities", some (sortedStrings tool.semantic.capabilities)),
    (lit "description", some (.str tool.description)),
    (lit "inputFingerprint", some (.str tool.inputFingerprint)),
    (lit "inputSchema", some (toolInputSchema tool)),
    (lit "inputSchemaFingerprint", some (.str inputSchemaFingerprint)),
    (lit "name", some (.str tool.name)), (lit "outputFingerprint", some (.str tool.outputFingerprint)),
    (lit "requires", some (sortedStrings tool.semantic.requires)),
    (lit "requiredScopes", some (sortedStrings tool.requiredScopes)),
    (lit "riskLevel", text? (tool.semantic.risk.map DiscoveryRisk.value)),
    (lit "semantic", some (.obj (semanticDocument tool.semantic))),
    (lit "status", some (.str (lifecycleValue tool.lifecycle)))]

theorem toolDocument_eq (tool : ToolSummary) :
    toolDocument hashing tool =
      (hashing.fingerprint (toolInputSchema tool)).map fun fingerprint =>
        withoutNone (toolFields tool fingerprint) :=
  rfl

/-- Tools with consistent inputs that are alike have one document, in canonical form. -/
theorem ToolSummary.Alike.sortedToolDocument_eq (hwrites : WritesShallow hashing)
    {tool tool' : ToolSummary} (h : Consistent tool.inputs) (h' : Consistent tool'.inputs)
    (halike : tool.Alike tool') :
    sortedToolDocument hashing tool = sortedToolDocument hashing tool' := by
  have hschema := (sorted_toolInputSchema_eq_iff h h').2 halike.inputs
  have hfingerprint := fingerprint_congr hwrites (@isPlain_toolInputSchema 0 tool)
    (@isPlain_toolInputSchema 0 tool') hschema
  have hsemantic := sorted_semanticDocument_eq_iff.2
    ⟨halike.examples, halike.notFor, halike.summary, halike.whenToUse⟩
  rw [sortedToolDocument, sortedToolDocument, toolDocument_eq, toolDocument_eq, ← hfingerprint,
    Option.map_map, Option.map_map]
  refine Option.map_congr fun fingerprint _ => sorted_withoutNone ?_
  simp only [toolFields, List.map_cons, List.map_nil, Option.map_some]
  rw [sortedStrings_eq_iff.2 halike.capabilities, halike.description, halike.inputFingerprint, hschema,
    halike.name, halike.outputFingerprint, sortedStrings_eq_iff.2 halike.requires,
    sortedStrings_eq_iff.2 halike.requiredScopes, halike.risk, hsemantic, halike.lifecycle]

/-- Tools that have one document, in canonical form, have the same fields. -/
theorem lookup_toolFields {tool tool' : ToolSummary} {j : Json}
    (htool : sortedToolDocument hashing tool = some j)
    (htool' : sortedToolDocument hashing tool' = some j) :
    ∃ fingerprint fingerprint', ∀ key,
      ((toolFields tool fingerprint).lookup key).join.map Json.sorted =
        ((toolFields tool' fingerprint').lookup key).join.map Json.sorted := by
  rw [sortedToolDocument, toolDocument_eq, Option.map_map] at htool htool'
  obtain ⟨fingerprint, -, hj⟩ := Option.map_eq_some_iff.1 htool
  obtain ⟨fingerprint', -, hj'⟩ := Option.map_eq_some_iff.1 htool'
  exact ⟨fingerprint, fingerprint', lookup_of_sorted_eq (of_decide_eq_true rfl)
    (of_decide_eq_true rfl) (hj.trans hj'.symm)⟩

/-- Tools with consistent inputs that have one document, in canonical form, are alike. -/
theorem alike_of_sortedToolDocument_eq {tool tool' : ToolSummary} (h : Consistent tool.inputs)
    (h' : Consistent tool'.inputs) {j : Json} (htool : sortedToolDocument hashing tool = some j)
    (htool' : sortedToolDocument hashing tool' = some j) : tool.Alike tool' := by
  obtain ⟨fingerprint, fingerprint', hfields⟩ := lookup_toolFields htool htool'
  have htext {t t' : Text} (heq : some (Json.str t) = some (Json.str t')) : t = t' :=
    Json.str.inj (Option.some.inj heq)
  have hlist {values values' : List Text}
      (heq : some (sortedStrings values).sorted = some (sortedStrings values').sorted) :
      values.Perm values' := by
    rwa [sorted_sortedStrings, sorted_sortedStrings, Option.some.injEq, sortedStrings_eq_iff] at heq
  obtain ⟨hexamples, hnotFor, hsummary, hwhenToUse⟩ :=
    sorted_semanticDocument_eq_iff.1 (Option.some.inj (hfields (lit "semantic")))
  have hrisk := map_sorted_text?.1 (hfields (lit "riskLevel"))
  exact {
    name := htext (hfields (lit "name"))
    description := htext (hfields (lit "description"))
    inputFingerprint := htext (hfields (lit "inputFingerprint"))
    outputFingerprint := htext (hfields (lit "outputFingerprint"))
    lifecycle := lifecycleValue_injective (htext (hfields (lit "status")))
    risk := Option.map_injective riskValue_injective hrisk
    summary := hsummary
    requiredScopes := hlist (hfields (lit "requiredScopes"))
    capabilities := hlist (hfields (lit "capabilities"))
    requires := hlist (hfields (lit "requires"))
    examples := hexamples
    notFor := hnotFor
    whenToUse := hwhenToUse
    inputs := (sorted_toolInputSchema_eq_iff h h').1 (Option.some.inj (hfields (lit "inputSchema"))) }

/-! ## Manifests in another order -/

/-- Semantic metadata with its lists in another order. -/
structure SemanticMetadata.Rearranged (semantic semantic' : SemanticMetadata) : Prop where
  summary : semantic'.summary = semantic.summary
  risk : semantic'.risk = semantic.risk
  whenToUse : semantic.whenToUse.Perm semantic'.whenToUse
  notFor : semantic.notFor.Perm semantic'.notFor
  examples : semantic.examples.Perm semantic'.examples
  capabilities : semantic.capabilities.Perm semantic'.capabilities
  requires : semantic.requires.Perm semantic'.requires
  domains : semantic.domains.Perm semantic'.domains
  keywords : semantic.keywords.Perm semantic'.keywords

/-- A tool with its lists in another order. -/
structure ToolSummary.Rearranged (tool tool' : ToolSummary) : Prop where
  same : tool' = { tool with
    requiredScopes := tool'.requiredScopes, semantic := tool'.semantic, inputs := tool'.inputs }
  requiredScopes : tool.requiredScopes.Perm tool'.requiredScopes
  semantic : tool.semantic.Rearranged tool'.semantic
  inputs : tool.inputs.Perm tool'.inputs

/-- A manifest with its lists, and those of its tools, in another order. -/
structure ServerAuthoringManifest.Rearranged (manifest manifest' : ServerAuthoringManifest) : Prop where
  same : manifest' = { manifest with
    protocolVersions := manifest'.protocolVersions, semantic := manifest'.semantic,
    egressHosts := manifest'.egressHosts, requiredScopes := manifest'.requiredScopes,
    tools := manifest'.tools }
  protocolVersions : manifest.protocolVersions.Perm manifest'.protocolVersions
  semantic : manifest.semantic.Rearranged manifest'.semantic
  egressHosts : manifest.egressHosts.Perm manifest'.egressHosts
  requiredScopes : manifest.requiredScopes.Perm manifest'.requiredScopes
  tools : ∃ tools, List.Forall₂ ToolSummary.Rearranged manifest.tools tools ∧
    tools.Perm manifest'.tools

/-- The inputs of one name describe one property, and the tools of one name are alike. -/
structure ServerAuthoringManifest.Determined (manifest : ServerAuthoringManifest) : Prop where
  inputs : ∀ tool ∈ manifest.tools, Consistent tool.inputs
  tools : ∀ tool ∈ manifest.tools, ∀ tool' ∈ manifest.tools, tool.name = tool'.name → tool.Alike tool'

section

variable {tool tool' : ToolSummary}

theorem Consistent.perm {inputs inputs' : List ToolInputField} (h : Consistent inputs)
    (hperm : inputs.Perm inputs') : Consistent inputs' := fun input hinput input' hinput' =>
  h input (hperm.mem_iff.2 hinput) input' (hperm.mem_iff.2 hinput')

theorem ToolSummary.Rearranged.name (h : tool.Rearranged tool') : tool'.name = tool.name := by
  rw [h.same]

/-- A tool with its lists in another order is alike. -/
theorem ToolSummary.Rearranged.alike (h : tool.Rearranged tool') : tool.Alike tool' where
  name := by rw [h.same]
  description := by rw [h.same]
  inputFingerprint := by rw [h.same]
  outputFingerprint := by rw [h.same]
  lifecycle := by rw [h.same]
  risk := h.semantic.risk.symm
  summary := h.semantic.summary.symm
  requiredScopes := h.requiredScopes
  capabilities := h.semantic.capabilities
  requires := h.semantic.requires
  examples := h.semantic.examples
  notFor := h.semantic.notFor
  whenToUse := h.semantic.whenToUse
  inputs := ⟨fun _ => (h.inputs.map _).mem_iff, (h.inputs.filter _).map _⟩

end

/-! ## Rearranged manifests are compiled alike -/

theorem validList_perm {α : Type*} {most : ℕ} {valid : α → Bool} {items items' : List α}
    (h : items.Perm items') : validList most valid items = validList most valid items' := by
  rw [validList, validList, h.length_eq, h.all_eq]

theorem isEmpty_perm {values values' : List Text} (h : values.Perm values') :
    values'.isEmpty = values.isEmpty := by
  rw [Bool.eq_iff_iff, List.isEmpty_iff, List.isEmpty_iff, ← List.perm_nil, ← List.perm_nil,
    h.congr_left]

theorem SemanticMetadata.Rearranged.valid_eq {semantic semantic' : SemanticMetadata}
    (h : semantic.Rearranged semantic') (unicode : UnicodeDatabase) :
    semantic'.valid unicode = semantic.valid unicode := by
  rw [SemanticMetadata.valid, SemanticMetadata.valid, h.summary, validList_perm h.whenToUse,
    validList_perm h.notFor, validList_perm h.examples, validList_perm h.capabilities,
    validList_perm h.requires, validList_perm h.domains, validList_perm h.keywords]

theorem ToolSummary.Rearranged.valid_eq {tool tool' : ToolSummary} (h : tool.Rearranged tool')
    (unicode : UnicodeDatabase) : tool'.valid unicode = tool.valid unicode := by
  have halike := h.alike
  rw [ToolSummary.valid, ToolSummary.valid, h.semantic.valid_eq, validList_perm h.inputs, h.name,
    halike.description, halike.inputFingerprint, halike.outputFingerprint]

theorem all_valid_eq {tools tools' : List ToolSummary}
    (h : List.Forall₂ ToolSummary.Rearranged tools tools') (unicode : UnicodeDatabase) :
    tools'.all (·.valid unicode) = tools.all (·.valid unicode) := by
  induction h with
  | nil => rfl
  | cons htool _ ih => rw [List.all_cons, List.all_cons, htool.valid_eq, ih]

section

variable {manifest manifest' : ServerAuthoringManifest} (h : manifest.Rearranged manifest')

include h

theorem ServerAuthoringManifest.Rearranged.valid_eq (unicode : UnicodeDatabase) :
    manifest'.valid unicode = manifest.valid unicode := by
  obtain ⟨tools, hrearranged, hperm⟩ := h.tools
  have htools : manifest'.tools.all (·.valid unicode) = manifest.tools.all (·.valid unicode) := by
    rw [← hperm.all_eq, all_valid_eq hrearranged]
  have hversions : (manifest'.protocolVersions ≠ []) = (manifest.protocolVersions ≠ []) := by
    rw [ne_eq, ne_eq, ← List.perm_nil, ← h.protocolVersions.congr_left, List.perm_nil]
  rw [ServerAuthoringManifest.valid, ServerAuthoringManifest.valid, h.semantic.valid_eq, htools]
  simp only [hversions]
  rw [h.same]

/-- The fields that are no lists are those of the manifest. -/
theorem ServerAuthoringManifest.Rearranged.portableDocument_eq :
    portableDocument manifest' = portableDocument manifest := by
  rw [h.same]
  rfl

theorem ServerAuthoringManifest.Rearranged.registryMetadata_eq :
    registryMetadata manifest' = registryMetadata manifest := by
  have hsemantic (annotations : Dict Text Text) :
      withSemanticAnnotations manifest'.semantic annotations =
        withSemanticAnnotations manifest.semantic annotations := by
    rw [withSemanticAnnotations, withSemanticAnnotations, h.semantic.summary,
      isEmpty_perm h.semantic.whenToUse, sortedTexts_eq_iff.2 h.semantic.whenToUse,
      isEmpty_perm h.semantic.capabilities, sortedTexts_eq_iff.2 h.semantic.capabilities,
      isEmpty_perm h.semantic.requires, sortedTexts_eq_iff.2 h.semantic.requires]
  rw [registryMetadata, registryMetadata, hsemantic, h.same]

theorem ServerAuthoringManifest.Rearranged.registryExtension_eq (tools : List Document) :
    registryExtension manifest' tools = registryExtension manifest tools := by
  rw [registryExtension, registryExtension, sortedStrings_eq_iff.2 h.egressHosts,
    sortedStrings_eq_iff.2 h.protocolVersions, sortedStrings_eq_iff.2 h.requiredScopes,
    sortedStrings_eq_iff.2 h.semantic.capabilities, sortedStrings_eq_iff.2 h.semantic.domains,
    optionalSortedStrings_eq_iff.2 h.semantic.examples, sortedStrings_eq_iff.2 h.semantic.keywords,
    optionalSortedStrings_eq_iff.2 h.semantic.notFor, optionalSortedStrings_eq_iff.2 h.semantic.requires,
    h.semantic.risk, h.semantic.summary, optionalSortedStrings_eq_iff.2 h.semantic.whenToUse, h.same]

/-- A registry document, with the documents of the tools. -/
def registryOf (manifest : ServerAuthoringManifest) (tools : List Document) : Document :=
  [(lit "apiVersion", .str (lit "registry.agentic.dev/v1alpha1")), (lit "kind", .str (lit "MCPServer")),
    (lit "metadata", .obj (registryMetadata manifest)),
    (lit "spec", .obj (registrySpec manifest (portableDocument manifest) tools))]

theorem ServerAuthoringManifest.Rearranged.registryOf_eq (tools : List Document) :
    registryOf manifest' tools = registryOf manifest tools := by
  have hcredential : manifest'.credentialRef = manifest.credentialRef := by rw [h.same]
  rw [registryOf, registryOf, h.registryMetadata_eq, h.portableDocument_eq, registrySpec, registrySpec,
    h.registryExtension_eq, hcredential]

end

variable {manifest manifest' : ServerAuthoringManifest}

/-- Registry documents of a manifest have one canonical form exactly where the documents of
    the tools have. -/
theorem sorted_registryOf_eq_iff {tools tools' : List Document} :
    (Json.obj (registryOf manifest tools)).sorted = (Json.obj (registryOf manifest tools')).sorted ↔
      tools.map (fun tool => (Json.obj tool).sorted) = tools'.map fun tool => (Json.obj tool).sorted := by
  have harr (tools : List Document) :
      (Json.arr (tools.map .obj)).sorted = .arr (tools.map fun tool => (Json.obj tool).sorted) := by
    rw [Json.sorted_arr, List.map_map]
    rfl
  constructor
  · intro h
    have hspec := Option.some.inj
      (Json.get_of_sorted_eq (of_decide_eq_true rfl) (of_decide_eq_true rfl) h (lit "spec"))
    have hget (tools : List Document) :
        Json.get registryExtensionKey (registrySpec manifest (portableDocument manifest) tools) =
          some (.obj (registryExtension manifest tools)) :=
      Json.get_of_mem nodup_registrySpec (mem_registrySpec.2 (.inr (.inl rfl)))
    have hextension := Json.get_of_sorted_eq nodup_registrySpec nodup_registrySpec hspec
      registryExtensionKey
    rw [hget, hget] at hextension
    have htools := Option.some.inj (Json.get_of_sorted_eq (of_decide_eq_true rfl)
      (of_decide_eq_true rfl) (Option.some.inj hextension) (lit "tools"))
    rw [harr, harr] at htools
    exact Json.arr.inj htools
  · intro h
    have hextension : (Json.obj (registryExtension manifest tools)).sorted =
        (Json.obj (registryExtension manifest tools')).sorted := by
      rw [registryExtension, registryExtension, Json.sorted_obj, Json.sorted_obj]
      simp only [List.map_cons, List.map_nil]
      rw [harr, harr, h]
    have hspec : (Json.obj (registrySpec manifest (portableDocument manifest) tools)).sorted =
        (Json.obj (registrySpec manifest (portableDocument manifest) tools')).sorted := by
      rw [registrySpec, registrySpec, Json.sorted_obj, Json.sorted_obj]
      simp only [List.map_append, List.map_cons]
      rw [hextension]
    rw [registryOf, registryOf, Json.sorted_obj, Json.sorted_obj]
    simp only [List.map_cons, List.map_nil]
    rw [hspec]

/-- The documents of the tools of a manifest, in canonical form. -/
theorem mapM_toolDocument {tools : List ToolSummary} {documents : List Document}
    (h : tools.mapM (toolDocument hashing) = some documents) :
    tools.map (sortedToolDocument hashing) =
      documents.map fun document => some (Json.obj document).sorted := by
  have hdocuments := mapM_eq_some.1 h
  clear h
  induction hdocuments with
  | nil => rfl
  | cons htool _ ih =>
    rw [List.map_cons, List.map_cons, ih, sortedToolDocument, htool]
    rfl

/-- Tools have documents where their canonical forms are those of other documents. -/
theorem exists_mapM_toolDocument {tools : List ToolSummary} {documents : List Document}
    (h : tools.map (sortedToolDocument hashing) =
      documents.map fun document => some (Json.obj document).sorted) :
    ∃ documents', tools.mapM (toolDocument hashing) = some documents' ∧
      documents'.map (fun document => (Json.obj document).sorted) =
        documents.map fun document => (Json.obj document).sorted := by
  induction tools generalizing documents with
  | nil =>
    cases documents with
    | nil => exact ⟨[], rfl, rfl⟩
    | cons document documents => cases h
  | cons tool tools ih =>
    cases documents with
    | nil => cases h
    | cons document documents =>
      rw [List.map_cons, List.map_cons, List.cons.injEq] at h
      obtain ⟨document', hdocument', hsorted⟩ := Option.map_eq_some_iff.1 h.1
      obtain ⟨documents', hdocuments', hmap⟩ := ih h.2
      refine ⟨document' :: documents', ?_, ?_⟩
      · rw [List.mapM_cons, hdocument', hdocuments']
        rfl
      · rw [List.map_cons, List.map_cons, hsorted, hmap]

/-- The documents of a manifest that was checked. -/
theorem documents_eq_ok {compiled : CompiledManifests} :
    compileManifests.documents hashing manifest = .ok compiled ↔
      ∃ tools, (sortedBy ToolSummary.name manifest.tools).mapM (toolDocument hashing) = some tools ∧
        canonicalJson hashing.writer (portableDocument manifest) = some compiled.serverJson ∧
        canonicalJson hashing.writer (registryOf manifest tools) = some compiled.registryManifest := by
  have hregistry : registryDocument hashing manifest (portableDocument manifest) =
      ((sortedBy ToolSummary.name manifest.tools).mapM (toolDocument hashing)).map
        (registryOf manifest) := rfl
  rw [compileManifests.documents, hregistry]
  cases (sortedBy ToolSummary.name manifest.tools).mapM (toolDocument hashing) with
  | none => simp
  | some tools =>
    simp only [Option.map_some, Option.some.injEq, exists_eq_left']
    cases canonicalJson hashing.writer (portableDocument manifest) with
    | none => simp
    | some serverJson =>
      cases canonicalJson hashing.writer (registryOf manifest tools) with
      | none => simp
      | some registryManifest =>
        obtain ⟨serverJson', registryManifest'⟩ := compiled
        simp

/-- A manifest with its lists in another order is checked alike. -/
theorem compileManifests_rearranged {unicode : UnicodeDatabase} {runtimeVersion : Text}
    {compiled : CompiledManifests} (hrearranged : manifest.Rearranged manifest')
    (h : compileManifests hashing (revalidated unicode) manifest runtimeVersion = .ok compiled) :
    compileManifests.documents hashing manifest = .ok compiled ∧
      compileManifests hashing (revalidated unicode) manifest' runtimeVersion =
        compileManifests.documents hashing manifest' := by
  have hownership : manifest'.ownership = manifest.ownership := by rw [hrearranged.same]
  have hversion : manifest'.version = manifest.version := by rw [hrearranged.same]
  have hpackage : manifest'.package = manifest.package := by rw [hrearranged.same]
  rw [compileManifests, revalidated] at h ⊢
  rw [hrearranged.valid_eq]
  simp only [hownership]
  split_ifs at h ⊢ with hreserved hsecret hvalid
  simp only [hversion, hpackage]
  dsimp only at h
  split_ifs at h ⊢ with hruntime
  cases hpackageVersion : manifest.package.bind PackageIdentity.version with
  | none =>
    rw [hpackageVersion] at h
    exact ⟨h, rfl⟩
  | some packageVersion =>
    rw [hpackageVersion] at h
    dsimp only at h ⊢
    split_ifs at h ⊢ with hsame
    exact ⟨h, rfl⟩

/-! ## Manifests that are compiled to one document -/

theorem SemanticMetadata.Rearranged.refl (semantic : SemanticMetadata) : semantic.Rearranged semantic :=
  ⟨rfl, rfl, .refl _, .refl _, .refl _, .refl _, .refl _, .refl _, .refl _⟩

/-- A tool with its inputs in another order. -/
theorem ToolSummary.Rearranged.inputs_perm {tool : ToolSummary} {inputs : List ToolInputField}
    (h : tool.inputs.Perm inputs) : tool.Rearranged { tool with inputs } :=
  ⟨rfl, .refl _, .refl _, h⟩

theorem ToolSummary.Rearranged.refl (tool : ToolSummary) : tool.Rearranged tool := inputs_perm (.refl _)

/-- A manifest with other tools, of which each is one of its tools, rearranged. -/
theorem ServerAuthoringManifest.Rearranged.of_tools {tools tools' : List ToolSummary}
    (h : List.Forall₂ ToolSummary.Rearranged manifest.tools tools) (hperm : tools.Perm tools') :
    manifest.Rearranged { manifest with tools := tools' } :=
  ⟨rfl, .refl _, .refl _, .refl _, .refl _, tools, h, hperm⟩

/-- The registry documents of manifests that are compiled to one document have one canonical
    form. -/
theorem sorted_registryOf {tools tools' : List Document} {text : Text}
    (htools : (sortedBy ToolSummary.name manifest.tools).mapM (toolDocument hashing) = some tools)
    (htools' : (sortedBy ToolSummary.name manifest'.tools).mapM (toolDocument hashing) = some tools')
    (h : canonicalJson hashing.writer (registryOf manifest tools) = some text)
    (h' : canonicalJson hashing.writer (registryOf manifest' tools') = some text) :
    (Json.obj (registryOf manifest' tools')).sorted = (Json.obj (registryOf manifest tools)).sorted := by
  have hplain {manifest : ServerAuthoringManifest} {tools : List Document}
      (htools : (sortedBy ToolSummary.name manifest.tools).mapM (toolDocument hashing) = some tools) :
      IsPlain (0 + 8) (.obj (registryOf manifest tools)) :=
    isPlain_registryDocument (congrArg (Option.map (registryOf manifest)) htools)
  have hparse := (parseJson_canonicalJson (hplain htools) h).1
  rw [(parseJson_canonicalJson (hplain htools') h').1, Option.some.injEq] at hparse
  exact hparse

section

variable {unicode : UnicodeDatabase} {runtimeVersion : Text} {compiled : CompiledManifests}
  (h : compileManifests hashing (revalidated unicode) manifest runtimeVersion = .ok compiled)

include h

/-- The tools of a manifest that is accepted have documents, and those of a rearranged one
    that is compiled to the same have the same ones. -/
theorem sortedToolDocuments_eq (hrearranged : manifest.Rearranged manifest')
    (h' : compileManifests hashing (revalidated unicode) manifest' runtimeVersion = .ok compiled) :
    (sortedBy ToolSummary.name manifest'.tools).map (sortedToolDocument hashing) =
      (sortedBy ToolSummary.name manifest.tools).map (sortedToolDocument hashing) := by
  obtain ⟨hdocuments, hcompile⟩ := compileManifests_rearranged hrearranged h
  obtain ⟨tools, htools, -, hregistry⟩ := documents_eq_ok.1 hdocuments
  obtain ⟨tools', htools', -, hregistry'⟩ := documents_eq_ok.1 (hcompile.symm.trans h')
  have hsorted := sorted_registryOf htools htools' hregistry hregistry'
  rw [hrearranged.registryOf_eq, sorted_registryOf_eq_iff] at hsorted
  rw [mapM_toolDocument htools, mapM_toolDocument htools']
  have hmap (tools : List Document) : tools.map (fun tool => some (Json.obj tool).sorted) =
      (tools.map fun tool => (Json.obj tool).sorted).map some := by
    rw [List.map_map]
    rfl
  rw [hmap, hmap, hsorted]

theorem exists_sortedToolDocument {tool : ToolSummary} (htool : tool ∈ manifest.tools) :
    ∃ j, sortedToolDocument hashing tool = some j := by
  have hrefl : manifest.Rearranged manifest :=
    .of_tools (List.forall₂_same.2 fun tool _ => .refl tool) (.refl _)
  obtain ⟨tools, htools, -⟩ := documents_eq_ok.1 (compileManifests_rearranged hrefl h).1
  have hmem : sortedToolDocument hashing tool ∈
      (sortedBy ToolSummary.name manifest.tools).map (sortedToolDocument hashing) :=
    List.mem_map_of_mem ((sortedBy_perm manifest.tools).mem_iff.2 htool)
  rw [mapM_toolDocument htools] at hmem
  obtain ⟨document, -, hdocument⟩ := List.mem_map.1 hmem
  exact ⟨_, hdocument.symm⟩

/-- The manifest is compiled to the same in every order where it is determined. -/
theorem ServerAuthoringManifest.Determined.compile_eq (hwrites : WritesShallow hashing)
    (hdetermined : manifest.Determined) (hrearranged : manifest.Rearranged manifest') :
    compileManifests hashing (revalidated unicode) manifest' runtimeVersion = .ok compiled := by
  obtain ⟨hdocuments, hcompile⟩ := compileManifests_rearranged hrearranged h
  obtain ⟨tools, htools, hserver, hregistry⟩ := documents_eq_ok.1 hdocuments
  have hshown {tools tools' : List ToolSummary} (hconsistent : ∀ tool ∈ tools, Consistent tool.inputs)
      (h : List.Forall₂ ToolSummary.Rearranged tools tools') :
      tools.map (fun tool => (tool.name, sortedToolDocument hashing tool)) =
        tools'.map fun tool => (tool.name, sortedToolDocument hashing tool) := by
    induction h with
    | nil => rfl
    | cons htool _ ih =>
      obtain ⟨hfirst, hrest⟩ := List.forall_mem_cons.1 hconsistent
      have heq := htool.alike.sortedToolDocument_eq hwrites hfirst (hfirst.perm htool.inputs)
      rw [List.map_cons, List.map_cons, htool.name, heq, ih hrest]
  obtain ⟨between, hforall, hperm⟩ := hrearranged.tools
  have hsorted : (sortedBy ToolSummary.name manifest.tools).map (sortedToolDocument hashing) =
      (sortedBy ToolSummary.name manifest'.tools).map (sortedToolDocument hashing) := by
    refine map_sortedBy ?_ fun tool htool tool' htool' hname => ?_
    · rw [hshown hdetermined.inputs hforall]
      exact hperm.map _
    · exact (hdetermined.tools tool htool tool' htool' hname).sortedToolDocument_eq hwrites
        (hdetermined.inputs tool htool) (hdetermined.inputs tool' htool')
  obtain ⟨tools', htools', hmap⟩ :=
    exists_mapM_toolDocument (hsorted.symm.trans (mapM_toolDocument htools))
  have hfinite {manifest : ServerAuthoringManifest} {tools : List Document}
      (htools : (sortedBy ToolSummary.name manifest.tools).mapM (toolDocument hashing) = some tools) :
      (Json.obj (registryOf manifest tools)).allFinite = true :=
    (@isPlain_registryDocument _ _ 0 _
      (congrArg (Option.map (registryOf manifest)) htools)).allFinite
  rw [hcompile]
  refine documents_eq_ok.2 ⟨tools', htools', ?_, ?_⟩
  · rw [hrearranged.portableDocument_eq, hserver]
  · rw [← hregistry]
    refine canonicalJson_congr ?_ (hfinite htools') (hfinite htools)
    rw [hrearranged.registryOf_eq, sorted_registryOf_eq_iff, hmap]

/-- The manifest is compiled to the same in every order of its lists. -/
def Canonical (hashing : Hashing) (unicode : UnicodeDatabase) (manifest : ServerAuthoringManifest)
    (runtimeVersion : Text) (compiled : CompiledManifests) : Prop :=
  ∀ manifest', manifest.Rearranged manifest' →
    compileManifests hashing (revalidated unicode) manifest' runtimeVersion = .ok compiled

/-- The order of the inputs of a tool does not show in its document. -/
theorem Canonical.inputs (hcanonical : Canonical hashing unicode manifest runtimeVersion compiled)
    {tool : ToolSummary} (htool : tool ∈ manifest.tools) {inputs : List ToolInputField}
    (hperm : tool.inputs.Perm inputs) :
    sortedToolDocument hashing { tool with inputs } = sortedToolDocument hashing tool := by
  obtain ⟨before, after, htools⟩ := List.append_of_mem htool
  have hforall : List.Forall₂ ToolSummary.Rearranged manifest.tools
      (before ++ { tool with inputs } :: after) := by
    rw [htools]
    exact List.rel_append (List.forall₂_same.2 fun tool _ => .refl tool)
      (.cons (.inputs_perm hperm) (List.forall₂_same.2 fun tool _ => .refl tool))
  have hrearranged := ServerAuthoringManifest.Rearranged.of_tools hforall (.refl _)
  have hsorted := sortedToolDocuments_eq h hrearranged (hcanonical _ hrearranged)
  have hmap : ((before ++ { tool with inputs } :: after).map (sortedToolDocument hashing)).Perm
      ((before ++ tool :: after).map (sortedToolDocument hashing)) := by
    rw [← htools]
    exact (((sortedBy_perm _).map _).symm.trans (.of_eq hsorted)).trans ((sortedBy_perm _).map _)
  rw [List.map_append, List.map_append, List.map_cons, List.map_cons, List.perm_append_left_iff,
    ← Multiset.coe_eq_coe, ← Multiset.cons_coe, ← Multiset.cons_coe] at hmap
  exact (Multiset.cons_inj_left _).1 hmap

/-- Inputs of one name say the same: either of them may be the last. -/
theorem Canonical.consistent
    (hcanonical : Canonical hashing unicode manifest runtimeVersion compiled)
    {tool : ToolSummary} (htool : tool ∈ manifest.tools) : Consistent tool.inputs := by
  have hlast {input : ToolInputField} (hinput : input ∈ tool.inputs) :
      ∃ inputs, tool.inputs.Perm (inputs ++ [input]) := by
    obtain ⟨before, after, he⟩ := List.append_of_mem hinput
    refine ⟨before ++ after, ?_⟩
    rw [he, List.append_assoc]
    have hcomm : ([input] ++ after).Perm (after ++ [input]) := List.perm_append_comm
    exact hcomm.append_left before
  intro input hinput input' hinput' hname
  obtain ⟨inputs, hperm⟩ := hlast hinput
  obtain ⟨inputs', hperm'⟩ := hlast hinput'
  obtain ⟨j, hj⟩ := exists_sortedToolDocument h htool
  obtain ⟨_, _, hfields⟩ := lookup_toolFields ((hcanonical.inputs h htool hperm).trans hj)
    ((hcanonical.inputs h htool hperm').trans hj)
  have hproperties := sorted_propertiesOf_eq (Option.some.inj (hfields (lit "inputSchema")))
  have hget := Json.get_of_sorted_eq (nodup_propertiesOf _) (nodup_propertiesOf _) hproperties input.name
  rw [get_propertiesOf, get_propertiesOf, List.filter_append, List.filter_append,
    List.filter_cons_of_pos (by simp), List.filter_cons_of_pos (by simpa using hname.symm),
    List.filter_nil, List.getLast?_concat, List.getLast?_concat] at hget
  obtain ⟨hdescription, htype⟩ := sorted_propertyDocument_eq_iff.1 (Option.some.inj hget)
  rw [ToolInputField.described, ToolInputField.described, hname, hdescription, htype]

/-- Tools of one name are alike: either of them may be the first. -/
theorem Canonical.determined
    (hcanonical : Canonical hashing unicode manifest runtimeVersion compiled) :
    manifest.Determined := by
  refine ⟨fun tool htool => hcanonical.consistent h htool, fun tool htool tool' htool' hname => ?_⟩
  obtain ⟨j, hj⟩ := exists_sortedToolDocument h htool
  refine alike_of_sortedToolDocument_eq (hcanonical.consistent h htool)
    (hcanonical.consistent h htool') hj ?_
  obtain ⟨before, after, htools⟩ := List.append_of_mem htool
  have hfront : manifest.tools.Perm (tool :: (before ++ after)) := by
    rw [htools]
    exact List.perm_middle
  rcases List.mem_cons.1 (hfront.mem_iff.1 htool') with rfl | hrest
  · exact hj
  · obtain ⟨before', after', hrest⟩ := List.append_of_mem hrest
    have hfirst : manifest.tools.Perm (tool :: tool' :: (before' ++ after')) :=
      hfront.trans ((List.Perm.of_eq hrest).trans List.perm_middle |>.cons tool)
    have hsame := List.forall₂_same.2 fun tool (_ : tool ∈ manifest.tools) => ToolSummary.Rearranged.refl tool
    have hthis := ServerAuthoringManifest.Rearranged.of_tools hsame hfirst
    have hthat := ServerAuthoringManifest.Rearranged.of_tools hsame (hfirst.trans (.swap tool' tool _))
    have hthese := sortedToolDocuments_eq h hthis (hcanonical _ hthis)
    have hthose := sortedToolDocuments_eq h hthat (hcanonical _ hthat)
    rw [← hj]
    exact (shown_eq_of_swap hname (hthese.trans hthose.symm)).symm

end

/-- **The order of lists does not show** in what is compiled exactly where the tools of one name
    are alike, and the inputs of one name describe one property. -/
theorem compile_rearranged_iff (hwrites : WritesShallow hashing) {unicode : UnicodeDatabase}
    {manifest : ServerAuthoringManifest} {runtimeVersion : Text} {compiled : CompiledManifests}
    (h : compileManifests hashing (revalidated unicode) manifest runtimeVersion = .ok compiled) :
    (∀ manifest', manifest.Rearranged manifest' →
      compileManifests hashing (revalidated unicode) manifest' runtimeVersion = .ok compiled) ↔
    manifest.Determined :=
  ⟨fun hcanonical => Canonical.determined h hcanonical,
    fun hdetermined _ hrearranged => hdetermined.compile_eq h hwrites hrearranged⟩

/-- A database in which nothing beyond ASCII is printable. -/
def asciiDatabase : UnicodeDatabase where
  printable _ := false
  word _ := false
  nfkc := id

/-- A tool with a name, a description and no inputs. -/
def namedTool (name description : Text) : ToolSummary where
  name := name
  description := description
  inputFingerprint := List.replicate 64 48
  outputFingerprint := List.replicate 64 48

/-- A manifest with two tools of one name. -/
def twinManifest (first second : Text) : ServerAuthoringManifest where
  name := lit "a/b"
  version := lit "1"
  description := lit "A"
  repository := { url := lit "https://a", source := lit "git" }
  ownership := { «namespace» := lit "t", tenantId := lit "t", visibility := .internal }
  adapter := .native
  protocolVersions := [lit "1"]
  lifecycle := .active
  routePolicy := { gatewayPath := lit "/" }
  remote := some { url := lit "https://a/b" }
  tools := [namedTool (lit "a") first, namedTool (lit "a") second]

theorem twinManifest_compiled : ∃ compiled,
    compileManifests Gateway.flatHashing (revalidated asciiDatabase)
      (twinManifest (lit "A") (lit "B")) (lit "1") = .ok compiled := by
  have hok : (compileManifests Gateway.flatHashing (revalidated asciiDatabase)
      (twinManifest (lit "A") (lit "B")) (lit "1")).isOk = true := by decide +kernel
  cases hcompiled : compileManifests Gateway.flatHashing (revalidated asciiDatabase)
      (twinManifest (lit "A") (lit "B")) (lit "1") with
  | error e =>
    rw [hcompiled] at hok
    cases hok
  | ok compiled => exact ⟨compiled, rfl⟩

theorem compile_rearranged_example : ∃ compiled,
    compileManifests Gateway.flatHashing (revalidated asciiDatabase)
      (twinManifest (lit "A") (lit "B")) (lit "1") = .ok compiled ∧
    ((∀ manifest', (twinManifest (lit "A") (lit "B")).Rearranged manifest' →
      compileManifests Gateway.flatHashing (revalidated asciiDatabase) manifest' (lit "1") =
        .ok compiled) ↔
      (twinManifest (lit "A") (lit "B")).Determined) := by
  obtain ⟨compiled, hcompiled⟩ := twinManifest_compiled
  exact ⟨compiled, hcompiled, compile_rearranged_iff (fun _ _ => rfl) hcompiled⟩

/-- Two tools of one name are compiled in the order that they have. -/
theorem compile_order_shows :
    (twinManifest (lit "A") (lit "B")).Rearranged (twinManifest (lit "B") (lit "A")) ∧
    ∃ compiled,
      compileManifests Gateway.flatHashing (revalidated asciiDatabase)
        (twinManifest (lit "A") (lit "B")) (lit "1") = .ok compiled ∧
      compileManifests Gateway.flatHashing (revalidated asciiDatabase)
        (twinManifest (lit "B") (lit "A")) (lit "1") ≠ .ok compiled := by
  have hrearranged : (twinManifest (lit "A") (lit "B")).Rearranged (twinManifest (lit "B") (lit "A")) :=
    .of_tools (List.forall₂_same.2 fun tool _ => .refl tool) (.swap _ _ _)
  obtain ⟨compiled, hcompiled⟩ := twinManifest_compiled
  refine ⟨hrearranged, compiled, hcompiled, fun hsame => ?_⟩
  -- the first of the two tools would have the document of the second
  have hdocuments := sortedToolDocuments_eq hcompiled hrearranged hsame
  obtain ⟨j, hj⟩ := exists_sortedToolDocument hcompiled
    (show namedTool (lit "a") (lit "A") ∈ (twinManifest (lit "A") (lit "B")).tools from
      List.mem_cons_self)
  have hname : (namedTool (lit "a") (lit "B")).name = (namedTool (lit "a") (lit "A")).name := rfl
  have hswap := shown_eq_of_swap hname hdocuments
  obtain ⟨_, _, hfields⟩ := lookup_toolFields (hswap.trans hj) hj
  have hdescription := Json.str.inj (Option.some.inj (hfields (lit "description")))
  exact absurd hdescription (by decide)

end Manifest

end McpRuntime
