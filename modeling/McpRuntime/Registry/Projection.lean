import McpRuntime.Python.Except
import McpRuntime.Registry.Documents
import McpRuntime.Schema.Compatibility

/-!
# Projection of artifacts

`RegistryResolver` projects the artifact of a stub to the declaration of a server: the
endpoint, and the tools that may be called, with the fingerprints of their schemas.

* `resolveTool_eq_ok`: the tools that satisfy a requirement.
* `project_eq_ok_iff`: a server is projected exactly when the artifact offers what the
  policy and the caller demand, each allowed tool satisfies its requirement, and all of
  them are within the bounds; and this is the server.
* `endpoint_of_project`: its endpoint is that of the policy and the gateway path.
-/

namespace McpRuntime

namespace Registry

open Schema (asMapping)

/-! ## Policies -/

/-- The check of `_require_unique_text_tuple`. -/
def AreUniqueTexts (maximumItems maximumText : ℕ) (values : List Text) : Prop :=
  values.length ≤ maximumItems ∧ values.Nodup ∧ ∀ t ∈ values, IsVisible maximumText t

instance (maximumItems maximumText : ℕ) (values : List Text) :
    Decidable (AreUniqueTexts maximumItems maximumText values) :=
  inferInstanceAs (Decidable (_ ∧ _))

/-- `_ADK_NAME`. -/
def isAdkName : Text → Bool :=
  matchesName (fun c => c.isAlphanumeric || (lit "_-").contains c)
    (fun c => c.isAlphanumeric || (lit "_-").contains c) 64

/-- `_CAPABILITY`. -/
def isCapability (t : Text) : Bool :=
  (lit "cap/").isPrefixOf t &&
    (Text.split 45 (t.drop 4)).all fun part => part ≠ [] && part.all Gateway.isDnsChar

/-- The bounds of a reviewed schema. -/
def requirementBounds : FreezeBounds where
  maxDepth := 32
  maxNodes := 4096
  maxMappingEntries := 256
  maxSequenceItems := 512
  maxText := 4096

/-- `RegistryToolRequirement`. -/
structure RegistryToolRequirement where
  name : Text
  expectedInputFingerprint : Option Text := none
  expectedOutputFingerprint : Option Text := none
  compatibleInputSchema : Option Members := none
  name_isVisible : IsVisible 128 name
  input_isDigest : ∀ t ∈ expectedInputFingerprint, isDigest t
  output_isDigest : ∀ t ∈ expectedOutputFingerprint, isDigest t
  schema_accepted : ∀ schema ∈ compatibleInputSchema, requirementBounds.accepts (.obj schema)
  pinned : expectedInputFingerprint.isSome ∨ expectedOutputFingerprint.isSome ∨
    compatibleInputSchema.isSome

/-- `RegistryResolutionPolicy`, with its gateway origin. -/
structure ResolutionPolicy (nfkc : Text → Text) extends RegistryResolutionPolicy nfkc where
  serverName : Text
  supportedProtocolVersions : List Text
  requiredCapabilities : List Text := []
  allowedLifecycles : List Text := [lit "active"]
  toolAllow : List Text := []
  toolDeny : List Text := []
  toolPrefix : Text := []
  toolRequirements : List RegistryToolRequirement := []
  maxTools : ℕ := 40
  maxSchemaBytes : ℕ := 256 * 1024
  serverName_isAdkName : isAdkName serverName
  protocols_valid : supportedProtocolVersions ≠ [] ∧ AreUniqueTexts 16 64 supportedProtocolVersions
  capabilities_valid : AreUniqueTexts 32 132 requiredCapabilities ∧
    ∀ t ∈ requiredCapabilities, isCapability t
  lifecycles_valid : allowedLifecycles ≠ [] ∧ AreUniqueTexts 8 64 allowedLifecycles
  toolAllow_valid : AreUniqueTexts 128 128 toolAllow
  toolDeny_valid : AreUniqueTexts 128 128 toolDeny
  allow_deny : ∀ t ∈ toolAllow, t ∉ toolDeny
  deny_star : lit "*" ∉ toolDeny
  toolPrefix_valid : toolPrefix ≠ [] → isAdkName toolPrefix
  requirements_nodup : (toolRequirements.map RegistryToolRequirement.name).Nodup
  maxTools_range : 1 ≤ maxTools ∧ maxTools ≤ 128
  maxSchemaBytes_range : 1 ≤ maxSchemaBytes ∧ maxSchemaBytes ≤ 4 * 1024 * 1024

/-! ## Servers -/

/-- `RegistryToolPin`. -/
structure RegistryToolPin where
  name : Text
  inputFingerprint : Text
  outputFingerprint : Text
  deriving DecidableEq

/-- The checks of `RegistryToolPin`. -/
def RegistryToolPin.Valid (pin : RegistryToolPin) : Prop :=
  IsVisible 128 pin.name ∧ isDigest pin.inputFingerprint ∧ isDigest pin.outputFingerprint

instance (pin : RegistryToolPin) : Decidable pin.Valid := inferInstanceAs (Decidable (_ ∧ _))

/-- The fields of a server. -/
structure ServerFields where
  name : Text
  endpoint : Text
  allow : List Text
  deny : List Text
  toolPrefix : Text
  maxTools : ℕ
  maxSchemaBytes : ℕ
  artifactRef : Text
  artifactDigest : Text
  toolPins : List RegistryToolPin
  deriving DecidableEq

/-- The checks of `RegistryADKServer`, and of its pins. -/
def ServerFields.Valid (nfkc : Text → Text) (s : ServerFields) : Prop :=
  isAdkName s.name ∧ isTrustedEndpoint nfkc s.endpoint ∧ AreUniqueTexts 128 128 s.allow ∧
    AreUniqueTexts 128 128 s.deny ∧ (∀ t ∈ s.allow, t ∉ s.deny) ∧
    (s.toolPrefix ≠ [] → isAdkName s.toolPrefix) ∧ (1 ≤ s.maxTools ∧ s.maxTools ≤ 128) ∧
    (1 ≤ s.maxSchemaBytes ∧ s.maxSchemaBytes ≤ 4 * 1024 * 1024) ∧ IsVisible 2048 s.artifactRef ∧
    Gateway.isRegistryDigest s.artifactDigest ∧ lit "*" ∉ s.allow ∧
    s.toolPins.map RegistryToolPin.name = s.allow ∧ s.allow.length ≤ s.maxTools ∧
    ∀ pin ∈ s.toolPins, pin.Valid

instance (nfkc : Text → Text) (s : ServerFields) : Decidable (s.Valid nfkc) :=
  inferInstanceAs (Decidable (_ ∧ _))

/-- `RegistryADKServer`. -/
structure RegistryADKServer (nfkc : Text → Text) extends ServerFields where
  valid : toServerFields.Valid nfkc

/-! ## The projection -/

/-- Why there is no projection. -/
inductive Unprojected
  /-- The artifact is rejected, for a reason. -/
  | rejected (reason : CandidateReason)
  /-- An exception is raised. -/
  | raised
  deriving DecidableEq

/-- What is rejected unless there is a value. -/
def require {α : Type} (reason : CandidateReason) : Option α → Except Unprojected α
  | some a => .ok a
  | none => .error (.rejected reason)

/-- What is rejected unless a condition holds. -/
def demand (reason : CandidateReason) (holds : Bool) : Except Unprojected Unit :=
  if holds then .ok () else .error (.rejected reason)

/-- What raises unless there is a value. -/
def raising {α : Type} : Option α → Except Unprojected α
  | some a => .ok a
  | none => .error .raised

@[simp] theorem require_eq_ok {α : Type} {reason : CandidateReason} {o : Option α} {a : α} :
    require reason o = .ok a ↔ o = some a := by
  cases o <;> simp [require]

@[simp] theorem demand_eq_ok {reason : CandidateReason} {holds : Bool} {u : Unit} :
    demand reason holds = .ok u ↔ holds = true := by
  cases holds <;> simp [demand]

@[simp] theorem raising_eq_ok {α : Type} {o : Option α} {a : α} :
    raising o = .ok a ↔ o = some a := by
  cases o <;> simp [raising]

/-- `_text_tuple`. -/
def textTuple : Json → Option (List Text)
  | .arr items =>
    if 128 < items.length then none
    else (Schema.textItems items).filter fun texts =>
      texts.all (fun t => t ≠ [] && t = t.strip) && decide texts.Nodup
  | _ => none

/-- The value is one of the texts. -/
def isAmong (texts : List Text) : Json → Bool
  | .str t => texts.contains t
  | _ => false

/-- A fingerprint. -/
def fingerprintOf : Json → Option Text
  | .str t => if isDigest t then some t else none
  | _ => none

/-- `_schema`, whose copy raises for a number that is not finite. -/
def schemaOf (j : Json) : Except Unprojected (Option Members) :=
  match asMapping j with
  | none => .ok none
  | some schema => if (Json.obj schema).allFinite then .ok (some schema) else .error .raised

/-- `_ResolvedTool`. -/
structure ResolvedTool where
  name : Text
  inputFingerprint : Text
  outputFingerprint : Text
  schemaBytes : ℕ

/-- What a projection runs with. -/
structure Projector where
  nfkc : Text → Text
  hashing : Hashing
  /-- How deeply the interpreter recurses into schemas. -/
  depth : ℕ

namespace Projector

variable (projector : Projector)

/-- The length of the canonical text of a schema in UTF-8. -/
def schemaBytes (schema : Members) : Option ℕ := do
  let t ← projector.hashing.writer.dumps (.obj schema)
  if t.Encodable then some t.utf8Length else none

/-- The fingerprint that the schema of a tool has to have. -/
def projectedFingerprint (inputFingerprint : Text) : Json → Except Unprojected Text
  | .null => .ok inputFingerprint
  | j => require .fingerprint (fingerprintOf j)

/-- The comparison with a reviewed schema. -/
def compareReviewed (requirement : RegistryToolRequirement) (schema : Members) :
    Except Unprojected Unit :=
  match requirement.compatibleInputSchema with
  | none => .ok ()
  | some reviewed => do
    let change ← raising (classifySchemaChange projector.hashing projector.depth reviewed schema .input)
    demand .schema (change ≠ .breaking)

/-- `_resolve_tool`. -/
def resolveTool (policy : ResolutionPolicy projector.nfkc) (scopes : List Text) (name : Text)
    (tool : Members) (requirement : RegistryToolRequirement) : Except Unprojected ResolvedTool := do
  demand .lifecycle (isAmong policy.allowedLifecycles (Json.pyGet (lit "status") tool))
  let required ← require .scope (textTuple (Json.pyGet (lit "requiredScopes") tool))
  demand .scope (required.all scopes.contains)
  let capabilities ← require .capability (textTuple (Json.pyGet (lit "capabilities") tool))
  demand .capability (policy.requiredCapabilities.all capabilities.contains)
  let schema ← schemaOf (Json.pyGet (lit "inputSchema") tool)
  let schema ← require .contract schema
  let inputFingerprint ← require .contract (fingerprintOf (Json.pyGet (lit "inputFingerprint") tool))
  let outputFingerprint ←
    require .contract (fingerprintOf (Json.pyGet (lit "outputFingerprint") tool))
  let projected ←
    projectedFingerprint inputFingerprint (Json.pyGet (lit "inputSchemaFingerprint") tool)
  let fingerprint ← raising (projector.hashing.fingerprint (.obj schema))
  demand .fingerprint (fingerprint = projected)
  demand .fingerprint (requirement.expectedInputFingerprint.all (· = inputFingerprint) &&
    requirement.expectedOutputFingerprint.all (· = outputFingerprint))
  projector.compareReviewed requirement schema
  let schemaBytes ← raising (projector.schemaBytes schema)
  pure ⟨name, inputFingerprint, outputFingerprint, schemaBytes⟩

/-- `by_name[name] = tool`: a name that is there keeps its place. -/
def setTool (name : Text) (tool : Members) : List (Text × Members) → List (Text × Members)
  | [] => [(name, tool)]
  | (name', tool') :: byName =>
    if name' = name then (name', tool) :: byName else (name', tool') :: setTool name tool byName

/-- A tool without a name is left out. -/
def addTool (byName : List (Text × Members)) : Json → List (Text × Members)
  | .obj members =>
    match Json.pyGet (lit "name") members with
    | .str name => setTool name members byName
    | _ => byName
  | _ => byName

/-- `by_name`: the tools with a name, the last of a name where its first one stands. -/
def toolsByName (tools : List Json) : List (Text × Members) := tools.foldl addTool []

/-- The tools that a policy allows. -/
def allowedTools (policy : ResolutionPolicy projector.nfkc) (byName : List (Text × Members)) :
    List Text :=
  (if policy.toolAllow.contains (lit "*") then byName.map Prod.fst else policy.toolAllow).filter
    fun name => !policy.toolDeny.contains name

/-- An allowed tool, which needs a requirement of its name. -/
def resolveAllowed (policy : ResolutionPolicy projector.nfkc) (scopes : List Text)
    (byName : List (Text × Members)) (name : Text) : Except Unprojected ResolvedTool := do
  let requirement ← require .fingerprint (policy.toolRequirements.find? fun r => r.name = name)
  let tool ← raising (byName.lookup name)
  projector.resolveTool policy scopes name tool requirement

/-- What a server is declared with. -/
def serverFields (policy : ResolutionPolicy projector.nfkc) (artifact : ArtifactFields) (path : Text)
    (allowed : List Text) (resolved : List ResolvedTool) : ServerFields where
  name := policy.serverName
  endpoint := policy.gatewayOrigin ++ path
  allow := allowed
  deny := policy.toolDeny
  toolPrefix := policy.toolPrefix
  maxTools := policy.maxTools
  maxSchemaBytes := policy.maxSchemaBytes
  artifactRef := artifact.ref
  artifactDigest := artifact.digest
  toolPins := resolved.map fun tool =>
    ⟨tool.name, tool.inputFingerprint, tool.outputFingerprint⟩

/-- `_gateway_path`, of the policy of the route. -/
def routePath (extension : Members) : Except Unprojected Text := do
  let accepted ← raising (gatewayPath projector.nfkc
    ((asMapping (Json.pyGet (lit "routePolicy") extension)).map (Json.pyGet (lit "gatewayPath"))))
  require .gateway accepted

/-- `_project`. -/
def project (artifact : RegistryArtifact projector.hashing.writer)
    (policy : ResolutionPolicy projector.nfkc) (scopes : List Text) :
    Except Unprojected (RegistryADKServer projector.nfkc) := do
  let extension ← require .contract (asMapping (Json.pyGet (lit "x-tesserix") artifact.spec))
  demand .lifecycle (isAmong policy.allowedLifecycles (Json.pyGet (lit "lifecycle") extension))
  let protocols ← require .protocol (textTuple (Json.pyGet (lit "protocolVersions") extension))
  demand .protocol (protocols.any policy.supportedProtocolVersions.contains)
  let required ← require .scope (textTuple (Json.pyGet (lit "requiredScopes") extension))
  demand .scope (required.all scopes.contains)
  let capabilities ← require .capability
    ((asMapping (Json.pyGet (lit "semantic") extension)).bind fun semantic =>
      textTuple (Json.pyGet (lit "capabilities") semantic))
  demand .capability (policy.requiredCapabilities.all capabilities.contains)
  let path ← projector.routePath extension
  let tools ← require .contract (match Json.pyGet (lit "tools") extension with
    | .arr tools => some tools
    | _ => none)
  let byName := toolsByName tools
  let allowed := projector.allowedTools policy byName
  demand .toolPolicy (allowed ≠ [] && allowed.all fun name => (byName.lookup name).isSome)
  demand .toolPolicy (allowed.length ≤ policy.maxTools)
  let resolved ← allowed.mapM (projector.resolveAllowed policy scopes byName)
  demand .schema ((resolved.map ResolvedTool.schemaBytes).sum ≤ policy.maxSchemaBytes)
  let server := projector.serverFields policy artifact.toArtifactFields path allowed resolved
  if h : server.Valid projector.nfkc then pure ⟨server, h⟩ else .error .raised

/-! ## What is projected -/

variable {projector}

/-- What a tool has to be for a requirement, and what is kept of it. -/
structure Satisfies (policy : ResolutionPolicy projector.nfkc) (scopes : List Text)
    (requirement : RegistryToolRequirement) (tool : Members) (resolved : ResolvedTool) : Prop where
  status : isAmong policy.allowedLifecycles (Json.pyGet (lit "status") tool)
  scopes : ∃ required, textTuple (Json.pyGet (lit "requiredScopes") tool) = some required ∧
    ∀ t ∈ required, t ∈ scopes
  capabilities : ∃ capabilities,
    textTuple (Json.pyGet (lit "capabilities") tool) = some capabilities ∧
      ∀ t ∈ policy.requiredCapabilities, t ∈ capabilities
  input : Json.pyGet (lit "inputFingerprint") tool = .str resolved.inputFingerprint ∧
    isDigest resolved.inputFingerprint ∧
    ∀ t ∈ requirement.expectedInputFingerprint, t = resolved.inputFingerprint
  output : Json.pyGet (lit "outputFingerprint") tool = .str resolved.outputFingerprint ∧
    isDigest resolved.outputFingerprint ∧
    ∀ t ∈ requirement.expectedOutputFingerprint, t = resolved.outputFingerprint
  schema : ∃ schema projected, Json.pyGet (lit "inputSchema") tool = .obj schema ∧
    projector.hashing.fingerprint (.obj schema) = some projected ∧
    (Json.pyGet (lit "inputSchemaFingerprint") tool = .null ∧
        projected = resolved.inputFingerprint ∨
      Json.pyGet (lit "inputSchemaFingerprint") tool = .str projected) ∧
    (∀ reviewed ∈ requirement.compatibleInputSchema, ∃ change,
      classifySchemaChange projector.hashing projector.depth reviewed schema .input = some change ∧
        change ≠ .breaking) ∧
    projector.schemaBytes schema = some resolved.schemaBytes

theorem fingerprintOf_eq_some {j : Json} {t : Text} :
    fingerprintOf j = some t ↔ j = .str t ∧ isDigest t := by
  rw [fingerprintOf.eq_def]
  cases j with
  | str u =>
    dsimp only
    split_ifs with hdigest
    · rw [Option.some.injEq, Json.str.injEq]
      exact ⟨fun h => ⟨h, h ▸ hdigest⟩, And.left⟩
    · exact ⟨fun h => (by cases h), fun ⟨h, hd⟩ => absurd (Json.str.inj h ▸ hd) hdigest⟩
  | null | bool | int | float | arr | obj =>
    exact ⟨fun h => (by cases h), fun h => (by cases h.1)⟩

/-- A fingerprint is a digest. -/
theorem isDigest_of_fingerprint {hashing : Hashing} {j : Json} {t : Text}
    (h : hashing.fingerprint j = some t) : isDigest t := by
  obtain ⟨document, -, h⟩ := Option.bind_eq_some_iff.1 h
  rw [← Hashing.sha256_of_digest h]
  exact (hashing.sha256 document).isDigest

/-- A value with a fingerprint has only finite numbers. -/
theorem allFinite_of_fingerprint {hashing : Hashing} {j : Json} {t : Text}
    (h : hashing.fingerprint j = some t) : j.allFinite := by
  obtain ⟨document, h, -⟩ := Option.bind_eq_some_iff.1 h
  rw [JsonWriter.dumps] at h
  split_ifs at h with hrefused
  rw [Bool.or_eq_true, not_or, Bool.not_eq_true', Bool.not_eq_false] at hrefused
  exact hrefused.2

/-- The schema of a tool is a mapping of finite numbers. -/
theorem schemaOf_eq_ok {j : Json} {schema : Members} :
    schemaOf j = .ok (some schema) ↔ j = .obj schema ∧ (Json.obj schema).allFinite := by
  rw [schemaOf]
  cases j with
  | obj members =>
    dsimp only [asMapping]
    split_ifs with hfinite
    · rw [Except.ok.injEq, Option.some.injEq, Json.obj.injEq]
      exact ⟨fun h => ⟨h, h ▸ hfinite⟩, And.left⟩
    · exact ⟨fun h => (by cases h), fun ⟨h, hf⟩ => absurd (Json.obj.inj h ▸ hf) hfinite⟩
  | null | bool | int | float | str | arr => exact ⟨fun h => (by cases h), fun h => (by cases h.1)⟩

/-- The fingerprint that a schema has to have, and has. -/
theorem projectedFingerprint_eq_ok {inputFingerprint projected : Text} {j : Json} :
    projectedFingerprint inputFingerprint j = .ok projected ↔
      j = .null ∧ projected = inputFingerprint ∨ j = .str projected ∧ isDigest projected := by
  cases j with
  | null =>
    rw [projectedFingerprint, Except.ok.injEq]
    exact ⟨fun h => .inl ⟨rfl, h.symm⟩, fun h => h.elim (fun h => h.2.symm) fun h => (by cases h.1)⟩
  | bool | int | float | str | arr | obj =>
    rw [projectedFingerprint.eq_2 _ _ (fun h => by cases h), require_eq_ok, fingerprintOf_eq_some]
    exact ⟨.inr, fun h => h.elim (fun h => (by cases h.1)) id⟩

theorem compareReviewed_eq_ok {requirement : RegistryToolRequirement} {schema : Members} {u : Unit} :
    projector.compareReviewed requirement schema = .ok u ↔
      ∀ reviewed ∈ requirement.compatibleInputSchema, ∃ change,
        classifySchemaChange projector.hashing projector.depth reviewed schema .input = some change ∧
          change ≠ .breaking := by
  rw [compareReviewed]
  cases requirement.compatibleInputSchema with
  | none => exact iff_of_true rfl fun _ h => (by cases h)
  | some reviewed =>
    simp only [bind_eq_ok, raising_eq_ok, demand_eq_ok, decide_eq_true_eq, Option.mem_some_iff,
      forall_eq']

/-- The tools that satisfy a requirement. -/
theorem resolveTool_eq_ok {policy : ResolutionPolicy projector.nfkc} {scopes : List Text}
    {name : Text} {tool : Members} {requirement : RegistryToolRequirement}
    {resolved : ResolvedTool} :
    projector.resolveTool policy scopes name tool requirement = .ok resolved ↔
      resolved.name = name ∧ Satisfies policy scopes requirement tool resolved := by
  simp only [resolveTool, bind_eq_ok, demand_eq_ok, require_eq_ok, raising_eq_ok, pure_eq_ok,
    fingerprintOf_eq_some, projectedFingerprint_eq_ok, compareReviewed_eq_ok, List.all_eq_true,
    List.contains_iff_mem, Bool.and_eq_true, decide_eq_true_eq, Option.all_eq_true]
  constructor
  · rintro ⟨-, hstatus, required, hrequired, -, hscopes, capabilities, hcapabilities, -, hall,
      found, hfound, schema, rfl, input, ⟨hinput, hdigest⟩, output, ⟨houtput, hdigest'⟩, projected,
      hprojected, fingerprint, hfingerprint, -, rfl, -, ⟨hin, hout⟩, -, hreviewed, bytes, hbytes,
      rfl⟩
    refine ⟨rfl, hstatus, ⟨required, hrequired, hscopes⟩, ⟨capabilities, hcapabilities, hall⟩,
      ⟨hinput, hdigest, hin⟩, ⟨houtput, hdigest', hout⟩, schema, fingerprint,
      (schemaOf_eq_ok.1 hfound).1, hfingerprint, hprojected.imp_right And.left, hreviewed, hbytes⟩
  · rintro ⟨rfl, h⟩
    obtain ⟨required, hrequired, hscopes⟩ := h.scopes
    obtain ⟨capabilities, hcapabilities, hall⟩ := h.capabilities
    obtain ⟨hinput, hdigest, hin⟩ := h.input
    obtain ⟨houtput, hdigest', hout⟩ := h.output
    obtain ⟨schema, projected, hschema, hfingerprint, hprojected, hreviewed, hbytes⟩ := h.schema
    exact ⟨(), h.status, required, hrequired, (), hscopes, capabilities, hcapabilities, (), hall,
      some schema, schemaOf_eq_ok.2 ⟨hschema, allFinite_of_fingerprint hfingerprint⟩, schema, rfl,
      resolved.inputFingerprint, ⟨hinput, hdigest⟩, resolved.outputFingerprint,
      ⟨houtput, hdigest'⟩, projected,
      hprojected.imp_right fun h => ⟨h, isDigest_of_fingerprint hfingerprint⟩, projected,
      hfingerprint, (), rfl, (), ⟨hin, hout⟩, (), hreviewed, resolved.schemaBytes, hbytes, rfl⟩

/-! ## The tools of an artifact -/

theorem mem_keys_setTool {name key : Text} {tool : Members} {byName : List (Text × Members)} :
    key ∈ (setTool name tool byName).map Prod.fst ↔ key = name ∨ key ∈ byName.map Prod.fst := by
  induction byName with
  | nil => simp [setTool]
  | cons m byName ih =>
    obtain ⟨name', tool'⟩ := m
    rw [setTool]
    split_ifs with hname
    · rw [List.map_cons, List.map_cons, List.mem_cons, ← hname]
      exact ⟨.inr, fun h => h.elim .inl id⟩
    · rw [List.map_cons, List.map_cons, List.mem_cons, List.mem_cons, ih]
      exact or_left_comm

theorem nodup_setTool {name : Text} {tool : Members} {byName : List (Text × Members)}
    (h : (byName.map Prod.fst).Nodup) : ((setTool name tool byName).map Prod.fst).Nodup := by
  induction byName with
  | nil => exact List.nodup_singleton _
  | cons m byName ih =>
    obtain ⟨name', tool'⟩ := m
    obtain ⟨hfresh, hnodup⟩ := List.nodup_cons.1 h
    rw [setTool]
    split_ifs with hname
    · exact h
    · refine List.nodup_cons.2 ⟨fun hmem => ?_, ih hnodup⟩
      rcases mem_keys_setTool.1 hmem with rfl | hmem
      · exact hname rfl
      · exact hfresh hmem

theorem nodup_toolsByName (tools : List Json) : ((toolsByName tools).map Prod.fst).Nodup := by
  induction tools using List.reverseRecOn with
  | nil => exact List.nodup_nil
  | append_singleton tools tool ih =>
    rw [toolsByName, List.foldl_append, List.foldl_cons, List.foldl_nil, ← toolsByName,
      addTool.eq_def]
    split
    · split
      · exact nodup_setTool ih
      · exact ih
    · exact ih

/-! ## The server -/

/-- What an artifact has to declare for a policy and a caller, and the path of its gateway. -/
structure Offers (policy : ResolutionPolicy projector.nfkc) (scopes : List Text)
    (extension : Members) (path : Text) : Prop where
  lifecycle : isAmong policy.allowedLifecycles (Json.pyGet (lit "lifecycle") extension)
  protocols : ∃ versions, textTuple (Json.pyGet (lit "protocolVersions") extension) = some versions ∧
    ∃ version ∈ versions, version ∈ policy.supportedProtocolVersions
  scopes : ∃ required, textTuple (Json.pyGet (lit "requiredScopes") extension) = some required ∧
    ∀ t ∈ required, t ∈ scopes
  capabilities : ∃ semantic capabilities, Json.pyGet (lit "semantic") extension = .obj semantic ∧
    textTuple (Json.pyGet (lit "capabilities") semantic) = some capabilities ∧
      ∀ t ∈ policy.requiredCapabilities, t ∈ capabilities
  path : ∃ route, Json.pyGet (lit "routePolicy") extension = .obj route ∧
    gatewayPath projector.nfkc (some (Json.pyGet (lit "gatewayPath") route)) = some (some path)

/-- What the allowed tools have to be, and what is kept of them. -/
structure Surface (policy : ResolutionPolicy projector.nfkc) (scopes : List Text)
    (byName : List (Text × Members)) (allowed : List Text) (resolved : List ResolvedTool) :
    Prop where
  ne_nil : allowed ≠ []
  count : allowed.length ≤ policy.maxTools
  tools : allowed.Forall₂ (fun name tool => tool.name = name ∧
    ∃ requirement ∈ policy.toolRequirements, requirement.name = name ∧
      ∃ members, byName.lookup name = some members ∧
        Satisfies policy scopes requirement members tool) resolved
  bytes : (resolved.map ResolvedTool.schemaBytes).sum ≤ policy.maxSchemaBytes

/-- The server that an artifact is projected to. -/
def Projects (artifact : RegistryArtifact projector.hashing.writer)
    (policy : ResolutionPolicy projector.nfkc) (scopes : List Text) (server : ServerFields) : Prop :=
  ∃ extension path tools resolved,
    Json.pyGet (lit "x-tesserix") artifact.spec = .obj extension ∧
    Offers policy scopes extension path ∧ Json.pyGet (lit "tools") extension = .arr tools ∧
    Surface policy scopes (toolsByName tools) (projector.allowedTools policy (toolsByName tools))
      resolved ∧
    isTrustedEndpoint projector.nfkc (policy.gatewayOrigin ++ path) ∧
    lit "*" ∉ projector.allowedTools policy (toolsByName tools) ∧
    server = projector.serverFields policy artifact.toArtifactFields path
      (projector.allowedTools policy (toolsByName tools)) resolved

/-- The requirement of a name is found by it. -/
theorem find_requirement {requirements : List RegistryToolRequirement}
    (h : (requirements.map RegistryToolRequirement.name).Nodup) {name : Text}
    {requirement : RegistryToolRequirement} :
    requirements.find? (fun r => r.name = name) = some requirement ↔
      requirement ∈ requirements ∧ requirement.name = name := by
  constructor
  · intro hfind
    have hname := List.find?_some hfind
    exact ⟨List.mem_of_find?_eq_some hfind, of_decide_eq_true hname⟩
  · rintro ⟨hmem, hname⟩
    obtain ⟨found, hfound⟩ := Option.isSome_iff_exists.1 (List.find?_isSome
      (p := fun r : RegistryToolRequirement => r.name = name).2
        ⟨requirement, hmem, decide_eq_true hname⟩)
    have hsame := List.find?_some hfound
    rw [hfound, List.inj_on_of_nodup_map h (List.mem_of_find?_eq_some hfound) hmem
      ((of_decide_eq_true hsame).trans hname.symm)]

theorem routePath_eq_ok {extension : Members} {path : Text} :
    projector.routePath extension = .ok path ↔
      ∃ route, Json.pyGet (lit "routePolicy") extension = .obj route ∧
        gatewayPath projector.nfkc (some (Json.pyGet (lit "gatewayPath") route)) =
          some (some path) := by
  simp only [routePath, bind_eq_ok, raising_eq_ok, require_eq_ok, exists_eq_right]
  cases Json.pyGet (lit "routePolicy") extension with
  | obj route => exact ⟨fun h => ⟨route, rfl, h⟩, fun ⟨_, he, h⟩ => Json.obj.inj he ▸ h⟩
  | null | bool | int | float | str | arr =>
    exact ⟨fun h => (by cases h), fun ⟨_, he, _⟩ => (by cases he)⟩

/-- The endpoint of a server is the one that `Registry.project` gives for the path of the
    artifact, where nothing else refuses the artifact. -/
theorem endpoint_of_project {artifact : RegistryArtifact projector.hashing.writer}
    {policy : ResolutionPolicy projector.nfkc} {scopes : List Text}
    {server : RegistryADKServer projector.nfkc}
    (h : projector.project artifact policy scopes = .ok server) :
    ∃ extension, Json.pyGet (lit "x-tesserix") artifact.spec = .obj extension ∧
      Registry.project projector.nfkc policy.toRegistryResolutionPolicy ⟨none, none, true⟩
        ((asMapping (Json.pyGet (lit "routePolicy") extension)).map
          (Json.pyGet (lit "gatewayPath"))) = some (.ok server.endpoint) := by
  simp only [project, bind_eq_ok, require_eq_ok, Schema.asMapping_eq_some] at h
  obtain ⟨extension, hextension, -, -, -, -, -, -, -, -, -, -, -, -, -, -, path, hpath, tools, -, -,
    -, -, -, resolved, -, -, -, h⟩ := h
  simp only [routePath, bind_eq_ok, raising_eq_ok, require_eq_ok, exists_eq_right] at hpath
  split_ifs at h with hvalid
  cases h
  have htrusted : isTrustedEndpoint projector.nfkc (policy.gatewayOrigin ++ path) := hvalid.2.1
  refine ⟨extension, hextension, ?_⟩
  rw [Registry.project, hpath]
  exact if_pos (Bool.and_eq_true_iff.2 ⟨htrusted, rfl⟩)

theorem resolveAllowed_eq_ok {policy : ResolutionPolicy projector.nfkc} {scopes : List Text}
    {byName : List (Text × Members)} {name : Text} {resolved : ResolvedTool} :
    projector.resolveAllowed policy scopes byName name = .ok resolved ↔ resolved.name = name ∧
      ∃ requirement ∈ policy.toolRequirements, requirement.name = name ∧
        ∃ members, byName.lookup name = some members ∧
          Satisfies policy scopes requirement members resolved := by
  simp only [resolveAllowed, bind_eq_ok, require_eq_ok, raising_eq_ok, resolveTool_eq_ok,
    find_requirement policy.requirements_nodup]
  constructor
  · rintro ⟨requirement, ⟨hmem, hname⟩, members, hlookup, hresolved, h⟩
    exact ⟨hresolved, requirement, hmem, hname, members, hlookup, h⟩
  · rintro ⟨hresolved, requirement, hmem, hname, members, hlookup, h⟩
    exact ⟨requirement, ⟨hmem, hname⟩, members, hlookup, hresolved, h⟩

/-- The pins of a surface are those of the allowed tools, in their order. -/
theorem Surface.names {policy : ResolutionPolicy projector.nfkc} {scopes : List Text}
    {byName : List (Text × Members)} {allowed : List Text} {resolved : List ResolvedTool}
    (h : Surface policy scopes byName allowed resolved) : resolved.map ResolvedTool.name = allowed := by
  refine (List.forall₂_eq_eq_eq ▸ (List.forall₂_map_right_iff.2 (h.tools.imp ?_)) : _ = _).symm
  exact fun name tool hmeets => hmeets.1.symm

/-- Each allowed tool has a requirement of its name. -/
theorem Surface.visible {policy : ResolutionPolicy projector.nfkc} {scopes : List Text}
    {byName : List (Text × Members)} {allowed : List Text} {resolved : List ResolvedTool}
    (h : Surface policy scopes byName allowed resolved) : ∀ name ∈ allowed, IsVisible 128 name := by
  intro name hname
  obtain ⟨tool, -, -, requirement, -, rfl, -⟩ := exists_of_forall₂ h.tools hname
  exact requirement.name_isVisible

theorem nodup_allowedTools (policy : ResolutionPolicy projector.nfkc) (tools : List Json) :
    (projector.allowedTools policy (toolsByName tools)).Nodup := by
  rw [allowedTools]
  refine List.Nodup.filter _ ?_
  split_ifs
  · exact nodup_toolsByName tools
  · exact policy.toolAllow_valid.2.1

theorem notMem_toolDeny {policy : ResolutionPolicy projector.nfkc} {byName : List (Text × Members)}
    {name : Text} (h : name ∈ projector.allowedTools policy byName) : name ∉ policy.toolDeny := by
  have hdeny := (List.mem_filter.1 h).2
  rwa [Bool.not_eq_true', ← Bool.not_eq_true, List.contains_iff_mem] at hdeny

/-- The declaration of a surface is what `RegistryADKServer` accepts, unless its endpoint is
    not trusted or a tool is named `*`. -/
theorem Surface.valid_iff (artifact : RegistryArtifact projector.hashing.writer)
    {policy : ResolutionPolicy projector.nfkc} {scopes : List Text} {tools : List Json} {path : Text}
    {resolved : List ResolvedTool}
    (h : Surface policy scopes (toolsByName tools)
      (projector.allowedTools policy (toolsByName tools)) resolved) :
    (projector.serverFields policy artifact.toArtifactFields path
      (projector.allowedTools policy (toolsByName tools)) resolved).Valid projector.nfkc ↔
      isTrustedEndpoint projector.nfkc (policy.gatewayOrigin ++ path) ∧
        lit "*" ∉ projector.allowedTools policy (toolsByName tools) := by
  constructor
  · rintro ⟨-, hendpoint, -, -, -, -, -, -, -, -, hstar, -⟩
    exact ⟨hendpoint, hstar⟩
  · -- The other checks have been made before: on the policy, on the artifact,
    -- and on the tools of the surface.
    rintro ⟨hendpoint, hstar⟩
    obtain ⟨-, -, -, -, -, -, href, hdigest, -⟩ := artifact.valid
    refine ⟨policy.serverName_isAdkName, hendpoint,
      ⟨h.count.trans policy.maxTools_range.2, nodup_allowedTools policy tools, h.visible⟩,
      policy.toolDeny_valid, fun _ ht => notMem_toolDeny ht, policy.toolPrefix_valid,
      policy.maxTools_range, policy.maxSchemaBytes_range, href, hdigest, hstar, ?_, h.count, ?_⟩
    · rw [serverFields, List.map_map]
      exact h.names
    · intro pin hpin
      obtain ⟨tool, htool, rfl⟩ := List.mem_map.1 hpin
      obtain ⟨name, hname, hmeets, requirement, -, -, members, -, hsatisfies⟩ :=
        exists_of_forall₂ (List.Forall₂.flip h.tools) htool
      exact ⟨hmeets ▸ h.visible name hname, hsatisfies.input.2.1, hsatisfies.output.2.1⟩

/-- A server is projected exactly when the artifact offers what is demanded, and its tools
    make up the surface. -/
theorem project_eq_ok_iff {artifact : RegistryArtifact projector.hashing.writer}
    {policy : ResolutionPolicy projector.nfkc} {scopes : List Text}
    {server : RegistryADKServer projector.nfkc} :
    projector.project artifact policy scopes = .ok server ↔
      Projects artifact policy scopes server.toServerFields := by
  have harray {j : Json} {tools : List Json} :
      (match j with | .arr tools => some tools | _ => none) = some tools ↔ j = .arr tools := by
    cases j with
    | arr items => exact ⟨fun h => congrArg _ (Option.some.inj h), fun h => congrArg _ (Json.arr.inj h)⟩
    | null | bool | int | float | str | obj => exact ⟨fun h => (by cases h), fun h => (by cases h)⟩
  simp only [project, bind_eq_ok, demand_eq_ok, require_eq_ok, routePath_eq_ok, mapM_eq_ok_iff,
    resolveAllowed_eq_ok, Schema.asMapping_eq_some, harray, Option.bind_eq_some_iff,
    List.all_eq_true, List.any_eq_true, List.contains_iff_mem, Bool.and_eq_true,
    decide_eq_true_eq]
  constructor
  · rintro ⟨extension, hextension, -, hlifecycle, versions, hversions, -, hprotocol, required,
      hrequired, -, hscopes, capabilities, ⟨semantic, hsemantic, hcapabilities⟩, -, hall, path,
      hpath, tools, htools, -, ⟨hne, -⟩, -, hcount, resolved, hresolved, -, hbytes, h⟩
    have hsurface : Surface policy scopes (toolsByName tools)
        (projector.allowedTools policy (toolsByName tools)) resolved :=
      ⟨hne, hcount, hresolved, hbytes⟩
    -- The constructor of the server checks last, and may still refuse.
    split_ifs at h with hvalid
    cases h
    obtain ⟨hendpoint, hstar⟩ := (hsurface.valid_iff artifact).1 hvalid
    exact ⟨extension, path, tools, resolved, hextension,
      ⟨hlifecycle, ⟨versions, hversions, hprotocol⟩, ⟨required, hrequired, hscopes⟩,
        ⟨semantic, capabilities, hsemantic, hcapabilities, hall⟩, hpath⟩,
      htools, hsurface, hendpoint, hstar, rfl⟩
  · rintro ⟨extension, path, tools, resolved, hextension, hoffers, htools, hsurface, hendpoint,
      hstar, hserver⟩
    obtain ⟨versions, hversions, hprotocol⟩ := hoffers.protocols
    obtain ⟨required, hrequired, hscopes⟩ := hoffers.scopes
    obtain ⟨semantic, capabilities, hsemantic, hcapabilities, hall⟩ := hoffers.capabilities
    have hvalid := (hsurface.valid_iff artifact).2 ⟨hendpoint, hstar⟩
    refine ⟨extension, hextension, (), hoffers.lifecycle, versions, hversions, (), hprotocol,
      required, hrequired, (), hscopes, capabilities, ⟨semantic, hsemantic, hcapabilities⟩, (), hall,
      path, hoffers.path, tools, htools, (), ⟨hsurface.ne_nil, fun name hname => ?_⟩, (),
      hsurface.count, resolved, hsurface.tools, (), hsurface.bytes, ?_⟩
    · obtain ⟨_, -, -, _, -, -, members, hlookup, -⟩ := exists_of_forall₂ hsurface.tools hname
      rw [hlookup]
      rfl
    · rw [dif_pos hvalid]
      obtain ⟨fields, hfields⟩ := server
      cases hserver
      rfl

end Projector

end Registry

end McpRuntime
