import McpRuntime.Policy.ToolPolicy
import McpRuntime.Schema.Sound
import Mathlib.Data.List.Dedup
import Mathlib.Data.List.Infix

/-!
# The migration gate

`compare_migration_surfaces` reviews a release before its route may move: the
tools of the previous surface and of the current one are matched by their
normalized names, and the schemas and the reviewed policy of each pair are
compared. A catalog serves a tool by its exact name.

* `MigrationSurface`, `MigrationDiff`: what is compared and what comes of it.
* `toolDiff_of_ready`: what the gate has checked of each pair.
* `served_of_cutoverReady`: the calls that are answered as before after a
  cutover that the gate allows.
-/

namespace McpRuntime

open JsonSchema Schema

/-! ## Surfaces -/

/-- `_route_path`. -/
def isRoutePath (value : Text) : Bool :=
  (lit "/").isPrefixOf value && value.length ≤ 512 && value == value.strip &&
    !value.contains 63 && !value.contains 35 && !decide (lit "//" <:+: value) &&
      !((value.splitOn 47).any fun part => part == lit "." || part == lit "..") &&
        !value.any fun c => c.val < 32

/-- One exact route from a public path to one upstream. -/
structure MigrationRoute where
  name : Text
  publicPath : Text
  upstreamPath : Text
  name_isText : name ≠ [] ∧ name = name.strip ∧ name.length ≤ 128 ∧ ∀ c ∈ name, 32 ≤ c.val
  publicPath_isPath : isRoutePath publicPath
  upstreamPath_isPath : isRoutePath upstreamPath

/-- `MigrationRoute.identifier`. -/
def MigrationRoute.identifier (route : MigrationRoute) : Text :=
  route.name ++ lit ":" ++ route.publicPath ++ lit "->" ++ route.upstreamPath

/-- A host, in its canonical form, and a port. -/
structure EgressDestination where
  host : Text
  port : ℕ
  port_mem : 1 ≤ port ∧ port ≤ 65535
  deriving DecidableEq

/-- `EgressDestination.authority`. -/
def EgressDestination.authority (destination : EgressDestination) : Text :=
  (if destination.host.contains 58 then lit "[" ++ destination.host ++ lit "]"
    else destination.host) ++ lit ":" ++ natText destination.port

/-- Where a surface may connect to. -/
structure EgressManifest where
  destinations : List EgressDestination
  length_le : destinations.length ≤ 256
  nodup : destinations.Nodup

/-- Surface of a server, captured before a route can change. -/
structure MigrationSurface where
  tools : List ToolManifest
  egress : EgressManifest
  routes : List MigrationRoute
  stateless : Bool
  names_nodup : (tools.map ToolManifest.normalizedName).Nodup
  routes_nodup : (routes.map MigrationRoute.identifier).Nodup

/-- What has changed of one tool. -/
structure MigrationToolDiff where
  name : Text
  inputChange : SchemaChange
  outputChange : SchemaChange
  descriptionChanged : Bool
  scopeChanged : Bool
  policyChanged : Bool
  lifecycleChanged : Bool
  deriving DecidableEq

/-- `MigrationToolDiff.breaking`. -/
def MigrationToolDiff.breaking (diff : MigrationToolDiff) : Bool :=
  diff.inputChange == .breaking || diff.outputChange == .breaking || diff.policyChanged

/-- Review of a migration, from what can be observed to whether it may go on. -/
structure MigrationDiff where
  toolDiffs : List MigrationToolDiff
  addedTools : List Text
  removedTools : List Text
  addedEgress : List Text
  removedEgress : List Text
  addedRoutes : List Text
  removedRoutes : List Text
  lifecycleChanged : Bool
  targetStateless : Bool
  deriving DecidableEq

namespace MigrationDiff

/-- `MigrationDiff.requires_major_version`. -/
def requiresMajorVersion (diff : MigrationDiff) : Bool :=
  !diff.removedTools.isEmpty || diff.toolDiffs.any MigrationToolDiff.breaking

/-- `MigrationDiff.cutover_ready`. -/
def cutoverReady (diff : MigrationDiff) : Bool :=
  !diff.requiresMajorVersion && diff.targetStateless

end MigrationDiff

/-! ## The comparison -/

/-- `_discovery_lifecycle`. -/
def discoveryLifecycle (manifest : ToolManifest) : Option Text :=
  manifest.metadata.discovery.map ToolDiscoveryMetadata.lifecycle

/-- The policy of a tool that is reviewed: its effect, approval and idempotency. -/
def reviewedPolicy (metadata : ToolMetadata) :
    ToolEffect × ApprovalRequirement × IdempotencyRequirement :=
  (metadata.effect, metadata.approval, metadata.idempotency)

variable (hashing : Hashing) (depth : ℕ)

/-- The classification of the schemas of two manifests, which are objects. -/
def classifyManifests (previous current : Json) (direction : SchemaDirection) :
    Option SchemaChange := do
  classifySchemaChange hashing depth (← asMapping previous) (← asMapping current) direction

/-- `_tool_diff`, which raises what the classification of a schema raises. -/
def toolDiff (previous current : ToolManifest) : Option MigrationToolDiff := do
  some {
    name := current.normalizedName
    inputChange :=
      ← classifyManifests hashing depth previous.inputSchema current.inputSchema .input
    outputChange :=
      ← classifyManifests hashing depth previous.outputSchema current.outputSchema .output
    descriptionChanged := previous.metadata.description != current.metadata.description
    scopeChanged :=
      previous.metadata.requiredScopes.items != current.metadata.requiredScopes.items
    policyChanged := reviewedPolicy previous.metadata != reviewedPolicy current.metadata
    lifecycleChanged := discoveryLifecycle previous != discoveryLifecycle current }

/-- The texts of one list that are not in another, sorted. -/
def sortedDifference (items others : List Text) : List Text :=
  (items.dedup.filter fun t => !others.contains t).insertionSort (· ≤ ·)

/-- The manifest with a normalized name. -/
def MigrationSurface.tool (surface : MigrationSurface) (name : Text) : Option ToolManifest :=
  surface.tools.find? fun manifest => manifest.normalizedName = name

/-- `compare_migration_surfaces`. -/
def compareMigrationSurfaces (previous current : MigrationSurface) : Option MigrationDiff := do
  let previousTools := previous.tools.map ToolManifest.normalizedName
  let currentTools := current.tools.map ToolManifest.normalizedName
  let shared := (previousTools.filter fun name => currentTools.contains name).insertionSort (· ≤ ·)
  let diffs ← shared.mapM fun name => do
    toolDiff hashing depth (← previous.tool name) (← current.tool name)
  let previousEgress := previous.egress.destinations.map EgressDestination.authority
  let currentEgress := current.egress.destinations.map EgressDestination.authority
  let previousRoutes := previous.routes.map MigrationRoute.identifier
  let currentRoutes := current.routes.map MigrationRoute.identifier
  some {
    toolDiffs := diffs
    addedTools := sortedDifference currentTools previousTools
    removedTools := sortedDifference previousTools currentTools
    addedEgress := sortedDifference currentEgress previousEgress
    removedEgress := sortedDifference previousEgress currentEgress
    addedRoutes := sortedDifference currentRoutes previousRoutes
    removedRoutes := sortedDifference previousRoutes currentRoutes
    lifecycleChanged := previous.stateless != current.stateless
    targetStateless := current.stateless }

/-! ## What the gate has checked -/

variable {hashing : Hashing} {depth : ℕ} {previous current : MigrationSurface}
  {diff : MigrationDiff} {tool tool' : ToolManifest}

/-- No text is missing from the others when the difference is empty. -/
theorem subset_of_sortedDifference {items others : List Text}
    (h : sortedDifference items others = []) : ∀ t ∈ items, t ∈ others := by
  intro t ht
  by_contra hnot
  have hmem : t ∈ sortedDifference items others := by
    rw [sortedDifference, List.mem_insertionSort, List.mem_filter, List.mem_dedup]
    simp [ht, hnot]
  rw [h] at hmem
  cases hmem

/-- A tool of a surface is found by its normalized name. -/
theorem MigrationSurface.tool_eq_some {surface : MigrationSurface} (h : tool ∈ surface.tools) :
    surface.tool tool.normalizedName = some tool := by
  obtain ⟨found, hfound⟩ : ∃ found, surface.tool tool.normalizedName = some found := by
    rw [← Option.isSome_iff_exists, MigrationSurface.tool, List.find?_isSome]
    exact ⟨tool, h, decide_eq_true rfl⟩
  have hname := List.find?_some hfound
  rw [decide_eq_true_iff] at hname
  rw [hfound, List.inj_on_of_nodup_map surface.names_nodup (List.mem_of_find?_eq_some hfound) h hname]

/-- The gate has compared a tool with the tool of the same normalized name, and
    found nothing that breaks. -/
theorem toolDiff_of_ready (h : compareMigrationSurfaces hashing depth previous current = some diff)
    (hready : diff.cutoverReady = true) (htool : tool ∈ previous.tools) :
    ∃ tool' ∈ current.tools, tool'.normalizedName = tool.normalizedName ∧
      ∃ d, toolDiff hashing depth tool tool' = some d ∧ d.breaking = false := by
  simp only [compareMigrationSurfaces, Option.bind_eq_bind, Option.bind_eq_some_iff,
    Option.some.injEq] at h
  obtain ⟨diffs, hdiffs, rfl⟩ := h
  simp only [MigrationDiff.cutoverReady, MigrationDiff.requiresMajorVersion, Bool.and_eq_true,
    Bool.not_eq_true', Bool.or_eq_false_iff, Bool.not_eq_false', List.isEmpty_iff] at hready
  obtain ⟨⟨hremoved, hbreaking⟩, -⟩ := hready
  have hshared := subset_of_sortedDifference hremoved _ (List.mem_map_of_mem htool)
  obtain ⟨tool', htool', hname⟩ := List.mem_map.1 hshared
  refine ⟨tool', htool', hname, ?_⟩
  have hmem : tool.normalizedName ∈ ((previous.tools.map ToolManifest.normalizedName).filter fun name =>
      (current.tools.map ToolManifest.normalizedName).contains name).insertionSort (· ≤ ·) := by
    rw [List.mem_insertionSort, List.mem_filter, List.contains_iff_mem]
    exact ⟨List.mem_map_of_mem htool, hshared⟩
  obtain ⟨d, hd, hdiff⟩ := exists_of_forall₂ (mapM_eq_some.1 hdiffs) hmem
  rw [MigrationSurface.tool_eq_some htool, Option.bind_some] at hdiff
  rw [← hname, MigrationSurface.tool_eq_some htool', Option.bind_some] at hdiff
  exact ⟨d, hdiff, by simpa using List.any_eq_false.1 hbreaking d hd⟩

/-- The parts of a diff of two tools that does not break. -/
theorem toolDiff_eq_some {d : MigrationToolDiff} (h : toolDiff hashing depth tool tool' = some d)
    (hbreaking : d.breaking = false) :
    (∃ change, classifyManifests hashing depth tool.inputSchema tool'.inputSchema .input =
      some change ∧ change ≠ .breaking) ∧
    (∃ change, classifyManifests hashing depth tool.outputSchema tool'.outputSchema .output =
      some change ∧ change ≠ .breaking) ∧
    reviewedPolicy tool'.metadata = reviewedPolicy tool.metadata := by
  simp only [toolDiff, Option.bind_eq_bind, Option.bind_eq_some_iff, Option.some.injEq] at h
  obtain ⟨input, hinput, output, houtput, rfl⟩ := h
  simp only [MigrationToolDiff.breaking, Bool.or_eq_false_iff, beq_eq_false_iff_ne,
    bne_eq_false_iff_eq] at hbreaking
  exact ⟨⟨input, hinput, hbreaking.1.1⟩, ⟨output, houtput, hbreaking.1.2⟩, hbreaking.2.symm⟩

/-! ## Calls after the cutover -/

variable {unicode : UnicodeTable} {formats : Formats} {catalog : ToolCatalog hashing unicode}

/-- The classification of two schemas is right: what is valid under the one stays
    valid under the other. -/
def ClassifiesSoundly (hashing : Hashing) (depth : ℕ) (formats : Formats) (previous current : Json)
    (direction : SchemaDirection) : Prop :=
  ∀ change, classifyManifests hashing depth previous current direction = some change →
    change ≠ .breaking → ∀ j, Preserves formats previous current j direction

/-- A schema that stays the same is classified rightly. -/
theorem classifiesSoundly_of_eq {hashing : Hashing} {depth : ℕ} {formats : Formats}
    {previous current : Json} {direction : SchemaDirection} (h : current = previous) :
    ClassifiesSoundly hashing depth formats previous current direction := by
  subst h
  intro _ _ _ j
  cases direction with
  | input | output => exact fun hv => hv

/-- A call of a published tool is answered as before: the catalog has a tool of
    its name, which accepts the arguments, has the same policy, and gives results
    that were valid before. -/
def Served (formats : Formats) (catalog : ToolCatalog hashing unicode) (tool : ToolManifest)
    (arguments : Json) : Prop :=
  ∃ definition manifest, (definition, manifest) ∈ catalog.entries ∧
    catalog.get tool.metadata.name = some definition ∧
    Valid formats manifest.inputSchema manifest.inputSchema arguments ∧
    reviewedPolicy definition.metadata = reviewedPolicy tool.metadata ∧
    ∀ result, Valid formats manifest.outputSchema manifest.outputSchema result →
      Valid formats tool.outputSchema tool.outputSchema result

/-- Every tool that can be called keeps its exact name. -/
def KeepsNames (formats : Formats) (previous current : MigrationSurface) : Prop :=
  ∀ tool ∈ previous.tools, (∃ arguments, Valid formats tool.inputSchema tool.inputSchema arguments) →
    ∀ tool' ∈ current.tools, tool'.normalizedName = tool.normalizedName →
      tool'.metadata.name = tool.metadata.name

/-- A catalog finds the definition of a manifest by its name. -/
theorem ToolCatalog.get_of_mem_manifests {manifest : ToolManifest}
    (h : manifest ∈ catalog.manifests) :
    ∃ definition, (definition, manifest) ∈ catalog.entries ∧
      catalog.get manifest.metadata.name = some definition ∧
        definition.metadata = manifest.metadata := by
  obtain ⟨definition, hentry⟩ : ∃ definition, (definition, manifest) ∈ catalog.entries := by
    have hlength := catalog.registered.length_eq
    obtain ⟨i, hi, rfl⟩ := List.getElem_of_mem h
    refine ⟨catalog.tools[i], ?_⟩
    rw [ToolCatalog.entries, List.mem_iff_getElem]
    exact ⟨i, by simp [hi, hlength], by simp⟩
  obtain ⟨htool, -, hmanifest⟩ := ToolCatalog.manifest_of_mem_entries hentry
  have hmetadata := (ToolManifest.metadata_of_create hmanifest).symm
  obtain ⟨found, hfound⟩ : ∃ found, catalog.get manifest.metadata.name = some found := by
    rw [← Option.isSome_iff_exists, ToolCatalog.get, List.find?_isSome]
    exact ⟨definition, htool, decide_eq_true (by rw [hmetadata])⟩
  have hname := List.find?_some hfound
  rw [decide_eq_true_iff] at hname
  have heq : found = definition := List.inj_on_of_nodup_map catalog.names_nodup
    (List.mem_of_find?_eq_some hfound) htool (by rw [hname, hmetadata])
  exact ⟨definition, hentry, heq ▸ hfound, hmetadata⟩

/-- The manifests of a catalog have the normalized names of their tools. -/
theorem ToolManifest.normalizedName_of_create {metadata : ToolMetadata} {name : Text}
    {inputSchema outputSchema : Json} {manifest : ToolManifest}
    (h : ToolManifest.create hashing metadata name inputSchema outputSchema = some manifest) :
    manifest.normalizedName = name := by
  simp only [ToolManifest.create, Option.bind_eq_bind, Option.bind_eq_some_iff] at h
  obtain ⟨_, -, _, -, _, -, _, -, _, -, _, -, _, -, _, -, h⟩ := h
  rw [← Option.some.inj h]

/-- The manifests of a catalog have the decoded schemas of their tools. -/
theorem ToolManifest.schemas_of_create {metadata : ToolMetadata} {name : Text}
    {inputSchema outputSchema : Json} {manifest : ToolManifest}
    (h : ToolManifest.create hashing metadata name inputSchema outputSchema = some manifest) :
    decodeObject inputSchema = some manifest.inputSchema ∧
      decodeObject outputSchema = some manifest.outputSchema := by
  simp only [ToolManifest.create, Option.bind_eq_bind, Option.bind_eq_some_iff] at h
  obtain ⟨_, -, _, -, input, hinput, output, houtput, _, -, _, -, _, -, _, -, h⟩ := h
  rw [← Option.some.inj h]
  exact ⟨hinput, houtput⟩

/-- After a cutover that the gate allows, the calls of a tool are answered as
    before when the tools that can be called keep their exact names, and, as far
    as the previous surface was made by a catalog, only then. -/
theorem served_of_cutoverReady
    (h : compareMigrationSurfaces hashing depth previous current = some diff)
    (hready : diff.cutoverReady = true)
    (hsound : ∀ tool ∈ previous.tools, ∀ tool' ∈ current.tools,
      tool'.normalizedName = tool.normalizedName →
        ClassifiesSoundly hashing depth formats tool.inputSchema tool'.inputSchema .input ∧
          ClassifiesSoundly hashing depth formats tool.outputSchema tool'.outputSchema .output)
    (hcatalog : catalog.manifests = current.tools) :
    (KeepsNames formats previous current → ∀ tool ∈ previous.tools, ∀ arguments,
      Valid formats tool.inputSchema tool.inputSchema arguments →
        Served formats catalog tool arguments) ∧
    ((∀ tool ∈ previous.tools, tool.normalizedName = normalizeToolName unicode tool.metadata.name) →
      (∀ tool ∈ previous.tools, ∀ arguments,
        Valid formats tool.inputSchema tool.inputSchema arguments →
          Served formats catalog tool arguments) → KeepsNames formats previous current) := by
  refine ⟨fun hkeeps tool htool arguments hvalid => ?_, fun hnames hserved tool htool hcall tool'
    htool' hname => ?_⟩
  · obtain ⟨tool', htool', hname, d, hdiff, hbreaking⟩ := toolDiff_of_ready h hready htool
    obtain ⟨⟨input, hinput, hinput'⟩, ⟨output, houtput, houtput'⟩, hpolicy⟩ :=
      toolDiff_eq_some hdiff hbreaking
    obtain ⟨hsoundInput, hsoundOutput⟩ := hsound tool htool tool' htool' hname
    obtain ⟨definition, hentry, hget, hmetadata⟩ :=
      ToolCatalog.get_of_mem_manifests (hcatalog ▸ htool')
    rw [hkeeps tool htool ⟨arguments, hvalid⟩ tool' htool' hname] at hget
    exact ⟨definition, tool', hentry, hget, hsoundInput input hinput hinput' arguments hvalid,
      hmetadata ▸ hpolicy, fun result => hsoundOutput output houtput houtput' result⟩
  · obtain ⟨arguments, hvalid⟩ := hcall
    obtain ⟨definition, manifest, hentry, hget, -⟩ := hserved tool htool arguments hvalid
    obtain ⟨-, hmem, hmanifest⟩ := ToolCatalog.manifest_of_mem_entries hentry
    have hdefinition := List.find?_some hget
    rw [decide_eq_true_iff] at hdefinition
    have hmetadata := ToolManifest.metadata_of_create hmanifest
    -- the tool of the exact name has the normalized name, which is unique
    have heq : manifest = tool' := List.inj_on_of_nodup_map current.names_nodup (hcatalog ▸ hmem)
      htool' (by rw [ToolManifest.normalizedName_of_create hmanifest, hdefinition, hname,
        hnames tool htool])
    rw [← heq, hmetadata, hdefinition]

/-! ## A loosened tool -/

open Policy

/-- SHA-256, on the schemas of a tool with a count and of its next release as well. -/
def countedHashing : Hashing where
  writer := .plain
  sha256 document :=
    let document' (j : Json) : Text := JsonWriter.plain.render j.sorted
    let contract (schema : Members) : Text :=
      document' (.obj [(lit "input_schema", .obj schema), (lit "output_schema", emptySchema)])
    if document ∈ [document' (.obj countedSchema), document' (.obj loosenedSchema)] then
      Schema.countHashing.sha256 document
    else if document = contract countedSchema then
      ⟨lit "70097df61de956a135891a0758c74cdf6c970cc215e1cdd04fb28dcaf2319d29", by decide⟩
    else if document = contract loosenedSchema then
      ⟨lit "1746f1d419cb0293d9fc10ad98205a63f5c7699ab13eab8cb76be922db3bb6f9", by decide⟩
    else exampleHashing.sha256 document

/-- A tool with a count, of this schema. -/
def countTool (schema : Members) : ToolDefinition where
  id := 1
  metadata := { refundMetadata with name := lit "count", name_isText := by decide }
  inputSchema := .obj schema
  outputSchema := emptySchema

/-- The manifest of the tool for refunds. -/
def keptManifest : ToolManifest :=
  (refundTool.manifest countedHashing asciiTable).get (by decide +kernel)

/-- The manifest of the tool with a count. -/
def countManifest : ToolManifest :=
  ((countTool countedSchema).manifest countedHashing asciiTable).get (by decide +kernel)

/-- The manifest of its next release. -/
def loosenedManifest : ToolManifest :=
  ((countTool loosenedSchema).manifest countedHashing asciiTable).get (by decide +kernel)

/-- A surface with both tools. -/
def countSurface (manifest : ToolManifest)
    (h : [keptManifest.normalizedName, manifest.normalizedName].Nodup) : MigrationSurface where
  tools := [keptManifest, manifest]
  egress := ⟨[], by decide, by decide⟩
  routes := []
  stateless := true
  names_nodup := h
  routes_nodup := List.nodup_nil

/-- The catalog of the next release. -/
def loosenedCatalog : ToolCatalog countedHashing asciiTable where
  tools := [refundTool, countTool loosenedSchema]
  manifests := [keptManifest, loosenedManifest]
  registered := .cons (Option.some_get _).symm (.cons (Option.some_get _).symm .nil)
  names_nodup := by decide
  ids_inj := by
    intro tool htool tool' htool' hid
    simp only [List.mem_cons, List.not_mem_nil, or_false] at htool htool'
    rcases htool with rfl | rfl <;> rcases htool' with rfl | rfl
    · rfl
    · exact absurd hid (by decide)
    · exact absurd hid (by decide)
    · rfl

/-- After a cutover that loosens one of two tools, a call of it with the count 5 is
    answered as before. -/
theorem served_of_cutoverReady_example :
    Served (fun _ _ => True) loosenedCatalog countManifest (.obj [(lit "count", .int 5)]) := by
  have hready : (compareMigrationSurfaces countedHashing 20 (countSurface countManifest (by decide))
      (countSurface loosenedManifest (by decide))).any MigrationDiff.cutoverReady = true := by
    decide +kernel
  obtain ⟨diff, hdiff, hready⟩ := (Option.any_eq_true _ _).1 hready
  have hkept : refundTool.manifest countedHashing asciiTable = some keptManifest :=
    (Option.some_get _).symm
  have hcount : (countTool countedSchema).manifest countedHashing asciiTable = some countManifest :=
    (Option.some_get _).symm
  have hloosened : (countTool loosenedSchema).manifest countedHashing asciiTable =
      some loosenedManifest := (Option.some_get _).symm
  have hinput : Json.obj countedSchema = countManifest.inputSchema :=
    Option.some.inj (ToolManifest.schemas_of_create hcount).1
  have hinput' : Json.obj loosenedSchema = loosenedManifest.inputSchema :=
    Option.some.inj (ToolManifest.schemas_of_create hloosened).1
  have houtput : loosenedManifest.outputSchema = countManifest.outputSchema :=
    Option.some.inj ((ToolManifest.schemas_of_create hloosened).2.symm.trans
      (ToolManifest.schemas_of_create hcount).2)
  have hsame : loosenedManifest.normalizedName = countManifest.normalizedName :=
    (ToolManifest.normalizedName_of_create hloosened).trans
      (ToolManifest.normalizedName_of_create hcount).symm
  have hoff : keptManifest.normalizedName ≠ countManifest.normalizedName := by
    rw [ToolManifest.normalizedName_of_create hkept, ToolManifest.normalizedName_of_create hcount]
    decide
  have hname : loosenedManifest.metadata.name = countManifest.metadata.name := by
    rw [ToolManifest.metadata_of_create hloosened, ToolManifest.metadata_of_create hcount]
    rfl
  -- the tools of one normalized name are the same tool, or the two releases of the other
  have hpairs : ∀ tool ∈ [keptManifest, countManifest], ∀ tool' ∈ [keptManifest, loosenedManifest],
      tool'.normalizedName = tool.normalizedName →
        tool = keptManifest ∧ tool' = keptManifest ∨
          tool = countManifest ∧ tool' = loosenedManifest := by
    intro tool htool tool' htool' hpair
    simp only [List.mem_cons, List.not_mem_nil, or_false] at htool htool'
    rcases htool with rfl | rfl <;> rcases htool' with rfl | rfl
    · exact .inl ⟨rfl, rfl⟩
    · exact absurd (hpair.symm.trans hsame) hoff
    · exact absurd hpair hoff
    · exact .inr ⟨rfl, rfl⟩
  refine (served_of_cutoverReady hdiff hready (fun tool htool tool' htool' hpair => ?_) rfl).1
    (fun tool htool _ tool' htool' hpair => ?_) countManifest
    (List.mem_cons_of_mem _ (List.mem_singleton_self _)) (.obj [(lit "count", .int 5)])
    (hinput ▸ valid_countedSchema)
  · rcases hpairs tool htool tool' htool' hpair with ⟨rfl, rfl⟩ | ⟨rfl, rfl⟩
    · exact ⟨classifiesSoundly_of_eq rfl, classifiesSoundly_of_eq rfl⟩
    · refine ⟨fun _ _ _ j hv => ?_, classifiesSoundly_of_eq houtput⟩
      rw [← hinput] at hv
      rw [← hinput']
      exact implies_loosenedSchema j hv
  · rcases hpairs tool htool tool' htool' hpair with ⟨rfl, rfl⟩ | ⟨rfl, rfl⟩
    · rfl
    · exact hname

/-! ## A renamed tool -/

/-- A surface with one tool. -/
def toolSurface (manifest : ToolManifest) : MigrationSurface where
  tools := [manifest]
  egress := ⟨[], by decide, by decide⟩
  routes := []
  stateless := true
  names_nodup := List.nodup_singleton _
  routes_nodup := List.nodup_nil

/-- The tool for refunds, with a capital letter. -/
def capitalTool : ToolDefinition where
  id := 0
  metadata := { refundMetadata with name := lit "Refund", name_isText := by decide }
  inputSchema := emptySchema
  outputSchema := emptySchema

/-- The manifest that the renamed tool is registered with. -/
def capitalManifest : ToolManifest :=
  (capitalTool.manifest exampleHashing asciiTable).get (by decide +kernel)

/-- A catalog with the renamed tool. -/
def capitalCatalog : ToolCatalog exampleHashing asciiTable where
  tools := [capitalTool]
  manifests := [capitalManifest]
  registered := .cons (Option.some_get _).symm .nil
  names_nodup := List.nodup_singleton _
  ids_inj := by simp

/-- The tool can be called without arguments. -/
theorem valid_refundManifest :
    Valid (fun _ _ => True) refundManifest.inputSchema refundManifest.inputSchema (.obj []) := by
  have hinput : refundManifest.inputSchema = .obj [(lit "additionalProperties", .bool false),
      (lit "properties", .obj []), (lit "type", .str (lit "object"))] := by rfl
  rw [hinput, valid_obj]
  constructor
  case type =>
    intro t ht
    cases ht
    rfl
  case properties | additionalProperties =>
    intro members hj s _ m hm
    cases hj
    cases hm
  all_goals
    intros
    contradiction

/-- The gate lets a tool be renamed by the case of a letter, and a call by the
    published name, with arguments that were valid, finds no tool. -/
theorem not_served_of_cutoverReady :
    (compareMigrationSurfaces exampleHashing 20 (toolSurface refundManifest)
      (toolSurface capitalManifest)).any MigrationDiff.cutoverReady = true ∧
    capitalCatalog.manifests = (toolSurface capitalManifest).tools ∧
    ClassifiesSoundly exampleHashing 20 (fun _ _ => True) refundManifest.inputSchema
      capitalManifest.inputSchema .input ∧
    ClassifiesSoundly exampleHashing 20 (fun _ _ => True) refundManifest.outputSchema
      capitalManifest.outputSchema .output ∧
    Valid (fun _ _ => True) refundManifest.inputSchema refundManifest.inputSchema (.obj []) ∧
    ¬ Served (fun _ _ => True) capitalCatalog refundManifest (.obj []) := by
  have hsame : capitalManifest.inputSchema = refundManifest.inputSchema := by rfl
  have hsame' : capitalManifest.outputSchema = refundManifest.outputSchema := by rfl
  refine ⟨by decide +kernel, rfl, classifiesSoundly_of_eq hsame, classifiesSoundly_of_eq hsame',
    valid_refundManifest, ?_⟩
  rintro ⟨definition, -, -, hget, -⟩
  have hnone : capitalCatalog.get refundManifest.metadata.name = none := by rfl
  cases hnone.symm.trans hget

end McpRuntime
