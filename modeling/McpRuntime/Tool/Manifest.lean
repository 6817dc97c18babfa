import McpRuntime.Contracts
import McpRuntime.Python.CanonicalJson
import Mathlib.Data.List.Nodup

/-!
# Manifests

The snapshot of the public metadata and the schemas of a registered tool, and
the fingerprints of canonical JSON: the SHA-256 digests of its text in UTF-8.

* `Hashing.same_of_fingerprint`: values with the same fingerprint are equal as
  JSON, unless their two documents collide.
-/

namespace McpRuntime

/-- `_DIGEST`: a lowercase SHA-256 digest. -/
def isDigest (t : Text) : Bool :=
  t.length = 64 && t.all fun c => c.isDigit || (97 ≤ c.val && c.val ≤ 102)

theorem isDigest_zeros : isDigest (List.replicate 64 48) := by decide

theorem isDigest_ones : isDigest (List.replicate 64 49) := by decide

/-- A lowercase SHA-256 digest. -/
@[ext]
structure Digest where
  text : Text
  isDigest : isDigest text
  deriving DecidableEq

/-- What fingerprints are made with. -/
structure Hashing where
  writer : JsonWriter
  /-- `hashlib.sha256(document.encode("utf-8")).hexdigest()`. -/
  sha256 : Text → Digest

namespace Hashing

variable (hashing : Hashing)

/-- `digest_text`, which raises `UnicodeEncodeError` for a text that UTF-8 cannot
    encode. -/
def digest (document : Text) : Option Text :=
  if document.Encodable then some (hashing.sha256 document).text else none

/-- `schema_fingerprint` and `_canonical_fingerprint`, which raise `ValueError`
    when there is no canonical text or when UTF-8 cannot encode it. -/
def fingerprint (value : Json) : Option Text := do
  hashing.digest (← hashing.writer.dumps value)

/-- SHA-256 does not collide on the canonical documents of two values. -/
def NoCollision (a b : Json) : Prop :=
  ∀ s t, hashing.writer.dumps a = some s → hashing.writer.dumps b = some t →
    hashing.sha256 s = hashing.sha256 t → s = t

variable {hashing}

theorem NoCollision.refl (a : Json) : hashing.NoCollision a a :=
  fun _ _ hs ht _ => Option.some.inj (hs.symm.trans ht)

/-- Documents with different digests do not collide. -/
theorem noCollision_of_ne {a b : Json}
    (h : (hashing.writer.dumps a).map hashing.sha256 ≠ (hashing.writer.dumps b).map hashing.sha256) :
    hashing.NoCollision a b := by
  intro s t hs ht heq
  rw [hs, ht, Option.map_some, Option.map_some, heq] at h
  exact absurd rfl h

/-- A text that has a digest has this digest. -/
theorem sha256_of_digest {document digest : Text} (h : hashing.digest document = some digest) :
    (hashing.sha256 document).text = digest := by
  rw [Hashing.digest] at h
  split_ifs at h
  exact Option.some.inj h

/-- Values with the same fingerprint are equal as JSON, unless their documents
    collide. -/
theorem same_of_fingerprint {a b : Json} {digest : Text} (ha : hashing.fingerprint a = some digest)
    (hb : hashing.fingerprint b = some digest) (hcollision : hashing.NoCollision a b) :
    a.Same b := by
  obtain ⟨s, hs, ha⟩ := Option.bind_eq_some_iff.1 ha
  obtain ⟨t, ht, hb⟩ := Option.bind_eq_some_iff.1 hb
  have hdigest : hashing.sha256 s = hashing.sha256 t :=
    Digest.ext ((sha256_of_digest ha).trans (sha256_of_digest hb).symm)
  exact JsonWriter.same_of_dumps hs (hcollision s t hs ht hdigest ▸ ht)

end Hashing

/-- Snapshot of the schemas and the public metadata of a tool. A schema is kept
    as its canonical text, which is decoded to the schema with its members in
    order. -/
structure ToolManifest where
  metadata : ToolMetadata
  normalizedName : Text
  inputSchema : Json
  outputSchema : Json
  inputFingerprint : Text
  outputFingerprint : Text
  contractFingerprint : Text

namespace ToolManifest

/-- `_decode_object`, of the canonical text of a value, which is decoded to the
    value with its members in order. -/
def decodeObject (value : Json) : Option Json :=
  match value with
  | .obj _ => some value.sorted
  | _ => none

/-- `ToolManifest.__init__`, which raises `ValueError` when a schema is no
    object, has no canonical text or has one that UTF-8 cannot encode. -/
def create (hashing : Hashing) (metadata : ToolMetadata) (normalizedName : Text)
    (inputSchema outputSchema : Json) : Option ToolManifest := do
  let inputDocument ← hashing.writer.dumps inputSchema
  let outputDocument ← hashing.writer.dumps outputSchema
  let input ← decodeObject inputSchema
  let output ← decodeObject outputSchema
  let contractDocument ← hashing.writer.dumps
    (.obj [(lit "input_schema", input), (lit "output_schema", output)])
  some {
    metadata
    normalizedName
    inputSchema := input
    outputSchema := output
    inputFingerprint := ← hashing.digest inputDocument
    outputFingerprint := ← hashing.digest outputDocument
    contractFingerprint := ← hashing.digest contractDocument }

/-- `ToolManifest.to_dict`. -/
def toDict (manifest : ToolManifest) : Json :=
  .obj [(lit "metadata", manifest.metadata.toDict),
    (lit "normalized_name", .str manifest.normalizedName),
    (lit "input_schema", manifest.inputSchema), (lit "output_schema", manifest.outputSchema),
    (lit "fingerprints", .obj [(lit "input", .str manifest.inputFingerprint),
      (lit "output", .str manifest.outputFingerprint),
      (lit "contract", .str manifest.contractFingerprint)])]

/-- The metadata of a manifest is the metadata it was made of. -/
theorem metadata_of_create {hashing : Hashing} {metadata : ToolMetadata} {normalizedName : Text}
    {inputSchema outputSchema : Json} {manifest : ToolManifest}
    (h : create hashing metadata normalizedName inputSchema outputSchema = some manifest) :
    manifest.metadata = metadata := by
  simp only [create, Option.bind_eq_bind, Option.bind_eq_some_iff] at h
  obtain ⟨_, -, _, -, _, -, _, -, _, -, _, -, _, -, _, -, h⟩ := h
  rw [← Option.some.inj h]

end ToolManifest

/-! ## The catalog -/

/-- A tool definition: the object (its `id`), with its metadata and schemas. -/
structure ToolDefinition where
  id : ℕ
  metadata : ToolMetadata
  inputSchema : Json
  outputSchema : Json

/-- `normalize_tool_name`. -/
def normalizeToolName (unicode : UnicodeTable) (name : Text) : Text := name.casefold unicode

/-- The manifest that a definition is registered with. -/
def ToolDefinition.manifest (hashing : Hashing) (unicode : UnicodeTable) (tool : ToolDefinition) :
    Option ToolManifest :=
  ToolManifest.create hashing tool.metadata (normalizeToolName unicode tool.metadata.name) tool.inputSchema
    tool.outputSchema

/-- Validated set of exposed tool definitions, each with its manifest. No two
    of them have the same name under the portable normalization, and two
    definitions with the same `id` are one object. -/
structure ToolCatalog (hashing : Hashing) (unicode : UnicodeTable) where
  tools : List ToolDefinition
  manifests : List ToolManifest
  registered :
    tools.Forall₂ (fun tool manifest => tool.manifest hashing unicode = some manifest) manifests
  names_nodup : (tools.map fun tool => normalizeToolName unicode tool.metadata.name).Nodup
  ids_inj : ∀ tool ∈ tools, ∀ tool' ∈ tools, tool.id = tool'.id → tool = tool'

namespace ToolCatalog

variable {hashing : Hashing} {unicode : UnicodeTable} (catalog : ToolCatalog hashing unicode)

/-- `ToolCatalog.get`. -/
def get (name : Text) : Option ToolDefinition :=
  catalog.tools.find? fun tool => tool.metadata.name = name

/-- The definitions with their manifests. -/
def entries : List (ToolDefinition × ToolManifest) := catalog.tools.zip catalog.manifests

variable {catalog}

/-- A definition with its manifest is registered, and the manifest is made of
    it. -/
theorem manifest_of_mem_entries {tool : ToolDefinition} {manifest : ToolManifest}
    (h : (tool, manifest) ∈ catalog.entries) :
    tool ∈ catalog.tools ∧ manifest ∈ catalog.manifests ∧
      tool.manifest hashing unicode = some manifest :=
  ⟨(List.of_mem_zip h).1, (List.of_mem_zip h).2, List.forall₂_zip catalog.registered h⟩

/-- The manifests of the catalog have the metadata of its definitions. -/
theorem map_metadata (catalog : ToolCatalog hashing unicode) :
    catalog.manifests.map ToolManifest.metadata = catalog.tools.map ToolDefinition.metadata := by
  have hreg := catalog.registered
  generalize catalog.tools = tools at hreg ⊢
  generalize catalog.manifests = manifests at hreg ⊢
  induction hreg with
  | nil => rfl
  | cons h _ ih => rw [List.map_cons, List.map_cons, ih, ToolManifest.metadata_of_create h]

/-- The names of the manifests are distinct. -/
theorem manifestNames_nodup (catalog : ToolCatalog hashing unicode) :
    (catalog.manifests.map fun manifest => manifest.metadata.name).Nodup := by
  have hnames := catalog.names_nodup
  have hmap : catalog.tools.map (fun tool => normalizeToolName unicode tool.metadata.name) =
      (catalog.manifests.map ToolManifest.metadata).map
        fun metadata => normalizeToolName unicode metadata.name := by
    rw [map_metadata, List.map_map]
    rfl
  rw [hmap, List.map_map] at hnames
  exact List.Nodup.of_map (normalizeToolName unicode) (by rwa [List.map_map])

end ToolCatalog

end McpRuntime
