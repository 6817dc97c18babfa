import McpRuntime.Python.Dict
import McpRuntime.Python.Except
import McpRuntime.Python.JsonEquality
import McpRuntime.Tool.Manifest

/-!
# Validation of tool schemas

`validate_schema`: the check of a tool schema against the bounded subset of JSON
Schema, at registration. The check descends through the subschemas; it counts
the nodes, and it remembers at which depth a definition was validated, so that a
definition is validated again only where it stands deeper.

A depth is given by the `room` below it: how many more levels the policy leaves.
-/

namespace McpRuntime

/-- The members of a mapping. -/
abbrev Members := List (Text × Json)

/-- A definition that the policy does not accept. -/
structure ContractViolation where
  code : Text
  path : Text
  deriving DecidableEq

/-- What `validate_schema` raises. -/
inductive SchemaError
  | violation (violation : ContractViolation)
  /-- `OverflowError`, of `math.isfinite`. -/
  | overflowError
  deriving DecidableEq

/-- Registration limits for the supported closed JSON Schema subset. -/
structure SchemaPolicy where
  maxSchemaBytes : ℕ := 65536
  maxDepth : ℕ := 16
  maxProperties : ℕ := 128
  maxStringLength : ℕ := 65536
  maxArrayItems : ℕ := 1024
  maxDefinitions : ℕ := 128
  maxSchemaNodes : ℕ := 4096
  maxUnionVariants : ℕ := 16
  /-- `_SCHEMA_POLICY_MAXIMA`. -/
  inBounds : ∀ limit ∈ [(maxSchemaBytes, 262144), (maxDepth, 32), (maxProperties, 256),
    (maxStringLength, 65536), (maxArrayItems, 4096), (maxDefinitions, 256),
    (maxSchemaNodes, 16384), (maxUnionVariants, 64)], 1 ≤ limit.1 ∧ limit.1 ≤ limit.2 := by decide

/-- `_COMMON_SCHEMA_KEYWORDS`. -/
def commonSchemaKeywords : List Text :=
  [lit "$comment", lit "$ref", lit "anyOf", lit "const", lit "default", lit "description",
    lit "enum", lit "examples", lit "title", lit "type"]

/-- The keywords of the numeric types. -/
def numericKeywords : List Text :=
  [lit "exclusiveMaximum", lit "exclusiveMinimum", lit "maximum", lit "minimum", lit "multipleOf"]

/-- `_SCHEMA_KEYWORDS_BY_TYPE`, whose keys are `_SCHEMA_TYPES`. -/
def schemaKeywordsByType : List (Text × List Text) :=
  [(lit "array", [lit "items", lit "maxItems", lit "minItems", lit "uniqueItems"]),
    (lit "boolean", []), (lit "integer", numericKeywords), (lit "null", []),
    (lit "number", numericKeywords),
    (lit "object", [lit "additionalProperties", lit "maxProperties", lit "minProperties",
      lit "propertyNames", lit "properties", lit "required"]),
    (lit "string", [lit "format", lit "maxLength", lit "minLength"])]

/-- `_ROOT_SCHEMA_KEYWORDS`. -/
def rootSchemaKeywords : List Text := [lit "$defs", lit "$id", lit "$schema"]

/-- The keywords of a type, unless the value is no type of a schema. -/
def typeKeywords : Json → Option (List Text)
  | .str t => schemaKeywordsByType.lookup t
  | _ => none

/-- `_DEFINITION_NAME`. -/
def isDefinitionName : Text → Bool :=
  matchesName (fun c => (c.isAlphanumeric && !c.isDigit) || (lit "_").contains c)
    (fun c => c.isAlphanumeric || (lit "_.-").contains c) 128

/-- `_LOCAL_DEFINITION_PREFIX`. -/
def localDefinitionPrefix : Text := lit "#/$defs/"

/-- `_is_non_negative_integer`. -/
def nonNegativeInteger : Json → Option ℕ
  | .int n => if 0 ≤ n then some n.toNat else none
  | _ => none

/-- `_SchemaValidationState`. -/
structure SchemaValidationState where
  nodes : ℕ := 0
  definitionDepths : Dict Text ℕ := ∅

section

variable (policy : SchemaPolicy) (definitions : Members) (rootPath : Text)

/-- The depth of a node with `room` levels from it on. -/
def depthOf (room : ℕ) : ℕ := policy.maxDepth + 1 - room

/-- Whether a value has the type that the `enum` of a node is declared with. -/
def enumValueHasType (schemaType : Text) : Json → Bool
  | .null => schemaType = lit "null"
  | .str _ => schemaType = lit "string"
  | .bool _ => schemaType = lit "boolean"
  | .int _ => schemaType = lit "integer" || schemaType = lit "number"
  | .float x => schemaType = lit "number" && x.isFinite
  | _ => false

/-- `math.isfinite` raises for an integer of a number type that no float is near. -/
def enumValueOverflows (schemaType : Text) : Json → Bool
  | .int n => schemaType = lit "number" && (PyFloat.finite n).overflows
  | _ => false

/-- The checks of the values of an `enum`, in turn. -/
def validateEnumValues (schemaType path : Text) (index : ℕ) : List Json → Except SchemaError Unit
  | [] => pure ()
  | value :: values =>
    if enumValueOverflows schemaType value then throw .overflowError
    else if !enumValueHasType schemaType value then
      throw (.violation ⟨lit "invalid_schema", path ++ lit ".enum[" ++ natText index ++ lit "]"⟩)
    else validateEnumValues schemaType path (index + 1) values

/-- `_validate_enum`. -/
def validateEnum (schemaType : Text) (schema : Members) (path : Text) :
    Except SchemaError Unit :=
  match Json.pyGet (lit "enum") schema with
  | .null => pure ()
  | .arr values =>
    if values.isEmpty || values.length > policy.maxProperties then
      throw (.violation ⟨lit "invalid_schema", path ++ lit ".enum"⟩)
    else validateEnumValues schemaType path 0 values
  | _ => throw (.violation ⟨lit "invalid_schema", path ++ lit ".enum"⟩)

/-- The limit under a key, which has to be there and not above `maximum`. -/
def validateLimit (value : Json) (unbounded : Text) (maximum : ℕ) (path : Text) :
    Except SchemaError Unit :=
  match nonNegativeInteger value with
  | none => throw (.violation ⟨unbounded, path⟩)
  | some n =>
    if n > maximum then throw (.violation ⟨lit "schema_limit_exceeded", path⟩) else pure ()

/-- `_validate_property_names`. -/
def validatePropertyNames (value : Json) (path : Text) : Except SchemaError Unit :=
  match value with
  | .obj names =>
    if names.any fun m => !([lit "maxLength", lit "minLength"].contains m.1) then
      throw (.violation ⟨lit "invalid_schema", path ++ lit ".propertyNames"⟩)
    else
      validateLimit (Json.pyGet (lit "maxLength") names) (lit "unbounded_string_schema")
        policy.maxStringLength (path ++ lit ".propertyNames.maxLength")
  | _ => throw (.violation ⟨lit "invalid_schema", path ++ lit ".propertyNames"⟩)

/-- The check of the names that an object requires, of which `seen` came
    before. -/
def validateRequired (properties : Members) (path : Text) (seen : List Text) :
    List Json → Except SchemaError Unit
  | [] => pure ()
  | .str name :: required =>
    if (Json.get name properties).isNone || seen.contains name then
      throw (.violation ⟨lit "invalid_object_schema",
        path ++ lit ".required[" ++ natText seen.length ++ lit "]"⟩)
    else validateRequired properties path (seen ++ [name]) required
  | _ :: _ =>
    throw (.violation ⟨lit "invalid_object_schema",
      path ++ lit ".required[" ++ natText seen.length ++ lit "]"⟩)

/-- A check of a node, which counts nodes. -/
abbrev NodeCheck := Json → Text → SchemaValidationState →
  Except SchemaError SchemaValidationState

/-- The checks of the items of a list of subschemas, in turn. -/
def validateVariants (check : NodeCheck) (path : Text) (index : ℕ) :
    List Json → SchemaValidationState → Except SchemaError SchemaValidationState
  | [], state => pure state
  | variant :: variants, state => do
    let state ← check variant (path ++ lit ".anyOf[" ++ natText index ++ lit "]") state
    validateVariants check path (index + 1) variants state

/-- The checks of the subschemas of properties, in turn. -/
def validateProperties (check : NodeCheck) (path : Text) :
    Members → SchemaValidationState → Except SchemaError SchemaValidationState
  | [], state => pure state
  | (name, child) :: properties, state => do
    let state ← check child (path ++ lit ".properties." ++ name) state
    validateProperties check path properties state

/-- `_validate_object_schema`: either a mapping, whose values have one schema, or
    a closed object. -/
def validateObjectSchema (check : NodeCheck) (schema : Members) (path : Text)
    (state : SchemaValidationState) : Except SchemaError SchemaValidationState := do
  let propertiesValue := Json.pyGet (lit "properties") schema
  let additional := Json.pyGet (lit "additionalProperties") schema
  match propertiesValue, additional with
  | .null, .obj _ =>
    validateLimit (Json.pyGet (lit "maxProperties") schema) (lit "unbounded_object_schema")
      policy.maxProperties (path ++ lit ".maxProperties")
    validatePropertyNames policy (Json.pyGet (lit "propertyNames") schema) path
    check additional (path ++ lit ".additionalProperties") state
  | _, .bool false =>
    match (match propertiesValue with | .null => .obj [] | value => value : Json) with
    | .obj properties =>
      if properties.length > policy.maxProperties then
        throw (.violation ⟨lit "schema_limit_exceeded", path ++ lit ".properties"⟩)
      else
        match (Json.get (lit "required") schema).getD (.arr []) with
        | .arr required =>
          validateRequired properties path [] required
          validateProperties check path properties state
        | _ => throw (.violation ⟨lit "invalid_object_schema", path ++ lit ".required"⟩)
    | _ => throw (.violation ⟨lit "invalid_object_schema", path ++ lit ".properties"⟩)
  | _, _ => throw (.violation ⟨lit "open_object_schema", path ++ lit ".additionalProperties"⟩)

/-- The check of the keywords of a type. -/
def validateTyped (check : NodeCheck) (schemaType : Text) (schema : Members) (path : Text)
    (state : SchemaValidationState) : Except SchemaError SchemaValidationState :=
  if schemaType = lit "object" then validateObjectSchema policy check schema path state
  else if schemaType = lit "string" then do
    let maxLength := match Json.pyGet (lit "maxLength") schema, Json.pyGet (lit "enum") schema with
      | .null, .arr (value :: values) => .int (((value :: values).map fun
          | .str t => t.length
          | _ => 0).foldr max 0 : ℕ)
      | maxLength, _ => maxLength
    validateLimit maxLength (lit "unbounded_string_schema") policy.maxStringLength
      (path ++ lit ".maxLength")
    pure state
  else if schemaType = lit "array" then do
    validateLimit (Json.pyGet (lit "maxItems") schema) (lit "unbounded_array_schema")
      policy.maxArrayItems (path ++ lit ".maxItems")
    check (Json.pyGet (lit "items") schema) (path ++ lit ".items") state
  else pure state

/-- `_validate_definition`, with the check of the nodes with `room` levels. -/
def validateDefinition (check : List Text → NodeCheck) (room : ℕ) (stack : List Text)
    (name path : Text) (state : SchemaValidationState) :
    Except SchemaError SchemaValidationState :=
  match Json.get name definitions with
  | none => throw (.violation ⟨lit "invalid_schema_reference", path⟩)
  | some definition =>
    if !isDefinitionName name then throw (.violation ⟨lit "invalid_schema_reference", path⟩)
    else if stack.contains name then throw (.violation ⟨lit "recursive_schema", path⟩)
    else if ((AList.lookup name state.definitionDepths).any fun depth => depth ≥ depthOf policy room) then
      pure state
    else
      check (stack ++ [name]) definition (rootPath ++ lit ".$defs." ++ name)
        { state with
          definitionDepths := AList.insert name (depthOf policy room) state.definitionDepths }

/-- The keywords of a node that its type does not support. -/
def unsupportedKeywords (root : Bool) (schema : Members) : List Text :=
  (schema.map Prod.fst).filter fun keyword =>
    !commonSchemaKeywords.contains keyword &&
      !((typeKeywords (Json.pyGet (lit "type") schema)).getD []).contains keyword &&
        !(root && rootSchemaKeywords.contains keyword)

/-- The check of the variants of a node. -/
def validateAnyOf (check : NodeCheck) (schema : Members) (path : Text)
    (state : SchemaValidationState) : Except SchemaError SchemaValidationState :=
  match Json.pyGet (lit "anyOf") schema with
  | .null => pure state
  | .arr variants =>
    if variants.length < 2 then throw (.violation ⟨lit "invalid_schema", path ++ lit ".anyOf"⟩)
    else if variants.length > policy.maxUnionVariants then
      throw (.violation ⟨lit "schema_limit_exceeded", path ++ lit ".anyOf"⟩)
    else validateVariants check path 0 variants state
  | _ => throw (.violation ⟨lit "invalid_schema", path ++ lit ".anyOf"⟩)

/-- The check of the reference of a node. -/
def validateReference (check : List Text → NodeCheck) (room : ℕ) (stack : List Text)
    (schema : Members) (path : Text) (state : SchemaValidationState) :
    Except SchemaError SchemaValidationState :=
  match Json.pyGet (lit "$ref") schema with
  | .null => pure state
  | .str reference =>
    if localDefinitionPrefix.isPrefixOf reference then
      validateDefinition policy definitions rootPath check room stack
        (reference.drop localDefinitionPrefix.length) (path ++ lit ".$ref") state
    else throw (.violation ⟨lit "unsupported_schema_reference", path ++ lit ".$ref"⟩)
  | _ => throw (.violation ⟨lit "unsupported_schema_reference", path ++ lit ".$ref"⟩)

/-- The check of the type of a node, which only a union or a reference need not
    have. -/
def validateType (check : NodeCheck) (root : Bool) (schema : Members) (path : Text)
    (state : SchemaValidationState) : Except SchemaError SchemaValidationState :=
  match Json.pyGet (lit "type") schema with
  | .null =>
    match Json.pyGet (lit "anyOf") schema, Json.pyGet (lit "$ref") schema with
    | .null, .null => throw (.violation ⟨lit "invalid_schema", path ++ lit ".type"⟩)
    | _, _ => pure state
  | .str schemaType =>
    if (typeKeywords (.str schemaType)).isNone then
      throw (.violation ⟨lit "unsupported_schema_type", path ++ lit ".type"⟩)
    else if root && schemaType != lit "object" then
      throw (.violation ⟨lit "invalid_object_schema", path⟩)
    else do
      validateEnum policy schemaType schema path
      validateTyped policy check schemaType schema path state
  | _ => throw (.violation ⟨lit "unsupported_schema_type", path ++ lit ".type"⟩)

/-- `_validate_schema_value`, of a node with `room` levels. -/
def validateSchemaValue : ℕ → Bool → List Text → NodeCheck
  | 0, _, _, .obj _, path, _ => throw (.violation ⟨lit "schema_limit_exceeded", path⟩)
  | room + 1, root, stack, .obj schema, path, state =>
    if state.nodes + 1 > policy.maxSchemaNodes then
      throw (.violation ⟨lit "schema_limit_exceeded", path⟩)
    else
      match (unsupportedKeywords root schema).min? with
      | some keyword =>
        throw (.violation ⟨lit "unsupported_schema_keyword", path ++ lit "." ++ keyword⟩)
      | none => do
        let check := validateSchemaValue room false
        let state ← validateAnyOf policy (check stack) schema path
          { state with nodes := state.nodes + 1 }
        let state ← validateReference policy definitions rootPath check room stack schema path state
        validateType policy (check stack) root schema path state
  | _, _, _, _, path, _ => throw (.violation ⟨lit "invalid_schema", path⟩)

/-- The checks of the definitions that no reference has led to. -/
def validateDefinitions : List Text → SchemaValidationState →
    Except SchemaError SchemaValidationState
  | [], state => pure state
  | name :: names, state =>
    if (AList.lookup name state.definitionDepths).isSome then validateDefinitions names state
    else do
      let room := policy.maxDepth - 1
      let check := validateSchemaValue policy definitions rootPath room false
      let state ← validateDefinition policy definitions rootPath check room [] name
        (rootPath ++ lit ".$defs." ++ name) state
      validateDefinitions names state

end

/-- `validate_schema`. -/
def validateSchema (writer : JsonWriter) (policy : SchemaPolicy) (schema : Json) (path : Text) :
    Except SchemaError Unit :=
  match schema with
  | .obj members =>
    match writer.dumps schema with
    | none => throw (.violation ⟨lit "invalid_schema", path⟩)
    | some encoded =>
      if ¬ encoded.Encodable then throw (.violation ⟨lit "invalid_schema", path⟩)
      else if encoded.utf8Length > policy.maxSchemaBytes then
        throw (.violation ⟨lit "schema_limit_exceeded", path⟩)
      else
        match (Json.get (lit "$defs") members).getD (.obj []) with
        | .obj definitions =>
          if definitions.length > policy.maxDefinitions then
            throw (.violation ⟨lit "schema_limit_exceeded", path ++ lit ".$defs"⟩)
          else if definitions.any fun m => !isDefinitionName m.1 then
            throw (.violation ⟨lit "invalid_schema", path ++ lit ".$defs"⟩)
          else do
            let state ← validateSchemaValue policy definitions path policy.maxDepth true [] schema
              path {}
            let _ ← validateDefinitions policy definitions path (definitions.map Prod.fst) state
            pure ()
        | _ => throw (.violation ⟨lit "invalid_schema", path ++ lit ".$defs"⟩)
  | _ => throw (.violation ⟨lit "invalid_schema", path⟩)

end McpRuntime
