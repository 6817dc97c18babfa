import McpRuntime.Tool.Manifest

/-!
# Route identities

The identity of the route of a server at the gateway: a digest of the tenant and
the server, and the name of the resource, the path and the scope that are made
of slugs and digests. `deriveGatewayRouteIdentity` refuses a tenant or a server
that is not canonical, and checks what it derives.
-/

namespace McpRuntime

namespace Gateway

/-! ## Patterns -/

/-- `[A-Za-z0-9](?:[inner]*[A-Za-z0-9])?`, with ends and other characters of two
    classes. -/
def isBetween (ends inner : CodePoint → Bool) (t : Text) : Bool :=
  t.head?.any ends && t.getLast?.any ends && t.all inner

/-- `[a-z0-9]`. -/
def isDnsChar (c : CodePoint) : Bool := c.isLower || c.isDigit

/-- `_TENANT_ID_PATTERN`, which is also `_DNS_LABEL`. -/
def isDnsLabel (t : Text) : Bool :=
  isBetween isDnsChar (fun c => isDnsChar c || c = 45) t && t.length ≤ 63

/-- A label of `_SERVER_NAMESPACE_PATTERN`. -/
def isNamespaceLabel (t : Text) : Bool :=
  isBetween CodePoint.isAlphanumeric (fun c => c.isAlphanumeric || c = 45) t && t.length ≤ 63

/-- `_SERVER_LEAF_PATTERN`. -/
def isServerLeaf (t : Text) : Bool :=
  isBetween CodePoint.isAlphanumeric (fun c => c.isAlphanumeric || (lit "._-").contains c) t

/-- `_SERVER_NAME_PATTERN`. -/
def isServerName (t : Text) : Bool :=
  match t.split 47 with
  | [serverNamespace, leaf] => (serverNamespace.split 46).all isNamespaceLabel && isServerLeaf leaf
  | _ => false

/-- `_VERSION_PATTERN`. -/
def isVersion (t : Text) : Bool :=
  t.head?.any CodePoint.isAlphanumeric &&
    t.all (fun c => c.isAlphanumeric || (lit "._+-").contains c) && t.length ≤ 128

/-- `_REF`, whose groups are the tenant and the server. -/
def matchesRef (ref tenantId serverName : Text) : Bool :=
  let start := lit "mcpservers/" ++ tenantId ++ 47 :: serverName ++ [64]
  start.isPrefixOf ref && isVersion (ref.drop start.length)

/-- `_DIGEST`, of the `sha256:` digests of the registry. -/
def isRegistryDigest (t : Text) : Bool :=
  (lit "sha256:").isPrefixOf t && isDigest (t.drop 7)

/-- `[a-z0-9-]+`. -/
def isSegment (t : Text) : Bool := !t.isEmpty && t.all fun c => isDnsChar c || c = 45

/-- `_ROUTE_PATH`. -/
def isRoutePath (t : Text) : Bool :=
  match t.split 47 with
  | [[], root, tenant, server] => root = lit "mcp" && isSegment tenant && isSegment server
  | _ => false

/-- `_SCOPE`. -/
def isRouteScope (t : Text) : Bool :=
  match t.split 58 with
  | [root, tenant, server] => root = lit "mcp" && isSegment tenant && isSegment server
  | _ => false

/-! ## Derivation -/

/-- `_NON_DNS.sub("-", text)`: each run of other characters is one hyphen. -/
def hyphenated : Text → Text
  | [] => []
  | c :: t =>
    if isDnsChar c then c :: hyphenated t
    else if (hyphenated t).head? = some 45 then hyphenated t
    else 45 :: hyphenated t

/-- `text or "mcp"`. -/
def orMcp (t : Text) : Text := if t.isEmpty then lit "mcp" else t

/-- `_slug`, of an ASCII text. -/
def slug (t : Text) : Text :=
  orMcp (Text.rstripChar 45 ((hyphenated (t.map CodePoint.asciiLower)).dropWhile (· = 45)))

/-- `_dns_identity`. -/
def dnsIdentity (t digest : Text) : Text :=
  orMcp (Text.rstripChar 45 ((slug t).take 46)) ++ 45 :: digest.take 16

/-- `_digest`. -/
def domainDigest (hashing : Hashing) (domain t : Text) : Text :=
  (hashing.sha256 (domain ++ 0 :: t)).text

/-- The identity of a route, derived only from trusted registry identity. -/
structure GatewayRouteIdentity where
  tenantId : Text
  serverName : Text
  identityDigest : Text
  resourceName : Text
  routePath : Text
  scope : Text
  deriving DecidableEq

/-- The constraints on the fields of an identity. -/
def GatewayRouteIdentity.isValid (route : GatewayRouteIdentity) : Bool :=
  isDnsLabel route.tenantId && isServerName route.serverName && 3 ≤ route.serverName.length &&
    route.serverName.length ≤ 200 && isRegistryDigest route.identityDigest &&
    isDnsLabel route.resourceName && isRoutePath route.routePath &&
    route.routePath.length ≤ 132 && isRouteScope route.scope && route.scope.length ≤ 131

/-- `_derived_route_values`, as an identity. -/
def derivedRouteValues (hashing : Hashing) (tenantId serverName : Text) : GatewayRouteIdentity :=
  let identityHash := domainDigest hashing (lit "gateway-route-v1") (tenantId ++ 0 :: serverName)
  let tenantSegment := dnsIdentity tenantId (domainDigest hashing (lit "gateway-tenant-v1") tenantId)
  let serverSegment :=
    dnsIdentity serverName (domainDigest hashing (lit "gateway-server-v1") serverName)
  { tenantId
    serverName
    identityDigest := lit "sha256:" ++ identityHash
    resourceName := dnsIdentity (lit "mcp-" ++ tenantId ++ 45 :: serverName) identityHash
    routePath := lit "/mcp/" ++ tenantSegment ++ 47 :: serverSegment
    scope := lit "mcp:" ++ tenantSegment ++ 58 :: serverSegment }

/-- `derive_gateway_route_identity`, which raises `ValueError` for a tenant or a
    server that is not canonical, and for an identity with a field that is not
    valid. -/
def deriveGatewayRouteIdentity (hashing : Hashing) (tenantId serverName : Text) :
    Option GatewayRouteIdentity :=
  if isDnsLabel tenantId && isServerName serverName then
    let route := derivedRouteValues hashing tenantId serverName
    if route.isValid then some route else none
  else none

end Gateway

end McpRuntime
