import McpRuntime.Gateway.KeySet
import McpRuntime.Errors
import McpRuntime.Python.Except
import McpRuntime.Python.IpAddress

/-!
# The identity of a request

A gateway forwards a request with a token that it has signed. `create` makes the context
of a call from the token and from headers of the request that agree with it, or else
rejects the request with an error that carries nothing but a request id.

The decoding and verification of tokens (`JWT`), the lookup of a key, the clocks and the
factory of request ids are not the provider's own.

* `create_closed_iff`: `create` returns a context, raises the error or is cancelled,
  unless a trusted peer sends a request id that the check of headers accepts and that of
  the error does not.
-/

namespace McpRuntime.Gateway

/-! ## Checked text -/

/-- The check of `_require_text`, which refuses the character `DEL` too. -/
def IsVisibleText (maximum : ℕ) (t : Text) : Prop := IsText maximum t ∧ 127 ∉ t

instance (maximum : ℕ) (t : Text) : Decidable (IsVisibleText maximum t) :=
  inferInstanceAs (Decidable (_ ∧ _))

/-- `_require_text`. -/
def requireText (maximum : ℕ) (t : Text) : Except PyException Text :=
  if IsVisibleText maximum t then .ok t else .error .valueError

/-- `_IdentityRejected`. -/
def identityRejected : PyException := ⟨.other, lit "_IdentityRejected"⟩

/-- A value that is there; otherwise the request is rejected. -/
def orRejected {α : Type} : Option α → Except PyException α
  | some value => .ok value
  | none => .error identityRejected

/-- `HTTPRequestAuthenticationError`, whose request id is visible. -/
structure HTTPRequestAuthenticationError where
  requestId : Text
  isVisible : IsVisibleText 256 requestId

/-- How `create` fails. -/
inductive CreateError
  | authentication (error : HTTPRequestAuthenticationError)
  /-- Any other exception. -/
  | raised (error : PyException)

/-- `raise HTTPRequestAuthenticationError(request_id=...)`, whose constructor raises
    `ValueError` for a request id that is not visible. -/
def raiseAuthentication (requestId : Text) : CreateError :=
  if h : IsVisibleText 256 requestId then .authentication ⟨requestId, h⟩ else .raised .valueError

/-! ## Requests -/

/-- The metadata of a request that `create` reads. -/
structure HTTPRequestMetadata where
  headers : List (Text × Text)
  peerHost : Option Text := none

/-- What a provider is configured with; the networks are those of the
    `trusted_proxy_cidrs`. -/
structure IdentityConfig extends GatewayIdentityConfig where
  issuer : Text
  tenantClaim : Text
  clockSkewSeconds : ℚ := 30
  maxTokenLifetimeSeconds : ℚ := 3600
  requestTimeoutSeconds : ℚ := 30
  trustedNetworks : List IpNetwork
  issuer_isVisible : IsVisibleText 2048 issuer

/-- What `jwt` does, for the algorithm, the issuer and the audience of a provider, unless it
    raises. -/
structure JWT (K : Type) where
  getUnverifiedHeader : Text → Option (List (Text × Json))
  /-- The claims of a token with the required ones, whose signature is that of the key. -/
  decode : Text → K → Option (List (Text × Json))

/-- What a call of `create` meets. -/
structure IdentityEnv (K : Type) where
  /-- `request_id_factory()`, unless it raises or returns what is no text. -/
  factory : Option Text
  /-- `secrets.token_hex(16)`. -/
  token : { t : Text // t.length = 32 ∧ t.all fun c => c.isDigit || (97 ≤ c.val && c.val ≤ 102) }
  /-- `_key`, which awaits, and may be cancelled. -/
  lookup : Text → Except PyException K
  /-- The readings of the clocks, unless they raise. -/
  wallClock : Option PyFloat
  cacheClock : Option PyFloat
  /-- The log of a trace context that is refused is emitted, or there is no log. -/
  logs : Bool

section
variable (unicode : UnicodeTable) (request : HTTPRequestMetadata)

/-- `header_values`. -/
def HTTPRequestMetadata.headerValues (name : Text) : List Text :=
  (request.headers.filter fun header => header.1.casefold unicode = name.casefold unicode).map
    Prod.snd

/-- `_optional_header`. -/
def optionalHeader (name : Text) : Except PyException (Option Text) :=
  match request.headerValues unicode name with
  | [] => .ok none
  | [value] => (requireText 512 value).map some
  | _ => .error identityRejected

/-- `_agree`. -/
def agree (name expected : Text) : Except PyException Unit := do
  let supplied ← optionalHeader unicode request name
  if ∃ value ∈ supplied, value ≠ expected then throw identityRejected

/-- `_bearer_token`. -/
def bearerToken : Except PyException Text :=
  match request.headerValues unicode (lit "authorization") with
  | [value] =>
    match value.partition 32 with
    | (scheme, some encoded) =>
      if scheme.casefold unicode ≠ lit "bearer" ∨ encoded = [] then .error identityRejected
      else if 16384 < encoded.length ∨ encoded ≠ encoded.strip ∨ encoded.count 46 ≠ 2 then
        .error identityRejected
      else .ok encoded
    | (_, none) => .error identityRejected
  | _ => .error identityRejected

/-- `_trusted_peer`. -/
def trustedPeer (config : IdentityConfig) : Bool :=
  match request.peerHost.bind IpAddress.parse with
  | some address => config.trustedNetworks.any fun network => network.contains address
  | none => false

end

/-- `_new_request_id`. -/
def newRequestId {K : Type} (env : IdentityEnv K) : Text :=
  match env.factory with
  | some value => if IsVisibleText 256 value then value else env.token
  | none => env.token

/-! ## Claims -/

section
variable (claims : List (Text × Json))

/-- `claims.get(name)`, where `null` is like no claim. -/
def claim (name : Text) : Option Json :=
  match Json.get name claims with
  | some .null => none
  | value => value

/-- `_numeric_date`, where an `int` is converted. -/
def numericDate (rnd : Rounding) : Option Json → Except PyException PyFloat
  | some (.int n) =>
    if (PyFloat.finite n).overflows then .error .overflowError else .ok (rnd n)
  | some (.float x) => if x.isFinite then .ok x else .error identityRejected
  | _ => .error identityRejected

/-- `_validate_times`. -/
def validateTimes (config : IdentityConfig) (rnd : Rounding) (wallClock : Option PyFloat) :
    Except PyException Unit := do
  let issued ← numericDate rnd (claim claims (lit "iat"))
  let notBefore ← numericDate rnd (claim claims (lit "nbf"))
  let expires ← numericDate rnd (claim claims (lit "exp"))
  let now ← orRejected wallClock
  if now.overflows then throw .overflowError
  if now.isFinite = false then throw identityRejected
  let skew := PyFloat.finite config.clockSkewSeconds
  let latest := PyFloat.add rnd now skew
  if latest.lt issued ∨ latest.lt notBefore ∨ expires.le (PyFloat.sub rnd now skew) then
    throw identityRejected
  if expires.le issued ∨
      (PyFloat.finite config.maxTokenLifetimeSeconds).lt (PyFloat.sub rnd expires issued) then
    throw identityRejected

/-- The scopes of a claim: words, or the items of a list of texts. -/
def scopeTexts : Json → Except PyException (List Text)
  | .str t => .ok t.words
  | .arr items => orRejected (items.mapM fun item =>
      match item with
      | .str t => some t
      | _ => none)
  | _ => .error identityRejected

/-- `_scope_values`. -/
def scopeValues (value : Json) : Except PyException (List Text) := do
  let values ← scopeTexts value
  if ∃ item ∈ values, ¬ IsVisibleText 256 item then throw identityRejected
  return values

/-- `_scopes`. -/
def readScopes : Except PyException (List Text) := do
  let primary ← ((claim claims (lit "scope")).mapM scopeValues)
  let secondary ← ((claim claims (lit "scp")).mapM scopeValues)
  let primary := primary.getD []
  let secondary := secondary.getD []
  if primary ≠ [] ∧ secondary ≠ [] ∧ ¬ (primary ⊆ secondary ∧ secondary ⊆ primary) then
    throw identityRejected
  let values := if primary ≠ [] then primary else secondary
  if 64 < values.length ∨ ¬ values.Nodup then throw identityRejected
  return values.insertionSort (· ≤ ·)

end

/-! ## Trace contexts -/

/-- Lowercase hexadecimal digits. -/
def isHexadecimal (length : ℕ) (t : Text) : Bool :=
  t.length = length && t.all fun c => c.isDigit || (97 ≤ c.val && c.val ≤ 102)

/-- `_TRACEPARENT_V00`, with identifiers that are not zero. -/
def isTraceparent (t : Text) : Bool :=
  match t.split 45 with
  | [version, traceId, parentId, flags] =>
    version = lit "00" && isHexadecimal 32 traceId && isHexadecimal 16 parentId &&
      isHexadecimal 2 flags && traceId.any (· ≠ 48) && parentId.any (· ≠ 48)
  | _ => false

/-- A character of a key of a trace state, after the first. -/
def isTracestateKeyChar (c : CodePoint) : Bool :=
  c.isLower || c.isDigit || (lit "_*/-").contains c

/-- `_TRACESTATE_KEY`. -/
def isTracestateKey (t : Text) : Bool :=
  match t.partition 64 with
  | (key, none) => matchesName CodePoint.isLower isTracestateKeyChar 256 key
  | (tenant, some system) =>
    matchesName CodePoint.isLower isTracestateKeyChar 241 tenant &&
      matchesName CodePoint.isLower isTracestateKeyChar 14 system

/-- The loop of `_validate_tracestate`. -/
def areTracestateMembers (keys : List Text) : List Text → Bool
  | [] => true
  | member :: members =>
    let stripped : Text := (member.dropWhile (· = 32)).rdropWhile (· = 32)
    match stripped.partition 61 with
    | (key, some value) =>
      isTracestateKey key && 1 ≤ value.length && value.length ≤ 256 && value.getLast? ≠ some 32 &&
        value.all (fun c => c ≠ 44 && c ≠ 61 && 0x20 ≤ c.val && c.val ≤ 0x7E) &&
        !keys.contains key && areTracestateMembers (key :: keys) members
    | (_, none) => false

/-- `_validate_tracestate`. -/
def isTracestate (t : Text) : Bool :=
  decide (IsText 512 t) && (t.split 44).length ≤ 32 && areTracestateMembers [] (t.split 44)

/-- The checks of `TraceContext`. -/
def isTraceContext (traceparent tracestate : Option Text) : Bool :=
  match traceparent with
  | none => tracestate.isNone
  | some traceparent =>
    decide (IsText 55 traceparent) && isTraceparent traceparent && tracestate.all isTracestate

section
variable {K : Type} (unicode : UnicodeTable) (request : HTTPRequestMetadata) (env : IdentityEnv K)

/-- The headers of a trace context, which is left out where it is invalid. -/
def traceContext : Except PyException Unit :=
  let headers : Except PyException Unit := do
    let traceparent ← optionalHeader unicode request (lit "traceparent")
    let tracestate ← optionalHeader unicode request (lit "tracestate")
    if ¬ isTraceContext traceparent tracestate then throw .valueError
  match headers with
  | .ok () => .ok ()
  | .error error =>
    if error.kind = .valueError then
      if env.logs then .ok () else .error identityRejected
    else .error error

/-! ## Contexts -/

variable (config : IdentityConfig) (rnd : Rounding)

/-- The timeout of a call, in the header or as configured. -/
def timeoutSeconds : Except PyException PyFloat := do
  let header ← optionalHeader unicode request (lit "x-tesserix-timeout-ms")
  let configured := PyFloat.finite config.requestTimeoutSeconds
  match header with
  | none => return configured
  | some header =>
    if ¬ header.all CodePoint.isDigit ∨ header.head? = some 48 ∨ 9 < header.length then
      throw identityRejected
    return configured.min (rnd (natValue header / 1000))

/-- The run id of a call: the one that is claimed, with which a forwarded one agrees, or
    else the forwarded one or the request id. -/
def chooseRun (requestId : Text) (claimedRun : Option Json) (forwardedRun : Option Text) :
    Except PyException Text :=
  match claimedRun with
  | none => .ok (forwardedRun.getD requestId)
  | some claimedRun => do
    let runId ← orRejected (boundedClaim 256 (some claimedRun))
    if ∃ forwarded ∈ forwardedRun, forwarded ≠ runId then throw identityRejected
    return runId

/-- `AuthenticatedIdentity`. -/
def newIdentity (tenant subject issuer : Text) (scopes : List Text) :
    Except PyException AuthenticatedIdentity :=
  if h : IsText 256 tenant ∧ IsText 512 subject ∧ IsText 2048 issuer ∧
      (∀ scope ∈ scopes, IsText 256 scope) ∧ scopes.Nodup then
    .ok ⟨tenant, subject, issuer, scopes, h.1, h.2.1, h.2.2.1, h.2.2.2.1, h.2.2.2.2⟩
  else .error .valueError

/-- `validate_deadline`. -/
def validateDeadline (deadline : PyFloat) : Except PyException { d : ℚ // 0 ≤ d } :=
  match deadline with
  | .finite q => if h : 0 ≤ q then .ok ⟨q, h⟩ else .error .valueError
  | .negZero => .ok ⟨0, le_refl 0⟩
  | .posInf | .negInf | .nan => .error .valueError

/-- `CallContext`. -/
def newContext (identity : AuthenticatedIdentity) (requestId runId : Text) (deadline : PyFloat)
    (idempotencyKey approvalId : Option Text) : Except PyException CallContext := do
  let deadline ← validateDeadline deadline
  if h : IsText 256 requestId ∧ IsText 256 runId ∧ (∀ key ∈ idempotencyKey, IsText 512 key) ∧
      ∀ approval ∈ approvalId, IsText 256 approval then
    return {
      identity, requestId, runId, idempotencyKey, approvalId
      deadline := some deadline.1
      requestId_isText := h.1
      runId_isText := h.2.1
      deadline_nonneg := by simpa using deadline.2
      idempotencyKey_isText := h.2.2.1
      approvalId_isText := h.2.2.2 }
  else throw .valueError

/-! ## `create` -/

variable (jwt : JWT K)

/-- The token of a request, and the id of the key that it names. -/
def requestedKey : Except PyException (Text × Text) := do
  let encoded ← bearerToken unicode request
  let unverified ← orRejected (jwt.getUnverifiedHeader encoded)
  if ¬ isText config.algorithm (Json.get (lit "alg") unverified) then throw identityRejected
  let kid ← orRejected (boundedClaim 128 (Json.get (lit "kid") unverified))
  return (encoded, kid)

/-- What `create` does with a key for the token. -/
def admitKey (requestId encoded : Text) (key : K) : Except PyException CallContext := do
  let claims ← orRejected (jwt.decode encoded key)
  validateTimes claims config rnd env.wallClock
  let subject ← orRejected (boundedClaim 512 (claim claims (lit "sub")))
  let tenant ← orRejected (boundedClaim 256 (claim claims config.tenantClaim))
  let scopes ← readScopes claims
  agree unicode request (lit "x-jwt-claim-sub") subject
  agree unicode request (lit "x-jwt-claim-tenant-id") tenant
  let forwardedScopes ← optionalHeader unicode request (lit "x-jwt-claim-scope")
  if ∃ forwarded ∈ forwardedScopes, forwarded.words.insertionSort (· ≤ ·) ≠ scopes then
    throw identityRejected
  let forwardedRun ← optionalHeader unicode request (lit "x-tesserix-run-id")
  let runId ← chooseRun requestId (claim claims (lit "run_id")) forwardedRun
  traceContext unicode request env
  let idempotencyKey ← optionalHeader unicode request (lit "idempotency-key")
  let approvalId ← optionalHeader unicode request (lit "x-tesserix-approval-id")
  let timeout ← timeoutSeconds unicode request config rnd
  let now ← orRejected env.cacheClock
  let identity ← newIdentity tenant subject config.issuer scopes
  newContext identity requestId runId (PyFloat.add rnd now timeout) idempotencyKey approvalId

/-- What `create` does for a request with this id. -/
def authenticate (requestId : Text) : Except PyException CallContext := do
  let (encoded, kid) ← requestedKey unicode request config jwt
  let key ← env.lookup kid
  admitKey unicode request env config rnd jwt requestId encoded key

/-- `create`. -/
def create : Except CreateError CallContext :=
  let generated := newRequestId env
  if ¬ trustedPeer request config then .error (raiseAuthentication generated)
  else
    match optionalHeader unicode request (lit "x-request-id") with
    | .error _ => .error (raiseAuthentication generated)
    | .ok header =>
      let requestId := header.getD generated
      match authenticate unicode request env config rnd jwt requestId with
      | .ok context => .ok context
      | .error error =>
        if error.kind = .cancelledError then .error (.raised error)
        else .error (raiseAuthentication requestId)

end

/-! ## What a computation ends with -/

section
variable {ε α β γ : Type} {P : ε → Prop} {Q : α → Prop}

/-- A computation raises only exceptions that satisfy `P`, and gives only values that
    satisfy `Q`. -/
def Ends (P : ε → Prop) (Q : α → Prop) (x : Except ε α) : Prop :=
  RaisesOnly P x ∧ ∀ a, x = .ok a → Q a

theorem ends_ok {a : α} (h : Q a) : Ends P Q (.ok a) :=
  ⟨raisesOnly_ok, fun b hb => by cases hb; exact h⟩

theorem ends_error {e : ε} (h : P e) : Ends P Q (.error e) :=
  ⟨raisesOnly_error.2 h, fun b hb => by cases hb⟩

/-- A sequence ends as its last part does. -/
theorem Ends.bind {x : Except ε β} {f : β → Except ε α} (hx : RaisesOnly P x)
    (hf : ∀ b, Ends P Q (f b)) : Ends P Q (x >>= f) := by
  cases x with
  | error e => exact ends_error (raisesOnly_error.1 hx)
  | ok b => exact hf b

/-- A check that raises `e`, and what follows it. -/
theorem Ends.check {c : Prop} [Decidable c] {e : ε} {f : γ → Except ε α} {x : Except ε α}
    (he : P e) (hx : Ends P Q x) : Ends P Q (if c then (throw e : Except ε γ) >>= f else x) := by
  split_ifs
  · exact ends_error he
  · exact hx

/-- A check that ends a computation. -/
theorem Ends.lastCheck {c : Prop} [Decidable c] {e : ε} {x : Except ε α} (he : P e)
    (hx : Ends P Q x) : Ends P Q (if c then (throw e : Except ε α) else x) := by
  split_ifs
  · exact ends_error he
  · exact hx

end

/-! ## What `create` ends with -/

/-- An exception that does not cancel a task. -/
def Ordinary (error : PyException) : Prop := error.kind ≠ .cancelledError

instance (error : PyException) : Decidable (Ordinary error) := inferInstanceAs (Decidable (_ ≠ _))

section
variable {K : Type} {unicode : UnicodeTable} {request : HTTPRequestMetadata} {env : IdentityEnv K}
  {config : IdentityConfig} {rnd : Rounding} {jwt : JWT K}

/-- The exceptions of the provider do not cancel a task. -/
theorem ordinary_identityRejected : Ordinary identityRejected := by decide

theorem ordinary_valueError : Ordinary .valueError := by decide

theorem ordinary_overflowError : Ordinary .overflowError := by decide

theorem raisesOnly_orRejected {α : Type} (o : Option α) : RaisesOnly Ordinary (orRejected o) := by
  cases o with
  | none => exact raisesOnly_error.2 ordinary_identityRejected
  | some value => exact raisesOnly_ok

theorem raisesOnly_optionalHeader (name : Text) :
    RaisesOnly Ordinary (optionalHeader unicode request name) := by
  rw [optionalHeader]
  split
  · exact raisesOnly_ok
  · rw [requireText]
    split_ifs
    · exact raisesOnly_ok
    · exact raisesOnly_error.2 ordinary_valueError
  · exact raisesOnly_error.2 ordinary_identityRejected

theorem raisesOnly_agree (name expected : Text) :
    RaisesOnly Ordinary (agree unicode request name expected) := by
  refine raisesOnly_bind.2 ⟨raisesOnly_optionalHeader name, fun supplied _ => ?_⟩
  split_ifs
  · exact raisesOnly_error.2 ordinary_identityRejected
  · exact raisesOnly_ok

theorem raisesOnly_numericDate (value : Option Json) :
    RaisesOnly Ordinary (numericDate rnd value) := by
  rw [numericDate.eq_def]
  split
  · split_ifs
    · exact raisesOnly_error.2 ordinary_overflowError
    · exact raisesOnly_ok
  · split_ifs
    · exact raisesOnly_ok
    · exact raisesOnly_error.2 ordinary_identityRejected
  · exact raisesOnly_error.2 ordinary_identityRejected

theorem ends_validateTimes (claims : List (Text × Json)) (wallClock : Option PyFloat) :
    Ends Ordinary (fun _ => True) (validateTimes claims config rnd wallClock) := by
  refine .bind (raisesOnly_numericDate _) fun issued => ?_
  refine .bind (raisesOnly_numericDate _) fun notBefore => ?_
  refine .bind (raisesOnly_numericDate _) fun expires => ?_
  refine .bind (raisesOnly_orRejected _) fun now => ?_
  refine .check ordinary_overflowError ?_
  refine .check ordinary_identityRejected ?_
  refine .check ordinary_identityRejected ?_
  exact .lastCheck ordinary_identityRejected (ends_ok trivial)

theorem raisesOnly_scopeValues (value : Json) : RaisesOnly Ordinary (scopeValues value) := by
  refine (Ends.bind (Q := fun _ => True) ?_ fun values => ?_).1
  · rw [scopeTexts.eq_def]
    split
    · exact raisesOnly_ok
    · exact raisesOnly_orRejected _
    · exact raisesOnly_error.2 ordinary_identityRejected
  · exact .check ordinary_identityRejected (ends_ok trivial)

theorem raisesOnly_readScopes (claims : List (Text × Json)) :
    RaisesOnly Ordinary (readScopes claims) := by
  refine (Ends.bind (Q := fun _ => True) ?_ fun primary => ?_).1
  · exact raisesOnly_optionMapM.2 fun value _ => raisesOnly_scopeValues value
  refine .bind ?_ fun secondary => ?_
  · exact raisesOnly_optionMapM.2 fun value _ => raisesOnly_scopeValues value
  refine .check ordinary_identityRejected ?_
  exact .check ordinary_identityRejected (ends_ok trivial)

theorem raisesOnly_traceContext : RaisesOnly Ordinary (traceContext unicode request env) := by
  have hheaders : RaisesOnly Ordinary (do
      let traceparent ← optionalHeader unicode request (lit "traceparent")
      let tracestate ← optionalHeader unicode request (lit "tracestate")
      if ¬ isTraceContext traceparent tracestate then throw .valueError) := by
    refine (Ends.bind (Q := fun _ => True) (raisesOnly_optionalHeader _) fun traceparent => ?_).1
    refine .bind (raisesOnly_optionalHeader _) fun tracestate => ?_
    exact .lastCheck ordinary_valueError (ends_ok trivial)
  rw [traceContext]
  split
  · exact raisesOnly_ok
  · next error herror =>
    split_ifs
    · exact raisesOnly_ok
    · exact raisesOnly_error.2 ordinary_identityRejected
    · exact raisesOnly_error.2 (hheaders error herror)

theorem raisesOnly_timeoutSeconds :
    RaisesOnly Ordinary (timeoutSeconds unicode request config rnd) := by
  refine (Ends.bind (Q := fun _ => True) (raisesOnly_optionalHeader _) fun header => ?_).1
  split
  · exact ends_ok trivial
  · exact .check ordinary_identityRejected (ends_ok trivial)

theorem raisesOnly_chooseRun (requestId : Text) (claimedRun : Option Json)
    (forwardedRun : Option Text) : RaisesOnly Ordinary (chooseRun requestId claimedRun forwardedRun) := by
  rw [chooseRun.eq_def]
  split
  · exact raisesOnly_ok
  · refine (Ends.bind (Q := fun _ => True) (raisesOnly_orRejected _) fun runId => ?_).1
    exact .check ordinary_identityRejected (ends_ok trivial)

theorem raisesOnly_newIdentity (tenant subject issuer : Text) (scopes : List Text) :
    RaisesOnly Ordinary (newIdentity tenant subject issuer scopes) := by
  rw [newIdentity]
  split
  · exact raisesOnly_ok
  · exact raisesOnly_error.2 ordinary_valueError

/-- A new context has the request id, which is bounded. -/
theorem ends_newContext (identity : AuthenticatedIdentity) (requestId runId : Text)
    (deadline : PyFloat) (idempotencyKey approvalId : Option Text) :
    Ends Ordinary (fun context => context.requestId = requestId)
      (newContext identity requestId runId deadline idempotencyKey approvalId) := by
  refine .bind ?_ fun deadline => ?_
  · cases deadline with
    | finite q =>
      rw [validateDeadline]
      split
      · exact raisesOnly_ok
      · exact raisesOnly_error.2 ordinary_valueError
    | negZero => exact raisesOnly_ok
    | posInf | negInf | nan => exact raisesOnly_error.2 ordinary_valueError
  · split
    · exact ends_ok rfl
    · exact ends_error ordinary_valueError

/-- What `create` does with a key cancels no task, and gives a context with the request
    id. -/
theorem ends_admitKey (requestId encoded : Text) (key : K) :
    Ends Ordinary (fun context => context.requestId = requestId)
      (admitKey unicode request env config rnd jwt requestId encoded key) := by
  refine .bind (raisesOnly_orRejected _) fun claims => ?_
  refine .bind (ends_validateTimes claims _).1 fun _ => ?_
  refine .bind (raisesOnly_orRejected _) fun subject => ?_
  refine .bind (raisesOnly_orRejected _) fun tenant => ?_
  refine .bind (raisesOnly_readScopes claims) fun scopes => ?_
  refine .bind (raisesOnly_agree _ _) fun _ => ?_
  refine .bind (raisesOnly_agree _ _) fun _ => ?_
  refine .bind (raisesOnly_optionalHeader _) fun forwardedScopes => ?_
  refine .check ordinary_identityRejected ?_
  refine .bind (raisesOnly_optionalHeader _) fun forwardedRun => ?_
  refine .bind (raisesOnly_chooseRun _ _ _) fun runId => ?_
  refine .bind raisesOnly_traceContext fun _ => ?_
  refine .bind (raisesOnly_optionalHeader _) fun idempotencyKey => ?_
  refine .bind (raisesOnly_optionalHeader _) fun approvalId => ?_
  refine .bind raisesOnly_timeoutSeconds fun timeout => ?_
  refine .bind (raisesOnly_orRejected _) fun now => ?_
  refine .bind (raisesOnly_newIdentity _ _ _ _) fun identity => ?_
  exact ends_newContext _ _ _ _ _ _

theorem raisesOnly_requestedKey :
    RaisesOnly Ordinary (requestedKey unicode request config jwt) := by
  refine (Ends.bind (Q := fun _ => True) ?_ fun encoded => ?_).1
  · have hrejected : RaisesOnly Ordinary (.error identityRejected : Except _ Text) :=
      raisesOnly_error.2 ordinary_identityRejected
    rw [bearerToken]
    split
    · split
      · split_ifs
        · exact hrejected
        · exact hrejected
        · exact raisesOnly_ok
      · exact hrejected
    · exact hrejected
  refine .bind (raisesOnly_orRejected _) fun unverified => ?_
  refine .check ordinary_identityRejected ?_
  exact .bind (raisesOnly_orRejected _) fun kid => ends_ok trivial

/-! ## Request ids -/

variable (env) in
/-- A generated request id is visible. -/
theorem isVisibleText_newRequestId : IsVisibleText 256 (newRequestId env) := by
  have htoken : IsVisibleText 256 env.token := by
    obtain ⟨t, hlength, hhex⟩ := env.token
    have hval : ∀ c ∈ t, 48 ≤ c.val ∧ c.val ≤ 102 := by
      intro c hc
      have hc := List.all_eq_true.1 hhex c hc
      simp only [CodePoint.isDigit, Bool.or_eq_true, Bool.and_eq_true, decide_eq_true_eq] at hc
      omega
    have hspace : ∀ c ∈ t, c.isSpace = false := by
      intro c hc
      have hc := hval c hc
      simp only [CodePoint.isSpace, Bool.or_eq_false_iff, Bool.and_eq_false_iff,
        decide_eq_false_iff_not, beq_eq_false_iff_ne]
      omega
    refine ⟨⟨?_, ?_, hlength.le.trans (by decide), fun c hc => ?_⟩, fun hdel => ?_⟩
    · rintro rfl
      cases hlength
    · exact (Text.strip_eq_self (fun c hc => hspace c (List.mem_of_mem_head? hc))
        fun c hc => hspace c (List.mem_of_mem_getLast? hc)).symm
    · have := hval c hc
      omega
    · have := (hval _ hdel).2
      revert this
      decide
  rw [newRequestId]
  split
  · split_ifs with h
    · exact h
    · exact htoken
  · exact htoken

/-- A visible request id is carried by the error. -/
theorem raiseAuthentication_of_visible {requestId : Text} (h : IsVisibleText 256 requestId) :
    raiseAuthentication requestId = .authentication ⟨requestId, h⟩ := dif_pos h

/-- A trusted peer sends one request id, of visible text, that is too long for the error and
    for a context. -/
def LongRequestId (unicode : UnicodeTable) (request : HTTPRequestMetadata) (config : IdentityConfig) :
    Prop :=
  trustedPeer request config = true ∧
    ∃ value, request.headerValues unicode (lit "x-request-id") = [value] ∧
      IsVisibleText 512 value ∧ 256 < value.length

/-- The lookup of the key that the token names is cancelled. -/
def LookupCancelled (unicode : UnicodeTable) (request : HTTPRequestMetadata) (env : IdentityEnv K)
    (config : IdentityConfig) (jwt : JWT K) : Prop :=
  ∃ encoded kid error, requestedKey unicode request config jwt = .ok (encoded, kid) ∧
    env.lookup kid = .error error ∧ error.kind = .cancelledError

/-- An exception that escapes `create`, other than the authentication error. -/
def escaped : Except CreateError CallContext → Option PyException
  | .error (.raised error) => some error
  | _ => none

/-- `create` returns a context, raises the authentication error or is cancelled. -/
def Closed (result : Except CreateError CallContext) : Prop :=
  ∀ error ∈ escaped result, error.kind = .cancelledError

variable (unicode request env config rnd jwt) in
/-- What follows the request id is cancelled exactly when the lookup of the key is. -/
theorem authenticate_cancelled_iff (requestId : Text) :
    (∃ error, authenticate unicode request env config rnd jwt requestId = .error error ∧
      error.kind = .cancelledError) ↔ LookupCancelled unicode request env config jwt := by
  constructor
  · rintro ⟨error, herror, hcancelled⟩
    rw [authenticate] at herror
    cases hkey : requestedKey unicode request config jwt with
    | error raised =>
      rw [hkey] at herror
      cases herror
      exact absurd hcancelled (raisesOnly_requestedKey error hkey)
    | ok requested =>
      obtain ⟨encoded, kid⟩ := requested
      rw [hkey] at herror
      cases hlookup : env.lookup kid with
      | error raised =>
        simp only [bind, Except.bind, hlookup] at herror
        cases herror
        exact ⟨encoded, kid, error, hkey, hlookup, hcancelled⟩
      | ok key =>
        simp only [bind, Except.bind, hlookup] at herror
        exact absurd hcancelled ((ends_admitKey requestId encoded key).1 error herror)
  · rintro ⟨encoded, kid, error, hkey, hlookup, hcancelled⟩
    refine ⟨error, ?_, hcancelled⟩
    rw [authenticate, hkey]
    simp only [bind, Except.bind, hlookup]

/-- A context has the request id. -/
theorem requestId_of_authenticate {requestId : Text} {context : CallContext}
    (h : authenticate unicode request env config rnd jwt requestId = .ok context) :
    context.requestId = requestId := by
  obtain ⟨⟨encoded, kid⟩, -, h⟩ := bind_eq_ok.1 h
  obtain ⟨key, -, h⟩ := bind_eq_ok.1 h
  exact (ends_admitKey requestId encoded key).2 context h

/-- A header that is there is visible text. -/
theorem optionalHeader_eq_ok {name : Text} {header : Option Text}
    (h : optionalHeader unicode request name = .ok header) :
    (header = none ∧ request.headerValues unicode name = []) ∨
      ∃ value, header = some value ∧ request.headerValues unicode name = [value] ∧
        IsVisibleText 512 value := by
  rw [optionalHeader] at h
  split at h
  · next hvalues =>
    cases h
    exact .inl ⟨rfl, hvalues⟩
  · next value hvalues =>
    rw [requireText] at h
    split_ifs at h with hvisible
    · cases h
      exact .inr ⟨value, rfl, hvalues, hvisible⟩
    · cases h
  · cases h

/-- `create` returns a context or raises the error, or is cancelled, exactly when the
    request does not come from a trusted peer with a request id that is too long, or the
    lookup of its key is cancelled. -/
theorem create_closed_iff (unicode : UnicodeTable) (request : HTTPRequestMetadata)
    (env : IdentityEnv K) (config : IdentityConfig) (rnd : Rounding) (jwt : JWT K) :
    Closed (create unicode request env config rnd jwt) ↔
      ¬ LongRequestId unicode request config ∨ LookupCancelled unicode request env config jwt := by
  have hclosed {requestId : Text} (h : IsVisibleText 256 requestId) :
      Closed (.error (raiseAuthentication requestId)) := by
    intro error herror
    rw [raiseAuthentication_of_visible h] at herror
    cases herror
  rw [create]
  by_cases htrusted : trustedPeer request config = true
  swap
  · rw [if_pos htrusted]
    exact iff_of_true (hclosed (isVisibleText_newRequestId _)) (.inl fun h => htrusted h.1)
  rw [if_neg (not_not.2 htrusted)]
  cases hheader : optionalHeader unicode request (lit "x-request-id") with
  | error raised =>
    refine iff_of_true (hclosed (isVisibleText_newRequestId _)) (.inl ?_)
    rintro ⟨-, value, hvalues, hvisible, -⟩
    rw [optionalHeader, hvalues] at hheader
    simp only [requireText, if_pos hvisible] at hheader
    cases hheader
  | ok header =>
    -- the request id is visible, and is too long only as that of the header
    have hlong : IsVisibleText 512 (header.getD (newRequestId env)) ∧
        (IsVisibleText 256 (header.getD (newRequestId env)) ↔
          ¬ LongRequestId unicode request config) := by
      rcases optionalHeader_eq_ok hheader with ⟨rfl, hvalues⟩ | ⟨value, rfl, hvalues, hvisible⟩
      · have hgenerated := isVisibleText_newRequestId env
        refine ⟨⟨hgenerated.1.mono (by decide), hgenerated.2⟩, iff_of_true hgenerated ?_⟩
        rintro ⟨-, value, hvalue, -⟩
        rw [hvalues] at hvalue
        cases hvalue
      · rw [Option.getD_some]
        refine ⟨hvisible, ?_⟩
        constructor
        · rintro hshort ⟨-, value', hvalue', -, hlength⟩
          rw [hvalues] at hvalue'
          cases hvalue'
          exact absurd hshort.1.2.2.1 (Nat.not_le.2 hlength)
        · intro hnot
          have hlength : value.length ≤ 256 := Nat.not_lt.1 fun hlt =>
            hnot ⟨htrusted, value, hvalues, hvisible, hlt⟩
          exact ⟨⟨hvisible.1.1, hvisible.1.2.1, hlength, hvisible.1.2.2.2⟩, hvisible.2⟩
    dsimp only
    generalize header.getD (newRequestId env) = requestId at hlong
    obtain ⟨hvisible, hlong⟩ := hlong
    cases hresult : authenticate unicode request env config rnd jwt requestId with
    | ok context =>
      have htext : IsText 256 requestId :=
        requestId_of_authenticate hresult ▸ context.requestId_isText
      refine iff_of_true (fun error herror => ?_) (.inl (hlong.1 ⟨htext, hvisible.2⟩))
      cases herror
    | error raised =>
      have hcancelled := authenticate_cancelled_iff unicode request env config rnd jwt requestId
      rw [hresult] at hcancelled
      dsimp only
      by_cases hkind : raised.kind = .cancelledError
      · rw [if_pos hkind]
        refine iff_of_true (fun error herror => ?_) (.inr (hcancelled.1 ⟨raised, rfl, hkind⟩))
        cases herror
        exact hkind
      · rw [if_neg hkind, ← hlong]
        refine ⟨fun h => ?_, fun h => ?_⟩
        · refine .inl (by_contra fun hlong => ?_)
          have hvalue := h .valueError (by rw [raiseAuthentication, dif_neg hlong]; rfl)
          cases hvalue
        · rcases h with hvisible | hlookup
          · exact hclosed hvisible
          · obtain ⟨error, herror, hkind'⟩ := hcancelled.2 hlookup
            cases herror
            exact absurd hkind' hkind

end

/-! ## An example -/

/-- The fresh, stale and retry windows are in order, and keys and an issuer are there. -/
theorem exampleConfig_valid : ((0 : ℚ) < 900 ∧ (900 : ℚ) ≤ 3600 ∧ (0 : ℚ) < 5) ∧
    0 < 32 ∧ IsVisibleText 2048 (lit "https://gateway.example") := by
  exact ⟨by norm_num, by decide, by decide⟩

/-- A provider that trusts the peers `10.0.0.0/8`. -/
def exampleConfig : IdentityConfig where
  algorithm := lit "RS256"
  jwksFreshSeconds := 900
  jwksStaleSeconds := 3600
  jwksRetrySeconds := 5
  maxJwksBytes := 65536
  maxJwksKeys := 32
  fresh_pos := exampleConfig_valid.1.1
  fresh_le_stale := exampleConfig_valid.1.2.1
  retry_pos := exampleConfig_valid.1.2.2
  maxJwksKeys_pos := exampleConfig_valid.2.1
  issuer := lit "https://gateway.example"
  tenantClaim := lit "tenant_id"
  trustedNetworks := [.v4 167772160 8]
  issuer_isVisible := exampleConfig_valid.2.2

/-- No key is found. -/
def exampleEnv : IdentityEnv Unit where
  factory := none
  token := ⟨List.replicate 32 48, by decide⟩
  lookup _ := .error identityRejected
  wallClock := some (.finite 0)
  cacheClock := some (.finite 0)
  logs := true

/-- A request of a trusted peer without a token, and with a request id of 300
    characters. -/
def longRequest : HTTPRequestMetadata where
  headers := [(lit "X-Request-Id", List.replicate 300 97)]
  peerHost := some (lit "10.0.0.7")

/-- The request is not rejected with the authentication error: `ValueError` escapes. -/
theorem create_raises :
    escaped (create ⟨fun c => [c], fun c => [c]⟩ longRequest exampleEnv exampleConfig .finite
      ⟨fun _ => none, fun _ _ => none⟩) = some .valueError := by
  decide +kernel

end McpRuntime.Gateway
