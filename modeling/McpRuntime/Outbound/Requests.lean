import McpRuntime.Outbound.Client
import McpRuntime.Python.Except
import McpRuntime.Redaction

/-!
# Outbound requests

The checks of a request before anything is sent: its method, its URL, which
gives the destination, and its headers. What the standard library and the HTTP
library compute is a parameter (`HTTPLibrary`).

* `parseUrl` gives the destination of a URL, or rejects it.
* `requestHeaders` gives the headers to send. A header with a sensitive name
  must be a `SecretValue`; a `SecretValue` may have any name, and is sent as it
  is (`secret_mem_requestHeaders`).
-/

namespace McpRuntime.Outbound

/-! ## The libraries -/

/-- The result of `urlsplit`. A port that is not a number in its range is
    `some none`. -/
structure SplitResult where
  scheme : Text
  netloc : Text
  username : Option Text := none
  password : Option Text := none
  hostname : Option Text
  port : Option (Option ℕ) := none
  query : Text := []
  fragment : Text := []

/-- What the standard library and the HTTP library compute, with the URLs of
    the HTTP library. A function that raises returns none. -/
structure HTTPLibrary (URL : Type) where
  unicode : UnicodeTable
  /-- `ipaddress.ip_address(host).compressed`. -/
  ipAddress : Text → Option Text
  /-- `host.encode("idna").decode("ascii")`. -/
  idna : Text → Option Text
  /-- `urllib.parse.urlsplit`. -/
  urlsplit : Text → Option SplitResult
  /-- The names of `urllib.parse.parse_qsl`. -/
  queryNames : Text → Option (List Text)
  /-- `urllib.parse.unquote`. -/
  unquote : Text → Text
  /-- `int(text)`. -/
  parseInt : Text → Option ℤ
  /-- `httpx.URL`. -/
  url : Text → Option URL
  /-- `str(url.join(location))`. -/
  join : URL → Text → Option Text

/-- A client: the libraries, its policy (the destinations that
    `authorize_destination` lets pass), its redactor, which may fail, and its
    limits. -/
structure ClientConfig (URL : Type) where
  library : HTTPLibrary URL
  policy : EgressDestination → Bool
  redactText : Text → Option Text
  limits : OutboundHTTPLimits

/-- An exception of the client. -/
inductive ClientError
  | valueError
  | redactionError
  | egressPolicyViolation
  | outboundError (code : ErrorCode)
  /-- Any other `Exception`. -/
  | exception
  deriving DecidableEq

variable {URL : Type} (config : ClientConfig URL)

/-! ## Destinations -/

/-- `_DNS_LABEL`. -/
def isDnsLabel (label : Text) : Bool :=
  let inner (c : CodePoint) : Bool := isKeyPart c || c = 45
  label.length ≤ 63 && label.all inner && label.head?.any isKeyPart &&
    label.getLast?.any isKeyPart

/-- `_NUMERIC_HOST`. -/
def isNumericHost (host : Text) : Bool :=
  let digit (c : CodePoint) : Bool := 48 ≤ c.val && c.val ≤ 57
  let hexDigit (c : CodePoint) : Bool :=
    digit c || (65 ≤ c.val && c.val ≤ 70) || (97 ≤ c.val && c.val ≤ 102)
  let number (part : Text) : Bool :=
    (part ≠ [] && part.all digit) ||
      match part with
      | zero :: x :: rest => zero = 48 && (x = 120 || x = 88) && rest ≠ [] && rest.all hexDigit
      | _ => false
  (host.split 46).all number

/-- `_canonical_host`. -/
def canonicalHost (library : HTTPLibrary URL) (value : Text) : Option Text :=
  if value = [] || value ≠ value.strip || value.length > 253 ||
      value.any (fun c => (lit "/@%?#").elem c) then none
  else
    let candidate := if value.getLast? = some 46 then value.dropLast else value
    match library.ipAddress candidate with
    | some compressed => some compressed
    | none =>
      if isNumericHost candidate then none
      else do
        let ascii ← library.idna candidate
        let asciiHost := ascii.casefold library.unicode
        if (asciiHost.split 46).all isDnsLabel then some asciiHost else none

/-- The constructor of `EgressDestination`. -/
def egressDestination (library : HTTPLibrary URL) (host : Text) (port : ℕ) :
    Option EgressDestination := do
  let host ← canonicalHost library host
  if h : 1 ≤ port ∧ port ≤ 65535 then some ⟨host, port, h.1, h.2⟩ else none

/-! ## Checks -/

/-- `_METHOD` and `_ALLOWED_METHODS`. -/
def allowedMethods : List Text :=
  ["DELETE", "GET", "HEAD", "OPTIONS", "PATCH", "POST", "PUT"].map lit

/-- `_method`. -/
def method (value : Text) : Except ClientError Text :=
  let method := value.upper config.library.unicode
  if allowedMethods.elem method then .ok method else .error .valueError

/-- `_require_public_text`. -/
def requirePublicText (value : Text) : Except ClientError Unit :=
  match config.redactText value with
  | none => .error .redactionError
  | some redacted => if redacted = value then .ok () else .error .valueError

/-- `_contains_protected_text`: a secret is in the text, or in what up to four
    rounds of `unquote` make of it. -/
def containsProtectedText (library : HTTPLibrary URL) (protectedSecrets : List Text)
    (value : Text) : Bool :=
  if protectedSecrets = [] then false else search 4 value
where
  search : ℕ → Text → Bool
    | 0, candidate => protectedSecrets.any candidate.hasPart
    | n + 1, candidate =>
      if protectedSecrets.any candidate.hasPart then true
      else
        let decoded := library.unquote candidate
        if decoded = candidate then false else search n decoded

/-- `_INVALID_PERCENT.search`. -/
def invalidPercent : Text → Bool
  | [] => false
  | c :: t =>
    let hexDigit (c : CodePoint) : Bool :=
      (48 ≤ c.val && c.val ≤ 57) || (65 ≤ c.val && c.val ≤ 70) || (97 ≤ c.val && c.val ≤ 102)
    (c = 37 && !((t.take 2).length = 2 && (t.take 2).all hexDigit)) || invalidPercent t

/-- `_parse_url`. -/
def parseUrl (value : Text) : Except ClientError (URL × EgressDestination) := do
  if value = [] || value.length > 4096 || invalidPercent value then throw .valueError
  requirePublicText config value
  let some parsed := config.library.urlsplit value | throw .valueError
  if parsed.scheme ≠ lit "https" || parsed.netloc = [] || parsed.username.isSome ||
      parsed.password.isSome || parsed.fragment ≠ [] || parsed.netloc.elem 37 then
    throw .valueError
  let some hostname := parsed.hostname | throw .valueError
  let some port := parsed.port.getD (some 443) | throw .valueError
  let some names := config.library.queryNames parsed.query | throw .valueError
  if names.any (isSecretKey config.library.unicode) then throw .valueError
  let some destination := egressDestination config.library hostname port | throw .valueError
  let some url := config.library.url value | throw .exception
  return (url, destination)

/-! ## Request headers -/

/-- The value of a request header. -/
inductive HeaderValue
  | text (t : Text)
  | secret (s : SecretValue)
  | other
  deriving DecidableEq

/-- `_SENSITIVE_HEADERS`. -/
def sensitiveHeaders : List Text :=
  ["authorization", "proxy-authorization", "cookie", "set-cookie", "www-authenticate",
    "proxy-authenticate", "x-api-key"].map lit

/-- `_FORBIDDEN_REQUEST_HEADERS`. -/
def forbiddenRequestHeaders : List Text :=
  ["accept-encoding", "connection", "content-length", "host", "keep-alive",
    "proxy-authorization", "proxy-connection", "te", "trailer", "transfer-encoding", "upgrade",
    "x-http-method-override", "x-method-override"].map lit

/-- `_HEADER_NAME`. -/
def isHeaderName (name : Text) : Bool :=
  name ≠ [] && name.length ≤ 128 &&
    name.all fun c => c.isAlphanumeric || (lit "!#$%&'*+.^_\x60|~-").elem c

/-- The name of a header marks it as sensitive. -/
def sensitiveName (name : Text) : Bool :=
  sensitiveHeaders.elem (name.casefold config.library.unicode) ||
    isSecretKey config.library.unicode name

/-- The headers checked so far, the secrets among them, and their size. -/
structure HeaderState where
  output : List (Text × Text) := []
  protectedSecrets : List Text := []
  size : ℕ := 0

/-- The text of a header value, if it may be sent. -/
def renderHeader (name : Text) (value : HeaderValue) : Except ClientError Text := do
  let rendered ← match value with
    | .secret s => pure s.reveal
    | .text t => do
      if sensitiveName config name then throw .valueError
      requirePublicText config t
      pure t
    | .other => throw .valueError
  if rendered = [] || rendered.length > 8192 ||
      rendered.any (fun c => c.val < 32 || 126 < c.val) then
    throw .valueError
  return rendered

/-- One round of the loop of `_request_headers`. -/
def checkHeader (s : HeaderState) (header : Text × HeaderValue) :
    Except ClientError HeaderState := do
  let (name, value) := header
  if !isHeaderName name then throw .valueError
  if forbiddenRequestHeaders.elem (name.casefold config.library.unicode) then throw .valueError
  requirePublicText config name
  let rendered ← renderHeader config name value
  let protectedSecrets := match value with
    | .secret _ =>
      if s.protectedSecrets.elem rendered then s.protectedSecrets
      else s.protectedSecrets ++ [rendered]
    | _ => s.protectedSecrets
  let size := s.size + name.length + rendered.utf8Length
  if size > config.limits.maxHeaderBytes then throw .valueError
  return ⟨s.output ++ [(name, rendered)], protectedSecrets, size⟩

/-- `_request_headers`: the headers to send, and the secrets among them, the
    longest first. -/
def requestHeaders (headers : List (Text × HeaderValue)) :
    Except ClientError (List (Text × Text) × List Text) := do
  if headers.length > config.limits.maxHeaders then throw .valueError
  let s ← headers.foldlM (checkHeader config) {}
  return (s.output, s.protectedSecrets.mergeSort fun a b => b.length ≤ a.length)

variable {config}

/-- A header that passes the checks is added to the output; a secret is added
    as it is. -/
theorem checkHeader_ok {s s' : HeaderState} {name : Text} {value : HeaderValue}
    (h : checkHeader config s (name, value) = .ok s') :
    ∃ rendered, s'.output = s.output ++ [(name, rendered)] ∧
      ∀ secret, value = .secret secret → rendered = secret.reveal := by
  simp only [checkHeader, check_eq_ok, bind_eq_ok, pure_eq_ok] at h
  obtain ⟨-, -, -, -, rendered, hr, -, rfl⟩ := h
  refine ⟨rendered, rfl, ?_⟩
  rintro secret rfl
  simp only [renderHeader, check_eq_ok, bind_eq_ok, pure_eq_ok] at hr
  obtain ⟨_, rfl, -, rfl⟩ := hr
  rfl

/-- The output of the checks keeps the headers, and the secrets as they are. -/
theorem foldlM_checkHeader_ok {headers : List (Text × HeaderValue)} {s s' : HeaderState}
    (h : headers.foldlM (checkHeader config) s = .ok s') :
    (∀ header ∈ s.output, header ∈ s'.output) ∧
    ∀ name secret, (name, HeaderValue.secret secret) ∈ headers →
      (name, secret.reveal) ∈ s'.output := by
  induction headers generalizing s with
  | nil =>
    obtain rfl := pure_eq_ok.1 h
    exact ⟨fun _ => id, nofun⟩
  | cons header headers ih =>
    rw [List.foldlM_cons, bind_eq_ok] at h
    obtain ⟨t, ht, h⟩ := h
    obtain ⟨rendered, hout, hsecret⟩ := checkHeader_ok ht
    obtain ⟨hkeep, hrest⟩ := ih h
    rw [hout] at hkeep
    refine ⟨fun kept hk => hkeep _ (List.mem_append_left _ hk), fun name secret hs => ?_⟩
    rcases List.mem_cons.1 hs with rfl | hs
    · obtain rfl := hsecret secret rfl
      exact hkeep _ (List.mem_append_right _ List.mem_cons_self)
    · exact hrest name secret hs

/-- A `SecretValue` is sent as it is, under the name it was given. -/
theorem secret_mem_requestHeaders {headers : List (Text × HeaderValue)}
    {output : List (Text × Text)} {protectedSecrets : List Text}
    (h : requestHeaders config headers = .ok (output, protectedSecrets)) {name : Text}
    {secret : SecretValue} (hs : (name, HeaderValue.secret secret) ∈ headers) :
    (name, secret.reveal) ∈ output := by
  simp only [requestHeaders, check_eq_ok, bind_eq_ok, pure_eq_ok] at h
  obtain ⟨-, s, hfold, he⟩ := h
  obtain ⟨rfl, -⟩ := Prod.mk.inj he
  exact (foldlM_checkHeader_ok hfold).2 name secret hs

/-- The text of a header that may be sent is ASCII that can be printed. -/
theorem printable_of_renderHeader {name : Text} {value : HeaderValue} {rendered : Text}
    (h : renderHeader config name value = .ok rendered) :
    ∀ c ∈ rendered, 32 ≤ c.val ∧ c.val ≤ 126 := by
  have hprintable : ¬ (rendered = [] || rendered.length > 8192 ||
      rendered.any fun c => c.val < 32 || 126 < c.val) = true := by
    cases value with
    | secret s =>
      simp only [renderHeader, check_eq_ok, bind_eq_ok, pure_eq_ok] at h
      obtain ⟨_, rfl, hchecked, rfl⟩ := h
      exact hchecked
    | text t =>
      simp only [renderHeader, check_eq_ok, bind_eq_ok, pure_eq_ok] at h
      obtain ⟨-, _, -, _, rfl, hchecked, rfl⟩ := h
      exact hchecked
    | other => cases h
  simp only [Bool.or_eq_true, decide_eq_true_eq, not_or, List.any_eq_true, not_exists, not_and,
    not_lt] at hprintable
  exact hprintable.2

/-- A round keeps the secrets that were found before it, and adds that of its header, which can
    be printed. -/
theorem checkHeader_secrets {s s' : HeaderState} {name : Text} {value : HeaderValue}
    (h : checkHeader config s (name, value) = .ok s') (t : Text) :
    (t ∈ s'.protectedSecrets ↔
      t ∈ s.protectedSecrets ∨ ∃ secret, value = .secret secret ∧ secret.reveal = t) ∧
    ∀ secret, value = .secret secret → ∀ c ∈ secret.reveal, 32 ≤ c.val ∧ c.val ≤ 126 := by
  have hrendered := h
  simp only [checkHeader, check_eq_ok, bind_eq_ok, pure_eq_ok] at hrendered
  obtain ⟨-, -, -, -, rendered, hr, -, rfl⟩ := hrendered
  have hprintable := printable_of_renderHeader hr
  cases value with
  | secret secret =>
    simp only [renderHeader, check_eq_ok, bind_eq_ok, pure_eq_ok] at hr
    obtain ⟨_, rfl, -, rfl⟩ := hr
    refine ⟨?_, ?_⟩
    · simp only [HeaderValue.secret.injEq, exists_eq_left']
      -- A secret that was found before is not kept twice.
      split_ifs with hmem
      · rw [List.elem_iff] at hmem
        exact ⟨.inl, fun ht => ht.elim id fun he => he ▸ hmem⟩
      · rw [List.mem_append, List.mem_singleton, @eq_comm _ t]
    · rintro _ ⟨⟩
      exact hprintable
  | text t => exact ⟨by simp, by simp⟩
  | other => exact ⟨by simp, by simp⟩

/-- The secrets among the headers that were checked. -/
theorem foldlM_checkHeader_secrets {headers : List (Text × HeaderValue)} {s s' : HeaderState}
    (h : headers.foldlM (checkHeader config) s = .ok s') (t : Text) :
    (t ∈ s'.protectedSecrets ↔ t ∈ s.protectedSecrets ∨
      ∃ name secret, (name, HeaderValue.secret secret) ∈ headers ∧ secret.reveal = t) ∧
    ∀ name secret, (name, HeaderValue.secret secret) ∈ headers →
      ∀ c ∈ secret.reveal, 32 ≤ c.val ∧ c.val ≤ 126 := by
  induction headers generalizing s with
  | nil =>
    obtain rfl := pure_eq_ok.1 h
    exact ⟨by simp, by simp⟩
  | cons header headers ih =>
    rw [List.foldlM_cons, bind_eq_ok] at h
    obtain ⟨u, hu, h⟩ := h
    obtain ⟨name, value⟩ := header
    obtain ⟨hfirst, hfirstPrintable⟩ := checkHeader_secrets hu t
    obtain ⟨hrest, hrestPrintable⟩ := ih h
    refine ⟨?_, fun name' secret hs => ?_⟩
    -- A secret is found in the first header, or in one of the others.
    · rw [hrest, hfirst, or_assoc]
      refine or_congr_right ⟨?_, ?_⟩
      · rintro (⟨secret, rfl, ht⟩ | ⟨name', secret, hs, ht⟩)
        · exact ⟨name, secret, List.mem_cons_self, ht⟩
        · exact ⟨name', secret, List.mem_cons_of_mem _ hs, ht⟩
      · rintro ⟨name', secret, hs, ht⟩
        rcases List.mem_cons.1 hs with he | hs
        · exact .inl ⟨secret, (Prod.mk.inj he).2.symm, ht⟩
        · exact .inr ⟨name', secret, hs, ht⟩
    · rcases List.mem_cons.1 hs with he | hs
      · exact hfirstPrintable secret (Prod.mk.inj he).2.symm
      · exact hrestPrintable name' secret hs

/-- The protected secrets are the `SecretValue`s among the headers, which can be printed. -/
theorem mem_protectedSecrets {headers : List (Text × HeaderValue)}
    {output : List (Text × Text)} {protectedSecrets : List Text}
    (h : requestHeaders config headers = .ok (output, protectedSecrets)) (t : Text) :
    (t ∈ protectedSecrets ↔
      ∃ name secret, (name, HeaderValue.secret secret) ∈ headers ∧ secret.reveal = t) ∧
    ∀ name secret, (name, HeaderValue.secret secret) ∈ headers →
      ∀ c ∈ secret.reveal, 32 ≤ c.val ∧ c.val ≤ 126 := by
  simp only [requestHeaders, check_eq_ok, bind_eq_ok, pure_eq_ok] at h
  obtain ⟨-, s, hfold, he⟩ := h
  obtain ⟨-, rfl⟩ := Prod.mk.inj he
  obtain ⟨hmem, hprintable⟩ := foldlM_checkHeader_secrets hfold t
  rw [(List.mergeSort_perm _ _).mem_iff, hmem]
  exact ⟨by simp, hprintable⟩

end McpRuntime.Outbound
