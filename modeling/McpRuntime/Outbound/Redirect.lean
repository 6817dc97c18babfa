import McpRuntime.Outbound.Circuit
import McpRuntime.Outbound.Requests

/-!
# Redirects of the outbound client

A request is checked (`prepare`), and sent along the redirects it meets
(`followRedirects`), each of which may change the method, the body, the headers
and the destination. The responses, which the destinations choose, are a
parameter.

* `Event`: what a request does, in order: the destinations it has authorized and
  what it sends.
* `redirect_containment`: every send was authorized before, and there are at
  most `max_redirects + 1` of them; and a header given as a `SecretValue` is
  kept from other destinations exactly when its *name* is sensitive, or no send
  leaves the destination of the request. The client drops headers by their
  names alone (`secret_header_forwarded`).
-/

namespace McpRuntime.Outbound

variable {URL : Type} (config : ClientConfig URL)

/-! ## Responses -/

/-- A response of a destination. -/
structure Response where
  status : ℕ
  headers : List (Text × Text)
  /-- The parts of the body, and whether reading the next one raises. -/
  chunks : List (List UInt8) := []
  readRaises : Bool := false
  /-- `aclose` raises. -/
  closeRaises : Bool := false

/-- `headers.get(name)`: the values under the name, in any case, joined. -/
def headerValue (headers : List (Text × Text)) (name : Text) : Option Text :=
  match (headers.filter fun h => h.1.map CodePoint.asciiLower = name).map Prod.snd with
  | [] => none
  | value :: values => some (values.foldl (fun joined v => joined ++ lit ", " ++ v) value)

/-- One round of the loop of `_response_headers`, on the headers and the two
    sizes so far. -/
def checkResponseHeader (protectedSecrets : List Text) (s : List (Text × Text) × ℕ × ℕ)
    (header : Text × Text) : Except ClientError (List (Text × Text) × ℕ × ℕ) := do
  let (output, size, redactedSize) := s
  let (name, value) := header
  if !name.isAscii || value.any CodePoint.isSurrogate then throw .exception
  let size := size + name.length + value.utf8Length
  if size > config.limits.maxHeaderBytes then throw (.outboundError .resultTooLarge)
  let value := protectedSecrets.foldl (fun value secret => value.replace secret redactedText) value
  let redacted ←
    if sensitiveName config name then pure redactedText
    else match config.redactText value with
      | some redacted => pure redacted
      | none => throw .redactionError
  if redacted.any CodePoint.isSurrogate then throw .exception
  let redactedSize := redactedSize + name.length + redacted.utf8Length
  if redactedSize > config.limits.maxHeaderBytes then throw (.outboundError .resultTooLarge)
  return (output ++ [(name.casefold config.library.unicode, redacted)], size, redactedSize)

/-- `_response_headers`. -/
def responseHeaders (protectedSecrets : List Text) (headers : List (Text × Text)) :
    Except ClientError (List (Text × Text)) := do
  if headers.length > config.limits.maxHeaders then throw (.outboundError .resultTooLarge)
  let (output, _, _) ← headers.foldlM (checkResponseHeader config protectedSecrets) ([], 0, 0)
  return output

/-- `_read_body`. -/
def readBody (protectedSecrets : List Text) (response : Response) :
    Except ClientError (List UInt8) := do
  if let some encoding := headerValue response.headers (lit "content-encoding") then
    if encoding.casefold config.library.unicode ≠ lit "identity" then
      throw (.outboundError .resultTooLarge)
  if let some length := (headerValue response.headers (lit "content-length")).bind
      config.library.parseInt then
    if length > config.limits.maxResponseBytes then throw (.outboundError .resultTooLarge)
  let body ← response.chunks.foldlM (fun (body : List UInt8) chunk =>
    if body.length + chunk.length > config.limits.maxResponseBytes then
      throw (.outboundError .resultTooLarge)
    else pure (body ++ chunk)) []
  if response.readRaises then throw .exception
  let body := protectedSecrets.foldl
    (fun body secret => replaceAll secret.utf8 redactedText.utf8 0 body) body
  if body.length > config.limits.maxResponseBytes then throw (.outboundError .resultTooLarge)
  return body

/-- A bounded response. -/
structure OutboundHTTPResponse where
  status : ℕ
  headers : List (Text × Text)
  body : List UInt8
  status_range : 100 ≤ status ∧ status ≤ 599

/-- The constructor of `OutboundHTTPResponse`. -/
def outboundResponse (status : ℕ) (headers : List (Text × Text)) (body : List UInt8) :
    Except ClientError OutboundHTTPResponse :=
  if h : 100 ≤ status ∧ status ≤ 599 then .ok ⟨status, headers, body, h⟩ else .error .exception

/-! ## Following redirects -/

/-- What a round of the loop of `_follow_redirects` sends. -/
structure Hop (URL : Type) where
  method : Text
  url : URL
  destination : EgressDestination
  headers : List (Text × Text)
  content : List UInt8

/-- The headers that `_send` puts into the request: its own, unless the request
    has them, and those of the request. -/
def Hop.sentHeaders (hop : Hop URL) : List (Text × Text) :=
  ([(lit "Accept", lit "*/*"), (lit "Accept-Encoding", lit "identity"),
    (lit "User-Agent", lit "tesserix-mcp-runtime")].filter
      fun h => !(hop.headers.map Prod.fst).elem h.1) ++ hop.headers

/-- What a request does, in order. -/
inductive Event (URL : Type)
  /-- `authorize_destination` lets a destination pass. -/
  | authorized (destination : EgressDestination)
  | sent (hop : Hop URL)

/-- `_REDIRECT_STATUSES`. -/
def redirectStatuses : List ℕ := [301, 302, 303, 307, 308]

/-- The location a response redirects to. -/
def redirectLocation (response : Response) : Option Text :=
  if response.status ∈ redirectStatuses then headerValue response.headers (lit "location")
  else none

/-- The URL and the destination that a redirect leads to. -/
def redirectTarget (protectedSecrets : List Text) (url : URL) (location : Text) :
    Except ClientError (URL × EgressDestination) := do
  let some value := config.library.join url location | throw .exception
  if containsProtectedText config.library protectedSecrets value then
    throw .egressPolicyViolation
  match parseUrl config value with
  | .ok (nextUrl, nextDestination) =>
    if config.policy nextDestination then return (nextUrl, nextDestination)
    else throw .egressPolicyViolation
  | .error .valueError => throw (.outboundError .invalidInput)
  | .error error => throw error

/-- The next round, for a response with a status that redirects to a URL: the
    sensitive headers are dropped when the destination changes. -/
def Hop.redirected (hop : Hop URL) (status : ℕ) (url : URL) (destination : EgressDestination) :
    Hop URL :=
  let headers :=
    if destination = hop.destination then hop.headers
    else hop.headers.filter fun h => !sensitiveName config h.1
  if status = 303 || ((status = 301 || status = 302) && hop.method = lit "POST") then
    ⟨lit "GET", url, destination, headers, []⟩
  else ⟨hop.method, url, destination, headers, hop.content⟩

/-- What a round does with a response: the result of the request, or the next
    URL and destination. -/
def handleResponse (protectedSecrets : List Text) (url : URL) (response : Response)
    (redirectsLeft : ℕ) : Except ClientError (OutboundHTTPResponse ⊕ (URL × EgressDestination)) := do
  let bounded ← responseHeaders config protectedSecrets response.headers
  match redirectLocation response with
  | none =>
    let body ← readBody config protectedSecrets response
    return .inl (← outboundResponse response.status bounded body)
  | some location =>
    if redirectsLeft = 0 then throw (.outboundError .unavailable)
    return .inr (← redirectTarget config protectedSecrets url location)

/-- `_follow_redirects`, with the redirects that are left; `respond` gives what
    the transport returns or raises for the sends from here on. -/
def followRedirects (protectedSecrets : List Text) :
    ℕ → (ℕ → Except ClientError Response) → Hop URL →
      List (Event URL) × Except ClientError OutboundHTTPResponse
  | redirectsLeft, respond, hop =>
    if !config.policy hop.destination then ([], .error .egressPolicyViolation)
    else
      let events := [.authorized hop.destination, .sent hop]
      match respond 0 with
      | .error error => (events, .error error)
      | .ok response =>
        match handleResponse config protectedSecrets hop.url response redirectsLeft with
        | .error error =>
          (events, .error (if response.closeRaises then .exception else error))
        | .ok (.inl result) =>
          (events, if response.closeRaises then .error .exception else .ok result)
        | .ok (.inr (url, destination)) =>
          if response.closeRaises then (events ++ [.authorized destination], .error .exception)
          else
            match redirectsLeft with
            | 0 => (events, .error (.outboundError .unavailable))
            | redirectsLeft + 1 =>
              let rest := followRedirects protectedSecrets redirectsLeft (fun i => respond (i + 1))
                (hop.redirected config response.status url destination)
              (events ++ .authorized destination :: rest.1, rest.2)

/-- The destinations that the redirects lead through, from a URL. -/
def redirectChain (protectedSecrets : List Text) :
    ℕ → (ℕ → Except ClientError Response) → URL → EgressDestination → List EgressDestination
  | redirectsLeft, respond, url, destination =>
    if !config.policy destination then []
    else
      match respond 0 with
      | .error _ => [destination]
      | .ok response =>
        match handleResponse config protectedSecrets url response redirectsLeft with
        | .ok (.inr (url, next)) =>
          if response.closeRaises then [destination]
          else
            match redirectsLeft with
            | 0 => [destination]
            | redirectsLeft + 1 =>
              destination :: redirectChain protectedSecrets redirectsLeft
                (fun i => respond (i + 1)) url next
        | _ => [destination]

/-! ## Requests -/

/-- The arguments of `request`. -/
structure OutboundRequest where
  method : Text
  url : Text
  headers : List (Text × HeaderValue) := []
  content : List UInt8 := []

/-- `request`, up to the first send: the first round and the secrets among the
    headers. The client may be closed, and its circuits admit the request or
    not. -/
def prepare (closed : Bool) (admission : Admission) (request : OutboundRequest) :
    Except ClientError (Hop URL × List Text) := do
  let method ← method config request.method
  let (url, destination) ← parseUrl config request.url
  if !config.policy destination then throw .egressPolicyViolation
  let (headers, protectedSecrets) ← requestHeaders config request.headers
  if containsProtectedText config.library protectedSecrets request.url then throw .valueError
  if request.content.length > config.limits.maxRequestBytes then throw .valueError
  if closed then throw (.outboundError .unavailable)
  match admission with
  | .admitted _ => return (⟨method, url, destination, headers, request.content⟩, protectedSecrets)
  | .refused => throw (.outboundError .unavailable)
  | .raised => throw .exception

section
variable (closed : Bool) (admission : Admission) (request : OutboundRequest)
  (respond : ℕ → Except ClientError Response)

/-- What the loop of a request does, in order. -/
def requestEvents : List (Event URL) :=
  match prepare config closed admission request with
  | .ok (hop, protectedSecrets) =>
    (followRedirects config protectedSecrets config.limits.maxRedirects respond hop).1
  | .error _ => []

/-- The destinations that the redirects of a request lead through. -/
def requestChain : List EgressDestination :=
  match prepare config closed admission request with
  | .ok (hop, protectedSecrets) =>
    redirectChain config protectedSecrets config.limits.maxRedirects respond hop.url
      hop.destination
  | .error _ => []

/-- The destination of the URL of a request. -/
def originalDestination : Option EgressDestination :=
  match parseUrl config request.url with
  | .ok (_, destination) => some destination
  | .error _ => none

end

/-- What was sent. -/
def sends (events : List (Event URL)) : List (Hop URL) :=
  events.filterMap fun
    | .sent hop => some hop
    | .authorized _ => none

/-! ## What the loop does -/

/-- The events of the loop from a round on, and the destinations it leads
    through. -/
inductive Follows : ℕ → Hop URL → List (Event URL) → List EgressDestination → Prop
  | denied {n : ℕ} {hop : Hop URL} : Follows n hop [] []
  | ends {n : ℕ} {hop : Hop URL} {authorized : List EgressDestination} :
      config.policy hop.destination = true → (∀ d ∈ authorized, config.policy d = true) →
      Follows n hop (.authorized hop.destination :: .sent hop :: authorized.map .authorized)
        [hop.destination]
  | redirected {n : ℕ} {hop : Hop URL} {status : ℕ} {value : Text} {url : URL}
      {destination : EgressDestination} {events : List (Event URL)}
      {chain : List EgressDestination} :
      config.policy hop.destination = true → config.policy destination = true →
      parseUrl config value = .ok (url, destination) →
      Follows n (hop.redirected config status url destination) events chain →
      Follows (n + 1) hop
        (.authorized hop.destination :: .sent hop :: .authorized destination :: events)
        (hop.destination :: chain)

variable {config}

/-- A redirect leads to a URL that was parsed, and to its destination, which
    the policy lets pass. -/
theorem redirectTarget_ok {protectedSecrets : List Text} {url url' : URL} {location : Text}
    {destination : EgressDestination}
    (h : redirectTarget config protectedSecrets url location = .ok (url', destination)) :
    config.policy destination = true ∧ ∃ value, parseUrl config value = .ok (url', destination) := by
  simp only [redirectTarget] at h
  split at h
  · next value _ =>
    simp only [bind, Except.bind, pure, Except.pure, throw, throwThe, MonadExceptOf.throw] at h
    split_ifs at h
    · split at h <;> first | cases h | skip
      split_ifs at h with hp
      obtain ⟨rfl, rfl⟩ := Prod.mk.inj (Except.ok.inj h)
      exact ⟨hp, value, ‹_›⟩
  · cases h

/-- A round that goes on leads to the target of a redirect. -/
theorem handleResponse_redirect {protectedSecrets : List Text} {url url' : URL}
    {response : Response} {n : ℕ} {destination : EgressDestination}
    (h : handleResponse config protectedSecrets url response n = .ok (.inr (url', destination))) :
    config.policy destination = true ∧ ∃ value, parseUrl config value = .ok (url', destination) := by
  simp only [handleResponse, bind, Except.bind, pure, Except.pure] at h
  split at h
  · cases h
  split at h
  · split at h
    · cases h
    · split at h <;> cases h
  · split_ifs at h
    · split at h
      · cases h
      · next target htarget =>
        obtain rfl := Sum.inr.inj (Except.ok.inj h)
        exact redirectTarget_ok htarget

@[simp] theorem redirected_url (hop : Hop URL) (status : ℕ) (url : URL)
    (destination : EgressDestination) :
    (hop.redirected config status url destination).url = url := by
  simp only [Hop.redirected]; split <;> rfl

@[simp] theorem redirected_destination (hop : Hop URL) (status : ℕ) (url : URL)
    (destination : EgressDestination) :
    (hop.redirected config status url destination).destination = destination := by
  simp only [Hop.redirected]; split <;> rfl

/-- The next round has the headers of this one, without the sensitive ones when
    the destination changes. -/
@[simp] theorem redirected_headers (hop : Hop URL) (status : ℕ) (url : URL)
    (destination : EgressDestination) :
    (hop.redirected config status url destination).headers =
      if destination = hop.destination then hop.headers
      else hop.headers.filter fun h => !sensitiveName config h.1 := by
  simp only [Hop.redirected]; split <;> rfl

/-- A round that ends the loop. -/
theorem Follows.last {n : ℕ} {hop : Hop URL} (hp : config.policy hop.destination = true) :
    Follows config n hop [.authorized hop.destination, .sent hop] [hop.destination] :=
  @Follows.ends _ _ n hop [] hp nofun

/-- The loop does what its rounds do. -/
theorem followRedirects_follows (protectedSecrets : List Text) (n : ℕ)
    (respond : ℕ → Except ClientError Response) (hop : Hop URL) :
    Follows config n hop (followRedirects config protectedSecrets n respond hop).1
      (redirectChain config protectedSecrets n respond hop.url hop.destination) := by
  rw [followRedirects.eq_def, redirectChain.eq_def]
  cases hp : config.policy hop.destination with
  | false =>
    simp only [hp, Bool.not_false, if_true]
    exact .denied
  | true =>
    simp only [hp, Bool.not_true, Bool.false_eq_true, if_false]
    cases respond 0 with
    | error error => exact .last hp
    | ok response =>
      cases hh : handleResponse config protectedSecrets hop.url response n with
      | error error => simpa only [hh] using .last hp
      | ok next =>
        rcases next with result | ⟨url, destination⟩
        · simpa only [hh] using .last hp
        · obtain ⟨hp', value, hparse⟩ := handleResponse_redirect hh
          cases hc : response.closeRaises with
          | true =>
            simp only [hh, hc, if_true]
            exact @Follows.ends _ config n hop [destination] hp (by simpa using hp')
          | false =>
            cases n with
            | zero => simpa only [hh, hc] using .last hp
            | succ n =>
              simp only [hh, hc]
              have hnext := followRedirects_follows protectedSecrets n (fun i => respond (i + 1))
                (hop.redirected config response.status url destination)
              rw [redirected_url, redirected_destination] at hnext
              exact .redirected hp hp' hparse hnext

/-! ## What is sent -/

@[simp] theorem sends_authorized (d : EgressDestination) (events : List (Event URL)) :
    sends (.authorized d :: events) = sends events := rfl

@[simp] theorem sends_sent (hop : Hop URL) (events : List (Event URL)) :
    sends (.sent hop :: events) = hop :: sends events := rfl

@[simp] theorem sends_map_authorized (ds : List EgressDestination) :
    sends (ds.map fun d => (.authorized d : Event URL)) = [] := by
  induction ds with
  | nil => rfl
  | cons d ds ih => exact ih

section
variable {n : ℕ} {hop : Hop URL} {events : List (Event URL)} {chain : List EgressDestination}

/-- There is at most one send more than redirects are left. -/
theorem Follows.sends_length (h : Follows config n hop events chain) :
    (sends events).length ≤ n + 1 := by
  induction h with
  | denied => exact Nat.zero_le _
  | ends => simp
  | redirected _ _ _ _ ih => simpa using ih

/-- The sends go to the destinations that the redirects lead through. -/
theorem Follows.sends_destination (h : Follows config n hop events chain) :
    (sends events).map Hop.destination = chain := by
  induction h with
  | denied => rfl
  | ends => simp
  | redirected _ _ _ _ ih => simpa using ih

/-- What is authorized, the policy lets pass. -/
theorem Follows.policy (h : Follows config n hop events chain) :
    ∀ d, .authorized d ∈ events → config.policy d = true := by
  induction h with
  | denied => nofun
  | ends hp hps =>
    intro d hd
    simp only [List.mem_cons, Event.authorized.injEq, reduceCtorEq, List.mem_map, false_or] at hd
    rcases hd with rfl | ⟨d', hd', rfl⟩
    · exact hp
    · exact hps d' hd'
  | redirected hp hp' _ _ ih =>
    intro d hd
    simp only [List.mem_cons, Event.authorized.injEq, reduceCtorEq, false_or] at hd
    rcases hd with rfl | rfl | hd
    · exact hp
    · exact hp'
    · exact ih d hd

/-- Every send follows the authorization of its destination. -/
theorem Follows.authorized_before (h : Follows config n hop events chain)
    {pre post : List (Event URL)} {sent : Hop URL} (he : events = pre ++ .sent sent :: post) :
    .authorized sent.destination ∈ pre := by
  induction h generalizing pre with
  | denied => simp at he
  | ends hp hps =>
    rcases pre with _ | ⟨e, _ | ⟨e', pre⟩⟩ <;>
      simp only [List.nil_append, List.cons_append, List.cons.injEq, reduceCtorEq, false_and,
        Event.sent.injEq] at he
    · rw [← he.1, ← he.2.1]
      exact List.mem_cons_self
    · -- nothing is sent after the last round
      have hmem : Event.sent sent ∈ pre ++ Event.sent sent :: post := by simp
      rw [← he.2.2, List.mem_map] at hmem
      obtain ⟨_, _, hd⟩ := hmem
      cases hd
  | redirected hp hp' _ _ ih =>
    rcases pre with _ | ⟨e, _ | ⟨e', _ | ⟨e'', pre⟩⟩⟩ <;>
      simp only [List.nil_append, List.cons_append, List.cons.injEq, reduceCtorEq, false_and,
        and_false, Event.sent.injEq] at he
    · rw [← he.1, ← he.2.1]
      exact List.mem_cons_self
    · have := ih he.2.2.2
      simp only [List.mem_cons, this, or_true]

/-- A property of the rounds that a redirect keeps holds of all sends. -/
theorem Follows.forall_sends {P : Hop URL → Prop} (h : Follows config n hop events chain)
    (hop_P : P hop)
    (step : ∀ hop status value url destination, P hop →
      parseUrl config value = .ok (url, destination) →
      P (hop.redirected config status url destination)) : ∀ sent ∈ sends events, P sent := by
  induction h with
  | denied => nofun
  | ends =>
    intro sent hs
    simp only [sends_authorized, sends_sent, sends_map_authorized, List.mem_singleton] at hs
    exact hs ▸ hop_P
  | redirected _ _ hparse _ ih =>
    intro sent hs
    simp only [sends_authorized, sends_sent, List.mem_cons] at hs
    rcases hs with rfl | hs
    · exact hop_P
    · exact ih (step _ _ _ _ _ hop_P hparse) sent hs

end

/-! ## Headers along the redirects -/

/-- The headers without those of a sensitive name. -/
def publicHeaders (config : ClientConfig URL) (headers : List (Text × Text)) :
    List (Text × Text) := headers.filter fun h => !sensitiveName config h.1

/-- A round of a request to `origin` with the given headers: it has them all, at
    the origin, or those without a sensitive name. -/
def Carries (config : ClientConfig URL) (origin : EgressDestination)
    (headers : List (Text × Text)) (hop : Hop URL) : Prop :=
  (hop.destination = origin ∧ hop.headers = headers) ∨
    hop.headers = publicHeaders config headers

/-- A redirect keeps what a round carries. -/
theorem Carries.redirected {origin : EgressDestination} {headers : List (Text × Text)}
    {hop : Hop URL} (h : Carries config origin headers hop) (status : ℕ) (url : URL)
    (destination : EgressDestination) :
    Carries config origin headers (hop.redirected config status url destination) := by
  rw [Carries, redirected_destination, redirected_headers]
  split_ifs with hd
  · rw [hd]
    exact h
  · refine .inr ?_
    rcases h with ⟨-, hh⟩ | hh
    · rw [hh, publicHeaders]
    · rw [hh, publicHeaders, List.filter_filter]
      simp only [Bool.and_self]

/-- The headers of the client itself have no sensitive name. -/
theorem not_sensitive_of_default {hop : Hop URL} {name value : Text}
    (h : (name, value) ∈ hop.sentHeaders) (hn : (name, value) ∉ hop.headers) :
    sensitiveName config name = false := by
  rw [Hop.sentHeaders, List.mem_append] at h
  rcases h with h | h
  · have := (List.mem_filter.1 h).1
    simp only [List.mem_cons, Prod.mk.injEq, List.not_mem_nil, or_false] at this
    rcases this with ⟨rfl, -⟩ | ⟨rfl, -⟩ | ⟨rfl, -⟩ <;> rfl
  · exact absurd h hn

/-! ## Containment -/

section
variable (config) (closed : Bool) (admission : Admission) (request : OutboundRequest)
  (respond : ℕ → Except ClientError Response)

/-- The redirects of a request are contained: every send goes to the destination
    of its URL, which the policy has let pass before, there is at most one more
    than redirects are allowed, and what was given as a `SecretValue` is sent to
    the destination of the request alone. -/
structure RedirectContained : Prop where
  parsed : ∀ hop ∈ sends (requestEvents config closed admission request respond),
    ∃ value, parseUrl config value = .ok (hop.url, hop.destination)
  authorized : ∀ pre hop post,
    requestEvents config closed admission request respond = pre ++ .sent hop :: post →
      .authorized hop.destination ∈ pre
  policy : ∀ d, .authorized d ∈ requestEvents config closed admission request respond →
    config.policy d = true
  bounded : (sends (requestEvents config closed admission request respond)).length ≤
    config.limits.maxRedirects + 1
  secret : ∀ hop ∈ sends (requestEvents config closed admission request respond),
    ∀ name secret, (name, HeaderValue.secret secret) ∈ request.headers →
      (name, secret.reveal) ∈ hop.sentHeaders →
        originalDestination config request = some hop.destination

/-- A request that passes the checks starts at its own destination, with its
    headers. -/
theorem prepare_ok {hop : Hop URL} {protectedSecrets : List Text}
    (h : prepare config closed admission request = .ok (hop, protectedSecrets)) :
    parseUrl config request.url = .ok (hop.url, hop.destination) ∧
      ∃ output, requestHeaders config request.headers = .ok (output, protectedSecrets) ∧
        hop.headers = output := by
  simp only [prepare, check_eq_ok, bind_eq_ok] at h
  obtain ⟨method, -, ⟨url, destination⟩, hparse, -, ⟨output, secrets⟩, hout, -, -, -, h⟩ := h
  cases admission with
  | admitted probe =>
    obtain ⟨rfl, rfl⟩ := Prod.mk.inj (pure_eq_ok.1 h)
    exact ⟨hparse, output, hout, rfl⟩
  | refused => cases h
  | raised => cases h

/-- The redirects of a request are contained exactly when every `SecretValue`
    has a sensitive name, or the redirects do not leave the destination of the
    request. -/
theorem redirect_containment :
    RedirectContained config closed admission request respond ↔
      (∀ name secret, (name, HeaderValue.secret secret) ∈ request.headers →
        sensitiveName config name = true) ∨
      ∀ d ∈ requestChain config closed admission request respond,
        originalDestination config request = some d := by
  cases hp : prepare config closed admission request with
  | error e =>
    -- nothing is sent
    have hevents : requestEvents config closed admission request respond = [] := by
      rw [requestEvents, hp]
    have hchain : requestChain config closed admission request respond = [] := by
      rw [requestChain, hp]
    refine iff_of_true ⟨?_, ?_, ?_, ?_, ?_⟩ (.inr (by rw [hchain]; nofun)) <;> rw [hevents]
    · nofun
    · intro pre hop post he
      simp at he
    · nofun
    · exact Nat.zero_le _
    · nofun
  | ok prepared =>
    obtain ⟨hop, protectedSecrets⟩ := prepared
    obtain ⟨hparse, output, hout, hheaders⟩ := prepare_ok config closed admission request hp
    have horigin : originalDestination config request = some hop.destination := by
      rw [originalDestination, hparse]
    have hfollows : Follows config config.limits.maxRedirects hop
        (requestEvents config closed admission request respond)
        (requestChain config closed admission request respond) := by
      rw [requestEvents, requestChain, hp]
      exact followRedirects_follows _ _ _ _
    have hcarries : ∀ sent ∈ sends (requestEvents config closed admission request respond),
        Carries config hop.destination output sent :=
      hfollows.forall_sends (.inl ⟨rfl, hheaders⟩) fun _ _ _ _ _ h _ => h.redirected _ _ _
    constructor
    · intro hcontained
      by_contra hcond
      simp only [not_or, not_forall, Bool.not_eq_true] at hcond
      obtain ⟨⟨name, secret, hs, hname⟩, d, hd, hne⟩ := hcond
      -- a send goes to `d`, with the public headers at least
      rw [← hfollows.sends_destination, List.mem_map] at hd
      obtain ⟨sent, hsent, rfl⟩ := hd
      have hmem : (name, secret.reveal) ∈ sent.headers := by
        have hmem := secret_mem_requestHeaders hout hs
        rcases hcarries sent hsent with ⟨-, hh⟩ | hh
        · rwa [hh]
        · rw [hh, publicHeaders, List.mem_filter]
          exact ⟨hmem, by rw [hname]; rfl⟩
      exact hne (hcontained.secret sent hsent name secret hs
        (List.mem_append_right _ hmem))
    · intro hcond
      refine ⟨?_, fun _ _ _ => hfollows.authorized_before, hfollows.policy,
        hfollows.sends_length, ?_⟩
      · refine hfollows.forall_sends ⟨_, hparse⟩ fun _ _ value _ _ _ hv => ⟨value, ?_⟩
        rwa [redirected_url, redirected_destination]
      intro sent hsent name secret hs hmem
      rcases hcond with hnames | hchain
      · have hname := hnames name secret hs
        have hheader : (name, secret.reveal) ∈ sent.headers := by
          by_contra hn
          rw [not_sensitive_of_default hmem hn] at hname
          cases hname
        rcases hcarries sent hsent with ⟨hd, -⟩ | hh
        · rw [horigin, hd]
        · rw [hh, publicHeaders, List.mem_filter, hname] at hheader
          cases hheader.2
      · refine hchain _ ?_
        rw [← hfollows.sends_destination]
        exact List.mem_map_of_mem hsent

end

/-! ## A forwarded secret -/

/-- The libraries on two plain URLs. -/
def plainLibrary : HTTPLibrary Text where
  unicode := ⟨fun c => [c], fun c => [c]⟩
  ipAddress := fun _ => none
  idna := some
  urlsplit := fun value =>
    if value = lit "https://billing.example/" then
      some { scheme := lit "https", netloc := billing.host, hostname := some billing.host }
    else if value = lit "https://search.example/" then
      some { scheme := lit "https", netloc := search.host, hostname := some search.host }
    else none
  queryNames := fun _ => some []
  unquote := id
  parseInt := fun _ => none
  url := some
  join := fun _ location => some location

/-- A client that may send to two destinations. -/
def plainConfig : ClientConfig Text where
  library := plainLibrary
  policy := fun d => d = billing || d = search
  redactText := some
  limits := .standard

/-- A credential. -/
def sessionSecret : SecretValue where
  reveal := lit "s3cr3t-session"
  length_range := by decide
  strip_eq := by decide
  ne_redacted := by decide
  visible := by decide

/-- A request with a credential under a name that is not sensitive. -/
def sessionRequest : OutboundRequest where
  method := lit "GET"
  url := lit "https://billing.example/"
  headers := [(lit "X-Session", .secret sessionSecret)]

/-- The first send is redirected to the other destination. -/
def redirectOnce (i : ℕ) : Except ClientError Response :=
  if i = 0 then
    .ok { status := 302, headers := [(lit "location", lit "https://search.example/")] }
  else .ok { status := 200, headers := [] }

/-- A `SecretValue` under a name that is not sensitive is sent to the other
    destination. -/
theorem secret_header_forwarded :
    ¬ RedirectContained plainConfig false (.admitted false) sessionRequest redirectOnce := by
  intro h
  have heval : ∃ hop ∈ sends (requestEvents plainConfig false (.admitted false) sessionRequest
        redirectOnce), (lit "X-Session", sessionSecret.reveal) ∈ hop.sentHeaders ∧
      originalDestination plainConfig sessionRequest ≠ some hop.destination := by
    decide +kernel
  obtain ⟨hop, hsent, hmem, hne⟩ := heval
  exact hne (h.secret hop hsent _ sessionSecret List.mem_cons_self hmem)

end McpRuntime.Outbound
