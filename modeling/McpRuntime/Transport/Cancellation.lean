import McpRuntime.Contracts
import McpRuntime.Machine
import McpRuntime.Python.Dict
import McpRuntime.Python.Json

/-!
# Cancellation of tool calls over HTTP

The stateless transport serves every HTTP request with a cancellation token of
its own, and keeps the tokens of the tool calls in flight in a table shared by
all requests, under the session, the kind and the value of the JSON-RPC id. A
token is cancelled by the disconnection of its client, by the timeout or the
shutdown of its HTTP request — and by whatever finds it in the table: a later
call with the same id, or a notification that names it.

* `transport` is the transport as a machine: HTTP requests from any identities
  arrive, receive their bodies, call tools and end in any order.
* `transportStep_cancelled` says who may cancel a token in a step.
* `call_isolated`: while no step finds the live token of a call under the id it
  carries, a token is cancelled only by its own HTTP request. Clients choose
  their ids freely, and in the stateless mode every request has the same
  session, none: two identities with the same id collide
  (`call_cancelled_by_other_identity`).
-/

namespace McpRuntime.Transport

/-! ## Keys -/

/-- A JSON-RPC id, apart from its kind. -/
inductive RequestId
  | integer (n : ℤ)
  | string (t : Text)
  deriving DecidableEq

/-- A key of the calls in flight: the session, and the kind and the value of
    the JSON-RPC id. -/
abbrev Key := Option Text × RequestId

/-- `_protocol_request_key_for`: a `bool` is not an id, though it is an
    `int`. -/
def protocolRequestKeyFor (sessionId : Option Text) : Json → Option Key
  | .int n => some (sessionId, .integer n)
  | .str t => some (sessionId, .string t)
  | _ => none

/-! ## State -/

/-- An HTTP request that was authenticated and admitted, with the state of
    `receive_with_cancellation` and of its cancellation token. -/
structure HTTPRequest where
  identity : AuthenticatedIdentity
  /-- `request_session_id`. -/
  sessionId : Option Text
  cancellationBody : List UInt8 := []
  bodyBounded : Bool := true
  bodyComplete : Bool := false
  cancelled : Bool := false

/-- The HTTP requests of the transport, by number, and the requests whose token
    is in the table of the calls in flight (`_active_protocol_requests`). -/
structure TransportState where
  requests : Dict ℕ HTTPRequest
  active : Dict Key ℕ

namespace TransportState

/-- `cancel()` on the token of the request `r`. -/
def cancel (s : TransportState) (r : ℕ) : TransportState :=
  match s.requests.lookup r with
  | none => s
  | some q => { s with requests := s.requests.insert r { q with cancelled := true } }

/-- `cancel()` on the token found under a key, if there is a key and a token. -/
def cancelKey (s : TransportState) (key : Option Key) : TransportState :=
  match key.bind s.active.lookup with
  | none => s
  | some r => s.cancel r

end TransportState

/-- An ASGI message of a request. -/
inductive ASGIMessage
  | disconnect
  /-- A part of the body, if it is of bytes, and whether more follows. -/
  | request (body : Option (List UInt8)) (moreBody : Bool)
  | other

/-- The configuration of the transport, with `json.loads`: the value of a
    document, if it is one. -/
structure TransportConfig where
  stateless : Bool := true
  maxRequestBodyBytes : ℕ
  loads : List UInt8 → Option Json

/-- An event of the transport. -/
inductive TransportEvent
  /-- An authenticated HTTP request arrives. -/
  | arrive (r : ℕ) (identity : AuthenticatedIdentity) (sessionIds : List Text)
  /-- The request receives a message. -/
  | receive (r : ℕ) (message : ASGIMessage)
  /-- The SDK dispatches a `notifications/cancelled` of the request. -/
  | notification (r : ℕ) (params : Option (List (Text × Json)))
  /-- The SDK dispatches a `tools/call` of the request: the call starts. -/
  | callTool (r : ℕ) (requestId : Json)
  /-- The call ends, in whatever way. -/
  | callEnd (r : ℕ) (requestId : Json)
  /-- The request has not ended after `max_stream_seconds`. -/
  | timeout (r : ℕ)
  /-- The task of the request is cancelled: the process shuts down. -/
  | shutdown (r : ℕ)
  /-- The transport stops. -/
  | stop

/-! ## Steps -/

/-- The id that a cancellation document names
    (`cancel_protocol_request_body`). -/
def cancelledRequestId : Json → Option Json
  | .obj document =>
    match Json.get (lit "method") document, Json.get (lit "params") document with
    | some (.str method), some (.obj params) =>
      if method = lit "notifications/cancelled" then
        some ((Json.get (lit "requestId") params).getD .null)
      else none
    | _, _ => none
  | _ => none

/-- The id that the parameters of a cancellation notification name
    (`cancel_protocol_request`). -/
def notifiedRequestId (params : List (Text × Json)) : Json :=
  (Json.get (lit "requestId") params).getD ((Json.get (lit "request_id") params).getD .null)

/-- The request after a part of the body, if it is of bytes, was kept for the
    cancellation document: what exceeds the bound drops the body. -/
def HTTPRequest.takeChunk (q : HTTPRequest) (maximum : ℕ) : Option (List UInt8) → HTTPRequest
  | none => q
  | some chunk =>
    if q.bodyBounded then
      if q.cancellationBody.length + chunk.length ≤ maximum then
        { q with cancellationBody := q.cancellationBody ++ chunk }
      else { q with cancellationBody := [], bodyBounded := false }
    else q

/-- The request after `receive_with_cancellation` has taken a part of the
    body. -/
def HTTPRequest.receiveBody (q : HTTPRequest) (maximum : ℕ) (chunk : Option (List UInt8))
    (moreBody : Bool) : HTTPRequest :=
  if q.bodyComplete then q
  else if moreBody then q.takeChunk maximum chunk
  else { q.takeChunk maximum chunk with bodyComplete := true }

/-- The document that a part of the body completes. -/
def completedDocument (config : TransportConfig) (q : HTTPRequest) (chunk : Option (List UInt8))
    (moreBody : Bool) : Option Json :=
  let q' := q.receiveBody config.maxRequestBodyBytes chunk moreBody
  if q.bodyComplete || moreBody || !q'.bodyBounded then none
  else config.loads q'.cancellationBody

/-- The key a step looks up in the table of the calls in flight, to cancel the
    token it finds there. -/
def cancelledKey (config : TransportConfig) (s : TransportState) : TransportEvent → Option Key
  | .receive r (.request chunk moreBody) => do
    let q ← s.requests.lookup r
    let document ← completedDocument config q chunk moreBody
    let requestId ← cancelledRequestId document
    protocolRequestKeyFor q.sessionId requestId
  | .notification r (some params) => do
    let q ← s.requests.lookup r
    protocolRequestKeyFor q.sessionId (notifiedRequestId params)
  | .callTool r requestId => do
    let q ← s.requests.lookup r
    protocolRequestKeyFor q.sessionId requestId
  | _ => none

/-- The state after an event. -/
def transportStep (config : TransportConfig) (s : TransportState) (e : TransportEvent) :
    Option TransportState :=
  match e with
  | .arrive r identity sessionIds =>
    if r ∈ s.requests then none
    -- an HTTP request with a session is answered 404 in the stateless mode
    else if config.stateless && !sessionIds.isEmpty then some s
    else
      let sessionId := match sessionIds with
        | [sessionId] => some sessionId
        | _ => none
      some { s with requests := s.requests.insert r { identity, sessionId } }
  | .receive r message => do
    let q ← s.requests.lookup r
    match message with
    | .disconnect => some (s.cancel r)
    | .request chunk moreBody =>
      let received := { s with
        requests := s.requests.insert r (q.receiveBody config.maxRequestBodyBytes chunk moreBody) }
      some (received.cancelKey (cancelledKey config s e))
    | .other => some s
  | .notification r _ => do
    let _ ← s.requests.lookup r
    some (s.cancelKey (cancelledKey config s e))
  | .callTool r _ => do
    let _ ← s.requests.lookup r
    match cancelledKey config s e with
    | none => some s
    | some key =>
      let cancelled := s.cancelKey (some key)
      some { cancelled with active := cancelled.active.insert key r }
  | .callEnd r requestId => do
    let q ← s.requests.lookup r
    match protocolRequestKeyFor q.sessionId requestId with
    | none => some s
    | some key =>
      if s.active.lookup key = some r then some { s with active := s.active.erase key }
      else some s
  | .timeout r | .shutdown r => do
    let _ ← s.requests.lookup r
    some (s.cancel r)
  | .stop => some { s with active := ∅ }

/-- The transport, from no request. -/
def transport (config : TransportConfig) : Machine TransportState TransportEvent where
  init := ⟨∅, ∅⟩
  step := transportStep config

/-! ## Who cancels -/

namespace TransportState

/-- The token of the request `r` is cancelled. -/
def Cancelled (s : TransportState) (r : ℕ) : Prop :=
  ∃ q ∈ s.requests.lookup r, q.cancelled = true

instance (s : TransportState) (r : ℕ) : Decidable (s.Cancelled r) := by
  unfold Cancelled; infer_instance

/-- A token that `cancel()` leaves cancelled was cancelled or is its target. -/
theorem Cancelled.of_cancel {s : TransportState} {r r' : ℕ} (h : (s.cancel r).Cancelled r') :
    s.Cancelled r' ∨ r' = r := by
  rw [cancel] at h
  split at h
  · exact .inl h
  · obtain ⟨q', hq', hc⟩ := h
    rw [Option.mem_def, Dict.lookup_insert] at hq'
    split_ifs at hq' with hr
    · exact .inr hr
    · exact .inl ⟨q', hq', hc⟩

/-- A token that the lookup of a key leaves cancelled was cancelled or is found
    under the key. -/
theorem Cancelled.of_cancelKey {s : TransportState} {key : Option Key} {r : ℕ}
    (h : (s.cancelKey key).Cancelled r) :
    s.Cancelled r ∨ ∃ k, key = some k ∧ s.active.lookup k = some r := by
  rw [cancelKey] at h
  split at h
  · exact .inl h
  · next r' hr' =>
    obtain ⟨k, hk, hr'⟩ := Option.bind_eq_some_iff.1 hr'
    rcases h.of_cancel with h | rfl
    · exact .inl h
    · exact .inr ⟨k, hk, hr'⟩

/-- A request whose token is not changed is cancelled only if it was. -/
theorem Cancelled.of_insert {s : TransportState} {r r' : ℕ} {q q' : HTTPRequest}
    (hq : s.requests.lookup r = some q) (hc : q'.cancelled = q.cancelled)
    (h : Cancelled { s with requests := s.requests.insert r q' } r') : s.Cancelled r' := by
  obtain ⟨p, hp, hpc⟩ := h
  rw [Option.mem_def, Dict.lookup_insert] at hp
  split_ifs at hp with hr
  · obtain rfl := Option.some.inj hp
    exact ⟨q, hr ▸ hq, hc ▸ hpc⟩
  · exact ⟨p, hp, hpc⟩

end TransportState

/-- Receiving a body does not touch the token. -/
@[simp] theorem HTTPRequest.receiveBody_cancelled (q : HTTPRequest) (maximum : ℕ)
    (chunk : Option (List UInt8)) (moreBody : Bool) :
    (q.receiveBody maximum chunk moreBody).cancelled = q.cancelled := by
  have htake : (q.takeChunk maximum chunk).cancelled = q.cancelled := by
    cases chunk with
    | none => rfl
    | some chunk => simp only [takeChunk]; split_ifs <;> rfl
  simp only [receiveBody]
  split_ifs
  · rfl
  · exact htake
  · exact htake

/-- The event cancels the token of the request `r` in its own name: its client
    disconnects, or it times out, or its task is cancelled. -/
def OwnCause (r : ℕ) (e : TransportEvent) : Prop :=
  e = .receive r .disconnect ∨ e = .timeout r ∨ e = .shutdown r

variable {config : TransportConfig}

/-- A token that a step leaves cancelled was cancelled, or the step is its own
    cause, or the step found it in the table. -/
theorem transportStep_cancelled {s s' : TransportState} {e : TransportEvent}
    (h : (transport config).step s e = some s') {r : ℕ} (hc : s'.Cancelled r) :
    s.Cancelled r ∨ OwnCause r e ∨
      ∃ key, cancelledKey config s e = some key ∧ s.active.lookup key = some r := by
  change transportStep config s e = some s' at h
  cases e with
  | arrive r' identity sessionIds =>
    simp only [transportStep] at h
    split_ifs at h with hr' hs
    · obtain rfl := Option.some.inj h
      exact .inl hc
    · obtain rfl := Option.some.inj h
      obtain ⟨q, hq, hqc⟩ := hc
      rw [Option.mem_def, Dict.lookup_insert] at hq
      split_ifs at hq with he
      · -- A request arrives with a token that is not cancelled.
        obtain rfl := Option.some.inj hq
        cases hqc
      · exact .inl ⟨q, hq, hqc⟩
  | receive r' message =>
    obtain ⟨q, hq, h⟩ := Option.bind_eq_some_iff.1 h
    cases message with
    | disconnect =>
      obtain rfl := Option.some.inj h
      rcases hc.of_cancel with hc | rfl
      · exact .inl hc
      · exact .inr (.inl (.inl rfl))
    | request chunk moreBody =>
      -- The body that is completed may be a notification of a cancellation.
      obtain rfl := Option.some.inj h
      rcases hc.of_cancelKey with hc | hc
      · exact .inl (hc.of_insert hq (q.receiveBody_cancelled _ _ _))
      · exact .inr (.inr hc)
    | other =>
      obtain rfl := Option.some.inj h
      exact .inl hc
  | notification r' params =>
    obtain ⟨q, -, h⟩ := Option.bind_eq_some_iff.1 h
    obtain rfl := Option.some.inj h
    exact hc.of_cancelKey.imp_right .inr
  | callTool r' requestId =>
    obtain ⟨q, -, h⟩ := Option.bind_eq_some_iff.1 h
    split at h
    · obtain rfl := Option.some.inj h
      exact .inl hc
    · -- A call whose key is in the table cancels the one that it replaces.
      next key hkey =>
      obtain rfl := Option.some.inj h
      rw [hkey]
      exact (TransportState.Cancelled.of_cancelKey hc).imp_right .inr
  | callEnd r' requestId =>
    obtain ⟨q, -, h⟩ := Option.bind_eq_some_iff.1 h
    split at h
    · obtain rfl := Option.some.inj h
      exact .inl hc
    · split_ifs at h <;> obtain rfl := Option.some.inj h <;> exact .inl hc
  | timeout r' =>
    obtain ⟨q, -, h⟩ := Option.bind_eq_some_iff.1 h
    obtain rfl := Option.some.inj h
    rcases hc.of_cancel with hc | rfl
    · exact .inl hc
    · exact .inr (.inl (.inr (.inl rfl)))
  | shutdown r' =>
    obtain ⟨q, -, h⟩ := Option.bind_eq_some_iff.1 h
    obtain rfl := Option.some.inj h
    rcases hc.of_cancel with hc | rfl
    · exact .inl hc
    · exact .inr (.inl (.inr (.inr rfl)))
  | stop =>
    obtain rfl := Option.some.inj h
    exact .inl hc

/-! ## Isolation -/

/-- The step finds no live token in the table of the calls in flight. -/
def NoCollision (config : TransportConfig) (s : TransportState) (e : TransportEvent) : Prop :=
  ∀ key ∈ cancelledKey config s e, ∀ r ∈ s.active.lookup key, s.Cancelled r

/-- While no step finds the live token of a call under the id it carries, a
    token is cancelled only by its own HTTP request: its client has
    disconnected, or it has timed out, or its task was cancelled. -/
theorem call_isolated {h : List TransportEvent} {s : TransportState}
    (hr : (transport config).Run (NoCollision config) h s) {r : ℕ} (hc : s.Cancelled r) :
    ∃ e ∈ h, OwnCause r e := by
  refine hr.history_invariant (I := fun h s => ∀ r, s.Cancelled r → ∃ e ∈ h, OwnCause r e)
    ?_ ?_ r hc
  · rintro r ⟨q, hq, -⟩
    cases hq
  · intro h s e s' ih hg hs r hc
    rcases transportStep_cancelled hs hc with hc | hown | ⟨key, hkey, hactive⟩
    · obtain ⟨e', he', hown⟩ := ih r hc
      exact ⟨e', List.mem_cons_of_mem _ he', hown⟩
    · exact ⟨e, List.mem_cons_self, hown⟩
    · obtain ⟨e', he', hown⟩ := ih r (hg key hkey r hactive)
      exact ⟨e', List.mem_cons_of_mem _ he', hown⟩

instance (config : TransportConfig) (s : TransportState) :
    DecidablePred (NoCollision config s) := fun e => by
  unfold NoCollision; infer_instance

/-! ## Colliding ids -/

/-- A stateless transport, whose requests send no cancellation document. -/
def statelessConfig : TransportConfig where
  maxRequestBodyBytes := 1024
  loads := fun _ => none

/-- Alice calls a tool, and then Bob does, in HTTP requests of their own. -/
def callEvents (aliceId bobId : ℤ) : List TransportEvent :=
  [.arrive 0 alice [], .callTool 0 (.int aliceId), .arrive 1 bob [], .callTool 1 (.int bobId)]

theorem call_isolated_example :
    ∃ h s, (transport statelessConfig).Run (NoCollision statelessConfig) h s ∧
      s.Cancelled 0 ∧ ∃ e ∈ h, OwnCause 0 e := by
  have heval : ∃ s ∈ (transport statelessConfig).exec (transport statelessConfig).init
        (callEvents 7 8 ++ [.receive 0 .disconnect]),
      (transport statelessConfig).Meets (NoCollision statelessConfig)
        (transport statelessConfig).init (callEvents 7 8 ++ [.receive 0 .disconnect]) ∧
      s.Cancelled 0 := by decide +kernel
  obtain ⟨s, hs, hmeets, hc⟩ := heval
  have hr := Machine.run_of_exec hs hmeets
  exact ⟨_, s, hr, hc, call_isolated hr hc⟩

/-- The call of one identity is cancelled by the call of another one that
    carries the same id: nothing else has happened. -/
theorem call_cancelled_by_other_identity :
    alice ≠ bob ∧
    ∃ s, (transport statelessConfig).Run Machine.Free (callEvents 7 7).reverse s ∧
      s.Cancelled 0 ∧ ¬ ∃ e ∈ (callEvents 7 7).reverse, OwnCause 0 e := by
  have heval : ∃ s ∈ (transport statelessConfig).exec (transport statelessConfig).init
      (callEvents 7 7), s.Cancelled 0 := by decide +kernel
  obtain ⟨s, hs, hc⟩ := heval
  refine ⟨by decide, s, Machine.run_of_exec hs (Machine.meets_free _ _), hc, ?_⟩
  rintro ⟨e, he, hown⟩
  simp only [callEvents, List.reverse_cons, List.reverse_nil, List.nil_append, List.cons_append,
    List.mem_cons, List.not_mem_nil, or_false] at he
  rcases he with rfl | rfl | rfl | rfl <;> rcases hown with hown | hown | hown <;> cases hown

end McpRuntime.Transport
