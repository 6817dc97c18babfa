import McpRuntime.Contracts
import McpRuntime.Transport.Response

/-!
# Sessions of the transport

In its stateful mode, the transport binds each session to the identity that created
it, and bounds the sessions that it keeps. A request takes a *lease* when it is
admitted: on the session it names, or on a reservation for the session that the SDK
creates for it. It gives the lease back when it is completed or aborted.

* `SessionTable` holds the sessions and the reservations; `admitSession`,
  `abortSession` and `completeSession` are its operations. Each moves the counts
  without an `await`, under a lock that is therefore free, and may then wait for the
  SDK to remove a session.
* `leases` is a transport with its requests as a machine: requests are admitted, end
  and wait for the SDK in any order, with any outcome.

The counts are the subject of `McpRuntime.Transport.SessionLeases`.
-/

namespace McpRuntime.Transport

/-! ## The table -/

/-- `_session_owner`: the tenant, the issuer and the subject. -/
abbrev Owner := Text × Text × Text

/-- `_session_owner`. -/
def sessionOwner (identity : AuthenticatedIdentity) : Owner :=
  (identity.tenant, identity.issuer, identity.subject)

/-- `_SessionRecord`. -/
structure SessionRecord where
  owner : Owner
  expiresAt : PyFloat
  inFlight : ℕ := 0
  expired : Bool := false
  deriving DecidableEq

/-- `_SessionLease`. -/
inductive SessionLease
  /-- The request has no session. -/
  | none
  | session (sessionId : Text)
  | reserved (owner : Owner)
  deriving DecidableEq

/-- `_sessions`, in the order of their creation, and `_pending_sessions`. -/
structure SessionTable where
  sessions : List (Text × SessionRecord) := []
  pending : ℕ := 0
  deriving DecidableEq

/-- The limits of the transport on its sessions, with the rounding of its clock, and
    the protocol versions of the SDK that begin with a handshake
    (`HANDSHAKE_PROTOCOL_VERSIONS`). -/
structure SessionConfig where
  stateless : Bool := false
  maxSessions : ℕ
  sessionLifetimeSeconds : ℚ
  handshakeProtocolVersions : List Text
  rounding : Rounding

/-- `_valid_session_id`. -/
def validSessionId (value : Text) : Bool :=
  value.length = 32 && value.all fun character => (lit "0123456789abcdef").contains character

/-- `_SessionAdmissionError`. -/
structure SessionAdmissionError where
  status : ℕ
  code : ℤ
  message : Text

/-- The error of a request whose session is malformed, or unknown to its owner. -/
def invalidSession (status : ℕ) : SessionAdmissionError := ⟨status, -32600, lit "Invalid session"⟩

/-- The error of a request beyond the limit. -/
def sessionLimitReached : SessionAdmissionError := ⟨429, -32603, lit "Session limit reached"⟩

/-- What follows the locked part of an operation. -/
inductive LockedEnd
  | returns
  | raises
  /-- It waits for `_remove_sdk_session`. -/
  | removes (sessionId : Text) (terminate : Bool)
  deriving DecidableEq

namespace SessionTable

variable (t : SessionTable)

/-- `_sessions.get(session_id)`. -/
def find (sessionId : Text) : Option SessionRecord := t.sessions.lookup sessionId

/-- The record of a session is changed. -/
def modify (sessionId : Text) (f : SessionRecord → SessionRecord) : SessionTable :=
  { t with sessions := t.sessions.map fun p => if p.1 = sessionId then (p.1, f p.2) else p }

/-- `del self._sessions[session_id]`. -/
def erase (sessionId : Text) : SessionTable :=
  { t with sessions := t.sessions.filter fun p => p.1 ≠ sessionId }

/-- A session is beyond its lifetime. -/
def overdue (now : ℚ) (record : SessionRecord) : Bool := !(PyFloat.finite now).lt record.expiresAt

/-- `_expired_sessions_locked`: the sessions that are removed from the table. -/
def expiredSessions (now : ℚ) : List Text :=
  (t.sessions.filter fun p => overdue now p.2 && p.2.inFlight = 0).map Prod.fst

/-- `_expired_sessions_locked`: the table after it, where the sessions in use are
    marked. -/
def expire (now : ℚ) : SessionTable :=
  { t with
    sessions := (t.sessions.filter fun p => !(overdue now p.2 && p.2.inFlight = 0)).map fun p =>
      (p.1, if overdue now p.2 then { p.2 with expired := true } else p.2) }

/-- The locked part of `admit_session`, after the expired sessions were removed: the
    table and the lease, or the error. -/
def lease (config : SessionConfig) (sessionIds protocolVersions : List Text) (owner : Owner) :
    SessionTable × Except SessionAdmissionError SessionLease :=
  match sessionIds, protocolVersions with
  | sessionId :: _, _ =>
    match t.find sessionId with
    | none => (t, .error (invalidSession 404))
    | some record =>
      if !validSessionId sessionId || record.expired || record.owner ≠ owner then
        (t, .error (invalidSession 404))
      else
        (t.modify sessionId fun record => { record with inFlight := record.inFlight + 1 },
          .ok (.session sessionId))
  | [], version :: _ =>
    if config.handshakeProtocolVersions.contains version then (t, .error (invalidSession 404))
    else (t, .ok .none)
  | [], [] =>
    if t.sessions.length + t.pending ≥ config.maxSessions then (t, .error sessionLimitReached)
    else ({ t with pending := t.pending + 1 }, .ok (.reserved owner))

/-- The values of a header of a request. -/
def headerValues (headers : List (Text × Text)) (name : Text) : List Text :=
  (headers.filter fun header => header.1 = name).map Prod.snd

/-- `admit_session`, up to the removal of the expired sessions: the table, the lease
    or the error, and those sessions. -/
def admitSession (config : SessionConfig) (headers : List (Text × Text)) (owner : Owner) (now : ℚ) :
    SessionTable × Except SessionAdmissionError SessionLease × List Text :=
  let sessionIds := headerValues headers (lit "mcp-session-id")
  let protocolVersions := headerValues headers (lit "mcp-protocol-version")
  if config.stateless then (t, .ok .none, [])
  else if sessionIds.length > 1 || protocolVersions.length > 1 then (t, .error (invalidSession 400), [])
  else
    let (t', result) := (t.expire now).lease config sessionIds protocolVersions owner
    (t', result, t.expiredSessions now)

/-- The locked part of `_release_session`. -/
def releaseSession (sessionId : Text) (remove terminate : Bool) : SessionTable × LockedEnd :=
  match t.find sessionId with
  | none => (t, .returns)
  | some record =>
    if remove then (t.erase sessionId, .removes sessionId terminate)
    else if record.expired && record.inFlight - 1 = 0 then
      (t.erase sessionId, .removes sessionId true)
    else
      (t.modify sessionId fun record => { record with inFlight := record.inFlight - 1 }, .returns)

/-- The locked part of `abort_session`. -/
def abortSession : SessionLease → SessionTable × LockedEnd
  | .none => (t, .returns)
  | .session sessionId => t.releaseSession sessionId false false
  | .reserved _ =>
    -- the reservation would underflow
    if t.pending < 1 then (t, .raises) else ({ t with pending := t.pending - 1 }, .returns)

end SessionTable

/-! ## Completion -/

/-- `_AtomicResponseLimiter.status`, unless it raises. -/
def Limiter.status (l : Limiter) : Option ℤ :=
  match l.start with
  | some (some status, _) => if l.ready then some status else none
  | _ => none

/-- `_AtomicResponseLimiter.header_values`, unless it raises. -/
def Limiter.headerValues (l : Limiter) (name : List UInt8) : Option (List (List UInt8)) :=
  match l.start with
  | some (_, some headers) =>
    if l.ready then some ((headers.filter fun header => lowerBytes header.1 = name).map Prod.snd)
    else none
  | _ => none

/-- `bytes.decode("ascii")`. -/
def decodeAscii (b : List UInt8) : Option Text :=
  if b.all fun c => c < 128 then some (b.map fun c => Fin.ofNat 0x110000 c.toNat) else none

/-- The session that a response creates: a single id of ASCII characters. -/
def createdSession : List (List UInt8) → Option Text
  | [value] => decodeAscii value
  | _ => none

/-- A status of success. -/
def successful (status : ℤ) : Bool := 200 ≤ status && status < 300

namespace SessionTable

variable (t : SessionTable) (config : SessionConfig)

/-- The locked part of `complete_session` for a reservation, which it turns into the
    session that the response has created, if there is one. -/
def completeReservation (owner : Owner) (sessionId : Option Text) (status : ℤ) (now : ℚ) :
    SessionTable × LockedEnd :=
  if t.pending < 1 then (t, .raises)
  else
    let t' := { t with pending := t.pending - 1 }
    match sessionId with
    | none => (t', if successful status then .raises else .returns)
    | some sessionId =>
      if successful status && validSessionId sessionId && (t.find sessionId).isNone then
        let expiresAt := PyFloat.add config.rounding (.finite now) (.finite config.sessionLifetimeSeconds)
        ({ t' with sessions := t.sessions ++ [(sessionId, { owner, expiresAt })] }, .returns)
      else (t', .removes sessionId true)

/-- `complete_session`, up to the removal of a session from the SDK. The response is
    read before the lease is given back. -/
def completeSession (response : Limiter) (requestMethod : Text) (now : ℚ) :
    SessionLease → SessionTable × LockedEnd
  | .none => (t, .returns)
  | .reserved owner =>
    match response.headerValues (bytesLit "mcp-session-id") with
    | none => (t, .raises)
    | some responseSessionIds =>
      match response.status with
      | none => (t, .raises)
      | some status => t.completeReservation config owner (createdSession responseSessionIds) status now
  | .session sessionId =>
    if requestMethod = lit "DELETE" then
      match response.status with
      | none => (t, .raises)
      | some status => t.releaseSession sessionId (successful status) false
    else t.releaseSession sessionId false false

end SessionTable

/-! ## The requests -/

/-- Where a request is, as far as its lease is concerned. -/
inductive LeasePhase
  /-- The admission has taken the lease, or rejected the request, and waits for the
      SDK to remove the expired sessions. -/
  | removing (rejected : Bool) (left : List Text)
  /-- The SDK answers the request. -/
  | serving
  /-- The lease was given back after the timeout, or after the token was cancelled, and
      `abort_session` waits for the SDK to remove its session. -/
  | aborting
  /-- What is left to do has no more to do with the lease. -/
  | finishing
  | ended
  deriving DecidableEq

/-- A request with its lease. -/
structure SessionRequest where
  lease : SessionLease
  phase : LeasePhase
  deriving DecidableEq

/-- The sessions of a transport, and its requests, by number. -/
structure Leases where
  table : SessionTable := {}
  requests : List SessionRequest := []
  deriving DecidableEq

/-- How the SDK leaves a request. -/
inductive SdkLeave
  /-- It has not ended in time. -/
  | timeout
  /-- It has ended, and the token of the request was cancelled. -/
  | tokenCancelled
  /-- It has ended, with the response in the limiter. -/
  | returned (response : Limiter) (requestMethod : Text) (now : ℚ)
  /-- It has raised an `Exception`. -/
  | raised
  /-- It has raised a `CancelledError`, or the task of the request was cancelled. -/
  | cancelled
  /-- It has raised another `BaseException`. -/
  | escaped

/-- An event of the requests. -/
inductive LeaseEvent
  /-- A new request is admitted, or rejected. -/
  | arrive (headers : List (Text × Text)) (owner : Owner) (now : ℚ)
  /-- A removal that an admission or an abort waits for ends. -/
  | removed (r : ℕ) (ending : Ending)
  /-- The request goes on after the SDK. -/
  | leave (r : ℕ) (how : SdkLeave)
  /-- The request ends. -/
  | finish (r : ℕ)

namespace Leases

variable (config : SessionConfig) (s : Leases)

/-- A request moves on, with the table that it leaves. -/
def move (r : ℕ) (table : SessionTable) (lease : SessionLease) (phase : LeasePhase) : Leases :=
  { table, requests := s.requests.set r ⟨lease, phase⟩ }

/-- A new request comes to the table. -/
def arrive (headers : List (Text × Text)) (owner : Owner) (now : ℚ) : Leases :=
  match s.table.admitSession config headers owner now with
  | (table, .ok lease, []) => { table, requests := s.requests ++ [⟨lease, .serving⟩] }
  | (table, .ok lease, left) => { table, requests := s.requests ++ [⟨lease, .removing false left⟩] }
  | (table, .error _, []) => { table, requests := s.requests ++ [⟨.none, .finishing⟩] }
  | (table, .error _, left) => { table, requests := s.requests ++ [⟨.none, .removing true left⟩] }

/-- The removal of an expired session has ended, with `left` after it. What it raises
    ends the admission, whose lease is lost. -/
def removedExpired (r : ℕ) (lease : SessionLease) (rejected : Bool) (left : List Text) :
    Ending → Leases
  | .returns =>
    match left with
    | [] => s.move r s.table lease (if rejected then .finishing else .serving)
    | left => s.move r s.table lease (.removing rejected left)
  | .raises => s.move r s.table lease .finishing
  | .cancelled | .escapes => s.move r s.table lease .ended

/-- The handlers of an `Exception` and of a `CancelledError` abort the lease. -/
def handle (r : ℕ) (lease : SessionLease) : Leases :=
  s.move r (s.table.abortSession lease).1 lease .finishing

/-- The removal in an abort has ended. Where it raises, the lease does not count as
    completed, and its handler aborts it again. -/
def removedAborted (r : ℕ) (lease : SessionLease) : Ending → Leases
  | .returns => s.move r s.table lease .finishing
  | .raises | .cancelled => s.handle r lease
  | .escapes => s.move r s.table lease .ended

/-- The lease is aborted in the body of the call. -/
def abort (r : ℕ) (lease : SessionLease) : Leases :=
  match s.table.abortSession lease with
  | (table, .returns) => s.move r table lease .finishing
  | (table, .removes _ _) => s.move r table lease .aborting
  | (table, .raises) => { s with table }.handle r lease

/-- A request goes on after the SDK. -/
def leave (r : ℕ) (lease : SessionLease) : SdkLeave → Leases
  | .timeout | .tokenCancelled => s.abort r lease
  -- however the completion ends, the lease is not aborted after it
  | .returned response requestMethod now =>
    s.move r (s.table.completeSession config response requestMethod now lease).1 lease .finishing
  | .raised | .cancelled => s.handle r lease
  | .escaped => s.move r s.table lease .ended

end Leases

/-- The sessions of a transport with its requests. -/
def leases (config : SessionConfig) : Machine Leases LeaseEvent where
  init := {}
  step
    | s, .arrive headers owner now => some (s.arrive config headers owner now)
    | s, .removed r ending =>
      match s.requests[r]? with
      | some ⟨lease, .removing rejected (_ :: left)⟩ =>
        some (s.removedExpired r lease rejected left ending)
      | some ⟨lease, .aborting⟩ => some (s.removedAborted r lease ending)
      | _ => none
    | s, .leave r how =>
      match s.requests[r]? with
      | some ⟨lease, .serving⟩ => some (s.leave config r lease how)
      | _ => none
    | s, .finish r =>
      match s.requests[r]? with
      | some ⟨lease, .finishing⟩ => some (s.move r s.table lease .ended)
      | _ => none

end McpRuntime.Transport
