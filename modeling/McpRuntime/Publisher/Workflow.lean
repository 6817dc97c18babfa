import McpRuntime.Publisher.Delegates

/-!
# The publication workflow

`execute` publishes to the registry first, reads the artifact back and verifies it,
and then publishes to the official registry where that is requested. An apply that
succeeded must not be lost: it ends in a verified outcome, or in an error that asks
to reconcile it.

* `Settled`: a publication that is not lost.
* `Recoverable`: the receipt of the apply can be read, and nothing after it raises
  what the workflow does not expect there.
* `settled_iff_recoverable`: an artifact that is applied is not lost exactly when it
  is recoverable.
* `applied_and_lost`: an apply whose output is not understood.
-/

namespace McpRuntime.Publisher

/-- `PublicationStatus`. -/
inductive PublicationStatus
  | dryRun
  | partialOutcome
  | verified
  deriving DecidableEq

/-- `OfficialPublicationStatus`. -/
inductive OfficialPublicationStatus
  | failed
  | notRequested
  | published
  | validated
  deriving DecidableEq

/-- `PublicationOutcome`. -/
structure PublicationOutcome where
  status : PublicationStatus
  officialStatus : OfficialPublicationStatus
  requestId : Text
  idempotencyKey : Text
  ref : Text
  digest : Text
  artifactDigest : Text
  version : Text
  created : Option Bool
  artifact : Option PublishedArtifact

/-- `PublicationOutcome(...)`, which raises `PublicationValidationError` when a check
    fails. -/
def PublicationOutcome.check (outcome : PublicationOutcome) : Fallible PublicationOutcome :=
  if outcome.requestId ≠ [] ∧ outcome.idempotencyKey ≠ [] ∧ isSafeId outcome.ref ∧
      Gateway.isRegistryDigest outcome.digest ∧ Gateway.isRegistryDigest outcome.artifactDigest then
    .ok outcome
  else .error (.publication { code := .commandOutputInvalid, errorClass := .validationError })

/-- `_IDEMPOTENCY_KEY`. -/
def isIdempotencyKey (t : Text) : Bool :=
  matchesName CodePoint.isAlphanumeric (fun c => c.isAlphanumeric || (lit "._:+-").contains c) 200 t &&
    8 ≤ t.length

/-- `_REQUEST_ID`. -/
def isRequestId : Text → Bool :=
  matchesName CodePoint.isAlphanumeric (fun c => c.isAlphanumeric || (lit "._:-").contains c) 128

/-- The exceptions of a read-back that leave the outcome unknown:
    `(PublicationError, CancelledError, TypeError, ValueError)`. -/
def Raised.isExpected : Raised → Bool
  | .other => false
  | _ => true

/-- A `PublicationError`. -/
def Raised.isPublicationError : Raised → Bool
  | .publication _ => true
  | _ => false

/-- An error that says that the outcome is unknown. -/
def Raised.isUnknown : Raised → Bool
  | .publication e => e.errorClass = .unknownOutcomeError
  | _ => false

/-- The arguments of `execute`, besides the publication. -/
structure Arguments where
  idempotencyKey : Text
  requestId : Text
  dryRun : Bool := false
  publishOfficial : Bool := false

/-- The artifact is the one that was prepared. -/
def Names (prepared : PreparedPublication) (artifact : PublishedArtifact) : Prop :=
  artifact.name = prepared.name ∧ artifact.namespace = prepared.namespace ∧
    artifact.version = prepared.version ∧ artifact.ref = prepared.ref ∧
      artifact.digest = prepared.registryDigest

instance (prepared : PreparedPublication) (artifact : PublishedArtifact) :
    Decidable (Names prepared artifact) := inferInstanceAs (Decidable (_ ∧ _))

namespace Delegates

variable (d : Delegates)

/-- The artifact that is read back and verified. -/
def readBack (prepared : PreparedPublication) (requestId : Text) : Fallible PublishedArtifact := do
  let artifact ← d.fetch prepared requestId
  if ¬ Names prepared artifact then fail .commandOutputInvalid requestId
  else
    d.verify artifact requestId
    .ok artifact

/-- The publication to the official registry, after that to the registry. -/
def publishOfficially (prepared : PreparedPublication) (requestId : Text) :
    Fallible (PublicationStatus × OfficialPublicationStatus) :=
  match (do d.officialValidate prepared requestId; d.officialPublish prepared requestId) with
  | .error (.publication _) => .ok (.partialOutcome, .failed)
  | .error e => .error e
  | .ok _ => .ok (.verified, .published)

/-- `execute`, from the receipt of the apply on. -/
def afterReceipt (prepared : PreparedPublication) (arguments : Arguments)
    (receipt : PublishReceipt) : Fallible PublicationOutcome :=
  match d.readBack prepared arguments.requestId with
  | .error e =>
    .error (if e.isExpected then .publication (.unknownOutcome arguments.requestId) else e)
  | .ok artifact => do
    let (status, officialStatus) ←
      if arguments.publishOfficial then d.publishOfficially prepared arguments.requestId
      else .ok (.verified, .notRequested)
    PublicationOutcome.check {
      status, officialStatus, requestId := arguments.requestId
      idempotencyKey := arguments.idempotencyKey, ref := artifact.ref, digest := artifact.digest
      artifactDigest := prepared.artifactDigest, version := artifact.version
      created := some receipt.created, artifact := some artifact }

/-- `execute`, of a workflow with an official publisher or without. -/
def execute (official : Bool) (prepared : PreparedPublication) (arguments : Arguments) :
    Fallible PublicationOutcome :=
  let requestId := arguments.requestId
  let key := arguments.idempotencyKey
  if !isIdempotencyKey key || !isRequestId requestId ||
      (arguments.publishOfficial && !official) then
    .error (.publication {
      code := .manifestInvalid
      requestId := if isRequestId requestId then requestId else lit "publication-validation"
      errorClass := .validationError })
  else if arguments.dryRun then do
    d.remoteValidate prepared key requestId
    if arguments.publishOfficial then d.officialValidate prepared requestId
    PublicationOutcome.check {
      status := .dryRun
      officialStatus := if arguments.publishOfficial then .validated else .notRequested
      requestId, idempotencyKey := key, ref := prepared.ref, digest := prepared.registryDigest
      artifactDigest := prepared.artifactDigest, version := prepared.version, created := none
      artifact := none }
  else do
    let receipt ← d.publish prepared key requestId
    d.afterReceipt prepared arguments receipt

/-! ## Applied artifacts -/

variable {d} (official : Bool) (prepared : PreparedPublication) (arguments : Arguments)

/-- The command that applies the artifact, when `execute` runs it, has the result. -/
structure Applied (d : Delegates) (result : CommandResult) : Prop where
  valid : isIdempotencyKey arguments.idempotencyKey = true ∧ isRequestId arguments.requestId = true ∧
    (arguments.publishOfficial = true → official = true)
  notDry : arguments.dryRun = false
  written : d.writeFails (.apply prepared.registryManifest false arguments.idempotencyKey) = false
  ran : d.run (.apply prepared.registryManifest false arguments.idempotencyKey) = .ok result
  succeeded : result.exitCode = 0

/-- A publication that is not lost: it is verified, or its outcome is unknown. -/
inductive Settled (prepared : PreparedPublication) : Fallible PublicationOutcome → Prop
  | verified {outcome : PublicationOutcome} {artifact : PublishedArtifact} :
      outcome.status ≠ .dryRun → outcome.artifact = some artifact → Names prepared artifact →
        outcome.ref = prepared.ref → outcome.digest = prepared.registryDigest →
          Settled prepared (.ok outcome)
  | unknown {e : PublicationError} : e.errorClass = .unknownOutcomeError →
      Settled prepared (.error (.publication e))

/-- The receipt of the apply can be read, and what comes after raises nothing that
    is not expected there. -/
structure Recoverable (d : Delegates) (result : CommandResult) : Prop where
  removed : d.removeFails (.apply prepared.registryManifest false arguments.idempotencyKey) = false
  receipt : ∃ receipt, d.receipt prepared result arguments.requestId = .ok receipt
  fetch : RaisesOnly (fun e => e.isExpected = true) (d.fetch prepared arguments.requestId)
  verify : ∀ artifact, d.fetch prepared arguments.requestId = .ok artifact →
    Names prepared artifact →
      RaisesOnly (fun e => e.isExpected = true) (d.verify artifact arguments.requestId)
  official : ∀ artifact, d.fetch prepared arguments.requestId = .ok artifact →
    Names prepared artifact → d.verify artifact arguments.requestId = .ok () →
      arguments.publishOfficial = true →
        RaisesOnly (fun e => e.isPublicationError = true)
          (d.officialValidate prepared arguments.requestId) ∧
        (d.officialValidate prepared arguments.requestId = .ok () →
          RaisesOnly (fun e => e.isPublicationError = true)
            (d.officialPublish prepared arguments.requestId))

variable {official prepared arguments} {result : CommandResult}

/-- What is read back is the prepared artifact, verified. -/
theorem readBack_eq_ok {artifact : PublishedArtifact} {requestId : Text} :
    d.readBack prepared requestId = .ok artifact ↔
      d.fetch prepared requestId = .ok artifact ∧ Names prepared artifact ∧
        d.verify artifact requestId = .ok () := by
  rw [readBack, bind_eq_ok]
  constructor
  · rintro ⟨artifact', hfetch, h⟩
    obtain ⟨hnames, h⟩ := lastCheck_eq_ok.1 h
    obtain ⟨_, hverify, h⟩ := bind_eq_ok.1 h
    cases h
    exact ⟨hfetch, not_not.1 hnames, hverify⟩
  · rintro ⟨hfetch, hnames, hverify⟩
    exact ⟨artifact, hfetch, lastCheck_eq_ok.2 ⟨not_not.2 hnames, bind_eq_ok.2 ⟨_, hverify, rfl⟩⟩⟩

/-- What a read-back raises is what reading and verifying raise. -/
theorem readBack_raisesOnly {requestId : Text} :
    RaisesOnly (fun e => e.isExpected = true) (d.readBack prepared requestId) ↔
      RaisesOnly (fun e => e.isExpected = true) (d.fetch prepared requestId) ∧
        ∀ artifact, d.fetch prepared requestId = .ok artifact → Names prepared artifact →
          RaisesOnly (fun e => e.isExpected = true) (d.verify artifact requestId) := by
  rw [readBack, raisesOnly_bind]
  refine and_congr_right fun _ => forall₂_congr fun artifact _ => ?_
  split_ifs with hnames
  · rw [raisesOnly_bind, and_iff_left fun _ _ => raisesOnly_ok]
    exact ⟨fun h _ => h, fun h => h hnames⟩
  · exact ⟨fun _ h => absurd h hnames, fun _ => raisesOnly_error.2 rfl⟩

/-- The publication to the official registry raises no more than its two steps, and
    no `PublicationError`. -/
theorem publishOfficially_cases (d : Delegates) (prepared : PreparedPublication) (requestId : Text) :
    (∃ status officialStatus, status ≠ .dryRun ∧
      d.publishOfficially prepared requestId = .ok (status, officialStatus) ∧
      RaisesOnly (fun e => e.isPublicationError = true)
        (do d.officialValidate prepared requestId; d.officialPublish prepared requestId)) ∨
    ∃ e : Raised, e.isPublicationError = false ∧ d.publishOfficially prepared requestId = .error e ∧
      (do d.officialValidate prepared requestId; d.officialPublish prepared requestId) = .error e := by
  rw [publishOfficially]
  cases h : (do d.officialValidate prepared requestId; d.officialPublish prepared requestId) with
  | ok _ => exact .inl ⟨.verified, .published, nofun, rfl, raisesOnly_ok⟩
  | error e =>
    cases e with
    | publication e => exact .inl ⟨.partialOutcome, .failed, nofun, rfl, raisesOnly_error.2 rfl⟩
    | cancelled | typeError | valueError | other => exact .inr ⟨_, rfl, rfl, rfl⟩

/-- The outcome of a verified publication passes its checks. -/
theorem settled_outcome {artifact : PublishedArtifact} (hnames : Names prepared artifact)
    {outcome : PublicationOutcome} (hstatus : outcome.status ≠ .dryRun)
    (hartifact : outcome.artifact = some artifact) (href : outcome.ref = artifact.ref)
    (hdigest : outcome.digest = artifact.digest)
    (hartifactDigest : outcome.artifactDigest = prepared.artifactDigest)
    (hrequest : isRequestId outcome.requestId = true)
    (hkey : isIdempotencyKey outcome.idempotencyKey = true) :
    Settled prepared outcome.check := by
  have hrequest' : outcome.requestId ≠ [] := by
    intro hnil
    rw [hnil] at hrequest
    exact Bool.false_ne_true hrequest
  have hkey' : outcome.idempotencyKey ≠ [] := by
    intro hnil
    rw [hnil] at hkey
    exact Bool.false_ne_true hkey
  rw [PublicationOutcome.check, if_pos]
  · exact .verified hstatus hartifact hnames (href.trans hnames.2.2.2.1)
      (hdigest.trans hnames.2.2.2.2)
  · rw [href, hdigest, hartifactDigest]
    exact ⟨hrequest', hkey', artifact.ref_isSafeId, artifact.digest_isDigest,
      prepared.artifactDigest_isDigest⟩

/-- Where the workflow raises, the publication is not lost only if the exception says
    that the outcome is unknown. -/
theorem settled_error {e : Raised} : Settled prepared (.error e) ↔ e.isUnknown = true := by
  constructor
  · rintro ⟨⟩
    exact decide_eq_true ‹_›
  · intro he
    cases e with
    | publication e => exact .unknown (of_decide_eq_true he)
    | cancelled | typeError | valueError | other => cases he

/-! ## The receipt -/

/-- An item that is reported raises nothing but `ValueError`. -/
theorem appliedItem_raisesOnly (prepared : PreparedPublication) (item : Json) :
    RaisesOnly (fun e => e = .valueError) (appliedItem prepared item) := by
  have hmapping : RaisesOnly (fun e => e = Raised.valueError) (mapping item) := by
    cases item with
    | obj => exact raisesOnly_ok
    | null | bool | int | float | str | arr => exact raisesOnly_error.2 rfl
  have htext (values : List (Text × Json)) (key : Text) :
      RaisesOnly (fun e => e = Raised.valueError) (text values key) := by
    rw [text]
    split
    · exact raisesOnly_ok
    · exact raisesOnly_error.2 rfl
  refine raisesOnly_bind.2 ⟨hmapping, fun item _ => ?_⟩
  refine raisesOnly_bind.2 ⟨htext _ _, fun kind _ => ?_⟩
  split_ifs
  · exact raisesOnly_error.2 rfl
  refine raisesOnly_bind.2 ⟨htext _ _, fun name _ => ?_⟩
  split_ifs
  · exact raisesOnly_error.2 rfl
  refine raisesOnly_bind.2 ⟨htext _ _, fun space _ => ?_⟩
  split_ifs
  · exact raisesOnly_error.2 rfl
  refine raisesOnly_bind.2 ⟨htext _ _, fun tag _ => ?_⟩
  split_ifs
  · exact raisesOnly_error.2 rfl
  split
  · exact raisesOnly_ok
  · exact raisesOnly_error.2 rfl

/-- No check of an output says that the outcome is unknown. -/
theorem document_raisesOnly (requestId : Text) :
    RaisesOnly (fun e => e.isUnknown = false) (d.document result requestId) := by
  refine raisesOnly_bind.2 ⟨?_, fun raw _ => ?_⟩
  · rw [checked]
    split
    · exact raisesOnly_error.2 rfl
    · split
      · split_ifs
        · exact raisesOnly_error.2 rfl
        · exact raisesOnly_error.2 rfl
        · exact raisesOnly_ok
      · exact raisesOnly_error.2 rfl
  · split
    · exact raisesOnly_ok
    · exact raisesOnly_error.2 rfl
    · exact raisesOnly_error.2 rfl
    · exact raisesOnly_error.2 rfl

/-- A receipt that cannot be read does not say that the outcome is unknown. -/
theorem receipt_raisesOnly (requestId : Text) :
    RaisesOnly (fun e => e.isUnknown = false) (d.receipt prepared result requestId) := by
  refine raisesOnly_bind.2 ⟨document_raisesOnly requestId, fun document _ => ?_⟩
  split_ifs
  · exact raisesOnly_error.2 rfl
  · split
    · next item _ =>
      have hitem := appliedItem_raisesOnly prepared item
      cases h : appliedItem prepared item with
      | ok receipt => exact raisesOnly_ok
      | error e =>
        rw [hitem e h]
        exact raisesOnly_error.2 rfl
    · exact raisesOnly_error.2 rfl

/-! ## The rest of the execution -/

/-- The execution in which the artifact is applied. -/
theorem execute_of_applied (h : Applied official prepared arguments d result) :
    d.execute official prepared arguments =
      if d.removeFails (.apply prepared.registryManifest false arguments.idempotencyKey) then
        .error .other
      else d.receipt prepared result arguments.requestId >>= d.afterReceipt prepared arguments := by
  obtain ⟨⟨hkey, hrequest, hofficial⟩, hdry, hwritten, hran, -⟩ := h
  have hvalid : (!isIdempotencyKey arguments.idempotencyKey || !isRequestId arguments.requestId ||
      (arguments.publishOfficial && !official)) = false := by
    rw [hkey, hrequest]
    cases hpublish : arguments.publishOfficial with
    | false => rfl
    | true => rw [hofficial hpublish]; rfl
  rw [execute]
  dsimp only
  rw [hvalid, hdry, publish, runDocument, hwritten, hran]
  cases d.removeFails (.apply prepared.registryManifest false arguments.idempotencyKey) <;> rfl

/-- What follows a receipt is not lost when reading back and the official registry
    raise nothing that is not expected. -/
theorem settled_afterReceipt (h : Applied official prepared arguments d result)
    (receipt : PublishReceipt) :
    Settled prepared (d.afterReceipt prepared arguments receipt) ↔
      RaisesOnly (fun e => e.isExpected = true) (d.readBack prepared arguments.requestId) ∧
      ∀ artifact, d.readBack prepared arguments.requestId = .ok artifact →
        arguments.publishOfficial = true →
          RaisesOnly (fun e => e.isPublicationError = true)
            (do d.officialValidate prepared arguments.requestId
                d.officialPublish prepared arguments.requestId) := by
  rw [afterReceipt]
  cases hread : d.readBack prepared arguments.requestId with
  | error e =>
    -- The read-back raises: where that is expected, the outcome is unknown.
    rw [raisesOnly_error]
    cases he : e.isExpected with
    | true => exact iff_of_true (settled_error.2 (by rw [if_pos he]; rfl)) ⟨rfl, nofun⟩
    | false =>
      refine iff_of_false (fun hsettled => ?_) fun hexpected => ?_
      · rw [settled_error] at hsettled
        cases e with
        | other => cases hsettled
        | publication | cancelled | typeError | valueError => cases he
      · cases hexpected.1
  | ok artifact =>
    -- The artifact is verified, so that only the official registry is left.
    have hnames := (readBack_eq_ok.1 hread).2.1
    rw [and_iff_right raisesOnly_ok]
    cases hpublish : arguments.publishOfficial with
    | false =>
      exact iff_of_true (settled_outcome hnames nofun rfl rfl rfl rfl h.valid.2.1 h.valid.1) nofun
    | true =>
      rcases publishOfficially_cases d prepared arguments.requestId with
        ⟨status, officialStatus, hstatus, hok, honly⟩ | ⟨e, he, herror, hsteps⟩
      · refine iff_of_true ?_ fun _ _ _ => honly
        simp only [if_true, hok]
        exact settled_outcome hnames hstatus rfl rfl rfl rfl h.valid.2.1 h.valid.1
      · refine iff_of_false (fun hsettled => ?_) fun honly => ?_
        · simp only [if_true, herror] at hsettled
          cases e with
          | publication => cases he
          | cancelled | typeError | valueError | other => cases settled_error.1 hsettled
        · exact Bool.false_ne_true (he.symm.trans (honly artifact rfl rfl e hsteps))

/-- An artifact that is applied is not lost exactly when it is recoverable. -/
theorem settled_iff_recoverable (h : Applied official prepared arguments d result) :
    Settled prepared (d.execute official prepared arguments) ↔
      Recoverable prepared arguments d result := by
  rw [execute_of_applied h]
  -- A document that cannot be removed takes the result of the apply with it.
  split_ifs with hremoved
  · exact iff_of_false (fun hsettled => by cases settled_error.1 hsettled)
      fun hrecoverable => by cases hremoved.symm.trans hrecoverable.removed
  rw [Bool.not_eq_true] at hremoved
  cases hreceipt : d.receipt prepared result arguments.requestId with
  | error e =>
    -- A receipt that cannot be read is reported as a failure, not as unknown.
    refine iff_of_false (fun hsettled => ?_) fun hrecoverable => ?_
    · cases (receipt_raisesOnly _ e hreceipt).symm.trans (settled_error.1 hsettled)
    · obtain ⟨receipt, hok⟩ := hrecoverable.receipt
      cases hreceipt.symm.trans hok
  | ok receipt =>
    refine (settled_afterReceipt h receipt).trans ?_
    rw [readBack_raisesOnly]
    constructor
    · rintro ⟨⟨hfetch, hverify⟩, hofficial⟩
      refine ⟨hremoved, ⟨receipt, hreceipt⟩, hfetch, hverify, fun artifact hok hnames hverified hpublish => ?_⟩
      have hsteps := hofficial artifact (readBack_eq_ok.2 ⟨hok, hnames, hverified⟩) hpublish
      exact ⟨(raisesOnly_bind.1 hsteps).1, (raisesOnly_bind.1 hsteps).2 ()⟩
    · intro hrecoverable
      refine ⟨⟨hrecoverable.fetch, hrecoverable.verify⟩, fun artifact hread hpublish => ?_⟩
      obtain ⟨hok, hnames, hverified⟩ := readBack_eq_ok.1 hread
      obtain ⟨hvalidate, hofficial⟩ :=
        hrecoverable.official artifact hok hnames hverified hpublish
      exact raisesOnly_bind.2 ⟨hvalidate, fun _ => hofficial⟩

/-! ## Examples -/

/-- A publication of the version `1` of the server `x` of the tenant `t`. -/
def examplePublication : PreparedPublication where
  name := lit "x"
  «namespace» := lit "t"
  version := lit "1"
  ref := lit "mcpservers/t/x@1"
  serverJson := []
  registryManifest := []
  registryDigest := lit "sha256:" ++ List.replicate 64 48
  artifactDigest := lit "sha256:" ++ List.replicate 64 48
  name_ne_nil := by decide
  namespace_ne_nil := by decide
  version_ne_nil := by decide
  ref_bounded := by decide
  serverJson_bounded := by decide
  registryManifest_bounded := by decide
  registryDigest_isDigest := by decide
  artifactDigest_isDigest := by decide

/-- A command that exits with a code and an output. -/
def exits (exitCode : ℕ) (stdout : Text) (h : exitCode ≤ 255) : CommandResult :=
  ⟨exitCode, stdout.utf8, [], h⟩

/-- A command that succeeds with an output. -/
def prints (stdout : Text) : CommandResult := exits 0 stdout (by decide)

/-- A command that fails without any output. -/
def fails : CommandResult := exits 1 [] (by decide)

/-- Delegates whose commands have outputs in ASCII, of which the redactor leaves all as
    they are. -/
def exampleDelegates (run : Command → Fallible CommandResult) : Delegates where
  maxStdoutBytes := 512 * 1024
  maxStderrBytes := 64 * 1024
  run
  writeFails _ := false
  removeFails _ := false
  redactText := some
  decode bytes := some (bytes.map fun b => Fin.ofNat 0x110000 b.toNat)
  loads bytes :=
    match parseJson (bytes.map fun b => Fin.ofNat 0x110000 b.toNat) with
    | some j => .value j
    | none => .refused
  lower t := t.map CodePoint.asciiLower
  isPrintable c := 32 ≤ c.val && c.val < 127
  hashing := ⟨.plain, fun _ => ⟨List.replicate 64 48, isDigest_zeros⟩⟩
  tooDeep _ := false

/-- The report of the apply of the publication. -/
def appliedReport : Text :=
  lit "\x7b\"count\":1,\"applied\":[\x7b\"kind\":\"MCPServer\",\"name\":\"x\",\"namespace\":\"t\",\"tag\":\"1\",\"created\":true\x7d]\x7d"

/-- The apply succeeds, and the artifact cannot be pulled. -/
def unreadable : Delegates :=
  exampleDelegates fun command =>
    match command with
    | .apply .. => .ok (exits 0 appliedReport (by decide))
    | _ => .ok fails

/-- The apply succeeds without any output. -/
def silent : Delegates := exampleDelegates fun _ => .ok (exits 0 [] (by decide))

/-- The arguments of a publication. -/
def exampleArguments : Arguments := { idempotencyKey := lit "release-1", requestId := lit "r" }

/-- An artifact that cannot be pulled has an unknown outcome. -/
theorem settled_iff_recoverable_example :
    Settled examplePublication (unreadable.execute false examplePublication exampleArguments) := by
  have hfetch : unreadable.fetch examplePublication exampleArguments.requestId =
      fail .commandFailed (lit "r") := by decide +kernel
  have happlied : Applied false examplePublication exampleArguments unreadable
      (exits 0 appliedReport (by decide)) := ⟨by decide, rfl, rfl, rfl, rfl⟩
  refine (settled_iff_recoverable happlied).2 ⟨rfl, ⟨⟨true⟩, by decide +kernel⟩, ?_, ?_, ?_⟩
  · rw [hfetch]
    exact raisesOnly_error.2 rfl
  · intro artifact hartifact
    cases hfetch.symm.trans hartifact
  · intro artifact hartifact
    cases hfetch.symm.trans hartifact

/-- An apply that succeeded, after which the publication is said to have failed. -/
theorem applied_and_lost :
    Applied false examplePublication exampleArguments silent (exits 0 [] (by decide)) ∧
      silent.execute false examplePublication exampleArguments =
        fail .commandOutputInvalid (lit "r") ∧
      ¬ Settled examplePublication (silent.execute false examplePublication exampleArguments) := by
  have hexecute : silent.execute false examplePublication exampleArguments =
      fail .commandOutputInvalid (lit "r") := rfl
  refine ⟨⟨by decide, rfl, rfl, rfl, rfl⟩, hexecute, ?_⟩
  rw [hexecute, fail, settled_error]
  decide

end Delegates

end McpRuntime.Publisher
