import McpRuntime.Publisher.Workflow

/-!
# Partial publication

The official registry comes last: when its target fails, the artifact is in the
registry and is verified there, so the workflow catches `PublicationError` and
reports a partial publication. What else the target raises is not caught.

* `Contained`: a command with a private document raises nothing but what is caught.
* `Reported`: the outcome tells what became of the official target, and has the
  verified artifact.
* `reported_iff_contained`: a verified publication is reported exactly when the
  commands of the official target are contained.
* `escaped`: a directory that cannot be removed.
-/

namespace McpRuntime.Publisher

/-- What the official target may raise without an escape: what the workflow catches,
    and the cancellation of its caller. -/
def Raised.isContained (e : Raised) : Bool := e.isPublicationError || e = .cancelled

namespace Delegates

variable (d : Delegates)

/-- A command with a private document: the document is written and removed, and
    running the command raises nothing but `PublicationError`. -/
structure Contained (command : Command) : Prop where
  written : d.writeFails command = false
  removed : d.removeFails command = false
  ran : RaisesOnly (fun e => e.isContained = true) (d.run command)

/-- The commands of the official target are contained, the second one where the
    output of the first one is accepted. -/
structure OfficialContained (prepared : PreparedPublication) (requestId : Text) : Prop where
  validate : d.Contained (.officialValidate prepared.serverJson)
  publish : ∀ result raw, d.run (.officialValidate prepared.serverJson) = .ok result →
    d.checked result requestId = .ok raw → d.Contained (.officialPublish prepared.serverJson)

/-- The official target validates and publishes. -/
def OfficialVerifies (prepared : PreparedPublication) (requestId : Text) : Prop :=
  d.officialValidate prepared requestId = .ok () ∧ d.officialPublish prepared requestId = .ok ()

/-- The registry has the artifact and it is verified, in an execution that goes on to
    the official target. -/
structure RegistryVerified (prepared : PreparedPublication) (arguments : Arguments)
    (artifact : PublishedArtifact) : Prop where
  valid : isIdempotencyKey arguments.idempotencyKey = true ∧ isRequestId arguments.requestId = true
  notDry : arguments.dryRun = false
  official : arguments.publishOfficial = true
  applied : ∃ receipt, d.publish prepared arguments.idempotencyKey arguments.requestId = .ok receipt
  readBack : d.readBack prepared arguments.requestId = .ok artifact

/-- What became of the official target is reported along with the artifact, unless the
    caller is cancelled. -/
inductive Reported (verifies : Prop) (artifact : PublishedArtifact) :
    Fallible PublicationOutcome → Prop
  | verified {outcome : PublicationOutcome} : verifies → outcome.status = .verified →
      outcome.officialStatus = .published → outcome.artifact = some artifact →
        Reported verifies artifact (.ok outcome)
  | partly {outcome : PublicationOutcome} : ¬ verifies → outcome.status = .partialOutcome →
      outcome.officialStatus = .failed → outcome.artifact = some artifact →
        Reported verifies artifact (.ok outcome)
  | cancelled : Reported verifies artifact (.error .cancelled)

variable {d} {official : Bool} {prepared : PreparedPublication} {arguments : Arguments}
  {artifact : PublishedArtifact} {requestId : Text}

/-- A check of an output raises nothing but `PublicationError`. -/
theorem checked_raisesOnly (result : CommandResult) (requestId : Text) :
    RaisesOnly (fun e => e.isPublicationError = true) (d.checked result requestId) := by
  rw [checked]
  split
  · exact raisesOnly_error.2 rfl
  · split
    · split_ifs
      · exact raisesOnly_error.2 rfl
      · exact raisesOnly_error.2 rfl
      · exact raisesOnly_ok
    · exact raisesOnly_error.2 rfl

theorem isContained_of_isPublicationError {e : Raised} (h : e.isPublicationError = true) :
    e.isContained = true := by
  rw [Raised.isContained, h, Bool.true_or]

/-- What a command with a private document raises. -/
theorem runDocument_raisesOnly {command : Command} :
    RaisesOnly (fun e => e.isContained = true) (d.runDocument command) ↔ d.Contained command := by
  have hother : ¬ RaisesOnly (fun e => e.isContained = true) (.error .other : Fallible CommandResult) :=
    fun h => Bool.false_ne_true (h _ rfl)
  rw [runDocument]
  split_ifs with hwrite hremove
  · exact iff_of_false hother fun h => Bool.false_ne_true (h.written.symm.trans hwrite)
  · exact iff_of_false hother fun h => Bool.false_ne_true (h.removed.symm.trans hremove)
  · rw [Bool.not_eq_true] at hwrite hremove
    exact ⟨fun h => ⟨hwrite, hremove, h⟩, Contained.ran⟩

/-- What a contained command gives. -/
theorem Contained.runDocument_eq {command : Command} (h : d.Contained command) :
    d.runDocument command = d.run command := by
  rw [runDocument, h.written, h.removed]
  rfl

theorem officialValidate_raisesOnly :
    RaisesOnly (fun e => e.isContained = true) (d.officialValidate prepared requestId) ↔
      d.Contained (.officialValidate prepared.serverJson) := by
  rw [officialValidate, raisesOnly_bind, runDocument_raisesOnly]
  refine and_iff_left fun result _ => raisesOnly_bind.2 ⟨fun e he => ?_, fun _ _ => raisesOnly_ok⟩
  exact isContained_of_isPublicationError (checked_raisesOnly result requestId e he)

theorem officialPublish_raisesOnly :
    RaisesOnly (fun e => e.isContained = true) (d.officialPublish prepared requestId) ↔
      d.Contained (.officialPublish prepared.serverJson) := by
  rw [officialPublish, raisesOnly_bind, runDocument_raisesOnly]
  refine and_iff_left fun result _ => ?_
  have hchecked := checked_raisesOnly (d := d) result requestId
  split
  · exact raisesOnly_error.2 rfl
  · next e _ he => exact raisesOnly_error.2 (isContained_of_isPublicationError (hchecked e he))
  · exact raisesOnly_ok

/-- The official target validates a publication when its command does and the output is
    accepted. -/
theorem officialValidate_eq_ok :
    d.officialValidate prepared requestId = .ok () ↔
      ∃ result, d.runDocument (.officialValidate prepared.serverJson) = .ok result ∧
        ∃ raw, d.checked result requestId = .ok raw := by
  rw [officialValidate, bind_eq_ok]
  refine exists_congr fun result => and_congr_right fun _ => bind_eq_ok.trans ?_
  exact exists_congr fun raw => and_iff_left rfl

/-- The steps of the official target raise nothing but what is caught exactly when its
    commands are contained. -/
theorem officialSteps_raisesOnly :
    RaisesOnly (fun e => e.isContained = true)
        (do d.officialValidate prepared requestId; d.officialPublish prepared requestId) ↔
      d.OfficialContained prepared requestId := by
  rw [raisesOnly_bind, officialValidate_raisesOnly]
  constructor
  · rintro ⟨hvalidate, hpublish⟩
    refine ⟨hvalidate, fun result raw hrun hraw => ?_⟩
    refine officialPublish_raisesOnly.1 (hpublish () (officialValidate_eq_ok.2 ⟨result, ?_, raw, hraw⟩))
    exact hvalidate.runDocument_eq.trans hrun
  · intro h
    refine ⟨h.validate, fun _ hok => officialPublish_raisesOnly.2 ?_⟩
    obtain ⟨result, hrun, raw, hraw⟩ := officialValidate_eq_ok.1 hok
    exact h.publish result raw (h.validate.runDocument_eq.symm.trans hrun) hraw

/-- The official target verifies a publication when its steps raise nothing. -/
theorem officialSteps_eq_ok :
    (do d.officialValidate prepared requestId; d.officialPublish prepared requestId) = .ok () ↔
      d.OfficialVerifies prepared requestId :=
  bind_eq_ok.trans ⟨fun h => ⟨h.choose_spec.1, h.choose_spec.2⟩, fun h => ⟨(), h.1, h.2⟩⟩

/-- An execution whose artifact is verified ends as the official target lets it. -/
theorem execute_of_registryVerified (h : d.RegistryVerified prepared arguments artifact) :
    ∃ created, d.execute true prepared arguments =
      d.publishOfficially prepared arguments.requestId >>= fun status =>
        .ok {
          status := status.1, officialStatus := status.2, requestId := arguments.requestId
          idempotencyKey := arguments.idempotencyKey, ref := artifact.ref, digest := artifact.digest
          artifactDigest := prepared.artifactDigest, version := artifact.version
          created := some created, artifact := some artifact } := by
  obtain ⟨receipt, hreceipt⟩ := h.applied
  have hvalid : (!isIdempotencyKey arguments.idempotencyKey || !isRequestId arguments.requestId ||
      (arguments.publishOfficial && !true)) = false := by
    rw [h.valid.1, h.valid.2, Bool.not_true, Bool.and_false]
    rfl
  -- The outcome is built with the key and the request id, which are not empty as they are valid.
  have hkey : arguments.idempotencyKey ≠ [] := fun hnil => by
    have hvalid := h.valid.1
    rw [hnil] at hvalid
    exact Bool.false_ne_true hvalid
  have hrequest : arguments.requestId ≠ [] := fun hnil => by
    have hvalid := h.valid.2
    rw [hnil] at hvalid
    exact Bool.false_ne_true hvalid
  refine ⟨receipt.created, ?_⟩
  rw [execute]
  dsimp only
  rw [hvalid, h.notDry, hreceipt]
  change d.afterReceipt prepared arguments receipt = _
  rw [afterReceipt, h.readBack, h.official]
  refine congrArg (d.publishOfficially prepared arguments.requestId >>= ·) (funext fun status => ?_)
  exact if_pos ⟨hrequest, hkey, artifact.ref_isSafeId, artifact.digest_isDigest,
    prepared.artifactDigest_isDigest⟩

/-- What becomes of the official target is reported, after the artifact is verified,
    exactly when its commands are contained. -/
theorem reported_iff_contained (h : d.RegistryVerified prepared arguments artifact) :
    Reported (d.OfficialVerifies prepared arguments.requestId) artifact
        (d.execute true prepared arguments) ↔
      d.OfficialContained prepared arguments.requestId := by
  obtain ⟨created, hexecute⟩ := execute_of_registryVerified h
  rw [hexecute, ← officialSteps_raisesOnly, ← officialSteps_eq_ok, publishOfficially]
  -- The workflow catches the errors of publication, and a cancellation is that of its caller.
  cases hsteps : (do
    d.officialValidate prepared arguments.requestId
    d.officialPublish prepared arguments.requestId) with
  | ok =>
    exact iff_of_true (.verified rfl rfl rfl rfl) raisesOnly_ok
  | error e =>
    have hfails : ¬ (.error e : Fallible Unit) = .ok () := fun h => by cases h
    cases e with
    | publication e => exact iff_of_true (.partly hfails rfl rfl rfl) (raisesOnly_error.2 rfl)
    | cancelled => exact iff_of_true .cancelled (raisesOnly_error.2 rfl)
    | typeError | valueError | other =>
      exact iff_of_false (fun hreported => by cases hreported)
        fun honly => Bool.false_ne_true (honly _ rfl)

/-! ## Examples -/

/-- The artifact of the example publication, as the registry has it. -/
def pulledReport : Text :=
  lit "\x7b\"kind\":\"MCPServer\",\"metadata\":\x7b\"name\":\"x\",\"namespace\":\"t\",\"tag\":\"1\",\"ref\":\"mcpservers/t/x@1\",\"labels\":\x7b\x7d,\"signature\":\"s\",\"signedBy\":\"k\",\"digest\":\"sha256:" ++
    List.replicate 64 48 ++ lit "\"\x7d,\"spec\":\x7b\x7d\x7d"

/-- The artifact that is read back. -/
def exampleArtifact : PublishedArtifact where
  name := examplePublication.name
  «namespace» := examplePublication.namespace
  version := examplePublication.version
  ref := examplePublication.ref
  digest := examplePublication.registryDigest
  signature := lit "s"
  signedBy := lit "k"
  name_ne_nil := examplePublication.name_ne_nil
  namespace_ne_nil := examplePublication.namespace_ne_nil
  version_ne_nil := examplePublication.version_ne_nil
  ref_isSafeId := by decide
  digest_isDigest := examplePublication.registryDigest_isDigest
  signature_bounded := by decide
  signedBy_bounded := by decide

/-- All commands succeed. -/
def succeeding : Delegates :=
  exampleDelegates fun command =>
    match command with
    | .apply .. => .ok (prints appliedReport)
    | .pull .. => .ok (prints pulledReport)
    | _ => .ok (prints [])

/-- The official registry validates the publication, and refuses to publish it. -/
def refusing : Delegates :=
  exampleDelegates fun command =>
    match command with
    | .apply .. => .ok (prints appliedReport)
    | .pull .. => .ok (prints pulledReport)
    | .officialPublish _ => .ok fails
    | _ => .ok (prints [])

/-- All commands succeed, and the private document of a validation stays. -/
def remaining : Delegates :=
  { succeeding with
    removeFails := fun command =>
      match command with
      | .officialValidate _ => true
      | _ => false }

/-- The arguments of a publication to both registries. -/
def officialArguments : Arguments := { exampleArguments with publishOfficial := true }

theorem registryVerified_succeeding :
    succeeding.RegistryVerified examplePublication officialArguments exampleArtifact where
  valid := by decide
  notDry := rfl
  official := rfl
  applied := ⟨⟨true⟩, by decide +kernel⟩
  readBack := by decide +kernel

/-- What comes before the official target does not depend on its document. -/
theorem registryVerified_remaining :
    remaining.RegistryVerified examplePublication officialArguments exampleArtifact where
  valid := registryVerified_succeeding.valid
  notDry := rfl
  official := rfl
  applied := registryVerified_succeeding.applied
  readBack := registryVerified_succeeding.readBack

theorem registryVerified_refusing :
    refusing.RegistryVerified examplePublication officialArguments exampleArtifact where
  valid := registryVerified_succeeding.valid
  notDry := rfl
  official := rfl
  applied := registryVerified_succeeding.applied
  readBack := registryVerified_succeeding.readBack

/-- A publication to both registries is reported, and one that the official registry refuses
    is reported as partial, with the artifact that was verified. -/
theorem reported_iff_contained_example :
    Reported (succeeding.OfficialVerifies examplePublication officialArguments.requestId)
        exampleArtifact (succeeding.execute true examplePublication officialArguments) ∧
      ∃ outcome, refusing.execute true examplePublication officialArguments = .ok outcome ∧
        outcome.status = .partialOutcome ∧ outcome.officialStatus = .failed ∧
        outcome.artifact = some exampleArtifact := by
  refine ⟨(reported_iff_contained registryVerified_succeeding).2
    ⟨⟨rfl, rfl, raisesOnly_ok⟩, fun _ _ _ _ => ⟨rfl, rfl, raisesOnly_ok⟩⟩, ?_⟩
  have hreported := (reported_iff_contained registryVerified_refusing).2
    ⟨⟨rfl, rfl, raisesOnly_ok⟩, fun _ _ _ _ => ⟨rfl, rfl, raisesOnly_ok⟩⟩
  obtain ⟨created, hexecute⟩ := execute_of_registryVerified registryVerified_refusing
  have hpartly : refusing.publishOfficially examplePublication officialArguments.requestId =
      .ok (.partialOutcome, .failed) := rfl
  rw [hpartly] at hexecute
  rw [hexecute] at hreported
  cases hreported with
  | verified _ hstatus => cases hstatus
  | partly _ hstatus hofficial hartifact => exact ⟨_, hexecute, hstatus, hofficial, hartifact⟩

/-- The artifact is verified in the registry, the directory of a validation cannot be
    removed, and the outcome is lost. -/
theorem escaped :
    remaining.RegistryVerified examplePublication officialArguments exampleArtifact ∧
      remaining.execute true examplePublication officialArguments = .error .other ∧
      ¬ Reported (remaining.OfficialVerifies examplePublication officialArguments.requestId)
        exampleArtifact (remaining.execute true examplePublication officialArguments) := by
  obtain ⟨created, hexecute⟩ := execute_of_registryVerified registryVerified_remaining
  have hescapes : remaining.execute true examplePublication officialArguments = .error .other :=
    hexecute.trans rfl
  refine ⟨registryVerified_remaining, hescapes, fun hreported => ?_⟩
  rw [hescapes] at hreported
  cases hreported

end Delegates

end McpRuntime.Publisher
