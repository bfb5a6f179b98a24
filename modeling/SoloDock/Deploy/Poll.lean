import SoloDock.Deploy.Engine
import SoloDock.Lib.Sha256

/-!
# A poll deployment and its own target

The poller of `registry/poller.rs` resolves the app's stored reference and
schedules a deployment; `claim_deployment` writes the resolved image into the
ledger row; `resolve_poll` rebuilds the target from that row and checks it against
the app again. The row holds the reference in its canonical spelling, and
`resolve_poll` compares it with the stored one, letter by letter.

`resolvePoll_accepts_iff`: with nothing changed in between, the worker accepts the
target exactly when the stored reference is spelled out.
-/

namespace SoloDock.Deploy

open Lib Lib.Prog Registry Docker
open ImageReference (parse runnable)

/-- The poller's resolution of a reference: conditional on the last entity tag, and in
full when the registry reports no change but a deployment is still needed. -/
def pollResolve (codec : Codec) (reference : String) (os architecture : String)
    (authenticated : Bool) (etag : Option String) : RegistryProg ResolvedImage := do
  let image ← orElse (parse reference) id
  let platform ← orElse (Platform.canonical os architecture none) id
  match ← resolveInner codec image platform authenticated etag with
  | .modified resolved _ => return resolved
  | .notModified => Registry.resolve codec image platform authenticated

/-- `ScheduleFacts`, with the ids a deployment row is given. -/
structure ScheduleFacts where
  deploymentId : Uuid
  appId : Uuid
  draftRevision : Uuid
  activeReleaseId : Option Uuid
  pendingReleaseId : Option Uuid
  actualReleaseId : Option Uuid
  actualContainerId : Option String

/-- The row `claim_deployment` inserts for a scheduled poll target. -/
def claimPollDeployment (facts : ScheduleFacts) (image : ResolvedImage)
    (generation targetKey : String) : Record :=
  { id := facts.deploymentId
    appId := facts.appId
    trigger := .poll
    requestedRevision := facts.draftRevision
    fromReleaseId := facts.activeReleaseId
    expectedPendingReleaseId := facts.pendingReleaseId
    expectedActualReleaseId := facts.actualReleaseId
    expectedActualContainerId := facts.actualContainerId
    rollbackTargetReleaseId := none
    scheduledSourceImageRef := some image.sourceImageRef
    scheduledSourceDescriptorDigest := some image.sourceDescriptorDigest
    scheduledManifestDigest := some image.manifestDigest
    scheduledIndexDigest := image.indexDigest
    scheduledPlatformOs := some image.platform.os
    scheduledPlatformArchitecture := some image.platform.architecture
    scheduledPlatformVariant := image.platform.variant
    scheduledLocalImageId := some image.localImageId
    scheduledRepository := some image.repository
    scheduledTargetKey := some targetKey
    pollGeneration := some generation }

/-- The two codes with which a worker disowns its own target. -/
def DisownsTarget (e : EngineError) : Prop :=
  e = .stable "DEPLOYMENT_FACTS_CHANGED" ∨ e = .stable "POLL_TARGET_INVALID"

instance : DecidablePred DisownsTarget := fun _ => inferInstanceAs (Decidable (_ ∨ _))

/-! ## The steps after the target is rebuilt never disown it -/

theorem minimalApp_keeps (appId : Uuid) : (minimalApp appId).Fails (¬DisownsTarget ·) :=
  fails_bind (fails_call fun _ => fails_orStop (by decide)) fun _ => fails_pure _

theorem preflight_keeps {appId : Uuid} {release : Option Uuid} {container : Option String} :
    (preflight appId release container).Fails (¬DisownsTarget ·) := by
  refine fails_bind (minimalApp_keeps appId) fun app => ?_
  refine fails_bind (fails_call fun _ => fails_orStop (by decide)) fun candidates => ?_
  match candidates with
  | [] => exact fails_bind (fails_ensure (by decide)) fun _ => fails_pure _
  | [candidate] =>
    refine fails_bind (fails_orStop (by decide)) fun owner => ?_
    exact fails_bind (fails_ensure (by decide)) fun _ => fails_pure _
  | _ :: _ :: _ => exact fails_stop (by decide)

variable {record : Record} {active : Option Uuid} {image : ResolvedImage} {metadata : AppMetadata}

theorem noOpRuntimeConverged_keeps {active : Uuid} {release : Release} :
    (noOpRuntimeConverged record active release).Fails (¬DisownsTarget ·) := by
  refine fails_ite (fails_pure _) (fails_bind preflight_keeps fun container => ?_)
  cases container with
  | none => exact fails_pure _
  | some container =>
    refine fails_ite (fails_pure _) ?_
    exact fails_bind (fails_call fun _ => fails_orStop (by decide)) fun _ => fails_pure _

theorem transition_keeps (phase : Phase) (status : Status) (result : String)
    (code : Option String) : (transition phase status result code).Fails (¬DisownsTarget ·) :=
  fails_call fun _ => fails_orStop (by decide)

/-- A poll deployment that changes nothing does not disown its target. -/
theorem pollNoOp_keeps : (pollNoOp record metadata active image).Fails (¬DisownsTarget ·) := by
  unfold pollNoOp
  cases active with
  | none => exact fails_pure _
  | some activeId =>
    refine fails_bind (fails_call fun _ => fails_pure _) fun loaded => ?_
    cases loaded with
    | none => exact fails_pure _
    | some old =>
      refine fails_ite (fails_bind (fails_ensure (by decide)) fun _ => ?_) (fails_pure _)
      refine fails_ite (fails_bind noOpRuntimeConverged_keeps fun converged => ?_) (fails_pure _)
      exact fails_ite (fails_bind (transition_keeps _ _ _ _) fun _ => fails_stop (by decide))
        (fails_pure _)

/-- Publishing a candidate does not disown the target. -/
theorem publishCandidate_keeps {trigger : Trigger} {result : String} :
    (publishCandidate metadata active image trigger result).Fails (¬DisownsTarget ·) := by
  refine fails_bind (fails_call fun _ => fails_pure _) fun candidateId => ?_
  refine fails_bind (fails_call fun _ => fails_orStop (by decide)) fun _ => ?_
  refine fails_bind (transition_keeps _ _ _ _) fun _ => ?_
  exact fails_bind (fails_call fun _ => fails_orStop (by decide)) fun _ => fails_pure _

/-! ## Rebuilding the target -/

variable {reference : String} {resolved : ResolvedImage}

/-- What is resolved comes from the image that the reference names. -/
theorem pollResolve_spec {codec : Codec} {os architecture : String}
    {authenticated : Bool} {etag : Option String}
    (h : (pollResolve codec reference os architecture authenticated etag).Ends (.ok resolved)) :
    ∃ image, parse reference = .ok image ∧ ResolvedFrom image resolved := by
  simp only [pollResolve, ends_bind, ends_orElse, Except.ok.injEq, reduceCtorEq, and_false,
    exists_false, or_false] at h
  obtain ⟨image, ⟨_, hparse, rfl⟩, platform, _, r, hr, h⟩ := h
  refine ⟨image, hparse, ?_⟩
  cases r with
  | notModified => exact resolve_spec codec h
  | modified img etag' =>
    obtain rfl : resolved = img := by simpa using h
    exact resolveInner_spec codec hr

variable {image : ImageReference}

section Target

variable {facts : ScheduleFacts} {generation targetKey : String}

/-- With the canonical spelling stored, the target is rebuilt as it was scheduled. -/
theorem pollTarget_accepts (hauto : metadata.autoDeployEnabled = true)
    (href : metadata.discoveryImageRef = some reference)
    (hparse : parse reference = .ok image) (hfrom : ResolvedFrom image resolved)
    (hcanonical : image.canonicalTaggedRef = reference) :
    (pollTarget (claimPollDeployment facts resolved generation targetKey) metadata).Fails
      (¬DisownsTarget ·) := by
  intro e h
  have hsource : resolved.sourceImageRef = reference := hfrom.source.trans hcanonical
  have hplatform := Platform.canonical_self hfrom.platform
  have hrunnable : image.runnable resolved.manifestDigest = .ok
      (image.logicalRegistry ++ "/" ++ image.repository ++ "@" ++ resolved.manifestDigest) := by
    unfold runnable
    rw [hfrom.digest]
    rfl
  simp [pollTarget, claimPollDeployment, hauto, href, hsource, hparse, hplatform, hrunnable,
    hfrom.repository, Option.filter] at h

/-- A reference that is not in canonical form is disowned. -/
theorem pollTarget_disowns (hauto : metadata.autoDeployEnabled = true)
    (href : metadata.discoveryImageRef = some reference) (hfrom : ResolvedFrom image resolved)
    (hcanonical : image.canonicalTaggedRef ≠ reference) :
    (pollTarget (claimPollDeployment facts resolved generation targetKey) metadata).Ends
      (.error (.stable "DEPLOYMENT_FACTS_CHANGED")) := by
  have hsource : resolved.sourceImageRef ≠ reference := hfrom.source ▸ hcanonical
  simp [pollTarget, claimPollDeployment, hauto, href, hsource]

/-- **A poll deployment accepts the target it was scheduled for exactly when the stored
reference is spelled out**: it names its registry, not as `index.docker.io`, and on
`docker.io` also a namespace. Nothing changes between scheduling and the run; every
registry answer during the resolution and every answer during the run is covered. That a
draft accepted the reference is implied: the poller could parse it. -/
theorem resolvePoll_accepts_iff (codec : Codec) (os architecture : String)
    (authenticated : Bool) (etag : Option String)
    (hauto : metadata.autoDeployEnabled = true)
    (href : metadata.discoveryImageRef = some reference)
    (hpoll : (pollResolve codec reference os architecture authenticated etag).Ends
      (.ok resolved)) :
    (∀ r, (resolvePoll (claimPollDeployment facts resolved generation targetKey) metadata
        facts.activeReleaseId).Ends r →
      r ≠ .error (.stable "DEPLOYMENT_FACTS_CHANGED") ∧
      r ≠ .error (.stable "POLL_TARGET_INVALID")) ↔
    spelledOut reference = true := by
  obtain ⟨image, hparse, hfrom⟩ := pollResolve_spec hpoll
  rw [← ImageReference.canonical_eq_iff hparse]
  constructor
  · intro h
    refine Decidable.byContradiction fun hne => ?_
    have hdisowns : (pollTarget (claimPollDeployment facts resolved generation targetKey)
        metadata).Ends (.error (.stable "DEPLOYMENT_FACTS_CHANGED")) :=
      pollTarget_disowns hauto href hfrom hne
    refine (h (.error (.stable "DEPLOYMENT_FACTS_CHANGED")) ?_).1 rfl
    exact (ends_bind _ _ _).mpr (.inr ⟨_, hdisowns, rfl⟩)
  · intro hcanonical r hr
    have hkeeps : (resolvePoll (claimPollDeployment facts resolved generation targetKey) metadata
        facts.activeReleaseId).Fails (¬DisownsTarget ·) := by
      refine fails_bind (pollTarget_accepts hauto href hparse hfrom hcanonical) fun target => ?_
      exact fails_bind pollNoOp_keeps fun _ => publishCandidate_keeps
    constructor
    · rintro rfl
      exact hkeeps _ hr (.inl rfl)
    · rintro rfl
      exact hkeeps _ hr (.inr rfl)

end Target

/-! ## Two spellings of one image -/

section Spellings

/-- A manifest, and the JSON it is read from. -/
def fixedManifest : Manifest where
  schemaVersion := 2
  mediaType := none
  config :=
    { mediaType := ociConfig
      digest := String.ofList (digestAlgorithm ++ hex (List.replicate 32 1))
      platform := none }

@[inherit_doc fixedManifest]
def manifestBody : Bytes :=
  ("\x7b\"schemaVersion\":2,\"config\":\x7b\"mediaType\":\"" ++ ociConfig ++ "\",\"digest\":\""
    ++ fixedManifest.config.digest ++ "\"\x7d\x7d").toList.flatMap String.utf8EncodeChar

/-- The hash of the program; of the bodies only this one is read. -/
def fixedCodec : Codec where
  sha256 := Sha256.sha256
  sha256_length := Sha256.length_sha256
  manifestOfJson body := if body = manifestBody then some fixedManifest else none
  indexOfJson _ := none

/-- The registry serves a single manifest. -/
def manifestResponse : Response :=
  { status := 200, wwwAuthenticate := none, etag := none, contentType := some ociManifest
    dockerContentDigest := none, body := .ok manifestBody }

/-- The image `fixedCodec` resolves a reference to. -/
def fixedImage (image : ImageReference) : ResolvedImage :=
  { sourceImageRef := image.canonicalTaggedRef
    logicalRegistry := image.logicalRegistry
    repository := image.repository
    sourceTag := image.tag
    sourceDescriptorDigest := digest fixedCodec manifestBody
    indexDigest := none
    manifestDigest := digest fixedCodec manifestBody
    runnableImageRef :=
      image.logicalRegistry ++ "/" ++ image.repository ++ "@" ++ digest fixedCodec manifestBody
    platform := ⟨"linux", "amd64", none⟩
    localImageId := String.ofList (digestAlgorithm ++ hex (List.replicate 32 1)) }

/-- An app with a stored reference and automatic deployment on. -/
def autoDeployApp (reference : String) : AppMetadata :=
  { id := 1, slug := "db", discoveryImageRef := some reference, credentialRef := none
    draftRevision := some 2, draftConfigSha256 := some "c", autoDeployEnabled := true }

/-- The facts of an app that was never deployed. -/
def firstDeployFacts : ScheduleFacts :=
  { deploymentId := 3, appId := 1, draftRevision := 2, activeReleaseId := none
    pendingReleaseId := none, actualReleaseId := none, actualContainerId := none }

set_option maxRecDepth 8000 in
theorem pollResolve_fixed (h : parse reference = .ok image) :
    (pollResolve fixedCodec reference "linux" "amd64" false none).Ends
      (.ok (fixedImage image)) := by
  unfold pollResolve
  rw [h]
  exact ⟨.ok manifestResponse, rfl⟩

/-- The short name `postgres:16` is accepted, resolved and scheduled, and then disowned:
the row says `docker.io/library/postgres:16`. -/
theorem short_name_disowned :
    ∃ resolved,
      (pollResolve fixedCodec "postgres:16" "linux" "amd64" false none).Ends (.ok resolved) ∧
      resolved.sourceImageRef = "docker.io/library/postgres:16" ∧
      (resolvePoll (claimPollDeployment firstDeployFacts resolved "g" "k")
        (autoDeployApp "postgres:16") none).Ends
        (.error (.stable "DEPLOYMENT_FACTS_CHANGED")) :=
  ⟨_, pollResolve_fixed rfl, rfl, rfl⟩

/-- What the spelled-out name is read as. -/
def postgres : ImageReference :=
  { logicalRegistry := "docker.io"
    transportRegistry := "registry-1.docker.io"
    repository := "library/postgres"
    tag := "16"
    canonicalTaggedRef := "docker.io/library/postgres:16"
    dockerAuthKey := "https://index.docker.io/v1/" }

/-- The spelled-out name is resolved and accepted, whatever is answered during the run. -/
theorem spelled_out_name_accepted :
    (pollResolve fixedCodec "docker.io/library/postgres:16" "linux" "amd64" false none).Ends
        (.ok (fixedImage postgres)) ∧
      ∀ r, (resolvePoll (claimPollDeployment firstDeployFacts (fixedImage postgres) "g" "k")
          (autoDeployApp "docker.io/library/postgres:16") none).Ends r →
        r ≠ .error (.stable "DEPLOYMENT_FACTS_CHANGED") ∧
        r ≠ .error (.stable "POLL_TARGET_INVALID") :=
  have hresolved := pollResolve_fixed (show ImageReference.parse _ = .ok postgres from rfl)
  ⟨hresolved, (resolvePoll_accepts_iff fixedCodec "linux" "amd64" false none rfl rfl
    hresolved).mpr (by decide)⟩

end Spellings

end SoloDock.Deploy
