import SoloDock.Lib.Service
import SoloDock.Poll.Attempt

/-!
# The tables behind the poll attempts of an app

The row of `poll_states`, the deployments and the idempotency records of one app, its
links and its container, while the poll generation of the app stays the same. Attempts are
made one after the other by the coordinator, but between any two calls of an attempt the
rest of the process goes on: deployments run and end (`transition` of
`deploy/ledger.rs`), others are claimed through the API, webhooks wake the app, expired
records are collected, time passes. These are the `Deed`s, and every call of an attempt
comes with the ones that went before it.

The account `log` is not part of the program: it says, the latest first, what was
scheduled, how it ended, and which manifests became active.
-/

namespace SoloDock.Poll

open Lib Lib.Prog Registry Deploy
open Webhook (PollState newPollState wake)
open Mutation (IdempotencyError)

/-! ## The tables -/

/-- A row of `idempotency_records` under the app's poll route; `claim_deployment` writes it
as succeeded. -/
structure KeyRecord where
  key : String
  fingerprint : String
  operationId : Uuid
  updatedAt : String
deriving DecidableEq

/-- An entry of the account. A deployment that ends is noted with the manifest that is
active then. -/
inductive Note where
  | scheduled (record : Record)
  | ended (record : Record) (status : Status) (active : Option String)
  | activated (manifest : String)
deriving DecidableEq

/-- The state of one app. Deployments are listed the latest first: the clock orders the
claims. -/
structure Tables where
  now : Instant
  row : Option PollState
  deployments : List Deployment
  records : List KeyRecord
  active : Option Uuid
  pending : Option Uuid
  actual : Option (Uuid × String)
  log : List Note

/-- What does not change while the generation stays: the generation is taken of the
metadata and of the credential, and a release never changes once its id is given. -/
structure App where
  metadata : PollMetadata
  generation : String
  release : Uuid → Release

variable (app : App)

/-- The manifest of the active release. -/
def Tables.activeManifest (s : Tables) : Option String :=
  s.active.map fun id => (app.release id).manifestDigest

/-! ## What the rest of the process does -/

/-- The ends of a poll deployment that suppress its target. -/
def suppresses : Status → Bool
  | .failed | .rolledBack | .needsAttention => true
  | _ => false

/-- The update of `poll_states` in a terminal `transition`. -/
def suppressTarget (record : Record) (target now : String) (row : PollState) : PollState :=
  if some row.generation = record.pollGeneration then
    { row with
      suppressedTargetKey := some target
      suppressedDeploymentId := some record.id
      lastOutcome := "suppressed_failed_target"
      updatedAt := now }
  else row

/-- The row after a deployment went to `status`. -/
def rowAfter (record : Record) (status : Status) (now : String) (row : Option PollState) :
    Option PollState :=
  match record.scheduledTargetKey with
  | some target =>
    if record.trigger = .poll ∧ suppresses status then row.map (suppressTarget record target now)
    else row
  | none => row

/-- `transition`: only a deployment that has not ended is moved. -/
def transition (s : Tables) (id : Uuid) (status : Status) : Tables :=
  match rfc3339 s.now, s.deployments.find? fun d => d.record.id = id ∧ d.unfinished with
  | some now, some d =>
    { s with
      deployments := s.deployments.map fun e =>
        if e.record.id = id ∧ e.unfinished then { e with status } else e
      row := rowAfter d.record status now s.row
      log := if status = .queued ∨ status = .running then s.log
        else .ended d.record status (s.activeManifest app) :: s.log }
  | _, _ => s

/-- `claim_deployment` for the API: one deployment of an app at a time. -/
def claimThroughApi (s : Tables) (record : Record) : Tables :=
  if record.trigger = .poll ∨ s.deployments.any (·.unfinished) then s
  else { s with deployments := ⟨record, .queued⟩ :: s.deployments }

/-- `commit_active`, by the deployment that is running: the candidate of a poll has the
manifest it was scheduled for. -/
def commitActive (s : Tables) (release : Uuid) : Tables :=
  match s.deployments.find? (·.unfinished) with
  | some d =>
    if d.record.trigger = .poll
        ∧ d.record.scheduledManifestDigest ≠ some (app.release release).manifestDigest then s
    else
      { s with
        active := some release
        log := .activated (app.release release).manifestDigest :: s.log }
  | none => s

/-- `gc_terminal_records`: records not touched for a day. Which of them are collected
depends on the other records: at most 100 are, the oldest first. -/
def collect (s : Tables) (chosen : List Uuid) : Tables :=
  match rfc3339 (s.now - Instant.minutes 1440) with
  | some cutoff =>
    { s with records := s.records.filter fun r =>
        !(chosen.contains r.operationId && decide (r.updatedAt < cutoff)) }
  | none => s

/-- What others do between two calls of an attempt, or between attempts. -/
inductive Deed where
  | transition (id : Uuid) (status : Status)
  | claim (record : Record)
  | commitActive (release : Uuid)
  | setPending (release : Option Uuid)
  | observe (actual : Option (Uuid × String))
  | wake
  | collect (chosen : List Uuid)
  | pass (duration : Nat)

def apply (s : Tables) : Deed → Tables
  | .transition id status => transition app s id status
  | .claim record => claimThroughApi s record
  | .commitActive release => commitActive app s release
  | .setPending release => { s with pending := release }
  | .observe actual => { s with actual }
  | .wake =>
    match rfc3339 s.now with
    | some now =>
      if app.metadata.autoDeployEnabled then { s with row := some (wake app.generation now s.row) }
      else s
    | none => s
  | .collect chosen => collect s chosen
  | .pass duration => { s with now := s.now + duration }

/-! ## The world of an attempt -/

/-- What is open about a call once the tables are given: whether a read or a write works,
and what the registry and Docker answer. -/
def Pick : Call → Type
  | .readMetadata | .pollGeneration _ | .latestDeployment | .pollState | .readLink _
  | .loadRelease _ | .cancelled | .completedForActor .. | .tryApp | .tryComposeOwned => Bool
  | .loadCredential _ => Option Credential
  | .probe => Option Probe
  | .resolvePoll .. => Option (Except RegistryError PollResolve)
  | .resolve .. => Option (Except RegistryError ResolvedImage)
  | .actualFact _ => Option ActualError
  | .clearSuppression _ => Lib.Outcome
  | .now => Unit
  | .intervalWithJitter .. => Nat
  | .publish _ => Lib.Outcome
  | .loadConfig _ => Option Bool
  | .claimDeployment .. => Uuid × Lib.Outcome

/-- The answer of a read that works or not. -/
def readable {α : Type} (works : Bool) (a : α) : Option α := if works then some a else none

/-- `completed_for_actor`, on the records of the app's poll route. -/
def completedForActor (s : Tables) (key fingerprint : String) : Except IdempotencyError Bool :=
  match s.records.find? (·.key = key) with
  | some r => if r.fingerprint = fingerprint then .ok true else .error .reused
  | none => .ok false

/-- The deployment `claim_deployment` inserts. -/
def claimedRecord (command : ScheduleCommand) (id draftRevision : Uuid)
    (active pending : Option Uuid) (actual : Option (Uuid × String)) : Record :=
  claimPollDeployment
    { deploymentId := id
      appId := command.appId
      draftRevision
      activeReleaseId := active
      pendingReleaseId := pending
      actualReleaseId := actual.map (·.1)
      actualContainerId := actual.map (·.2) }
    command.scheduled.image command.scheduled.generation command.scheduled.targetKey

/-- `claim_deployment`, for a poll. -/
def claimDeployment (s : Tables) (command : ScheduleCommand) (record : Record) :
    Except IdempotencyError ScheduleResult × Tables :=
  match rfc3339 s.now, s.records.find? (·.key = command.idempotencyKey) with
  | none, _ => (.error .database, s)
  | some _, some r =>
    (if r.fingerprint = command.fingerprint then .ok .replay else .error .reused, s)
  | some now, none =>
    if s.deployments.any (·.unfinished) then (.error .inProgress, s)
    else
      (.ok (.scheduled record.id),
        { s with
          deployments := ⟨record, .queued⟩ :: s.deployments
          records := ⟨command.idempotencyKey, command.fingerprint, record.id, now⟩ :: s.records
          log := .scheduled record :: s.log })

/-- A transaction that may fail, before it is committed or after. -/
def committing {α : Type} (o : Lib.Outcome) (s : Tables)
    (done : Except IdempotencyError α × Tables) : Except IdempotencyError α × Tables :=
  match o with
  | .ok => done
  | .failed applied => (.error .database, if applied then done.2 else s)

/-- `publish`, on the row of the tables. -/
def publishRow (s : Tables) (value : PollObservation) (o : Lib.Outcome) : Option Unit × Tables :=
  match publish value s.now s.row with
  | some row =>
    (readable (decide (o = .ok)) (), if o.applied then { s with row := some row } else s)
  | none => (none, s)

/-- The answer of a call, and what it does to the tables. -/
def respond (s : Tables) : (e : Call) → Pick e → Answer e × Tables
  | .readMetadata, works => (readable works app.metadata, s)
  | .pollGeneration _, works => (readable works app.generation, s)
  | .latestDeployment, works => (readable works s.deployments.head?, s)
  | .loadCredential _, credential => (credential, s)
  | .probe, probe => (probe, s)
  | .pollState, works => (readable works s.row, s)
  | .resolvePoll .., result => (result, s)
  | .resolve .., result => (result, s)
  | .readLink .active, works => (readable works s.active, s)
  | .readLink .pending, works => (readable works s.pending, s)
  | .actualFact _, none => (.ok s.actual, s)
  | .actualFact _, some err => (.error err, s)
  | .loadRelease id, works => (readable works (app.release id), s)
  | .clearSuppression target, o =>
    match rfc3339 s.now with
    | some now =>
      ((), if o.applied then { s with row := s.row.map (clearSuppressionIfTarget target now) }
        else s)
    | none => ((), s)
  | .now, () => (s.now, s)
  | .intervalWithJitter .., seconds => (seconds, s)
  | .publish value, o => publishRow s value o
  | .cancelled, shutdown => (shutdown, s)
  | .completedForActor _ key fingerprint, true => (completedForActor s key fingerprint, s)
  | .completedForActor .., false => (.error .database, s)
  | .tryApp, free => (free, s)
  | .tryComposeOwned, free => (free, s)
  | .loadConfig _, keepsData => (keepsData, s)
  | .claimDeployment command draftRevision active pending actual, (id, o) =>
    committing o s (claimDeployment s command
      (claimedRecord command id draftRevision active pending actual))

/-- The world of an attempt: every call comes with what the others did before it. -/
def pollWorld : World Call Answer Tables where
  Choice e := List Deed × Pick e
  act s e c := respond app (play (apply app) s c.1) e c.2

/-! ## Histories -/

/-- A step of a history: an attempt, whole or cut short by the end of the process, what
the coordinator writes between attempts, a deed of others, a restart. -/
inductive Step where
  | attempt (due : DueEntry) (o : (pollWorld app).Script)
  | crash (due : DueEntry) (calls : Nat) (o : (pollWorld app).Script)
  | disable (o : Lib.Outcome)
  | firstDue (due : Instant)
  | acknowledge (captured : Nat)
  | deed (deed : Deed)
  | restart

/-- `interrupt_nonterminal`, which startup runs before it listens. -/
def interruptNonterminal (s : Tables) : Tables :=
  { s with deployments := s.deployments.map fun d =>
      if d.unfinished then { d with status := .interrupted } else d }

/-- The observation with which the coordinator marks an app that is not to be polled. -/
def disabledObservation (generation : String) : PollObservation where
  generation
  enabled := false
  nextCheckNotBefore := none
  checkedAt := none
  success := false
  replaceObservedFields := false
  sourceDescriptorDigest := none
  etag := none
  manifestDigest := none
  platform := none
  outcome := .disabled
  errorClass := none
  errorCode := none
  transientFailures := 0

def step (s : Tables) : Step app → Tables
  | .attempt due o => ((pollWorld app).exec o 0 (pollOne due) s).2
  | .crash due calls o => interruptNonterminal ((pollWorld app).cut o 0 calls (pollOne due) s)
  | .disable o => (publishRow s (disabledObservation app.generation) o).2
  | .firstDue due =>
    match rfc3339 due, rfc3339 s.now with
    | some due, some now =>
      if s.row.any (·.generation = app.generation) then s
      else { s with row := some (initializeGeneration app.generation due now s.row) }
    | _, _ => s
  | .acknowledge captured =>
    match rfc3339 s.now with
    | some now => { s with row := s.row.map (markWebhookProcessed app.generation captured now) }
    | none => s
  | .deed deed => apply app s deed
  | .restart => interruptNonterminal s

end SoloDock.Poll
