import SoloDock.Lib.Service
import SoloDock.Mutation.Ledger
import SoloDock.Webhook.Protocol

/-!
# Webhook secrets: the store, its handlers, and what they run on

`webhook/store.rs` keeps one `webhook.toml` per app, which says whether the webhook is
enabled and which secret revision is current, beside immutable revision directories named
after the operation that wrote them. `api/webhooks.rs` configures, rotates and revokes
under an idempotency key: the key is claimed first, and the rest runs under the catalog
lock, so the handlers of two requests never interleave once past the claim.

The model is of one app. Everything a handler asks of the disk, the database, the clock
and the identifier source is a `Call`; `Webhooks` is what is on disk and in the ledger,
with an account (`events`) of the claims, the secrets made current and the revocations
that succeeded, newest first.
-/

namespace SoloDock.Webhook

open Lib Mutation
open Lib.Prog (accept ask ensure)

/-- `StoreError`, as far as these paths tell its cases apart. -/
inductive StoreError where
  | notFound
  | io
  | contentInvalid
  | revisionStale
  | configRevisionConflict
  deriving DecidableEq, Repr

/-- `webhook.toml`; schema version, app and signature are checked on every read. -/
structure WebhookMetadata where
  enabled : Bool
  metadataRevision : Uuid
  secretRevision : Option Uuid
  lastOperationId : Uuid
  createdAt : Instant
  updatedAt : Instant
  rotatedAt : Option Instant
  deriving DecidableEq, Repr

/-- The bodies of `ConfigureWebhook` and `RevokeWebhook`. The method is part of the
fingerprint, so the two never match each other. -/
inductive WebhookRequest where
  | configure (expected : Option Uuid) (secret : String)
  | revoke (expected : Uuid)
  deriving DecidableEq, Repr

namespace WebhookRequest

/-- The metadata revision a request is conditional on. -/
def expected : WebhookRequest → Option Uuid
  | configure expected _ => expected
  | revoke expected => some expected

end WebhookRequest

structure WebhookResponse where
  configured : Bool
  degraded : Bool
  metadataRevision : Option Uuid
  secretRevision : Option Uuid
  algorithm : String
  publicOrigin : String
  publicPath : String
  createdAt : Option Instant
  rotatedAt : Option Instant
  deriving DecidableEq, Repr

/-- The JSON bodies the handlers record. -/
inductive Body where
  | webhook (value : WebhookResponse)
  | error (code message : String) (requestId : Uuid)
  deriving DecidableEq, Repr

/-- A request with its idempotency key and request id. -/
structure Query where
  key : String
  request : WebhookRequest
  requestId : Uuid
  deriving DecidableEq, Repr

/-- A request past its claim, waiting for the catalog lock. -/
structure Attempt where
  query : Query
  operation : Uuid
  deriving DecidableEq, Repr

/-! ## Calls -/

inductive Call where
  | claim (key : String) (request : WebhookRequest)
  | finish (key : String) (status : Nat) (body : Body) (errorCode : Option String)
  | markInterrupted (key : String)
  | interruptPending
  | isConfigured
  | loadMetadata
  | writeMetadata (value : WebhookMetadata)
  | repairDurability (secretRevision : Option Uuid)
  | revisionExists (revision : Uuid)
  | publishRevision (revision : Uuid) (secret : Bytes)
  | loadRevision (revision : Uuid)
  | cleanupUnreferenced
  | nowUtc
  | newUuid

abbrev Answer : Call → Type
  | .claim _ _ => Except IdempotencyError (ClaimResult Body)
  | .finish _ _ _ _ => Except IdempotencyError Unit
  | .markInterrupted _ => Except IdempotencyError Unit
  | .interruptPending => Except IdempotencyError Unit
  | .isConfigured => Except StoreError Bool
  | .loadMetadata => Except StoreError WebhookMetadata
  | .writeMetadata _ => Except StoreError Unit
  | .repairDurability _ => Except StoreError Unit
  | .revisionExists _ => Bool
  | .publishRevision _ _ => Except StoreError Unit
  | .loadRevision _ => Except StoreError String
  | .cleanupUnreferenced => Except StoreError Unit
  | .nowUtc => Instant
  | .newUuid => Uuid

/-- A function of the store: it may stop with a `StoreError`. -/
abbrev Store := Prog Call Answer StoreError

/-! ## `WebhookStore` -/

/-- The metadata on disk; a missing file is none, and so is an unreadable one when the
request expects no revision. -/
def existingMetadata (expected : Option Uuid) : Store (Option WebhookMetadata) := do
  match ← ask Call.loadMetadata with
  | .ok value => return some value
  | .error .notFound => return none
  | .error .contentInvalid =>
    if expected.isNone then return none else Prog.stop .contentInvalid
  | .error error => Prog.stop error

/-- The request's expectation does not fit what is stored. -/
def stale (expected : Option Uuid) : Option WebhookMetadata → Bool
  | some value =>
    value.enabled && expected != some value.metadataRevision || !value.enabled && expected.isSome
  | none => expected.isSome

/-- The revision directory named after the operation: built aside and renamed into place,
or, when a former attempt got that far, compared with the secret given now. -/
def placeRevision (operation : Uuid) (secret : String) (decoded : Bytes) : Store Unit := do
  if ← ask (.revisionExists operation) then
    let existing ← accept (← ask (.loadRevision operation))
    ensure (existing == secret) .configRevisionConflict
  else
    accept (← ask (.publishRevision operation decoded))

/-- The metadata `configure` writes; it keeps the time of creation of what it replaces. -/
def published (existing : Option WebhookMetadata) (operation : Uuid) (now : Instant)
    (metadataRevision : Uuid) : WebhookMetadata :=
  { enabled := true
    metadataRevision
    secretRevision := some operation
    lastOperationId := operation
    createdAt := (existing.map (·.createdAt)).getD now
    updatedAt := now
    rotatedAt := existing.map fun _ => now }

/-- `configure`. -/
def configureStore (expected : Option Uuid) (operation : Uuid) (secret : String) :
    Store WebhookMetadata := do
  let configured ← accept (← ask .isConfigured)
  ensure configured .contentInvalid
  let decoded ← Prog.orElse (decodeSecret secret) fun _ => .contentInvalid
  let existing ← existingMetadata expected
  match existing.filter fun value => value.lastOperationId == operation with
  | some value =>
    -- A former attempt of this very operation wrote it.
    accept (← ask (.repairDurability value.secretRevision))
    return value
  | none =>
    ensure (!stale expected existing) .revisionStale
    placeRevision operation secret decoded
    let now ← ask .nowUtc
    let metadataRevision ← ask .newUuid
    let metadata := published existing operation now metadataRevision
    accept (← ask (.writeMetadata metadata))
    return metadata

/-- `revoke`. -/
def revokeStore (expected operation : Uuid) : Store WebhookMetadata := do
  let configured ← accept (← ask .isConfigured)
  ensure configured .contentInvalid
  let metadata ← accept (← ask .loadMetadata)
  if metadata.lastOperationId = operation then
    accept (← ask (.repairDurability metadata.secretRevision))
    return metadata
  else
    ensure (metadata.enabled && metadata.metadataRevision == expected) .revisionStale
    let metadataRevision ← ask .newUuid
    let updatedAt ← ask .nowUtc
    let metadata : WebhookMetadata :=
      { metadata with
        enabled := false
        secretRevision := none
        metadataRevision
        lastOperationId := operation
        updatedAt }
    accept (← ask (.writeMetadata metadata))
    return metadata

/-! ## The handlers -/

inductive ApiError where
  | internal
  | idempotency (error : IdempotencyError)
  deriving DecidableEq, Repr

structure Reply where
  status : Nat
  body : Body
  deriving DecidableEq, Repr

/-- A handler: it answers, or fails with an `ApiError` that is not recorded. -/
abbrev Handler := Prog Call Answer ApiError

/-- `interrupt`: the operation stays open for a retry under its key. -/
def interrupt (q : Query) : Handler Reply := do
  let _ ← ask (.markInterrupted q.key)
  Prog.stop .internal

/-- Record the response; when that fails the operation stays open. -/
def record (q : Query) (status : Nat) (body : Body) (errorCode : Option String) :
    Handler Reply := do
  match ← ask (Call.finish q.key status body errorCode) with
  | .ok _ => return ⟨status, body⟩
  | .error _ => interrupt q

def finishError (q : Query) (code : String) (status : Nat) : Handler Reply :=
  record q status (.error code "The webhook operation could not be completed" q.requestId)
    (some code)

/-- `services.origin` and the app the route names. -/
structure Site where
  origin : String
  appId : Uuid
  deriving DecidableEq, Repr

def responseFromMetadata (site : Site) (value : WebhookMetadata) : WebhookResponse :=
  { configured := value.enabled
    degraded := false
    metadataRevision := some value.metadataRevision
    secretRevision := value.secretRevision
    algorithm := "hmac-sha256-v1"
    publicOrigin := site.origin
    publicPath := "/hooks/v1/apps/" ++ uuidText site.appId ++ "/registry"
    createdAt := some value.createdAt
    rotatedAt := value.rotatedAt }

/-- The app must exist and be configured before the store is asked. -/
def withConfiguredApp (q : Query) (act : Handler Reply) : Handler Reply := do
  match ← ask Call.isConfigured with
  | .ok true => act
  | .ok false => finishError q "APP_UNCONFIGURED" 409
  | .error .notFound => finishError q "APP_NOT_FOUND" 404
  | .error _ => interrupt q

/-- Record the new metadata as the response, then drop the revisions nothing refers to. -/
def complete (site : Site) (q : Query) (metadata : WebhookMetadata) : Handler Reply := do
  let completed ← record q 200 (.webhook (responseFromMetadata site metadata)) none
  let _ ← ask .cleanupUnreferenced
  return completed

/-- `configure`, past the claim. -/
def configure (site : Site) (q : Query) (operation : Uuid) (expected : Option Uuid)
    (secret : String) : Handler Reply :=
  withConfiguredApp q do
    match ← (configureStore expected operation secret).attempt with
    | .ok metadata => complete site q metadata
    | .error .revisionStale => finishError q "WEBHOOK_REVISION_CONFLICT" 409
    | .error .contentInvalid => finishError q "WEBHOOK_SECRET_INVALID" 422
    | .error _ => interrupt q

/-- `revoke`, past the claim. -/
def revoke (site : Site) (q : Query) (operation expected : Uuid) : Handler Reply :=
  withConfiguredApp q do
    match ← (revokeStore expected operation).attempt with
    | .ok metadata => complete site q metadata
    | .error .revisionStale => finishError q "WEBHOOK_REVISION_CONFLICT" 409
    | .error _ => interrupt q

/-- The claim: a fresh or interrupted operation goes on, anything else is answered at
once. -/
def receive (q : Query) : Prog Call Answer Empty (Option Attempt) := do
  match ← ask (Call.claim q.key q.request) with
  | .ok (.new operation) => return some ⟨q, operation⟩
  | .ok (.resume operation) => return some ⟨q, operation⟩
  | .ok (.replay _ _ _) => return none
  | .error _ => return none

def handle (site : Site) (a : Attempt) : Handler Reply :=
  match a.query.request with
  | .configure expected secret => configure site a.query a.operation expected secret
  | .revoke expected => revoke site a.query a.operation expected

def serve (site : Site) (a : Attempt) : Prog Call Answer Empty Unit := do
  let _ ← (handle site a).attempt
  return ()

/-! ## What the calls act on -/

/-- The account of a history. -/
inductive Event where
  | claimed (operation : Uuid) (request : WebhookRequest)
  | current (secret : Bytes) (operation : Uuid)
  | revoked (operation : Uuid)
  deriving DecidableEq, Repr

/-- The ledger and the app's webhook files. `next` is above every identifier drawn or
mentioned so far: an identifier drawn now was never seen before. -/
structure Webhooks where
  ledger : Ledger String WebhookRequest Body
  metadata : Option WebhookMetadata
  revisions : List (Uuid × Bytes)
  next : Uuid
  events : List Event
  deriving DecidableEq, Repr

namespace Webhooks

/-- The route names the app, and only these two handlers use it. -/
def route (site : Site) : String :=
  "/api/v1/apps/" ++ uuidText site.appId ++ "/webhook"

def secretOf (w : Webhooks) (revision : Uuid) : Option Bytes :=
  w.revisions.lookup revision

/-- Nothing was configured yet. -/
def empty : Webhooks := ⟨[], none, [], 0, []⟩

end Webhooks

/-- What the environment decides about a call. An identifier is drawn `skip` above
`next`. -/
abbrev Choice : Call → Type
  | .claim _ _ => Outcome × Nat
  | .finish _ _ _ _ => Outcome
  | .markInterrupted _ => Outcome
  | .interruptPending => Outcome
  | .isConfigured => Except StoreError Bool
  | .loadMetadata => Bool
  | .writeMetadata _ => Outcome
  | .repairDurability _ => Outcome
  | .revisionExists _ => Bool
  | .publishRevision _ _ => Outcome
  | .loadRevision _ => Bool
  | .cleanupUnreferenced => Outcome × List Uuid
  | .nowUtc => Instant
  | .newUuid => Nat

namespace Webhooks

variable (site : Site)

/-- Only a claim that creates its record is an event. -/
def claimEvents (request : WebhookRequest) : ClaimResult Body → List Event
  | .new operation => [.claimed operation request]
  | .resume _ => []
  | .replay _ _ _ => []

/-- Claiming a key. A new record is an event, and what the request mentions counts as
seen. -/
def claim (w : Webhooks) (key : String) (request : WebhookRequest) (o : Outcome) (skip : Nat) :
    Except IdempotencyError (ClaimResult Body) × Webhooks :=
  let seen := max w.next ((request.expected.map (· + 1)).getD 0)
  let fresh := seen + skip
  Ledger.answered o w
    (fun result ledger =>
      { w with ledger, next := fresh + 1, events := claimEvents request result ++ w.events })
    (w.ledger.claim (route site) key request fresh)

/-- A revocation has succeeded when its record says so. -/
def revocation (w : Webhooks) (key : String) (status : Nat) : List Event :=
  match w.ledger.find (route site) key with
  | some r =>
    match r.request with
    | .revoke _ => if status < 400 then [.revoked r.operationId] else []
    | .configure _ _ => []
  | none => []

def finish (w : Webhooks) (key : String) (status : Nat) (body : Body)
    (errorCode : Option String) : Webhooks :=
  { w with
    ledger := w.ledger.finish (route site) key status body errorCode
    events := w.revocation site key status ++ w.events }

/-- The atomic replacement of `webhook.toml`. An enabling one makes its secret current. -/
def writeMetadata (w : Webhooks) (value : WebhookMetadata) : Webhooks :=
  let current := match value.enabled, value.secretRevision with
    | true, some revision => (w.secretOf revision).toList.map fun secret => .current secret revision
    | _, _ => []
  { w with metadata := some value, events := current ++ w.events }

/-- `cleanup_unreferenced` removes revisions that are not current; `kept` are those it did
not get to. -/
def cleanupUnreferenced (w : Webhooks) (kept : List Uuid) : Webhooks :=
  let current := w.metadata.bind (·.secretRevision)
  { w with revisions := w.revisions.filter fun r => some r.1 = current || kept.contains r.1 }

def act (w : Webhooks) : (e : Call) → Choice e → Answer e × Webhooks
  | .claim key request, (o, skip) => w.claim site key request o skip
  | .finish key status body errorCode, o =>
    (o.result .database, if o.applied then w.finish site key status body errorCode else w)
  | .markInterrupted key, o =>
    (o.result .database,
      if o.applied then { w with ledger := w.ledger.markInterrupted (route site) key } else w)
  | .interruptPending, o =>
    (o.result .database, if o.applied then { w with ledger := w.ledger.interruptPending } else w)
  | .isConfigured, answer => (answer, w)
  | .loadMetadata, readable =>
    (if readable then
      match w.metadata with
      | some value => .ok value
      | none => .error .notFound
    else .error .io, w)
  | .writeMetadata value, o => (o.result .io, if o.applied then w.writeMetadata value else w)
  | .repairDurability _, o => (o.result .io, w)
  | .revisionExists revision, visible => (visible && (w.secretOf revision).isSome, w)
  | .publishRevision revision secret, o =>
    match w.secretOf revision with
    | some _ => (.error .configRevisionConflict, w)
    | none =>
      (o.result .io,
        if o.applied then { w with revisions := (revision, secret) :: w.revisions } else w)
  | .loadRevision revision, readable =>
    (match w.secretOf revision with
      | some secret => if readable then .ok (String.ofList (encode64 secret)) else .error .io
      | none => .error .notFound, w)
  | .cleanupUnreferenced, (o, kept) => (o.result .io, w.cleanupUnreferenced kept)
  | .nowUtc, now => (now, w)
  | .newUuid, skip => (w.next + skip, { w with next := w.next + skip + 1 })

end Webhooks

/-- Changes made by others: finished records are collected, and startup drops revisions
nothing refers to. -/
inductive Change where
  | collect (picked : List Uuid)
  | cleanup (kept : List Uuid)
  deriving DecidableEq, Repr

/-- The webhook requests of one app as a service. -/
def webhookService (site : Site) :
    Service Call Answer Webhooks Query Attempt Change where
  world := { Choice, act := Webhooks.act site }
  receive
  serve := serve site
  boot := do
    let _ ← ask .interruptPending
    return ()
  change
    | w, .collect picked =>
      { w with ledger := w.ledger.collect (fun _ => false) fun op => picked.contains op }
    | w, .cleanup kept => w.cleanupUnreferenced kept

end SoloDock.Webhook
