import SoloDock.Apps.Interface

/-!
# Creating an app and updating its draft

The handlers of `POST /api/v1/apps`, `POST /api/v1/apps/from-preset` and
`PUT /api/v1/apps/{app}/draft`, past their claims, and the four ways any handler ends:
with a recorded response, a recorded error, an operation left open for a retry, or an
error that records nothing.

The app a create makes has the operation's id as its own.
-/

namespace SoloDock.Apps

open Lib Mutation
open Lib.Prog (ask)
open Call (readMetadata tryApp)

inductive ApiError where
  | internal
  | conflict (code : String)
  | validation
  deriving DecidableEq, Repr

structure Response where
  status : Nat
  body : Body
  deriving DecidableEq, Repr

/-- A handler: it answers, or fails with an `ApiError` that is not recorded. -/
abbrev Handler := Prog Call Answer ApiError

/-- `interrupt_internal`: the operation stays open for a retry under its key. -/
def interruptInternal (a : Attempt) : Handler Response := do
  let _ ← ask (Call.markInterrupted a.query.request.route a.query.key)
  Prog.stop .internal

/-- Record a response; when that fails the operation stays open. -/
def record (a : Attempt) (status : Nat) (body : Body) (errorCode : Option String) :
    Handler Response := do
  match ← ask (Call.finish a.query.request.route a.query.key status body errorCode) with
  | .ok _ => return ⟨status, body⟩
  | .error _ => interruptInternal a

def finishJson (a : Attempt) (status : Nat) (body : Body) : Handler Response :=
  record a status body none

def finishError (a : Attempt) (code : String) (status : Nat) : Handler Response :=
  record a status (.error code "The operation could not be completed" a.query.requestId)
    (some code)

def finishDraftValidationError (a : Attempt) (code : String) : Handler Response :=
  record a 422 (.error code "The application configuration is invalid" a.query.requestId)
    (some code)

def mutationStatus (code : String) : Nat :=
  if code = "APP_NOT_FOUND" then 404
  else if ["BIND_INVALID", "BIND_DISABLED", "BIND_OUTSIDE_ALLOWED_ROOT", "BIND_SYMLINK",
      "BIND_CHANGED", "BIND_ROOT_SENSITIVE", "BIND_SOURCE_ANCESTOR_CONFLICT"].contains code then
    422
  else if ["DOCKER_UNAVAILABLE", "DOCKER_PERMISSION_DENIED", "DOCKER_API_INCOMPATIBLE",
      "DOCKER_OBSERVATION_FAILED", "DOCKER_TIMEOUT", "COMPOSE_UNAVAILABLE",
      "COMPOSE_PERMISSION_DENIED", "COMPOSE_INCOMPATIBLE", "COMPOSE_TIMEOUT"].contains code then
    503
  else if code = "FILESYSTEM_RESCAN_FAILED" then 500
  else 409

/-! ## `create` -/

/-- The app carries this create's mark, and no draft was saved since. -/
def createdBy (operation : Uuid) (m : Metadata) : Bool :=
  m.lastOperationId == operation && m.draftRevision == none

/-- Answer with the app as it is. -/
def finishCreated (a : Attempt) (m : Metadata) : Handler Response := do
  let warning ← ask Call.refresh
  finishJson a 201 (.app m warning)

/-- What to do when the store could not create the app. -/
def recoverCreate (a : Attempt) : StoreError → Handler Response
  | .appConflict => do
    match ← ask (readMetadata a.operation) with
    | .error _ => interruptInternal a
    | .ok existing =>
      if existing.lastOperationId ≠ a.operation then finishError a "APP_SLUG_CONFLICT" 409
      else finishCreated a existing
  | _ => do
    match ← ask (readMetadata a.operation) with
    | .error _ => interruptInternal a
    | .ok existing =>
      if createdBy a.operation existing then
        match ← ask (Call.repairAppDurability a.operation) with
        | .ok _ => finishCreated a existing
        | .error _ => interruptInternal a
      else interruptInternal a

/-- The app is new: its slug must be free. -/
def createNew (a : Attempt) (slug : String) : Handler Response := do
  match ← ask Call.scanSlugs with
  | .error _ => interruptInternal a
  | .ok slugs =>
    if slugs.contains slug then finishError a "APP_SLUG_CONFLICT" 409
    else
      if ← ask (tryApp a.operation) then
        match ← ask (Call.createApp slug a.operation none) with
        | .ok metadata => finishCreated a metadata
        | .error error => recoverCreate a error
      else finishError a "APP_BUSY" 409

def create (a : Attempt) (slug : String) : Handler Response := do
  match ← ask (readMetadata a.operation) with
  | .ok existing =>
    if createdBy a.operation existing then finishCreated a existing else createNew a slug
  | .error _ => createNew a slug

/-! ## `create` of presets.rs

The first attempt and its resumption differ from the above: what goes wrong between the
locks and the creation is answered without touching the record. -/

/-- The app carries this preset's mark and draft. -/
def presetBy (operation : Uuid) (m : Metadata) : Bool :=
  m.lastOperationId == operation && m.draftRevision == some operation

def createPresetNew (a : Attempt) (slug : String) (draft : Draft) : Handler Response := do
  match ← ask Call.scanSlugs with
  | .error _ => Prog.stop .internal
  | .ok slugs =>
    if slugs.contains slug then finishError a "APP_SLUG_CONFLICT" 409
    else
      if ← ask (tryApp a.operation) then
        match ← ask (Call.createApp slug a.operation (some draft)) with
        | .ok metadata => finishCreated a metadata
        | .error .appConflict =>
          match ← ask (readMetadata a.operation) with
          | .error _ => Prog.stop .internal
          | .ok existing =>
            if existing.lastOperationId ≠ a.operation then finishError a "APP_SLUG_CONFLICT" 409
            else finishCreated a existing
        | .error _ => interruptInternal a
      else Prog.stop (.conflict "APP_BUSY")

def createFromPreset (a : Attempt) (slug preset : String) : Handler Response := do
  match ← ask (Call.renderPreset slug preset) with
  | .error code => finishError a code 422
  | .ok draft =>
    match ← ask (readMetadata a.operation) with
    | .ok existing =>
      if presetBy a.operation existing then finishCreated a existing
      else createPresetNew a slug draft
    | .error _ => createPresetNew a slug draft

/-! ## `update_draft` -/

/-- Answer with the app as the draft left it. -/
def finishDraft (a : Attempt) (m : Metadata) : Handler Response := do
  let warning ← ask Call.refresh
  finishJson a 200 (.app m warning)

/-- The draft is the one this operation saved. -/
def draftedBy (operation : Uuid) (m : Metadata) : Bool :=
  m.lastOperationId == operation && m.draftRevision == some operation

/-- A former attempt saved the draft: answer with it. -/
def replayDraft (a : Attempt) (app : Uuid) (m : Metadata) : Handler Response := do
  match ← ask (Call.loadConfig app a.operation) with
  | .error _ => interruptInternal a
  | .ok _ =>
    if m.discoveryImageRef.isNone then Prog.stop (.conflict "APP_UNCONFIGURED")
    else
      match ← ask (Call.normalizeVerified m) with
      | .error _ => interruptInternal a
      | .ok _ => finishDraft a m

/-- What to do when the store could not save the draft. -/
def recoverDraft (a : Attempt) (app : Uuid) : StoreError → Handler Response
  | .revisionStale => finishError a "APP_REVISION_STALE" 409
  | .configRevisionConflict => do
    match ← ask (readMetadata app) with
    | .error _ => interruptInternal a
    | .ok existing =>
      if existing.lastOperationId ≠ a.operation then finishError a "APP_REVISION_STALE" 409
      else finishDraft a existing
  | _ => do
    match ← ask (readMetadata app) with
    | .error _ => interruptInternal a
    | .ok existing =>
      if draftedBy a.operation existing then
        match ← ask (Call.repairAppDurability app) with
        | .ok _ => finishDraft a existing
        | .error _ => interruptInternal a
      else interruptInternal a

/-- The draft is checked against the stored apps and saved. -/
def saveDraft (a : Attempt) (app : Uuid) (expected : Option Uuid) (draft : Draft) :
    Handler Response := do
  if ← ask (Call.validateRegistryCredential draft) then
    match ← ask (Call.validateStoredBindPlan app draft) with
    | .error code => finishDraftValidationError a code
    | .ok _ =>
      match ← ask (Call.updateDraft app expected a.operation draft) with
      | .ok metadata => finishDraft a metadata
      | .error error => recoverDraft a app error
  else Prog.stop .validation

/-- The secrets of the expected revision are loaded and the draft is normalised. -/
def normalizeAndSave (a : Attempt) (app : Uuid) (expected : Option Uuid) (input : DraftInput) :
    Handler Response := do
  match ← ask (Call.normalizeDraft input) with
  | .error code => finishDraftValidationError a code
  | .ok draft => saveDraft a app expected draft

def saveNewDraft (a : Attempt) (app : Uuid) (expected : Option Uuid) (input : DraftInput)
    (m : Metadata) : Handler Response := do
  match ← ask (Call.readPendingLink app) with
  | .error _ => interruptInternal a
  | .ok (some _) => finishError a "DEPLOYMENT_PENDING" 409
  | .ok none =>
    if m.draftRevision ≠ expected then finishError a "APP_REVISION_STALE" 409
    else
      match expected with
      | none => normalizeAndSave a app expected input
      | some revision =>
        match ← ask (Call.loadConfig app revision) with
        | .error _ => interruptInternal a
        | .ok _ => normalizeAndSave a app expected input

def updateDraft (a : Attempt) (app : Uuid) (expected : Option Uuid) (input : DraftInput) :
    Handler Response := do
  if ← ask (tryApp app) then
    match ← ask (readMetadata app) with
    | .error .notFound => finishError a "APP_NOT_FOUND" 404
    | .error _ => interruptInternal a
    | .ok current =>
      if !current.autoDeployEnabled && input.autoDeployEnabled && !input.autoDeployAcknowledged then
        finishError a "AUTO_DEPLOY_ACK_REQUIRED" 422
      else if draftedBy a.operation current then replayDraft a app current
      else saveNewDraft a app expected input current
  else finishError a "APP_BUSY" 409

end SoloDock.Apps
