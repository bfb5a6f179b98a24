import SoloDock.Apps.Unregister

/-!
# Deleting an app

The `delete_app` handler of `api/mutations.rs`, past its claim. A deletion is bound to a
preview: the token it was confirmed with names the facts the operator saw, and the
handler compares them with what it finds before it stops and removes the container, and
again before it moves the app's directory to the trash. A resumed deletion that finds the
directory gone goes straight to the response.
-/

namespace SoloDock.Apps

open Lib Mutation Docker
open Lib.Prog (ask)

/-- The body of `DeleteRequest`, and the app the route names. -/
structure Deletion where
  app : Uuid
  token : String
  slug : String
  expected : Option Uuid
  removeContainer : Bool
  deriving DecidableEq, Repr

/-- The preview is this session's and says what the request says. -/
def previewFits (d : Deletion) (session : String) (p : Preview) : Bool :=
  p.session == session && p.slug == d.slug && p.revision == d.expected
    && p.removeContainer == d.removeContainer && p.facts.appId == d.app && p.facts.slug == p.slug
    && p.facts.expectedRevision == d.expected && p.facts.removeContainer == p.removeContainer
    && p.facts.containerIds == p.containerIds

/-- `deletion_facts_match`: what is found is what the preview showed, the operation's own
removal of the container aside. The source compares the SHA-256 of the two; here a digest
stands as the facts it is taken of, so different facts are taken to differ. -/
def deletionFactsMatch (current expected : DeletionFacts) (ownRemoved : Option (List String)) :
    Bool :=
  { current with containerIds := ownRemoved.getD current.containerIds } = expected

/-- A former attempt of this deletion removed the container already. -/
def removalAlreadyApplied (a : Attempt) (d : Deletion) (p : Preview) (ids : List String) : Bool :=
  a.resumed && p.consumed && d.removeContainer && ids.isEmpty && !p.containerIds.isEmpty

/-- `finalize_deletion_or_reconcile`; a failed finalizer is left to the reconciler. -/
def finalizeDeletionOrReconcile (app operation : Uuid) (canFinalize : Bool) : Handler Unit := do
  if canFinalize then
    let _ ← (finalizeAppUnregistration app operation).attempt
    return ()
  else return ()

/-- The app is gone: publish that, record the response, and remove what is left. -/
def finishDeletion (a : Attempt) (d : Deletion) (p : Preview) : Handler Response := do
  let (warning, canFinalize) ← ask (Call.publishDeletion d.app)
  let response ← finishJson a 200 (.deleted
    { appId := d.app
      unregistered := true
      containerRemoved := d.removeContainer && !p.containerIds.isEmpty
      retained := p.facts.retained
      orphanWarning := !d.removeContainer
      projectionWarning := warning })
  finalizeDeletionOrReconcile d.app a.operation canFinalize
  return response

/-- The directory was moved by a former attempt. -/
def resumeDeletion (a : Attempt) (d : Deletion) (p : Preview) : Handler Response := do
  match ← ask (Call.readTombstoneMetadata d.app a.operation) with
  | .error _ => interruptInternal a
  | .ok metadata =>
    if metadata.slug ≠ d.slug ∨ metadata.draftRevision ≠ d.expected then interruptInternal a
    else
      if ← ask (Call.cancelAppStreams d.app) then finishDeletion a d p
      else interruptInternal a

/-- The directory is moved to the trash. When the store reports a failure the rename may
still have been made; the operation stays open either way. -/
def moveToTrash (a : Attempt) (d : Deletion) (p : Preview) : Handler Response := do
  match ← ask (Call.tombstone d.app a.operation) with
  | .ok _ => finishDeletion a d p
  | .error _ =>
    let _ ← ask (Call.readTombstoneMetadata d.app a.operation)
    interruptInternal a

/-- The last comparison with the preview, right before the directory is moved. -/
def lastSnapshot (a : Attempt) (d : Deletion) (p : Preview) : Handler Response := do
  if ← ask (Call.cancelAppStreams d.app) then
    match ← ask (Call.deletionSnapshot d.app d.removeContainer) with
    | .error _ => interruptInternal a
    | .ok snapshot =>
      let expectedFinal := if d.removeContainer then [] else p.containerIds
      let ownRemoved :=
        if d.removeContainer && !p.containerIds.isEmpty then some p.containerIds else none
      if snapshot.facts.containerIds ≠ expectedFinal ∨
          !deletionFactsMatch snapshot.facts p.facts ownRemoved then interruptInternal a
      else
        if ← ask (Call.containerIs expectedFinal d.app false) then moveToTrash a d p
        else interruptInternal a
  else interruptInternal a

/-- Compose stops and removes the container. -/
def composeRemove (a : Attempt) (d : Deletion) (p : Preview) : Handler Response := do
  match ← ask (Call.composeRun .stop d.app a.operation) with
  | .error _ => interruptInternal a
  | .ok _ =>
    match ← ask (Call.composeRun .remove d.app a.operation) with
    | .error _ => interruptInternal a
    | .ok _ =>
      if ← ask (Call.containerIs [] d.app false) then
        match ← ask (Call.markEffectCompleted a.query.request.route a.query.key) with
        | .error _ => interruptInternal a
        | .ok _ => lastSnapshot a d p
      else interruptInternal a

/-- The second verification of the active release, after the durable marker. The container
that is found again is the only one of the snapshot's ids, and must be its container. -/
def removeVerified (a : Attempt) (d : Deletion) (p : Preview) (snapshot : DeletionSnapshot)
    (active : Verified) : Handler Response := do
  match ← ask (Call.loadVerified .active d.app) with
  | .error _ => interruptInternal a
  | .ok final =>
    if final.releaseId ≠ active.releaseId then interruptInternal a
    else
      match ← ask (Call.validateRuntimePaths d.app) with
      | .error _ => interruptInternal a
      | .ok _ =>
        if ← ask (Call.containerIs snapshot.facts.containerIds d.app false) then
          if snapshot.container.map (·.id) ≠ snapshot.facts.containerIds.head? then
            interruptInternal a
          else
            if ← ask (Call.revalidateBinds final.bindIdentities) then
              if ← ask Call.deadlinePassed then finishError a "COMPOSE_TIMEOUT" 503
              else composeRemove a d p
            else finishError a "BIND_CHANGED" 409
        else interruptInternal a

/-- The durable marker of the container's removal. -/
def markRemoval (a : Attempt) (d : Deletion) (p : Preview) (snapshot : DeletionSnapshot)
    (active : Verified) : Handler Response := do
  let route := a.query.request.route
  match ← ask (Call.effectMarker route a.query.key) with
  | .error _ => interruptInternal a
  | .ok (some _) => removeVerified a d p snapshot active
  | .ok none =>
    match ← ask (Call.markEffectStarted route a.query.key (snapshot.container.map (·.id))
        (snapshot.container.bind (·.runtime.startedAt))) with
    | .error _ => interruptInternal a
    | .ok _ => removeVerified a d p snapshot active

/-- The container is to be removed, and was not yet. -/
def removeContainer (a : Attempt) (d : Deletion) (p : Preview) (snapshot : DeletionSnapshot) :
    Handler Response := do
  match ← ask (Call.loadVerified .active d.app) with
  | .error code => finishError a code (mutationStatus code)
  | .ok active =>
    if ← ask Call.tryCompose then
      match ← ask Call.composeUnready with
      | some code => finishError a code 503
      | none =>
        if ← ask (Call.containerIs snapshot.facts.containerIds d.app false) then
          markRemoval a d p snapshot active
        else finishError a "DELETION_PREVIEW_STALE" 409
    else finishError a "APP_BUSY" 409

/-- The preview is used up; the container is removed first if it is to be. -/
def applyDeletion (a : Attempt) (d : Deletion) (p : Preview) (snapshot : DeletionSnapshot) :
    Handler Response :=
  if d.removeContainer && !snapshot.facts.containerIds.isEmpty
      && !removalAlreadyApplied a d p snapshot.facts.containerIds then
    removeContainer a d p snapshot
  else lastSnapshot a d p

/-- The preview is consumed, once. -/
def consumePreview (a : Attempt) (d : Deletion) (p : Preview) (snapshot : DeletionSnapshot) :
    Handler Response := do
  if p.consumed then applyDeletion a d p snapshot
  else
    match ← ask (Call.consumePreview d.token) with
    | .error _ => interruptInternal a
    | .ok updated =>
      if updated ≠ 1 then finishError a "DELETION_PREVIEW_INVALID" 409
      else applyDeletion a d p snapshot

/-- What is found is compared with the preview. -/
def compareSnapshot (a : Attempt) (d : Deletion) (p : Preview) : Handler Response := do
  match ← ask (Call.deletionSnapshot d.app d.removeContainer) with
  | .error _ => finishError a "DELETION_PREVIEW_STALE" 409
  | .ok snapshot =>
    let removed := removalAlreadyApplied a d p snapshot.facts.containerIds
    if deletionFactsMatch snapshot.facts p.facts (if removed then some p.containerIds else none)
    then consumePreview a d p snapshot
    else finishError a "DELETION_PREVIEW_STALE" 409

/-- The directory is there, or this is the retry of a deletion that moved it. -/
def locateApp (a : Attempt) (d : Deletion) (p : Preview) : Handler Response := do
  if ← ask (Call.appDirectoryExists d.app) then
    if p.consumed && !a.resumed then finishError a "DELETION_PREVIEW_INVALID" 409
    else
      let now ← ask Call.nowUtc
      if !p.consumed && p.expiresAt ≤ now then finishError a "DELETION_PREVIEW_EXPIRED" 409
      else compareSnapshot a d p
  else if a.resumed then
    if p.consumed then resumeDeletion a d p
    else finishError a "DELETION_PREVIEW_INVALID" 409
  else finishError a "APP_NOT_FOUND" 404

def deleteApp (a : Attempt) (d : Deletion) : Handler Response := do
  if ← ask (Call.tryApp d.app) then
    match ← ask (Call.cleanupInProgress d.app) with
    | .error _ => interruptInternal a
    | .ok count =>
      if count ≠ 0 then finishError a "APP_BUSY" 409
      else
        match ← ask (Call.preview d.token d.app) with
        | .error _ => interruptInternal a
        | .ok none => finishError a "DELETION_PREVIEW_INVALID" 409
        | .ok (some p) =>
          if previewFits d a.query.session p then locateApp a d p
          else finishError a "DELETION_PREVIEW_INVALID" 409
  else finishError a "APP_BUSY" 409

/-- The retry of a deletion that has succeeded: its response is replayed, and what is left
of the app is removed. -/
def replayDeletion (app operation : Uuid) : Prog Call Answer ApiError Unit := do
  match ← succeededAppTombstones.attempt with
  | .error _ => return ()
  | .ok unfinished =>
    if unfinished.contains (app, operation) then
      let (_, canFinalize) ← ask (Call.publishDeletion app)
      finalizeDeletionOrReconcile app operation canFinalize
    else return ()

end SoloDock.Apps
