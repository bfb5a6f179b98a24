import SoloDock.Images.Plan
import SoloDock.Lib.Service

/-!
# Removing the images of a plan

`execute_images` of `cleanup_execution.rs` and its two callers: the confirmed cleanup of
`api/image_cleanup.rs` and the retention pass of `retention.rs`. An item is inspected,
durably marked as started, removed, and inspected again before its end is recorded. An
execution that dies is resumed with the plan rebuilt under the locks; an item that is found
missing has been removed if it was started, and was somebody else's removal if not.
-/

namespace SoloDock.Images

open Lib Mutation Cleanup
open Lib.Prog (accept ask ensure orStop)

/-! ## The items -/

/-- The rows are those of the plan, in its order. -/
def ledgerFits (rows : List ImageItem) (selected : List ImageCandidate) : Bool :=
  rows.length == selected.length
    && (rows.zip selected).zipIdx.all fun ((row, candidate), ordinal) =>
      row.ordinal == ordinal && row.imageId == candidate.imageId

/-- The image may be removed: the plan still has it, and it is the one that was planned. -/
def stillFits (current : ImagePlan) (candidate : ImageCandidate) (observed : CleanupImage) :
    Except CleanupError Bool :=
  if !current.candidates.contains candidate || observed.image.id != candidate.imageId.value then
    .ok false
  else
    match matchesInspect candidate.identity observed with
    | .ok found => .ok found
    | .error _ => .error .recordInvalid

def recordItem (operation : Uuid) (ordinal : Nat) (status : ItemStatus) : Planner Unit := do
  accept (← ask (Call.setStatus operation ordinal status))

/-- Docker accepted the removal; it counts once the image is gone. -/
def verifyRemoved (operation : Uuid) (ordinal : Nat) (candidate : ImageCandidate) :
    Planner Unit := do
  let observed ← Prog.orElse (← ask (Call.inspect candidate.imageId)) fun _ => .recordInvalid
  recordItem operation ordinal (if observed.isNone then .removed else .retained)

/-- The durable mark, and the removal. -/
def removeItem (operation : Uuid) (ordinal : Nat) (candidate : ImageCandidate) :
    Planner Unit := do
  accept (← ask (Call.markStarted operation ordinal))
  match ← ask (Call.remove candidate.imageId) with
  | .error _ => Prog.stop .recordInvalid
  | .ok .retained => recordItem operation ordinal .retained
  | .ok .accepted => verifyRemoved operation ordinal candidate

def executeItem (operation : Uuid) (current : ImagePlan) (ordinal : Nat) (row : ImageItem)
    (candidate : ImageCandidate) : Planner Unit := do
  if row.status.terminal then return ()
  else
    match ← ask (Call.inspect candidate.imageId) with
    | .error _ => Prog.stop .recordInvalid
    | .ok none =>
      recordItem operation ordinal (if row.status = .started then .removed else .retained)
    | .ok (some observed) =>
      if ← accept (stillFits current candidate observed) then
        removeItem operation ordinal candidate
      else recordItem operation ordinal .retained

def executeItems (operation : Uuid) (current : ImagePlan) :
    Nat → List (ImageItem × ImageCandidate) → Planner Unit
  | _, [] => return ()
  | ordinal, (row, candidate) :: rest => do
    executeItem operation current ordinal row candidate
    executeItems operation current (ordinal + 1) rest

/-- `terminal_result`: nothing while an item is open. -/
def terminalResult (operation : Uuid) (plan : List ImageCandidate) :
    Planner (Option TerminalResult) := do
  let rows ← accept (← ask (Call.items operation))
  ensure (ledgerFits rows plan) .recordInvalid
  if rows.any fun row => !row.status.terminal then return none
  else
    return some
      { operation
        plan
        withFailures := rows.any fun row => row.status == .retained
        items := rows.map fun row => (row.imageId, row.status) }

def executeImages (operation : Uuid) (selected : List ImageCandidate) (current : ImagePlan) :
    Planner TerminalResult := do
  let rows ← accept (← ask (Call.items operation))
  ensure (ledgerFits rows selected) .recordInvalid
  executeItems operation current 0 (rows.zip selected)
  orStop (← terminalResult operation selected) .recordInvalid

/-! ## The confirmed cleanup -/

/-- A request past its claim, with what it read before it waited for the catalog lock. -/
structure Attempt where
  query : Query
  operation : Uuid
  published : Except CleanupError (Option ImageOperation)
  preview : Except CleanupError (Option ImagePreview)
  now : Instant

/-- `Failure`: a known failure is recorded, an unknown one leaves the operation open. -/
inductive Failure where
  | known (code : String)
  | unknown
  deriving DecidableEq, Repr

/-- Once an operation is published nothing refuses it any more. -/
def reject (published : Option ImageOperation) (code : String) : Failure :=
  if published.isSome then .unknown else .known code

def strictlySorted : List ExactImageId → Bool
  | a :: b :: rest => decide (a.value < b.value) && strictlySorted (b :: rest)
  | _ => true

/-- The request is the session's, acknowledged, and in order. -/
def acceptable (q : Query) (row : ImagePreview) : Bool :=
  row.session == q.session && q.request.acknowledgeImageRemoval && !q.request.imageIds.isEmpty
    && q.request.imageIds.length ≤ 100 && strictlySorted q.request.imageIds

/-- The candidates of the preview that the request names. -/
def selectedOf (request : ApplyRequest) (row : ImagePreview) : Option (List ImageCandidate) :=
  request.imageIds.mapM fun id => row.plan.candidates.find? fun c => c.imageId == id

/-- What was published is this selection, or the preview can still be used. -/
def usable (a : Attempt) (row : ImagePreview) (selected : List ImageCandidate) :
    Option ImageOperation → Except Failure Unit
  | some stored =>
    if stored.token == some a.query.request.token && stored.plan == selected && row.consumed then
      .ok ()
    else .error .unknown
  | none =>
    if row.consumed then .error (.known "CLEANUP_PREVIEW_INVALID")
    else if row.expiresAt ≤ a.now then .error (.known "CLEANUP_PREVIEW_EXPIRED")
    else .ok ()

def tryApps : List Uuid → Prog Call Answer CleanupError Unit
  | [] => return ()
  | app :: rest => do
    ensure (← ask (Call.tryApp app)) .busy
    tryApps rest

/-- The catalog lock, `current_app_ids`, and the locks of every app and of Compose. -/
def lockAll : Prog Call Answer CleanupError Unit := do
  ask Call.lockCatalog
  let inventory ← accept (← ask Call.imageProtectionInventory)
  tryApps (inventory.appIds.mergeSort fun a b => decide (a ≤ b))
  ensure (← ask Call.tryCompose) .busy

/-- The code of a failure to lock. -/
def lockFailure : CleanupError → String
  | .busy => "APP_BUSY"
  | _ => "CLEANUP_INVENTORY_INCOMPLETE"

/-- The first execution: the plan must be the one that was previewed. -/
def publishSelected (a : Attempt) (row : ImagePreview) (selected : List ImageCandidate)
    (current : ImagePlan) : Prog Call Answer Failure Unit := do
  ensure (current == row.plan) (.known "CLEANUP_PREVIEW_STALE")
  Prog.orElse (← ask (Call.publish a.operation a.query.request.token selected))
    fun _ => .unknown

/-- The part of `execute` under the locks. -/
def executeLocked (a : Attempt) (published : Option ImageOperation) (row : ImagePreview)
    (selected : List ImageCandidate) : Prog Call Answer Failure TerminalResult := do
  let locked ← lockAll.attempt
  Prog.orElse locked fun error => reject published (lockFailure error)
  let plan ← (buildPlanForOperation (some a.operation)).attempt
  let current ← Prog.orElse plan fun _ => reject published "CLEANUP_INVENTORY_INCOMPLETE"
  if published.isNone then
    publishSelected a row selected current
    let result ← (executeImages a.operation selected current).attempt
    Prog.orElse result fun _ => .unknown
  else
    let result ← (executeImages a.operation selected current).attempt
    Prog.orElse result fun _ => .unknown

def execute (a : Attempt) : Prog Call Answer Failure TerminalResult := do
  let published ← Prog.orElse a.published fun _ => .unknown
  let row ← Prog.orElse a.preview fun _ => .unknown
  let row ← orStop row (reject published "CLEANUP_PREVIEW_INVALID")
  ensure (acceptable a.query row) (reject published "CLEANUP_PREVIEW_INVALID")
  let selected ← orStop (selectedOf a.query.request row)
    (reject published "CLEANUP_PREVIEW_INVALID")
  accept (usable a row selected published)
  executeLocked a published row selected

structure Response where
  status : Nat
  body : Body
  deriving DecidableEq, Repr

abbrev Handler := Prog Call Answer Unit

def interruptInternal (a : Attempt) : Handler Response := do
  let _ ← ask (Call.markInterrupted a.query.key)
  Prog.stop ()

/-- Record a response; when that fails the operation stays open. -/
def record (a : Attempt) (status : Nat) (body : Body) (errorCode : Option String) :
    Handler Response := do
  match ← ask (Call.finish a.query.key status body errorCode) with
  | .ok _ => return ⟨status, body⟩
  | .error _ => interruptInternal a

/-- `apply`, past its claim. -/
def apply (a : Attempt) : Handler Response := do
  match ← (execute a).attempt with
  | .ok result => record a 200 (.result result) none
  | .error (.known code) =>
    record a 409 (.error code "The operation could not be completed" a.query.requestId) (some code)
  | .error .unknown => interruptInternal a

/-- `preview`: the plan is stored with a fresh token. -/
def preview (session : String) : Planner ImagePreview := do
  ask Call.lockCatalog
  let plan ← buildPlan
  let token ← orStop (← ask Call.randomToken) .recordInvalid
  let now ← ask Call.nowUtc
  let row : ImagePreview := ⟨token, session, plan, now + 300 * 1000000000, false⟩
  accept (← ask (Call.insertPreview row))
  return row

/-! ## The retention pass -/

/-- A policy that was switched off keeps every image. -/
def underPolicy (enabled : Bool) (plan : ImagePlan) : ImagePlan :=
  if enabled then plan else { plan with candidates := [] }

/-- Finish an execution of the policy; the answer says whether something was retained. -/
def runAutomatic (operation : Uuid) (plan : List ImageCandidate) (current : ImagePlan) :
    Planner Bool := do
  let result ← executeImages operation plan current
  accept (← ask (Call.complete operation result))
  return 0 < current.protectedCount || result.withFailures

/-- A pass for which none is pending publishes its plan. -/
def beginAutomatic (app : Uuid) (enabled : Bool) : Planner Bool := do
  let current ← buildScopedPlan none (some app)
  let current := underPolicy enabled current
  if current.candidates.isEmpty then return 0 < current.protectedCount
  else
    let operation ← accept (← ask (Call.publishAutomatic app current.candidates))
    runAutomatic operation current.candidates current

/-- One that was interrupted is resumed with its own plan. -/
def resumeAutomatic (app operation : Uuid) (enabled : Bool) : Planner Bool := do
  let current ← buildScopedPlan (some operation) (some app)
  let owner ← accept (← ask (Call.authorization operation))
  ensure (owner == some app) .recordInvalid
  let plan ← accept (← ask (Call.planOf operation))
  runAutomatic operation plan (underPolicy enabled current)

/-- A new pass needs an enabled policy, a registered app and a cleaned release. -/
def startAutomatic (app : Uuid) (enabled : Bool) : Planner Bool := do
  let registered ← ask (Call.registered app)
  if !enabled || !registered then return false
  else
    let source ← accept (← ask (Call.hasSource app))
    if source then beginAutomatic app enabled else return false

/-- `images`, of one app. -/
def images (app : Uuid) : Planner Bool := do
  lockAll
  let enabled ← accept (← ask (Call.policyEnabled app))
  match ← ask (Call.pendingAutomatic app) with
  | .error error => Prog.stop error
  | .ok (some operation) => resumeAutomatic app operation enabled
  | .ok none => startAutomatic app enabled

end SoloDock.Images
