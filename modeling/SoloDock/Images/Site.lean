import SoloDock.Images.Execute
import SoloDock.Lib.Trace

/-!
# The world of image cleanups

The tables of image cleanups with the ledger, and what others write: the releases on disk,
the tombstones and the tables of storage cleanups (`Facts`). Docker may answer anything at
any time. The service runs in the traced world: its log has every call that was made, with
the site before it and the answer, latest first.

The lock of the catalog is waited for, so that requests and retention passes are served one
at a time; a confirmed cleanup reads its preview before it waits for the lock.
-/

namespace SoloDock.Images

open Lib Mutation Docker Cleanup

/-- The table `cleaned_releases`, in the order of its primary key. -/
structure CleanedTable where
  rows : List CleanedRow
  sorted : rows.Pairwise fun r s => Cursor.precedes (some r.key) s.key = true
  deriving DecidableEq

/-- What others write, as it is read. -/
structure Facts where
  inventory : Except CleanupError ArtifactInventory
  tombstones : Except CleanupError (List Uuid)
  tombstoneReleases : Except CleanupError (List CleanedReleaseRecord)
  cleaned : CleanedTable
  operations : List CleanupOperation
  items : List CleanupItem

namespace Facts

/-- `cleaned_releases c JOIN storage_cleanup_operations o ON o.operation_id=…`. -/
def joined (f : Facts) : List JoinedRow :=
  f.cleaned.rows.filterMap fun row =>
    (f.operations.find? fun o => o.id == row.cleanupOperation).map fun operation => ⟨row, operation⟩

/-- `HISTORY_PAGE_SIZE`. -/
def pageSize : Nat := 128

def page (f : Facts) (cursor : Option Cursor) : List JoinedRow :=
  (f.joined.filter fun j => Cursor.precedes cursor j.row.key).take pageSize

end Facts

/-- A row of `automatic_cleanup_authorizations`. -/
structure Authorization where
  operation : Uuid
  app : Uuid
  result : Option TerminalResult
  deriving DecidableEq, Repr

structure Site where
  facts : Facts
  ledger : Ledger Route ApplyRequest Body
  next : Uuid
  previews : List ImagePreview
  operations : List ImageOperation
  items : List ImageItem
  authorizations : List Authorization

/-- No image cleanup has been asked for. -/
def Site.empty (facts : Facts) (next : Uuid) : Site where
  facts
  ledger := []
  next
  previews := []
  operations := []
  items := []
  authorizations := []

abbrev Choice : Call → Type
  | .claim _ => Outcome × Nat
  | .finish _ _ _ _ => Outcome
  | .markInterrupted _ => Outcome
  | .interruptPending => Outcome
  | .validateOperations => Except CleanupError Unit
  | .imageProtectionInventory => Bool
  | .cleanupTombstones => Bool
  | .unfinishedOperations => Bool
  | .tombstoneReleases => Bool
  | .countCleaned => Bool
  | .cleanedPage _ => Bool
  | .cleanupItem _ _ => Bool
  | .commit => Bool
  | .formerAttempts _ => Except CleanupError (List FormerAttempt)
  | .allContainers => Except DockerError (List ContainerRecord)
  | .inspect _ => Except DockerError (Option CleanupImage)
  | .remove _ => Except DockerError RemoveImageResult
  | .lockCatalog => Unit
  | .tryApp _ => Bool
  | .tryCompose => Bool
  | .nowUtc => Instant
  | .randomToken => Option String
  | .insertPreview _ => Outcome
  | .preview _ => Bool
  | .published _ => Bool
  | .publish _ _ _ => Outcome
  | .items _ => Bool
  | .markStarted _ _ => Outcome
  | .setStatus _ _ _ => Outcome
  | .policyEnabled _ => Except CleanupError Bool
  | .pendingAutomatic _ => Bool
  | .registered _ => Bool
  | .hasSource _ => Bool
  | .authorization _ => Bool
  | .planOf _ => Bool
  | .publishAutomatic _ _ => Outcome × Nat
  | .complete _ _ => Outcome

/-- A read that may fail. -/
def readAs {α : Type} (readable : Bool) (value : Except CleanupError α) : Except CleanupError α :=
  if readable then value else .error .database

namespace Site

def claim (w : Site) (q : Query) (o : Outcome) (skip : Nat) :
    Except IdempotencyError (ClaimResult Body) × Site :=
  let fresh := w.next + skip
  Ledger.answered o w (fun _ ledger => { w with ledger, next := fresh + 1 })
    (w.ledger.claim .apply q.key q.request fresh)

/-- The operations with an item that is planned or started. -/
def unfinished (w : Site) : List ImageOperation :=
  w.operations.filter fun o => w.items.any fun i => i.operation == o.id && !i.status.terminal

/-- The items of an operation, in their order. -/
def itemsOf (w : Site) (operation : Uuid) : List ImageItem :=
  w.items.filter fun i => i.operation == operation

/-- The rows of a new operation. -/
def newItems (operation : Uuid) (selected : List ImageCandidate) : List ImageItem :=
  selected.zipIdx.map fun (candidate, ordinal) => ⟨operation, ordinal, candidate.imageId, .planned⟩

def hasOperation (w : Site) (operation : Uuid) : Bool :=
  w.operations.any fun o => o.id == operation

def insertOperation (w : Site) (operation : Uuid) (token : Option String)
    (selected : List ImageCandidate) : Site :=
  { w with
    operations := w.operations ++ [⟨operation, token, selected⟩]
    items := w.items ++ newItems operation selected }

/-- `publish`: the preview is consumed and the operation inserted, in one transaction. -/
def publish (w : Site) (operation : Uuid) (token : String) (selected : List ImageCandidate)
    (o : Outcome) : Except CleanupError Unit × Site :=
  if (w.previews.filter fun p => p.token == token && !p.consumed).length ≠ 1
      || w.hasOperation operation then (.error .database, w)
  else
    (o.result .database,
      if o.applied then
        { w.insertOperation operation (some token) selected with
          previews := w.previews.map fun p =>
            if p.token = token then { p with consumed := true } else p }
      else w)

def publishAutomatic (w : Site) (app : Uuid) (selected : List ImageCandidate) (o : Outcome)
    (skip : Nat) : Except CleanupError Uuid × Site :=
  let operation := w.next + skip
  if w.hasOperation operation then (.error .database, w)
  else
    ((o.result .database).map fun _ => operation,
      if o.applied then
        { w.insertOperation operation none selected with
          next := operation + 1
          authorizations := w.authorizations ++ [⟨operation, app, none⟩] }
      else w)

def insertPreview (w : Site) (row : ImagePreview) (o : Outcome) : Except CleanupError Unit × Site :=
  if w.previews.any fun p => p.token == row.token then (.error .database, w)
  else
    (o.result .database, if o.applied then { w with previews := row :: w.previews } else w)

/-- Update the status of one item. -/
def setItem (w : Site) (operation : Uuid) (ordinal : Nat) (f : ItemStatus → ItemStatus) : Site :=
  { w with
    items := w.items.map fun i =>
      if i.operation = operation ∧ i.ordinal = ordinal then { i with status := f i.status } else i }

/-- `UPDATE … SET status='started' … AND status IN ('planned','started')`. -/
def markStarted (w : Site) (operation : Uuid) (ordinal : Nat) (o : Outcome) :
    Except CleanupError Unit × Site :=
  (o.result .database,
    if o.applied then
      w.setItem operation ordinal fun s => if s.terminal then s else .started
    else w)

/-- `UPDATE … SET status=? WHERE operation_id=? AND ordinal=?`. -/
def setStatus (w : Site) (operation : Uuid) (ordinal : Nat) (status : ItemStatus) (o : Outcome) :
    Except CleanupError Unit × Site :=
  (o.result .database,
    if o.applied then w.setItem operation ordinal fun _ => status else w)

def act (w : Site) : (e : Call) → Choice e → Answer e × Site
  | .claim q, (o, skip) => w.claim q o skip
  | .finish key status body errorCode, o =>
    (o.result .database,
      if o.applied then
        { w with ledger := w.ledger.finish .apply key status body errorCode }
      else w)
  | .markInterrupted key, o =>
    (o.result .database,
      if o.applied then { w with ledger := w.ledger.markInterrupted .apply key } else w)
  | .interruptPending, o =>
    (o.result .database, if o.applied then { w with ledger := w.ledger.interruptPending } else w)
  | .validateOperations, answer => (answer, w)
  | .imageProtectionInventory, readable => (readAs readable w.facts.inventory, w)
  | .cleanupTombstones, readable => (readAs readable w.facts.tombstones, w)
  | .unfinishedOperations, readable => (readAs readable (.ok w.unfinished), w)
  | .tombstoneReleases, readable => (readAs readable w.facts.tombstoneReleases, w)
  | .countCleaned, readable => (readAs readable (.ok w.facts.cleaned.rows.length), w)
  | .cleanedPage cursor, readable => (readAs readable (.ok (w.facts.page cursor)), w)
  | .cleanupItem operation ordinal, readable =>
    (readAs readable
      (match w.facts.items.find? fun i => i.operation == operation && i.ordinal == ordinal with
        | some item => .ok item
        | none => .error .database), w)
  | .commit, readable => (readAs readable (.ok ()), w)
  | .formerAttempts _, answer => (answer, w)
  | .allContainers, answer => (answer, w)
  | .inspect _, answer => (answer, w)
  | .remove _, answer => (answer, w)
  | .lockCatalog, _ => ((), w)
  | .tryApp _, free => (free, w)
  | .tryCompose, free => (free, w)
  | .nowUtc, now => (now, w)
  | .randomToken, token => (token, w)
  | .insertPreview row, o => w.insertPreview row o
  | .preview token, readable =>
    (readAs readable (.ok (w.previews.find? fun p => p.token == token)), w)
  | .published operation, readable =>
    (readAs readable (.ok (w.operations.find? fun o => o.id == operation)), w)
  | .publish operation token selected, o => w.publish operation token selected o
  | .items operation, readable => (readAs readable (.ok (w.itemsOf operation)), w)
  | .markStarted operation ordinal, o => w.markStarted operation ordinal o
  | .setStatus operation ordinal status, o => w.setStatus operation ordinal status o
  | .policyEnabled _, answer => (answer, w)
  | .pendingAutomatic app, readable =>
    (readAs readable (.ok ((w.authorizations.find? fun a => a.app == app && a.result.isNone).map
      (·.operation))), w)
  | .registered _, answer => (answer, w)
  | .hasSource app, readable =>
    (readAs readable (.ok (w.facts.cleaned.rows.any fun r => r.app == app)), w)
  | .authorization operation, readable =>
    (readAs readable (.ok ((w.authorizations.find? fun a => a.operation == operation).map (·.app))),
      w)
  | .planOf operation, readable =>
    (readAs readable
      (match w.operations.find? fun o => o.id == operation with
        | some o => .ok o.plan
        | none => .error .database), w)
  | .publishAutomatic app selected, (o, skip) => w.publishAutomatic app selected o skip
  | .complete operation result, o =>
    (o.result .database,
      if o.applied then
        { w with
          authorizations := w.authorizations.map fun a =>
            if a.operation = operation ∧ a.result = none then { a with result := some result }
            else a }
      else w)

end Site

/-- Everything succeeds, the locks are free, and Docker has nothing. -/
def quiet : (e : Call) → Choice e
  | .claim _ => (.ok, 0)
  | .finish _ _ _ _ => .ok
  | .markInterrupted _ => .ok
  | .interruptPending => .ok
  | .validateOperations => .ok ()
  | .imageProtectionInventory => true
  | .cleanupTombstones => true
  | .unfinishedOperations => true
  | .tombstoneReleases => true
  | .countCleaned => true
  | .cleanedPage _ => true
  | .cleanupItem _ _ => true
  | .commit => true
  | .formerAttempts _ => .ok []
  | .allContainers => .ok []
  | .inspect _ => .ok none
  | .remove _ => .ok .accepted
  | .lockCatalog => ()
  | .tryApp _ => true
  | .tryCompose => true
  | .nowUtc => 0
  | .randomToken => some "token"
  | .insertPreview _ => .ok
  | .preview _ => true
  | .published _ => true
  | .publish _ _ _ => .ok
  | .items _ => true
  | .markStarted _ _ => .ok
  | .setStatus _ _ _ => .ok
  | .policyEnabled _ => .ok true
  | .pendingAutomatic _ => true
  | .registered _ => true
  | .hasSource _ => true
  | .authorization _ => true
  | .planOf _ => true
  | .publishAutomatic _ _ => (.ok, 0)
  | .complete _ _ => .ok

abbrev siteWorld : World Call Answer Site where
  Choice := Choice
  act := Site.act

/-! ## The service -/

inductive Demand where
  | preview (session : String)
  | apply (query : Query)
  | retention (app : Uuid)
  deriving DecidableEq, Repr

inductive Job where
  | preview (session : String)
  | apply (a : Attempt)
  | retention (app : Uuid)

/-- What a confirmed cleanup reads before it waits for the lock. -/
def readPublished (q : Query) (operation : Uuid) : Prog Call Answer Empty (Option Job) := do
  let published ← Prog.ask (Call.published operation)
  let preview ← Prog.ask (Call.preview q.request.token)
  let now ← Prog.ask Call.nowUtc
  return some (.apply ⟨q, operation, published, preview, now⟩)

def receive : Demand → Prog Call Answer Empty (Option Job)
  | .preview session => return some (.preview session)
  | .retention app => return some (.retention app)
  | .apply q => do
    match ← Prog.ask (Call.claim q) with
    | .ok (.new operation) => readPublished q operation
    | .ok (.resume operation) => readPublished q operation
    | .ok (.replay _ _ _) => return none
    | .error _ => return none

/-- Run a program for what it does. -/
def discard {ε α : Type} (p : Prog Call Answer ε α) : Prog Call Answer Empty Unit := do
  let _ ← p.attempt
  return ()

def Job.run : Job → Prog Call Answer Empty Unit
  | preview session => discard (SoloDock.Images.preview session)
  | apply a => discard (SoloDock.Images.apply a)
  | retention app => discard (images app)

def boot : Prog Call Answer CleanupError Unit := do
  Prog.orElse (← Prog.ask Call.interruptPending) fun _ => .database

/-- Others change what they write. -/
def Site.change (w : Site) (facts : Facts) : Site := { w with facts }

/-- A call that was made, with the site before it and the answer. -/
abbrev Record := Event Call Answer Site

def imageService : Service Call Answer (Site × List Record) Demand Job Facts where
  world := siteWorld.traced
  receive
  serve := Job.run
  boot := discard boot
  change s facts := (s.1.change facts, s.2)

end SoloDock.Images
