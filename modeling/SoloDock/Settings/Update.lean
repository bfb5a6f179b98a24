import SoloDock.Lib.Service
import SoloDock.Lib.Tree
import SoloDock.Mutation.Ledger

/-!
# The global settings

`settings.rs` and `api/settings.rs`. There is one row of settings, and every update of it
draws a new revision; a request names the revision it expects. An update whose process
died after the row was written is recognised by the values it asked for.

The table of timezones is compiled in and stands as a list. Whether bind roots may be
allowed is a fact of the file system (each is an absolute, normal path to a directory
without symbolic links that overlaps neither SoloDock's nor Docker's directories), and is
the answer of one call; roots that may are taken as they are.
-/

namespace SoloDock.Settings

open Lib Mutation
open Lib.Prog (accept ask)

/-! ## Requests and data -/

structure GlobalSettings where
  revision : Uuid
  displayTimezone : String
  allowedBindRoots : List Path
  deriving DecidableEq, Repr

/-- `UpdateSettingsRequest`, its roots sorted and without duplicates. -/
structure Request where
  expectedRevision : Uuid
  displayTimezone : String
  allowedBindRoots : List Path
  deriving DecidableEq, Repr

inductive Route where
  /-- `/api/v1/settings` -/
  | settings
  deriving DecidableEq, Repr

structure Query where
  key : String
  expectedRevision : Uuid
  displayTimezone : String
  allowedBindRoots : List Path
  requestId : Uuid
  deriving DecidableEq, Repr

/-- `sort` and `dedup`. -/
def sorted (roots : List Path) : List Path :=
  (roots.mergeSort fun p q => decide (¬q < p)).eraseDups

def Query.request (q : Query) : Request :=
  ⟨q.expectedRevision, q.displayTimezone, sorted q.allowedBindRoots⟩

/-- A request past its claim. -/
structure Attempt where
  query : Query
  operation : Uuid
  resumed : Bool
  deriving DecidableEq, Repr

inductive Body where
  | settings (revision : Uuid) (displayTimezone : String) (allowedBindRoots : List Path)
  | error (code message : String) (requestId : Uuid)
  | inUse (code message : String) (referencedByApps : List String) (requestId : Uuid)
  deriving DecidableEq, Repr

inductive SettingsError where
  | revisionStale
  | timezoneInvalid
  | database
  deriving DecidableEq, Repr

/-- An app of the scan: its slug, and the bind sources of each of its revisions, where the
revision can be loaded. -/
structure ScannedApp where
  slug : String
  revisions : List (Option (List Path))
  deriving DecidableEq, Repr

/-- `scan_read_only`. -/
structure ScanReport where
  issues : Nat
  validApps : List ScannedApp
  deriving DecidableEq, Repr

inductive Call where
  | validateTimezone (value : String)
  | claim (query : Query)
  | finish (key : String) (status : Nat) (body : Body) (errorCode : Option String)
  | markInterrupted (key : String)
  | interruptPending
  | load
  | bindRootsInitialized
  | bootstrapBindRoots
  /-- The statement does not name the operation; it is here for the account. -/
  | update (expected : Uuid) (timezone : String) (roots : List Path) (operation : Uuid)
  | probe
  | validateBindRoots (roots : List Path) (dockerRoot : Path)
  | scanReadOnly
  | replaceAllowedBindRoots (roots : List Path)

abbrev Answer : Call → Type
  | .validateTimezone _ => Bool
  | .claim _ => Except IdempotencyError (ClaimResult Body)
  | .finish _ _ _ _ => Except IdempotencyError Unit
  | .markInterrupted _ => Except IdempotencyError Unit
  | .interruptPending => Except IdempotencyError Unit
  | .load => Except SettingsError GlobalSettings
  | .bindRootsInitialized => Except SettingsError Bool
  | .bootstrapBindRoots => Except SettingsError GlobalSettings
  | .update _ _ _ _ => Except SettingsError GlobalSettings
  | .probe => Except String (Option Path)
  | .validateBindRoots _ _ => Bool
  | .scanReadOnly => Option ScanReport
  | .replaceAllowedBindRoots _ => Unit

/-! ## The handler -/

inductive ApiError where
  | internal
  deriving DecidableEq, Repr

structure Response where
  status : Nat
  body : Body
  deriving DecidableEq, Repr

abbrev Handler := Prog Call Answer ApiError

def interrupt (a : Attempt) : Handler Response := do
  let _ ← ask (Call.markInterrupted a.query.key)
  Prog.stop .internal

/-- Record a response; when that fails the operation stays open. -/
def record (a : Attempt) (status : Nat) (body : Body) (errorCode : Option String) :
    Handler Response := do
  match ← ask (Call.finish a.query.key status body errorCode) with
  | .ok _ => return ⟨status, body⟩
  | .error _ => interrupt a

def finishJson (a : Attempt) (settings : GlobalSettings) : Handler Response :=
  record a 200 (.settings settings.revision settings.displayTimezone settings.allowedBindRoots) none

def finishError (a : Attempt) (code : String) (status : Nat) : Handler Response :=
  record a status (.error code "The global settings changed concurrently" a.query.requestId)
    (some code)

def finishErrorWithApps (a : Attempt) (code : String) (status : Nat) (apps : List String) :
    Handler Response :=
  record a status
    (.inUse code "The bind root is referenced by application configuration" apps a.query.requestId)
    (some code)

/-- The app has a bind below one of the roots, or a revision that cannot be loaded. -/
def ScannedApp.references (removed : List Path) (app : ScannedApp) : Bool :=
  app.revisions.any fun revision =>
    match revision with
    | some binds => binds.any fun source => removed.any fun root => root.isPrefixOf source
    | none => true

def removedRootReferences (current next : List Path) :
    Handler (Except Unit (Option (List String))) := do
  let removed := current.filter fun root => !next.contains root
  if removed.isEmpty then return .ok none
  else
    match ← ask Call.scanReadOnly with
    | none => return .error ()
    | some report =>
      if report.issues ≠ 0 then return .error ()
      else
        let apps := (report.validApps.filter (·.references removed)).map (·.slug)
        return .ok (if apps.isEmpty then none
          else some (apps.mergeSort fun s t => decide (¬t < s)).eraseDups)

/-- The roots to store, or the code and status the request is refused with. -/
def allowedRoots (a : Attempt) (current : GlobalSettings) :
    Handler (Except (String × Nat) (List Path)) := do
  let roots := a.query.request.allowedBindRoots
  if current.allowedBindRoots = roots then return .ok roots
  else
    match ← ask Call.probe with
    | .error code => return .error (code, 503)
    | .ok none => return .error ("DOCKER_OBSERVATION_FAILED", 503)
    | .ok (some dockerRoot) =>
      if ← ask (Call.validateBindRoots roots dockerRoot) then return .ok (sorted roots)
      else return .error ("BIND_ROOT_INVALID", 422)

/-- The row is as the request expects it: check the roots and write it. -/
def apply (a : Attempt) (current : GlobalSettings) : Handler Response := do
  match ← allowedRoots a current with
  | .error (code, status) => finishError a code status
  | .ok roots =>
    match ← removedRootReferences current.allowedBindRoots roots with
    | .error _ => interrupt a
    | .ok (some apps) => finishErrorWithApps a "BIND_ROOT_IN_USE" 409 apps
    | .ok none =>
      let request := a.query.request
      match ← ask
          (Call.update request.expectedRevision request.displayTimezone roots a.operation) with
      | .error .revisionStale => finishError a "SETTINGS_REVISION_STALE" 409
      | .error _ => interrupt a
      | .ok settings =>
        let _ ← ask (Call.replaceAllowedBindRoots settings.allowedBindRoots)
        finishJson a settings

/-- `update`, past the claim and under the catalog lock. -/
def update (a : Attempt) : Handler Response := do
  match ← ask Call.load with
  | .error _ => interrupt a
  | .ok current =>
    let request := a.query.request
    if current.revision = request.expectedRevision then apply a current
    else if a.resumed && current.displayTimezone == request.displayTimezone
        && current.allowedBindRoots == request.allowedBindRoots then
      let _ ← ask (Call.replaceAllowedBindRoots current.allowedBindRoots)
      finishJson a current
    else finishError a "SETTINGS_REVISION_STALE" 409

/-! ## The database -/

/-- The ledger and the row, with an account no program reads: the operations that have
written the row. -/
structure Config where
  ledger : Ledger Route Request Body
  settings : GlobalSettings
  initialized : Bool
  next : Uuid
  published : List Uuid
  timezones : List String
  deriving DecidableEq, Repr

abbrev Choice : Call → Type
  | .validateTimezone _ => Unit
  | .claim _ => Outcome × Nat
  | .finish _ _ _ _ => Outcome
  | .markInterrupted _ => Outcome
  | .interruptPending => Outcome
  | .load => Bool
  | .bindRootsInitialized => Bool
  | .bootstrapBindRoots => Outcome × Nat × List Path
  | .update _ _ _ _ => Outcome × Nat
  | .probe => Except String (Option Path)
  | .validateBindRoots _ _ => Bool
  | .scanReadOnly => Option ScanReport
  | .replaceAllowedBindRoots _ => Unit

namespace Config

/-- Before the first request. -/
def start (timezones : List String) (settings : GlobalSettings) (initialized : Bool) : Config :=
  ⟨[], settings, initialized, settings.revision + 1, [], timezones⟩

def claim (w : Config) (q : Query) (o : Outcome) (skip : Nat) :
    Except IdempotencyError (ClaimResult Body) × Config :=
  let fresh := max w.next (q.expectedRevision + 1) + skip
  Ledger.answered o w (fun _ ledger => { w with ledger, next := fresh + 1 })
    (w.ledger.claim .settings q.key q.request fresh)

def load (w : Config) : Except SettingsError GlobalSettings :=
  if w.timezones.contains w.settings.displayTimezone then .ok w.settings
  else .error .timezoneInvalid

/-- `bootstrap_bind_roots`: only the first time. -/
def bootstrapBindRoots (w : Config) (roots : List Path) (o : Outcome) (skip : Nat) :
    Except SettingsError GlobalSettings × Config :=
  let w' := if o.applied && !w.initialized then
    { w with
      settings := { w.settings with revision := w.next + skip, allowedBindRoots := roots }
      initialized := true
      next := w.next + skip + 1 }
    else w
  (match o with
    | .ok => w'.load
    | .failed _ => .error .database, w')

/-- `UPDATE global_settings SET revision=?, … WHERE singleton_id=1 AND revision=?`. -/
def update (w : Config) (expected : Uuid) (timezone : String) (roots : List Path)
    (operation : Uuid) (o : Outcome) (skip : Nat) : Except SettingsError GlobalSettings × Config :=
  if !w.timezones.contains timezone then (.error .timezoneInvalid, w)
  else if w.settings.revision ≠ expected then
    (match o with
      | .ok => .error .revisionStale
      | .failed _ => .error .database, w)
  else
    let settings := ⟨w.next + skip, timezone, roots⟩
    ((o.result .database).map fun _ => settings,
      if o.applied then
        { w with
          settings
          initialized := true
          next := w.next + skip + 1
          published := operation :: w.published }
      else w)

def act (w : Config) : (e : Call) → Choice e → Answer e × Config
  | .validateTimezone value, _ => (w.timezones.contains value, w)
  | .claim q, (o, skip) => w.claim q o skip
  | .finish key status body errorCode, o =>
    (o.result .database,
      if o.applied then { w with ledger := w.ledger.finish .settings key status body errorCode }
      else w)
  | .markInterrupted key, o =>
    (o.result .database,
      if o.applied then { w with ledger := w.ledger.markInterrupted .settings key } else w)
  | .interruptPending, o =>
    (o.result .database, if o.applied then { w with ledger := w.ledger.interruptPending } else w)
  | .load, readable => (if readable then w.load else .error .database, w)
  | .bindRootsInitialized, readable => (if readable then .ok w.initialized else .error .database, w)
  | .bootstrapBindRoots, (o, skip, roots) => w.bootstrapBindRoots roots o skip
  | .update expected timezone roots operation, (o, skip) =>
    w.update expected timezone roots operation o skip
  | .probe, answer => (answer, w)
  | .validateBindRoots _ _, answer => (answer, w)
  | .scanReadOnly, answer => (answer, w)
  | .replaceAllowedBindRoots _, _ => ((), w)

end Config

/-! ## The service -/

/-- The timezone is checked before the key is claimed. -/
def receive (q : Query) : Prog Call Answer Empty (Option Attempt) := do
  if ← ask (Call.validateTimezone q.displayTimezone) then
    match ← ask (Call.claim q) with
    | .ok (.new operation) => return some ⟨q, operation, false⟩
    | .ok (.resume operation) => return some ⟨q, operation, true⟩
    | .ok (.replay _ _ _) => return none
    | .error _ => return none
  else return none

/-- What `main` does about the settings and the ledger before it listens. -/
def startup : Prog Call Answer SettingsError Unit := do
  let initialized ← accept (← ask Call.bindRootsInitialized)
  if initialized then
    let _ ← accept (← ask Call.load)
    Prog.orElse (← ask Call.interruptPending) fun _ => .database
  else
    let _ ← accept (← ask Call.bootstrapBindRoots)
    Prog.orElse (← ask Call.interruptPending) fun _ => .database

/-- Run a program for what it does. -/
def discard {ε α : Type} (p : Prog Call Answer ε α) : Prog Call Answer Empty Unit := do
  let _ ← p.attempt
  return ()

/-- Finished records are collected. -/
inductive Change where
  | collect (picked : List Uuid)
  deriving DecidableEq, Repr

def Config.change (w : Config) : Change → Config
  | .collect picked =>
    { w with ledger := w.ledger.collect (fun _ => false) fun op => picked.contains op }

abbrev settingsWorld : World Call Answer Config where
  Choice := Choice
  act := Config.act

def settingsService : Service Call Answer Config Query Attempt Change where
  world := settingsWorld
  receive
  serve a := discard (update a)
  boot := discard startup
  change := Config.change

/-- Every call does what it is for. -/
def smooth : (e : Call) → Choice e
  | .validateTimezone _ => ()
  | .claim _ => (.ok, 0)
  | .finish _ _ _ _ => .ok
  | .markInterrupted _ => .ok
  | .interruptPending => .ok
  | .load => true
  | .bindRootsInitialized => true
  | .bootstrapBindRoots => (.ok, 0, [])
  | .update _ _ _ _ => (.ok, 0)
  | .probe => .ok (some [])
  | .validateBindRoots _ _ => true
  | .scanReadOnly => some ⟨0, []⟩
  | .replaceAllowedBindRoots _ => ()

def calm : settingsWorld.Script := fun _ e => smooth e

end SoloDock.Settings
