import SoloDock.Lib.History
import SoloDock.Lib.Time
import SoloDock.Deploy.Interface

/-!
# The active commit

`finalize_active` makes a candidate the active release of its app: it renames the active
link onto the candidate, removes the pending link, and records the desired state. The
process can die after any file system call of it, and any call can fail with or without
its effect. The same deployment then calls it again with the same arguments, and every
step of it first reads what the earlier attempts left.

The programs here make one call for every call of the source that can fail or change the
directory. `temporary` and `now` are what an attempt draws for itself.
-/

namespace SoloDock.Store

open Lib Lib.World
open Deploy (DesiredState)

inductive StoreError where
  | io
  | symlinkBoundary
  | contentInvalid
  | revisionStale
  deriving DecidableEq, Repr

/-- The release links of an app directory. -/
inductive LinkName where
  | active | pending
  deriving DecidableEq, Repr

/-- The directories that are checked or synced. -/
inductive Directory where
  | app
  | releases
  | release (id : Uuid)
  | configRevisions
  | apps
  deriving DecidableEq, Repr

/-- `AppMetadata`: the fields of `app.toml` a commit reads, writes or is checked by. -/
structure AppMetadata where
  draftRevision : Option Uuid
  desiredState : DesiredState
  lastOperationId : Uuid
  updatedAt : Instant
  deriving DecidableEq

/-- What `read_metadata` refuses: an app without a draft is stopped. -/
def AppMetadata.accepted (m : AppMetadata) : Bool :=
  m.draftRevision.isSome || m.desiredState = .stopped

/-- An app directory, as another process would see it. -/
structure AppDirectory where
  active : Option Uuid
  pending : Option Uuid
  metadata : AppMetadata
  configRevisions : Bool
  temporaries : List Uuid
  deriving DecidableEq

namespace AppDirectory

def link (d : AppDirectory) : LinkName → Option Uuid
  | .active => d.active
  | .pending => d.pending

def setLink (d : AppDirectory) : LinkName → Option Uuid → AppDirectory
  | .active, release => { d with active := release }
  | .pending, release => { d with pending := release }

end AppDirectory

/-! ## The file system -/

/-- The calls of a commit on the file system. -/
inductive Call where
  | readReleaseLink (name : LinkName)
  | loadV2Release (id : Uuid)
  | checkPrivate (directory : Directory)
  | symlink (release temporary : Uuid)
  | renameLink (temporary : Uuid) (name : LinkName) (release : Uuid)
  | removeLink (name : LinkName)
  | readMetadata
  | createFile (temporary : Uuid)
  | renameMetadata (temporary : Uuid) (metadata : AppMetadata)
  | removeFile (temporary : Uuid)
  | symlinkMetadata
  | syncDirectory (directory : Directory)

/-- What a call gives when it succeeds; an unlink says whether there was a link. -/
abbrev Given : Call → Type
  | .readReleaseLink _ => Option Uuid
  | .removeLink _ | .symlinkMetadata => Bool
  | .readMetadata => AppMetadata
  | .loadV2Release _ | .checkPrivate _ | .symlink .. | .renameLink .. | .createFile _
  | .renameMetadata .. | .removeFile _ | .syncDirectory _ => Unit

abbrev Answer (e : Call) : Type := Except StoreError (Given e)

/-- A call is served, or fails with or without its effect. -/
inductive Pick where
  | served
  | failed (applied : Bool) (error : StoreError)

namespace AppDirectory

/-- What a served call gives. -/
def given (d : AppDirectory) : (e : Call) → Answer e
  | .readReleaseLink name => .ok (d.link name)
  | .removeLink name => .ok (d.link name).isSome
  | .symlinkMetadata => .ok d.configRevisions
  | .readMetadata => if d.metadata.accepted then .ok d.metadata else .error .contentInvalid
  | .loadV2Release _ | .checkPrivate _ | .symlink .. | .renameLink .. | .createFile _
  | .renameMetadata .. | .removeFile _ | .syncDirectory _ => .ok ()

/-- The effect of a call. -/
def effect (d : AppDirectory) : Call → AppDirectory
  | .symlink _ temporary | .createFile temporary =>
    { d with temporaries := temporary :: d.temporaries }
  | .renameLink temporary name release =>
    { d.setLink name (some release) with temporaries := d.temporaries.erase temporary }
  | .renameMetadata temporary metadata =>
    { d with metadata := metadata, temporaries := d.temporaries.erase temporary }
  | .removeLink name => d.setLink name none
  | .removeFile temporary => { d with temporaries := d.temporaries.erase temporary }
  | .readReleaseLink _ | .loadV2Release _ | .checkPrivate _ | .readMetadata | .symlinkMetadata
  | .syncDirectory _ => d

end AppDirectory

def fileSystem : World Call Answer AppDirectory where
  Choice _ := Pick
  act d e
    | .served => (d.given e, d.effect e)
    | .failed applied error => (.error error, if applied then d.effect e else d)

/-! ## The programs -/

abbrev StoreProg := Prog Call Answer StoreError

/-- A call whose error ends the caller. -/
def perform (e : Call) : StoreProg (Given e) := do
  let answer ← Prog.ask e
  Prog.accept answer

def switchReleaseLink (temporary : Uuid) (name : LinkName) (release : Uuid) :
    StoreProg Unit := do
  perform (.checkPrivate .app)
  perform (.checkPrivate .releases)
  perform (.checkPrivate (.release release))
  let result ← Prog.attempt (do
    perform (.symlink release temporary)
    perform (.renameLink temporary name release)
    perform (.syncDirectory .app) : StoreProg Unit)
  match result with
  | .ok _ => pure ()
  | .error error =>
    let _ ← Prog.ask (.removeFile temporary)
    Prog.stop error

def removeReleaseLink (name : LinkName) : StoreProg Unit := do
  let removed : Bool ← perform (.removeLink name)
  if removed then perform (.syncDirectory .app) else pure ()

def removeReleaseLinkIf (name : LinkName) (expected : Uuid) : StoreProg Unit := do
  let link : Option Uuid ← perform (.readReleaseLink name)
  if link = some expected then
    match ← Prog.attempt (removeReleaseLink name) with
    | .ok _ => pure ()
    | .error error =>
      let visible : Option Uuid ← perform (.readReleaseLink name)
      if visible = some expected then Prog.stop error
      else perform (.syncDirectory .app)
  else pure ()

/-- The arguments a deployment commits with. -/
structure Commit where
  expectedActive : Option Uuid
  candidate : Uuid
  desiredState : DesiredState
  operationId : Uuid
  deriving DecidableEq

/-- What an attempt draws: the names of its temporary files, and the time. -/
structure Draws where
  link : Uuid
  metadata : Uuid
  now : Instant

def commitActive (draws : Draws) (expectedActive : Option Uuid) (candidate : Uuid) :
    StoreProg Unit := do
  let active : Option Uuid ← perform (.readReleaseLink .active)
  Prog.ensure (active = expectedActive) .revisionStale
  let pending : Option Uuid ← perform (.readReleaseLink .pending)
  Prog.ensure (pending = some candidate) .revisionStale
  perform (.loadV2Release candidate)
  match ← Prog.attempt (switchReleaseLink draws.link .active candidate) with
  | .ok _ => pure ()
  | .error error =>
    let visible : Option Uuid ← perform (.readReleaseLink .active)
    if visible = some candidate then perform (.syncDirectory .app) else Prog.stop error
  match ← Prog.attempt (removeReleaseLinkIf .pending candidate) with
  | .ok _ => pure ()
  | .error error =>
    let visible : Option Uuid ← perform (.readReleaseLink .pending)
    if visible = some candidate then Prog.stop error else perform (.syncDirectory .app)

/-- `write_metadata`, by `AtomicWriter::write`. -/
def writeMetadata (temporary : Uuid) (metadata : AppMetadata) : StoreProg Unit := do
  let result ← Prog.attempt (do
    perform (.createFile temporary)
    perform (.renameMetadata temporary metadata)
    perform (.syncDirectory .app) : StoreProg Unit)
  match result with
  | .ok _ => pure ()
  | .error error =>
    let _ ← Prog.ask (.removeFile temporary)
    Prog.stop error

def setDesiredState (draws : Draws) (desired : DesiredState) (operation : Uuid) :
    StoreProg Unit := do
  let metadata : AppMetadata ← perform .readMetadata
  writeMetadata draws.metadata
    { metadata with desiredState := desired, lastOperationId := operation, updatedAt := draws.now }

def repairAppDurability : StoreProg Unit := do
  perform (.checkPrivate .app)
  let revisions : Bool ← perform .symlinkMetadata
  if revisions then
    perform (.checkPrivate .configRevisions)
    perform (.syncDirectory .configRevisions)
  perform (.syncDirectory .app)
  perform (.syncDirectory .apps)

/-- The metadata says what the commit wants. -/
def Commit.Recorded (c : Commit) (m : AppMetadata) : Prop :=
  m.desiredState = c.desiredState ∧ m.lastOperationId = c.operationId

instance (c : Commit) (m : AppMetadata) : Decidable (c.Recorded m) :=
  inferInstanceAs (Decidable (_ ∧ _))

/-- The links of `finalize_active`. -/
def finalizeLinks (draws : Draws) (c : Commit) : StoreProg Unit := do
  let active : Option Uuid ← perform (.readReleaseLink .active)
  if active = some c.candidate then
    perform (.loadV2Release c.candidate)
    removeReleaseLinkIf .pending c.candidate
    repairAppDurability
  else if active = c.expectedActive then
    commitActive draws c.expectedActive c.candidate
  else Prog.stop .revisionStale

/-- The metadata of `finalize_active`. -/
def finalizeMetadata (draws : Draws) (c : Commit) : StoreProg Unit := do
  let metadata : AppMetadata ← perform .readMetadata
  if c.Recorded metadata then pure ()
  else
    match ← Prog.attempt (setDesiredState draws c.desiredState c.operationId) with
    | .ok _ => pure ()
    | .error error =>
      let visible : AppMetadata ← perform .readMetadata
      if c.Recorded visible then pure () else Prog.stop error

def finalizeActive (draws : Draws) (c : Commit) : StoreProg Unit := do
  finalizeLinks draws c
  finalizeMetadata draws c
  repairAppDurability

end SoloDock.Store
