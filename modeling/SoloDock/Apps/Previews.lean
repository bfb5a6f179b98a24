import SoloDock.Apps.Attended

/-!
# Deletions, their previews and the containers they remove

A deletion is confirmed with the token of a preview. Whether the token was good, and what
it was good for, is a question about whole histories: the preview was shown, the token was
consumed, the container was removed and the directory moved, perhaps by different attempts
with crashes between them, while the clock went on and others used Docker too.

`Site` is the world of the application handlers with what that question needs: the clock,
the containers of every app, the facts that were hashed last, and an account of the three
effects of a deletion (`Deed`), each with the attempt that caused it. The programs are
those of `Host.Delete`; `lifted` only notes for every call who makes it. Docker's answers
are what is there, and others may change what is there during any call.
-/

namespace SoloDock.Apps

open Lib Mutation

/-! ## Calls with their callers -/

/-- The attempt at a deletion that makes a call. -/
structure Caller where
  operation : Uuid
  session : String
  deletion : Deletion
  deriving DecidableEq, Repr

inductive Asked where
  | call (caller : Option Caller) (e : Call)
  | randomToken
  | insertPreview (row : Preview)

abbrev Told : Asked → Type
  | .call _ e => Answer e
  | .randomToken => Option String
  | .insertPreview _ => Except IdempotencyError Unit

/-- Note who makes the calls of a program. -/
def lifted {ε α : Type} (caller : Option Caller) : Prog Call Answer ε α → Prog Asked Told ε α :=
  Prog.handle fun e => Prog.ask (Asked.call caller e)

/-- Five minutes. -/
def previewLifetime : Instant := 300 * 1000000000

def deletionError (code : String) : String × Nat :=
  if code = "APP_NOT_FOUND" then (code, 404)
  else if ["DOCKER_UNAVAILABLE", "DOCKER_PERMISSION_DENIED", "DOCKER_API_INCOMPATIBLE",
      "DOCKER_OBSERVATION_FAILED", "DOCKER_TIMEOUT"].contains code then (code, 503)
  else (code, 409)

/-- `deletion_preview`: the facts are shown with a fresh token, and stored with its
digest. -/
def deletionPreview (app : Uuid) (removeContainer : Bool) (session : String) :
    Prog Asked Told (String × Nat) Preview := do
  Prog.ensure (← Prog.ask (Asked.call none (.tryApp app))) ("APP_BUSY", 409)
  let snapshot ← Prog.orElse
    (← Prog.ask (Asked.call none (.deletionSnapshot app removeContainer))) deletionError
  let token ← Prog.orStop (← Prog.ask Asked.randomToken) ("INTERNAL_ERROR", 500)
  let now ← Prog.ask (Asked.call none .nowUtc)
  let row : Preview :=
    { token
      app
      session
      slug := snapshot.facts.slug
      revision := snapshot.facts.expectedRevision
      facts := snapshot.facts
      removeContainer
      containerIds := snapshot.facts.containerIds
      expiresAt := now + previewLifetime
      consumed := false }
  Prog.orElse (← Prog.ask (Asked.insertPreview row)) fun _ => ("INTERNAL_ERROR", 500)
  return row

/-! ## The world -/

/-- What a deletion does that cannot be taken back. -/
inductive Effect where
  | consumed (token : String) (now : Instant)
  | removed (app : Uuid) (container : String)
  | tombstoned (app : Uuid)
  deriving DecidableEq, Repr

/-- An effect, the attempt it is of, and the facts that were hashed last before it. -/
structure Deed where
  caller : Caller
  hashed : Option DeletionFacts
  effect : Effect
  deriving DecidableEq, Repr

/-- `containers` has the full id of every container of an app's project; the deeds are
listed latest first. -/
structure Site where
  apps : Host
  clock : Instant
  containers : List (Uuid × String)
  hashed : Option DeletionFacts
  deeds : List Deed
  deriving DecidableEq, Repr

/-- What happens elsewhere during a call: time passes, and others may have left Docker
with these containers. -/
structure Meanwhile where
  passed : Nat
  containers : Option (List (Uuid × String))
  deriving DecidableEq, Repr

abbrev Pick : Asked → Type
  | .call _ e => Meanwhile × Choice e
  | .randomToken => Option String
  | .insertPreview _ => Outcome

namespace Site

def empty : Site := ⟨.empty, 0, [], none, []⟩

def after (w : Site) (m : Meanwhile) : Site :=
  { w with clock := w.clock + m.passed, containers := m.containers.getD w.containers }

def containersOf (w : Site) (app : Uuid) : List String :=
  (w.containers.filter fun c => c.1 == app).map (·.2)

/-- The snapshot is of this app, and has the one container that `mutation_container`
found, or none. -/
def shows (w : Site) (app : Uuid) (removeContainer : Bool) (s : DeletionSnapshot) : Bool :=
  s.facts.appId == app && s.facts.removeContainer == removeContainer
    && s.facts.containerIds == w.containersOf app && s.facts.containerIds.length ≤ 1
    && s.facts.containerIds == (s.container.map (·.id)).toList

/-- What the clock and Docker answer is what is there. -/
def sees (w : Site) : (e : Call) → Answer e → Answer e
  | .nowUtc, _ => w.clock
  | .deletionSnapshot app removeContainer, .ok s =>
    if w.shows app removeContainer s then .ok s else .error "DOCKER_OBSERVATION_FAILED"
  | .containerIs ids app _, readable => readable && ids == w.containersOf app
  | _, answer => answer

/-- A successful `remove` leaves no container of the project, and a failed one may. -/
def clears (e : Call) (c : Choice e) : Option Uuid :=
  match e, c with
  | .composeRun .remove app _, (changes, answer) =>
    if changes || answer.isOk then some app else none
  | _, _ => none

/-- The effects of a call that leaves `apps`. -/
def effects (w : Site) (apps : Host) (e : Call) (c : Choice e) : List Effect :=
  match e, c with
  | .consumePreview token, o =>
    if o.applied && w.apps.previews.any fun p => p.token == token && !p.consumed then
      [.consumed token w.clock]
    else []
  | .composeRun .remove app _, (changes, answer) =>
    if changes || answer.isOk then (w.containersOf app).map (.removed app) else []
  | .tombstone app _, _ =>
    if w.apps.isLive app && !apps.isLive app then [.tombstoned app] else []
  | _, _ => []

/-- The facts hashed last: those of the last snapshot. -/
def hashes (w : Site) : (e : Call) → Answer e → Option DeletionFacts
  | .deletionSnapshot _ _, .ok s => some s.facts
  | _, _ => w.hashed

/-- The account of the effects, if a deletion makes the call. -/
def account (w : Site) (caller : Option Caller) (effects : List Effect) : List Deed :=
  match caller with
  | some caller => effects.map fun effect => ⟨caller, w.hashed, effect⟩
  | none => []

def call (w : Site) (caller : Option Caller) (e : Call) (c : Choice e) : Answer e × Site :=
  let apps := (Host.act w.apps e c).2
  let answer := w.sees e (Host.act w.apps e c).1
  (answer,
    { w with
      apps
      containers := match clears e c with
        | some app => w.containers.filter fun c => c.1 != app
        | none => w.containers
      hashed := w.hashes e answer
      deeds := w.account caller (w.effects apps e c) ++ w.deeds })

/-- `INSERT INTO deletion_previews`; the digest of the token is the key of the row. -/
def insertPreview (w : Site) (row : Preview) (o : Outcome) : Except IdempotencyError Unit × Site :=
  if w.apps.previews.any fun p => p.token == row.token then (.error .database, w)
  else
    (o.result .database,
      if o.applied then { w with apps := { w.apps with previews := row :: w.apps.previews } }
      else w)

def act (w : Site) : (e : Asked) → Pick e → Told e × Site
  | .call caller e, (m, c) => (w.after m).call caller e c
  | .randomToken, token => (token, w)
  | .insertPreview row, o => w.insertPreview row o

end Site

/-! ## The service -/

/-- A preview, a deletion, or the reconciler's next round. -/
inductive Demand where
  | preview (app : Uuid) (removeContainer : Bool) (session : String)
  | delete (key session : String) (requestId : Uuid) (d : Deletion)
  | reconcile
  deriving DecidableEq, Repr

inductive Job where
  | preview (app : Uuid) (removeContainer : Bool) (session : String)
  | delete (a : Attempt) (d : Deletion)
  | replayed (app operation : Uuid)
  | reconcile
  deriving DecidableEq, Repr

/-- Between the programs others collect records, create and change apps, use Docker, and
time passes. -/
inductive Turn where
  | collect (picked : List Uuid)
  | live (value : List Metadata)
  | containers (value : List (Uuid × String))
  | passed (time : Nat)
  deriving DecidableEq, Repr

def Deletion.request (d : Deletion) : Request :=
  .delete d.app d.token d.slug d.expected d.removeContainer

/-- The claim of a deletion ends with an attempt, or with a replay that has work left. -/
def Job.of (d : Deletion) : Task → Job
  | .attempt a => .delete a d
  | .replayed app operation => .replayed app operation
  | .reconcile => .reconcile

def accepts : Demand → Prog Asked Told Empty (Option Job)
  | .preview app removeContainer session => return some (.preview app removeContainer session)
  | .delete key session requestId d => do
    let task ← lifted none (receive (.request ⟨key, d.request, session, requestId⟩))
    return task.map (Job.of d)
  | .reconcile => return some .reconcile

def Job.caller (a : Attempt) (d : Deletion) : Caller := ⟨a.operation, a.query.session, d⟩

def Job.run : Job → Prog Asked Told Empty Unit
  | preview app removeContainer session => do
    let _ ← (deletionPreview app removeContainer session).attempt
    return ()
  | delete a d => lifted (some (caller a d)) (discard (deleteApp a d))
  | replayed app operation => lifted none (discard (replayDeletion app operation))
  | reconcile => lifted none (discard SoloDock.Apps.reconcile)

def Site.turn (w : Site) : Turn → Site
  | .collect picked => { w with apps := w.apps.change (.collect picked) }
  | .live value => { w with apps := { w.apps with live := value } }
  | .containers value => { w with containers := value }
  | .passed time => { w with clock := w.clock + time }

abbrev siteWorld : World Asked Told Site where
  Choice := Pick
  act := Site.act

def deletionService : Service Asked Told Site Demand Job Turn where
  world := siteWorld
  receive := accepts
  serve := Job.run
  boot := lifted none (discard startup)
  change := Site.turn

end SoloDock.Apps
