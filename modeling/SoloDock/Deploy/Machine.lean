import SoloDock.Deploy.Engine
import SoloDock.Docker.Health

/-!
# A deployment run and the containers it leaves

`deployWorld` gives the engine's calls a meaning: the ledger row, the release links
and the containers of the app's Compose project. Compose is adversarial: it reports
any result, stops and starts whatever it likes among the containers it has, and a
start of a release may keep or drop the old container and create new ones, labelled
with that release. Nothing else changes the containers. `scheduled` is the deployment
that a run starts with.
-/

namespace SoloDock.Deploy

open Lib Lib.Prog Registry Docker

/-! ## The state -/

/-- The containers of the app's Compose project, and the candidate of the run. -/
structure Core where
  containers : List ContainerRecord
  candidate : Option Uuid
deriving DecidableEq

/-- `effect_phase` and `rollback_effect_phase`. -/
inductive EffectPhase where
  | started | observed
deriving DecidableEq, Repr

/-- The columns of the ledger row that record what was done to containers. -/
structure Effects where
  phase : Option EffectPhase := none
  preContainerId : Option String := none
  preStartedAt : Option String := none
  postContainerId : Option String := none
  rollbackPhase : Option EffectPhase := none
  rollbackPreContainerId : Option String := none
  rollbackPostContainerId : Option String := none
deriving DecidableEq, Repr

/-- The world of one deployment. -/
structure Machine where
  record : Record
  slug : String
  status : Status
  phase : Phase
  effects : Effects := {}
  active : Option Uuid
  pending : Option Uuid
  core : Core

/-- A new runtime state for each container. -/
def withRuntime (f : String → Runtime) (cs : List ContainerRecord) : List ContainerRecord :=
  cs.map fun c => { c with runtime := f c.id }

/-- What one Compose command did: its result, the state it left each container in, which
containers it kept, and which it created. -/
structure ComposeOutcome where
  result : Except ComposeError Unit
  runtime : String → Runtime
  keep : String → Bool
  created : List ContainerRecord

namespace Core

/-- `compose stop app` and `compose start app`. -/
def restate (k : Core) (o : ComposeOutcome) : Core :=
  { k with containers := withRuntime o.runtime k.containers }

/-- `compose up --force-recreate app` with the Compose file of release `r`: the new
containers are of that release and have new ids. -/
def deploy (k : Core) (r : Uuid) (o : ComposeOutcome) : Core :=
  { k with
    containers := withRuntime o.runtime (k.containers.filter fun c => o.keep c.id)
      ++ o.created.filter fun c =>
        c.releaseId = some r && !(k.containers.map (·.id)).contains c.id }

/-- `compose rm --force app`. -/
def remove (k : Core) (o : ComposeOutcome) : Core :=
  { k with containers := k.containers.filter fun c => o.keep c.id }

/-- A release id no container of the project has. -/
def freshUuid (k : Core) (n : Nat) : Uuid :=
  n + 1 + (k.containers.filterMap (·.releaseId)).foldr max 0

end Core

/-! ## The calls -/

/-- What a store write did. -/
inductive StoreOutcome where
  | ok
  | failed (applied : Bool)

/-- What `finalize_active` did once its checks passed: all of it, or it failed before the
active link was switched, before the pending link was removed, or after. -/
inductive FinalizeOutcome where
  | ok
  | unlinked
  | linked
  | cleared

/-- The outcomes the environment may pick for a call. -/
def Choice : Call → Type
  | .ledgerGet | .transition .. | .resolved .. | .markEffectStarted .. | .markEffectObserved ..
  | .markRollbackStarted .. | .markRollbackObserved .. | .setHealth .. => Bool
  | .readMetadata => Option AppMetadata
  | .readReleaseLink .. => Bool
  | .loadV2Release .. => Option Release
  | .loadVerified _ => Option Config
  | .publishV2Release .. => Option Release
  | .setPending _ | .removePendingIf _ => StoreOutcome
  | .finalizeActive .. => FinalizeOutcome
  | .newUuid => Nat
  | .refresh => Unit
  | .catalogGet => Option String
  | .loadCredential .. => Option Credential
  | .resolve .. => Except RegistryError ResolvedImage
  | .pull .. => Except PullError Unit
  | .probe => Except String Probe
  | .listComposeAppContainers .. => Bool
  | .compose .. => ComposeOutcome
  | .verifyHealth .. => (Nat → Poll) × (String → Runtime)
  | .ensureForApp .. => Except String Unit
  | .validateRuntimePaths .. => Except String (List BindIdentity)
  | .validateBindPlan .. => Except String Unit
  | .validateResources .. | .validateResourcesForDetach .. => Except String Unit
  | .revalidateBindIdentity .. => Option Unit

/-- A ledger update that finds its row, or not. -/
def ledgerAnswer (ok : Bool) : Option Unit := if ok then some () else none

/-- An update of the effect columns, made only if `ok`. -/
def Machine.note (w : Machine) (ok : Bool) (effects : Effects) : Option Unit × Machine :=
  if ok then (some (), { w with effects }) else (none, w)

/-- The pending link is removed if it names `id`. -/
def unlinkIf (id : Uuid) (pending : Option Uuid) : Option Uuid :=
  if pending = some id then none else pending

/-- What a call answers and what it leaves. -/
def act (w : Machine) : (e : Call) → Choice e → e.Answer × Machine
  | .ledgerGet, (ok : Bool) => (if ok then some w.record else none, w)
  | .transition phase status _ _, (ok : Bool) =>
    -- a terminal row never changes again
    if ok ∧ (w.status = .queued ∨ w.status = .running) then
      (some (), { w with phase, status })
    else (none, w)
  | .resolved candidate .., (ok : Bool) =>
    if ok ∧ w.status = .running then
      (some (), { w with core := { w.core with candidate := some candidate } })
    else (none, w)
  | .markEffectStarted pre startedAt, (ok : Bool) =>
    w.note (ok && w.status = .running && w.phase = .applying && w.effects.phase = none)
      { w.effects with phase := some .started, preContainerId := pre, preStartedAt := startedAt }
  | .markEffectObserved post, (ok : Bool) =>
    w.note (ok && w.status = .running && w.effects.phase = some .started)
      { w.effects with phase := some .observed, postContainerId := some post }
  | .markRollbackStarted pre, (ok : Bool) =>
    w.note (ok && w.status = .running && w.effects.rollbackPhase = none)
      { w.effects with rollbackPhase := some .started, rollbackPreContainerId := some pre }
  | .markRollbackObserved post, (ok : Bool) =>
    w.note (ok && w.status = .running && w.effects.rollbackPhase = some .started)
      { w.effects with rollbackPhase := some .observed, rollbackPostContainerId := post }
  | .setHealth .., (ok : Bool) => (ledgerAnswer ok, w)
  | .readMetadata, metadata =>
    -- the slug of an app never changes
    (metadata.map fun m => { m with slug := w.slug }, w)
  | .readReleaseLink .active, (ok : Bool) => (if ok then some w.active else none, w)
  | .readReleaseLink .pending, (ok : Bool) => (if ok then some w.pending else none, w)
  | .loadV2Release .., release => (release, w)
  | .loadVerified _, config => (config, w)
  | .publishV2Release .., release => (release, w)
  | .setPending id, .ok => (some (), { w with pending := some id })
  | .setPending id, .failed applied =>
    (none, { w with pending := if applied then some id else w.pending })
  | .removePendingIf id, .ok => (some (), { w with pending := unlinkIf id w.pending })
  | .removePendingIf id, .failed applied =>
    (none, { w with pending := if applied then unlinkIf id w.pending else w.pending })
  | .finalizeActive expected candidate _, o =>
    if w.active = some candidate ∨ (w.active = expected ∧ w.pending = some candidate) then
      match o with
      | .ok =>
        (some (), { w with active := some candidate, pending := unlinkIf candidate w.pending })
      | .unlinked => (none, w)
      | .linked => (none, { w with active := some candidate })
      | .cleared =>
        (none, { w with active := some candidate, pending := unlinkIf candidate w.pending })
    else (none, w)
  | .newUuid, n => (w.core.freshUuid n, w)
  | .refresh, _ => ((), w)
  | .catalogGet, slug => (slug, w)
  | .loadCredential .., credential => (credential, w)
  | .resolve .., image => (image, w)
  | .pull .., result => (result, w)
  | .probe, snapshot => (snapshot, w)
  | .listComposeAppContainers project, (ok : Bool) =>
    (if ok then some (if project = projectName w.slug then w.core.containers else []) else none, w)
  | .compose .stop _, o => (o.result, { w with core := w.core.restate o })
  | .compose .start _, o => (o.result, { w with core := w.core.restate o })
  | .compose .deployCandidate r, o => (o.result, { w with core := w.core.deploy r o })
  | .compose .remove _, o => (o.result, { w with core := w.core.remove o })
  | .verifyHealth containerId release imageRef identity policy, (polls, runtime) =>
    (verify ⟨containerId, release, imageRef, identity⟩ policy polls,
      { w with core := { w.core with
        containers := withRuntime runtime w.core.containers } })
  | .ensureForApp .., result => (result, w)
  | .validateRuntimePaths .., result => (result, w)
  | .validateBindPlan .., result => (result, w)
  | .validateResources .., result => (result, w)
  | .validateResourcesForDetach .., result => (result, w)
  | .revalidateBindIdentity .., result => (result, w)

/-- The world of a deployment run. -/
abbrev deployWorld : World Call Call.Answer Machine where
  Choice := Choice
  act := act

/-- The candidate a run starts with: what it resumes or rolls back to. -/
def initialCandidate (record : Record) : Option Uuid :=
  match record.trigger with
  | .rollback => record.rollbackTargetReleaseId
  | .manual | .poll => record.expectedPendingReleaseId

/-- A deployment when its run starts. -/
def scheduled (record : Record) (slug : String) (active pending : Option Uuid)
    (containers : List ContainerRecord) : Machine where
  record := record
  slug := slug
  status := .queued
  phase := .queued
  active := active
  pending := pending
  core := { containers, candidate := initialCandidate record }

end SoloDock.Deploy
