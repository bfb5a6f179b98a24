import SoloDock.Apps.Configure

/-!
# Starting, stopping and restarting an app

The `lifecycle` handler of `api/mutations.rs`, past its claim. It checks the app and its
container, writes the desired state, and only then asks Compose for the effect, with a
durable marker before and after it, by which a resumed attempt tells what a former one
did.
-/

namespace SoloDock.Apps

open Lib Mutation Docker
open Deploy (DesiredState)
open Lib.Prog (ask)

/-! ## Reading the marker of a former attempt -/

def observationMatchesMarker (marker : EffectMarker) (observed : Option ContainerRecord) : Bool :=
  match marker.preContainerId, observed with
  | none, none => true
  | some expected, some container =>
    container.id == expected && container.runtime.startedAt == marker.preStartedAt
  | _, _ => false

def effectCompleted (action : LifecycleAction) (marker : EffectMarker)
    (observed : Option ContainerRecord) : Bool :=
  let finalState := match action with
    | .start | .restart => ContainerStatus.running
    | .stop => ContainerStatus.exited
  match marker.preContainerId, observed with
  | none, some container =>
    action == .start && container.status == .running
      && (marker.postContainerId.all fun expected => expected == container.id)
  | some expected, some container =>
    container.id == expected && container.status == finalState
      && (action != .restart || container.runtime.startedAt != marker.preStartedAt)
  | _, _ => false

def partialRecreateCanContinue (action : LifecycleAction) (marker : EffectMarker)
    (observed : Option ContainerRecord) : Bool :=
  action == .start && marker.phase == .started && marker.preContainerId.isNone
    && observed.any fun container =>
      marker.postContainerId.all fun expected => expected == container.id

def postStopBindError (code : String) : Option String :=
  if code = "BIND_SOURCE_ANCESTOR_CONFLICT" then some code
  else if ["BIND_INVALID", "BIND_DISABLED", "BIND_OUTSIDE_ALLOWED_ROOT", "BIND_SYMLINK",
      "BIND_CHANGED"].contains code then
    some "BIND_CHANGED"
  else none

/-- What is to be done about the container, and what it is then said to be: `none` when it
already is as the action wants it. -/
inductive Plan where
  | proceed (compose : Option ComposeAction) (observed : String)
  | refuse (code : String) (status : Nat)
  deriving DecidableEq, Repr

def lifecyclePlan (action : LifecycleAction) :
    Except String (Option ContainerRecord) → Plan
  | .error code => .refuse code (mutationStatus code)
  | .ok none =>
    match action with
    | .start => .proceed (some .recreate) "running"
    | .stop => .proceed none "missing"
    | .restart => .refuse "APP_CONTAINER_NOT_FOUND" 409
  | .ok (some container) =>
    match action with
    | .start =>
      if container.status = .running then .proceed none "running"
      else .proceed (some .start) "running"
    | .stop =>
      if container.status = .exited then .proceed none "stopped"
      else .proceed (some .stop) "stopped"
    | .restart => .proceed (some .stop) "running"

/-- What a resumed attempt does after a former one left its marker: `none` when the
container is not as either attempt could have left it. -/
def resumedCompose (action : LifecycleAction) (marker : EffectMarker)
    (observed : Option ContainerRecord) (planned : Option ComposeAction) :
    Option (Option ComposeAction) :=
  if effectCompleted action marker observed then some none
  else if marker.phase = .started ∧ observationMatchesMarker marker observed then some planned
  else if partialRecreateCanContinue action marker observed then some (some .start)
  else none

/-! ## The handler -/

/-- Everything a lifecycle operation knows once its checks have passed. -/
structure LifecycleContext where
  app : Uuid
  action : LifecycleAction
  verified : Verified
  containerId : Option String
  startedAt : Option String
  observed : String
  marker : Option EffectMarker

namespace LifecycleContext

def allowPending (c : LifecycleContext) : Bool := c.action == .stop

def ids (c : LifecycleContext) : List String := c.containerId.toList

end LifecycleContext

/-- The release is verified again after the durable marker. -/
def reverified (c : LifecycleContext) : VerifiedRelease :=
  if c.action = .stop then
    if c.verified.activeReleaseId.isNone then .pendingForStop else .activeForStop
  else .active

/-- `COMPOSE_TIMEOUT` when the operation's own deadline has passed. -/
def withinDeadline (a : Attempt) (act : Handler Response) : Handler Response := do
  if ← ask Call.deadlinePassed then finishError a "COMPOSE_TIMEOUT" 503 else act

/-- Every bind is what it was. -/
def unlessBindChanged (a : Attempt) (identities : List Deploy.BindIdentity)
    (act : Handler Response) : Handler Response := do
  if ← ask (Call.revalidateBinds identities) then act
  else finishError a "BIND_CHANGED" (mutationStatus "BIND_CHANGED")

/-- The response of an operation whose effect is done. -/
def finishLifecycle (a : Attempt) (c : LifecycleContext) (desired : DesiredState) :
    Handler Response := do
  let warning ← ask Call.refresh
  finishJson a 200 (.lifecycle c.app c.action desired c.observed warning)

/-- The new container's id is noted, so that a retry continues with it. -/
def noteObserved (a : Attempt) (c : LifecycleContext) (found : Option ContainerRecord) :
    Handler (Except IdempotencyError Unit) := do
  match c.containerId, found with
  | none, some container =>
    ask (Call.markEffectObserved a.query.request.route a.query.key container.id)
  | _, _ => return .ok ()

/-- The container is as the action leaves it. -/
def finalStateMatches (c : LifecycleContext) (compose : ComposeAction)
    (found : Option ContainerRecord) : Bool :=
  match found with
  | none => false
  | some container =>
    match c.action with
    | .start =>
      if compose = .recreate then c.containerId.isNone && container.status == .running
      else c.containerId == some container.id && container.status == .running
    | .restart =>
      c.containerId == some container.id && container.status == .running
        && container.runtime.startedAt != c.startedAt
    | .stop => c.containerId == some container.id && container.status == .exited

/-- Compose has answered. -/
def afterEffect (a : Attempt) (c : LifecycleContext) (compose : ComposeAction)
    (desired : DesiredState) (effect : Except Deploy.ComposeError Unit) : Handler Response := do
  match effect with
  | .error _ =>
    match c.containerId with
    | some _ => interruptInternal a
    | none =>
      let found ← ask (Call.mutationContainer c.app c.allowPending)
      let _ ← noteObserved a c (found.toOption.join)
      interruptInternal a
  | .ok _ =>
    let found ← ask (Call.mutationContainer c.app c.allowPending)
    let noted ← noteObserved a c (found.toOption.join)
    if finalStateMatches c compose (found.toOption.join) then
      match noted with
      | .error _ => interruptInternal a
      | .ok _ =>
        match ← ask (Call.markEffectCompleted a.query.request.route a.query.key) with
        | .error _ => interruptInternal a
        | .ok _ => finishLifecycle a c desired
    else interruptInternal a

/-- The checks between the stop and the start of a restart. -/
def restartAgain (a : Attempt) (c : LifecycleContext) (final : Verified)
    (desired : DesiredState) : Handler Response := do
  let stopped ← ask (Call.mutationContainer c.app false)
  if stopped.toOption.join.any fun container =>
      some container.id == c.containerId && container.status == .exited then
    unlessBindChanged a final.bindIdentities do
      match ← ask (Call.loadVerified .active c.app) with
      | .error code =>
        match postStopBindError code with
        | some code => finishError a code (mutationStatus code)
        | none => interruptInternal a
      | .ok fresh =>
        if fresh.releaseId ≠ c.verified.releaseId then interruptInternal a
        else if fresh.bindIdentities ≠ final.bindIdentities then
          finishError a "BIND_CHANGED" (mutationStatus "BIND_CHANGED")
        else
          unlessBindChanged a fresh.bindIdentities do
            match ← ask (Call.validateBindPlan c.app) with
            | .error code => finishError a code (mutationStatus code)
            | .ok _ =>
              afterEffect a c .stop desired (← ask (Call.composeRun .start c.app a.operation))
  else interruptInternal a

/-- The effect itself, inside the operation's deadline. -/
def runEffect (a : Attempt) (c : LifecycleContext) (compose : ComposeAction) (final : Verified)
    (desired : DesiredState) : Handler Response :=
  withinDeadline a do
    match c.action with
    | .restart =>
      match ← ask (Call.composeRun .stop c.app a.operation) with
      | .ok _ => restartAgain a c final desired
      | .error error => afterEffect a c compose desired (.error error)
    | _ => afterEffect a c compose desired (← ask (Call.composeRun compose c.app a.operation))

/-- The last look at everything, after the durable marker; what differs now leaves the
operation open. -/
def lastLook (a : Attempt) (c : LifecycleContext) (compose : ComposeAction)
    (desired : DesiredState) : Handler Response := do
  match ← ask (Call.loadVerified (reverified c) c.app) with
  | .error _ => interruptInternal a
  | .ok final =>
    if final.releaseId ≠ c.verified.releaseId then interruptInternal a
    else
      if ← ask (Call.containerIs c.ids c.app c.allowPending) then
        match ← ask (Call.validateResources c.app c.containerId c.action) with
        | .error _ => interruptInternal a
        | .ok _ =>
          let planned ← if c.action = .stop then pure (.ok ())
            else ask (Call.validateBindPlan c.app)
          match planned with
          | .error _ => interruptInternal a
          | .ok _ =>
            if ← ask (Call.revalidateBinds final.bindIdentities) then
              runEffect a c compose final desired
            else interruptInternal a
      else interruptInternal a

/-- The container is checked once more and the marker is written. -/
def markAndRun (a : Attempt) (c : LifecycleContext) (compose : ComposeAction)
    (desired : DesiredState) : Handler Response := do
  if ← ask (Call.containerIs c.ids c.app c.allowPending) then
    match c.marker with
    | some _ => lastLook a c compose desired
    | none =>
      match ← ask (Call.markEffectStarted a.query.request.route a.query.key c.containerId
          c.startedAt) with
      | .error _ => interruptInternal a
      | .ok _ => lastLook a c compose desired
  else finishError a "CONTAINER_CHANGED" 409

/-- The platform network, for an app that takes part in service discovery. -/
def prepareNetwork (a : Attempt) (c : LifecycleContext) (compose : ComposeAction)
    (desired : DesiredState) : Handler Response := do
  if c.action ≠ .stop ∧ c.verified.serviceDiscoveryEnabled then
    match ← ask (Call.ensureForApp c.verified.slug c.ids) with
    | .error code => finishError a code 409
    | .ok _ => markAndRun a c compose desired
  else markAndRun a c compose desired

/-- The desired state is stored; the effect is prepared. -/
def applyEffect (a : Attempt) (c : LifecycleContext) (compose : Option ComposeAction)
    (desired : DesiredState) : Handler Response := do
  let _ ← ask Call.refresh
  match compose with
  | none => finishLifecycle a c desired
  | some compose =>
    match ← ask Call.composeUnready with
    | some code => finishError a code 503
    | none =>
      if ← ask Call.tryCompose then
        match ← ask (Call.validateResources c.app c.containerId c.action) with
        | .error (code, status) => finishError a code status
        | .ok _ => prepareNetwork a c compose desired
      else finishError a "APP_BUSY" 409

/-- `set_desired_state`, and its repair when the write may have been made. -/
def storeDesired (a : Attempt) (c : LifecycleContext) (compose : Option ComposeAction)
    (desired : DesiredState) : Handler Response := do
  match ← ask (Call.setDesiredState c.app desired a.operation) with
  | .ok metadata => applyEffect a c compose metadata.desiredState
  | .error _ =>
    match ← ask (Call.readMetadata c.app) with
    | .error _ => interruptInternal a
    | .ok existing =>
      if existing.lastOperationId = a.operation ∧ existing.desiredState = desired then
        match ← ask (Call.repairAppDurability c.app) with
        | .ok _ => applyEffect a c compose existing.desiredState
        | .error _ => interruptInternal a
      else interruptInternal a

/-- A resumed attempt compares the container with the marker of the former one. -/
def resumeFromMarker (a : Attempt) (c : LifecycleContext) (compose : Option ComposeAction)
    (desired : DesiredState) : Handler Response := do
  match c.marker, a.resumed with
  | some marker, true =>
    let observed ← ask (Call.observeAgainst marker c.app c.allowPending)
    match resumedCompose c.action marker observed compose with
    | some compose => storeDesired a c compose desired
    | none => finishError a "CONTAINER_CHANGED" 409
  | _, _ => storeDesired a c compose desired

/-- The stored state and the marker are read. -/
def readStored (a : Attempt) (app : Uuid) (action : LifecycleAction) (verified : Verified)
    (container : Option ContainerRecord) (compose : Option ComposeAction) (observed : String) :
    Handler Response := do
  match ← ask (Call.readMetadata app) with
  | .error _ => finishError a "INTERNAL_ERROR" 500
  | .ok previous =>
    match ← ask (Call.effectMarker a.query.request.route a.query.key) with
    | .error _ => interruptInternal a
    | .ok marker =>
      let c : LifecycleContext :=
        { app, action, verified, observed, marker
          containerId := container.map (·.id)
          startedAt := container.bind (·.runtime.startedAt) }
      resumeFromMarker a c compose (action.desired.getD previous.desiredState)

/-- The container is observed, and the resources it needs are checked. -/
def observeContainer (a : Attempt) (app : Uuid) (action : LifecycleAction)
    (verified : Verified) : Handler Response := do
  let current ← ask (Call.mutationContainer app (action == .stop))
  let container := current.toOption.join
  match ← ask (Call.validateResources app (container.map (·.id)) action) with
  | .error (code, status) => finishError a code status
  | .ok _ =>
    match lifecyclePlan action current with
    | .refuse code status => finishError a code status
    | .proceed compose observed => readStored a app action verified container compose observed

/-- The paths and the bind plan, which a stop does not need. -/
def checkPaths (a : Attempt) (app : Uuid) (action : LifecycleAction) (verified : Verified) :
    Handler Response := do
  if action = .stop then observeContainer a app action verified
  else
    match ← ask (Call.validateRuntimePaths app) with
    | .error code => finishError a code (mutationStatus code)
    | .ok _ =>
      match ← ask (Call.validateBindPlan app) with
      | .error code => finishError a code (mutationStatus code)
      | .ok _ => observeContainer a app action verified

/-- A pending deployment is left alone, except by a stop. -/
def withVerified (a : Attempt) (app : Uuid) (action : LifecycleAction) (verified : Verified) :
    Handler Response :=
  if verified.pendingReleaseId.isSome ∧ action ≠ .stop then finishError a "DEPLOYMENT_PENDING" 409
  else checkPaths a app action verified

def lifecycle (a : Attempt) (app : Uuid) (action : LifecycleAction) : Handler Response := do
  if ← ask (Call.tryApp app) then
    let which := if action = .stop then VerifiedRelease.activeForStop else .active
    match ← ask (Call.loadVerified which app) with
    | .ok verified => withVerified a app action verified
    | .error code =>
      if code = "APP_DEPLOY_REQUIRED" ∧ action = .stop then
        match ← ask (Call.loadVerified .pendingForStop app) with
        | .ok verified => withVerified a app action verified
        | .error code => finishError a code (mutationStatus code)
      else finishError a code (mutationStatus code)
  else finishError a "APP_BUSY" 409

end SoloDock.Apps
