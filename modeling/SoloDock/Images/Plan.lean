import SoloDock.Images.Interface

/-!
# Which images may be removed

`image_cleanup.rs`. The images of cleaned releases are candidates, unless one of their
digests is in use: by a container, by a release on disk or in an app's tombstone, by a
cleaned release whose cleanup has not been retired, or by another image cleanup that has
not finished. Whatever is read must be complete and agree with itself: a container without
an image, an image that Docker does not find, a page of the history that does not come, and
the plan fails.
-/

namespace SoloDock.Images

open Lib Docker Registry Cleanup
open Lib.Prog (accept ask ensure orStop)

abbrev Planner := Prog Call Answer CleanupError

/-! ## Digests -/

def exactImageId (value : String) : Except CleanupError ExactImageId :=
  required (ExactImageId.parse value)

def overlaps (left right : CleanedReleaseRecord) : Except CleanupError Bool := do
  let value ← identity left
  let _ ← identity right
  return value.matchesEngineImageId (some right.localImageId)
    || value.matchesEngineImageId (some right.manifestDigest)

def validContainerId (value : String) : Bool :=
  value.toList.length == 64 && value.toList.all isHexDigit

/-- The digest of a container's descriptor, which must be complete. -/
def descriptorDigest (d : ManifestDescriptor) : Except CleanupError String := do
  let digest ← required d.digest
  let _ ← exactImageId digest
  let os ← required d.os
  let architecture ← required d.architecture
  let _ ← incomplete (Platform.canonical os architecture d.variant)
  return digest

/-- What a container refers to. -/
def containerReference (c : ContainerRecord) : Except CleanupError (List String) := do
  let image ← required c.imageId
  let _ ← exactImageId image
  match c.manifestDescriptor with
  | none => return [image]
  | some d => return [image, ← descriptorDigest d]

def referencesFrom (ids : List String) :
    List ContainerRecord → Except CleanupError (List String)
  | [] => .ok []
  | c :: rest =>
    if !validContainerId c.id || ids.contains c.id then .error .inventoryIncomplete
    else do
      let own ← containerReference c
      let others ← referencesFrom (c.id :: ids) rest
      return own ++ others

def containerReferences (containers : List ContainerRecord) : Except CleanupError (List String) :=
  if 4096 < containers.length then .error .inventoryIncomplete else referencesFrom [] containers

/-! ## The images of the containers -/

/-- The image must be there. -/
def inspectImage (id : ExactImageId) : Planner CleanupImage := do
  let answer ← Prog.orElse (← ask (Call.inspect id)) fun _ => .inventoryIncomplete
  orStop answer .inventoryIncomplete

/-- The record of the image that a descriptor selects. -/
def descriptorRecord (d : ManifestDescriptor) (manifest localImageId : String) :
    Except CleanupError CleanedReleaseRecord := do
  let os ← required d.os
  let architecture ← required d.architecture
  return ⟨manifest, localImageId, os, architecture, d.variant⟩

/-- The child of an index is the image that the container's descriptor selects. -/
def childAgrees (d : ManifestDescriptor) (selected : ExactImageId) (child : CleanupImage) :
    Except CleanupError Bool := do
  let record ← descriptorRecord d selected.value child.image.id
  let found ← matchesInspect record child
  let expected ← identity record
  return found && expected.matchesManifestDescriptor d

/-- The container's image is an index for several platforms, and its descriptor selects the
image of one of them. -/
def observeIndex (c : ContainerRecord) (requested : ExactImageId) (observed : CleanupImage) :
    Planner (List String) := do
  ensure (observed.image.id == requested.value
    && observed.image.manifestDescriptor.bind (·.digest) == some requested.value)
    .inventoryIncomplete
  let descriptor ← orStop c.manifestDescriptor .inventoryIncomplete
  let digest ← orStop descriptor.digest .inventoryIncomplete
  let selected ← accept (exactImageId digest)
  ensure (selected != requested) .inventoryIncomplete
  let child ← inspectImage selected
  let agrees ← accept (childAgrees descriptor selected child)
  ensure agrees .inventoryIncomplete
  return [child.image.id, selected.value]

/-- An image with a descriptor of its own: its digest. -/
def describedImage (requested : ExactImageId) (observed : CleanupImage) (platform : Platform)
    (d : ManifestDescriptor) : Except CleanupError (List String) := do
  let digest ← required d.digest
  let config := if requested.value = digest then observed.image.id else requested.value
  let expected ← incomplete (ImageIdentity.new digest config platform)
  if !expected.matchesObservation (some observed.image.id) (some d)
      || !expected.matchesEngineImageId (some requested.value) then
    .error .inventoryIncomplete
  else return [digest]

/-- An image without one: a repository digest must prove that it is the one requested. -/
def plainImage (requested : ExactImageId) (observed : CleanupImage) (platform : Platform) :
    Except CleanupError (List String) :=
  if requested.value = observed.image.id then .ok []
  else do
    let proven := observed.image.repoDigests.any fun value =>
      repoDigest value == some requested.value
    let expected ← incomplete (ImageIdentity.new requested.value observed.image.id platform)
    if !proven || !expected.matchesObservation (some observed.image.id) none then
      .error .inventoryIncomplete
    else return []

/-- The image of a container is the one its descriptor names. -/
def containerAgrees (c : ContainerRecord) (requested : ExactImageId) (observed : CleanupImage) :
    Except CleanupError Bool :=
  match c.manifestDescriptor with
  | none => .ok true
  | some d => do
    let manifest ← required d.digest
    let record ← descriptorRecord d manifest
      (if requested.value = manifest then observed.image.id else requested.value)
    matchesInspect record observed

def imageDigests (requested : ExactImageId) (observed : CleanupImage) (platform : Platform) :
    Except CleanupError (List String) :=
  match observed.image.manifestDescriptor with
  | some d => describedImage requested observed platform d
  | none => plainImage requested observed platform

def observeImage (c : ContainerRecord) (requested : ExactImageId) (observed : CleanupImage)
    (platform : Platform) : Except CleanupError (List String) := do
  let digests ← imageDigests requested observed platform
  let agrees ← containerAgrees c requested observed
  if agrees then return digests else .error .inventoryIncomplete

/-- One container: what its image is known by. -/
def observeContainer (c : ContainerRecord) : Planner (List String) := do
  let image ← orStop c.imageId .inventoryIncomplete
  let requested ← accept (exactImageId image)
  let observed ← inspectImage requested
  let imageId ← accept (exactImageId observed.image.id)
  let platform ← accept (incomplete
    (Platform.canonical observed.image.os observed.image.architecture observed.image.variant))
  if observed.isIndex then
    let digests ← observeIndex c requested observed
    return imageId.value :: digests
  else
    let digests ← accept (observeImage c requested observed platform)
    return imageId.value :: digests

def observeContainers : List ContainerRecord → Planner (List String)
  | [] => return []
  | c :: rest => do
    let own ← observeContainer c
    let others ← observeContainers rest
    return own ++ others

/-- The containers, and every digest they refer to. -/
def listContainers : Planner (List ContainerRecord × List String) := do
  let containers ← Prog.orElse (← ask Call.allContainers) fun _ => .inventoryIncomplete
  let references ← accept (containerReferences containers)
  let observed ← observeContainers containers
  return (containers, references ++ observed)

/-! ## The history of cleaned releases -/

/-- What was read of the history. -/
structure Scan where
  cleaned : List CleanedReleaseRecord
  retained : List CleanedReleaseRecord
  scanned : Nat
  cursor : Option Cursor
  deriving DecidableEq, Repr

/-- The places of a cleaned release in the plan of its cleanup. -/
def matching (row : CleanedRow) (plan : CleanupPlan) : List Nat :=
  (plan.candidates.zipIdx.filter fun (item, _) =>
    (match item.artifact with
      | .release app release _ => app == row.app && release == row.release
      | _ => false) && item.releaseRecord == some row.record).map (·.2)

/-- The cleanup of the release is over, and nothing of it is left. -/
def retired (tombstones : List Uuid) (operation : CleanupOperation) : Bool :=
  (operation.status == .completed || operation.status == .completedWithFailures)
    && !operation.retirementPending && !tombstones.contains operation.id

/-- The row counts, wherever its record goes. -/
def Scan.place (s : Scan) (tombstones : List Uuid) (automaticApp : Option Uuid)
    (joined : JoinedRow) : Scan :=
  let s := { s with scanned := s.scanned + 1, cursor := some joined.row.key }
  if retired tombstones joined.operation then
    if automaticApp.all (· == joined.row.app) then
      { s with cleaned := s.cleaned ++ [joined.row.record] }
    else s
  else { s with retained := s.retained ++ [joined.row.record] }

/-- One row: it must be proven by an item of its cleanup. -/
def scanRow (tombstones : List Uuid) (automaticApp : Option Uuid) (s : Scan)
    (joined : JoinedRow) : Planner Scan := do
  let row := joined.row
  let _ ← accept (identity row.record)
  let plan ← orStop joined.operation.plan .recordInvalid
  ensure (joined.operation.planHash == some plan) .recordInvalid
  match matching row plan with
  | [ordinal] =>
    let item ← accept (← ask (Call.cleanupItem joined.operation.id ordinal))
    ensure (item.app == some row.app && item.artifactId == row.release
      && item.artifactKind == "release" && item.status == .detached) .recordInvalid
    return s.place tombstones automaticApp joined
  | _ => Prog.stop .recordInvalid

def scanRows (tombstones : List Uuid) (automaticApp : Option Uuid) :
    Scan → List JoinedRow → Planner Scan
  | s, [] => return s
  | s, joined :: rest => do
    let s ← scanRow tombstones automaticApp s joined
    scanRows tombstones automaticApp s rest

/-- Page after page, until one is empty. Every page has a row, so there are no more pages
than rows in the snapshot, which `pages` is. -/
def scanPages (tombstones : List Uuid) (automaticApp : Option Uuid) :
    Nat → Scan → Planner Scan
  | 0, s => return s
  | pages + 1, s => do
    let rows ← accept (← ask (Call.cleanedPage s.cursor))
    if rows.isEmpty then return s
    else
      let s ← scanRows tombstones automaticApp s rows
      scanPages tombstones automaticApp pages s

/-- The history in one read snapshot. A row whose operation is missing is not in the join,
and makes the count differ. -/
def scanCleaned (tombstones : List Uuid) (automaticApp : Option Uuid)
    (retained : List CleanedReleaseRecord) : Planner Scan := do
  let count ← accept (← ask Call.countCleaned)
  let s ← scanPages tombstones automaticApp (count + 1) ⟨[], retained, 0, none⟩
  ensure (s.scanned == count) .inventoryIncomplete
  accept (← ask Call.commit)
  return s

/-! ## Candidates -/

/-- The state of the loop over the cleaned releases. -/
structure Choosing where
  candidates : List ImageCandidate
  protectedIds : List ExactImageId
  observations : List ImageCandidate
  cache : List (ExactImageId × Option CleanupImage)
  deriving DecidableEq, Repr

def cachedInspect (cache : List (ExactImageId × Option CleanupImage)) (id : ExactImageId) :
    Planner (Option CleanupImage × List (ExactImageId × Option CleanupImage)) := do
  match cache.lookup id with
  | some value => return (value, cache)
  | none =>
    let value ← Prog.orElse (← ask (Call.inspect id)) fun _ => .inventoryIncomplete
    return (value, (id, value) :: cache)

/-- The image of a record, looked for by its configuration and then by its manifest. -/
def inspectRecord (cache : List (ExactImageId × Option CleanupImage)) (r : CleanedReleaseRecord) :
    Planner (Option CleanupImage × List (ExactImageId × Option CleanupImage)) := do
  let requested ← accept (exactImageId r.localImageId)
  let (observed, cache) ← cachedInspect cache requested
  if observed.isNone && r.manifestDigest != r.localImageId then
    let manifest ← accept (exactImageId r.manifestDigest)
    cachedInspect cache manifest
  else return (observed, cache)

/-- One of the records is of the same image. -/
def overlapsAny (r : CleanedReleaseRecord) :
    List CleanedReleaseRecord → Except CleanupError Bool
  | [] => .ok false
  | other :: rest => do
    let here ← overlaps r other
    let there ← overlapsAny r rest
    return here || there

def isProtected (r : CleanedReleaseRecord) (id : String) (references : List String)
    (retained : List CleanedReleaseRecord) : Except CleanupError Bool := do
  let expected ← identity r
  let used := references.any fun value => expected.matchesEngineImageId (some value) || value == id
  let kept ← overlapsAny r retained
  return used || kept

variable {value : String} {i : ImageIdentity}

theorem exactImageId_ok {id : ExactImageId} (h : exactImageId value = .ok id) :
    id.value = value := by
  unfold exactImageId ExactImageId.parse at h
  split at h
  · cases h
    rfl
  · cases h

theorem incomplete_ok {x : Except ε α} {a : α} (h : incomplete x = .ok a) : x = .ok a := by
  cases x with
  | ok b => exact congrArg Except.ok (Except.ok.inj h)
  | error err => cases h

theorem required_ok {x : Option α} {a : α} (h : required x = .ok a) : x = some a := by
  cases x with
  | some b => exact congrArg some (Except.ok.inj h)
  | none => cases h

theorem isDigest_of_validate {u : Unit} (h : validateDigest value = .ok u) :
    isDigest value = true := by
  unfold isDigest
  rw [h]

theorem new_ok {manifest config : String} {platform : Platform}
    (h : ImageIdentity.new manifest config platform = .ok i) :
    i.manifestDigest = manifest ∧ i.configDigest = config ∧ isDigest manifest = true
      ∧ isDigest config = true := by
  obtain ⟨_, hmanifest, h⟩ := bind_eq_ok.mp h
  obtain ⟨_, hconfig, h⟩ := bind_eq_ok.mp h
  obtain ⟨platform, -, h⟩ := bind_eq_ok.mp h
  cases h
  exact ⟨rfl, rfl, isDigest_of_validate hmanifest, isDigest_of_validate hconfig⟩

variable {r : CleanedReleaseRecord} {found : CleanupImage}

theorem identity_ok (h : identity r = .ok i) :
    i.manifestDigest = r.manifestDigest ∧ i.configDigest = r.localImageId
      ∧ isDigest r.manifestDigest = true ∧ isDigest r.localImageId = true := by
  obtain ⟨platform, -, h⟩ := bind_eq_ok.mp h
  exact new_ok (incomplete_ok h)

theorem engine_of_matches (h : i.matchesEngineImageId (some value) = true) :
    isDigest value = true ∧ (value = i.configDigest ∨ value = i.manifestDigest) := by
  have h : (isDigest value &&
      (decide (value = i.configDigest) || decide (value = i.manifestDigest)))
      = true := h
  simpa only [Bool.and_eq_true, Bool.or_eq_true, decide_eq_true_eq] using h

theorem matchesInspect_identity (h : matchesInspect r found = .ok true) :
    ∃ i, identity r = .ok i ∧ found.isIndex = false
      ∧ i.matchesObservation (some found.image.id) found.image.manifestDescriptor = true := by
  unfold matchesInspect at h
  split at h
  · cases h
  next hplain =>
    obtain ⟨_, -, h⟩ := bind_eq_ok.mp h
    obtain ⟨platform, -, h⟩ := bind_eq_ok.mp h
    obtain ⟨expected, -, h⟩ := bind_eq_ok.mp h
    obtain ⟨i, hidentity, h⟩ := bind_eq_ok.mp h
    have hall := pure_eq_ok.mp h
    simp only [Bool.and_eq_true] at hall
    exact ⟨i, hidentity, by simpa using hplain, hall.1.2⟩

theorem known_of_matches (h : matchesInspect r found = .ok true) : isDigest found.image.id = true
      ∧ (found.image.id = r.localImageId ∨ found.image.id = r.manifestDigest) := by
  obtain ⟨i, hidentity, -, hobservation⟩ := matchesInspect_identity h
  simp only [ImageIdentity.matchesObservation, Bool.and_eq_true] at hobservation
  obtain ⟨hdigest, hknown⟩ := engine_of_matches hobservation.1
  rw [(identity_ok hidentity).1, (identity_ok hidentity).2.1] at hknown
  exact ⟨hdigest, hknown⟩

/-- The candidate for a record whose image was found. -/
def candidateOf (r : CleanedReleaseRecord) (observed : CleanupImage)
    (h : matchesInspect r observed = .ok true) : ImageCandidate where
  imageId := ⟨observed.image.id, (known_of_matches h).1⟩
  identity := r
  reportedSizeBytes := observed.reportedSizeBytes
  repoDigests := observed.image.repoDigests
  repoTags := observed.repoTags
  known := (known_of_matches h).2

/-- `BTreeMap::insert`. -/
def observe (observations : List ImageCandidate) (candidate : ImageCandidate) :
    List ImageCandidate :=
  candidate :: observations.filter fun other => other.imageId != candidate.imageId

/-- `candidates.entry(id).or_insert(candidate)`. -/
def orInsert (candidates : List ImageCandidate) (candidate : ImageCandidate) :
    List ImageCandidate :=
  if candidates.any fun other => other.imageId == candidate.imageId then candidates
  else candidates ++ [candidate]

/-- One cleaned release. -/
def considerRecord (references : List String) (retained : List CleanedReleaseRecord)
    (s : Choosing) (r : CleanedReleaseRecord) : Planner Choosing := do
  let _ ← accept (identity r)
  let (observed, cache) ← inspectRecord s.cache r
  match observed with
  | none => return { s with cache }
  | some observed =>
    match h : matchesInspect r observed with
    | .ok true =>
      let candidate := candidateOf r observed h
      let observations := observe s.observations candidate
      let inUse ← accept (isProtected r observed.image.id references retained)
      if inUse then
        return { s with
          protectedIds := s.protectedIds.insert candidate.imageId, observations, cache }
      else
        return { s with candidates := orInsert s.candidates candidate, observations, cache }
    | _ => Prog.stop .inventoryIncomplete

def considerRecords (references : List String) (retained : List CleanedReleaseRecord) :
    Choosing → List CleanedReleaseRecord → Planner Choosing
  | s, [] => return s
  | s, r :: rest => do
    let s ← considerRecord references retained s r
    considerRecords references retained s rest

/-! ## The plan -/

/-- The order of the image ids. -/
def byImageId (candidates : List ImageCandidate) : List ImageCandidate :=
  candidates.mergeSort fun a b => decide (a.imageId.value ≤ b.imageId.value)

/-- The last attempt at an image under the policy; the attempt that is resumed reserves its
images. -/
def lastAttempt (attempts : List FormerAttempt) (id : ExactImageId) : Option (Instant × Uuid) :=
  (attempts.filter fun a => a.imageId == id).foldl (fun latest a =>
    match latest with
    | none => some (a.createdAt, a.operation)
    | some (last, op) =>
      if last < a.createdAt || (last == a.createdAt && op < a.operation) then
        some (a.createdAt, a.operation)
      else latest) none

/-- Reserved images first, then those tried longest ago, then by id. -/
def fairOrder (resuming : Option Uuid) (attempts : List FormerAttempt) (a b : ImageCandidate) :
    Bool :=
  let reserved := fun (c : ImageCandidate) =>
    attempts.any fun f => f.imageId == c.imageId && resuming == some f.operation
  let others := attempts.filter fun f => resuming != some f.operation
  if reserved a != reserved b then reserved a
  else
    match lastAttempt others a.imageId, lastAttempt others b.imageId with
    | none, none => decide (a.imageId.value ≤ b.imageId.value)
    | none, some _ => true
    | some _, none => false
    | some x, some y =>
      if x = y then decide (a.imageId.value ≤ b.imageId.value)
      else x.1 < y.1 || (x.1 == y.1 && x.2 < y.2)

/-- The first hundred candidates, in the order of the schedule. -/
def schedule (resuming automaticApp : Option Uuid) (candidates : List ImageCandidate) :
    Planner (List ImageCandidate) := do
  match automaticApp with
  | none => return byImageId (candidates.take maxCleanupItems)
  | some app =>
    let attempts ← accept (← ask (Call.formerAttempts app))
    return byImageId ((candidates.mergeSort (fairOrder resuming attempts)).take maxCleanupItems)

/-- The items of the other cleanups that have not finished. -/
def otherItems (resuming : Option Uuid) (operations : List ImageOperation) :
    List CleanedReleaseRecord :=
  (operations.filter fun o => resuming != some o.id).flatMap fun o => o.plan.map (·.identity)

/-- The identity facts of the containers, by id. -/
def containerFacts (containers : List ContainerRecord) :
    List (String × Option String × Option String) :=
  (containers.map fun c => (c.id, c.imageId, c.manifestDescriptor.bind (·.digest))).mergeSort
    fun a b => decide (a.1 ≤ b.1)

def buildScopedPlan (resuming automaticApp : Option Uuid) : Planner ImagePlan := do
  accept (← ask Call.validateOperations)
  let inventory ← accept (← ask Call.imageProtectionInventory)
  let tombstones ← accept (← ask Call.cleanupTombstones)
  let operations ← accept (← ask Call.unfinishedOperations)
  let buried ← accept (← ask Call.tombstoneReleases)
  let scan ← scanCleaned tombstones automaticApp
    (inventory.releases ++ otherItems resuming operations ++ buried)
  let (containers, references) ← listContainers
  let chosen ← considerRecords references scan.retained ⟨[], [], [], []⟩ scan.cleaned
  let candidates ← schedule resuming automaticApp
    (byImageId (chosen.candidates.filter fun c => !chosen.protectedIds.contains c.imageId))
  return {
    candidates
    protectedCount := chosen.protectedIds.length
    facts := ⟨inventory.plan, scan.cleaned, scan.retained, containerFacts containers,
      byImageId chosen.observations⟩ }

def buildPlanForOperation (resuming : Option Uuid) : Planner ImagePlan :=
  buildScopedPlan resuming none

def buildPlan : Planner ImagePlan := buildPlanForOperation none

end SoloDock.Images
